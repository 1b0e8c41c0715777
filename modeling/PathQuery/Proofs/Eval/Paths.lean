import PathQuery.Proofs.Eval.Strictness

/-!
# Paths

A path drops repeated nodes after every step and, in a recursive descent, on the way. It selects
what its steps select from each item by itself, with repeats dropped once at the end.
-/

namespace PathQuery

/-- Whether a step looks at one item after the other: no call, and no recursive wildcard, at any
depth of recursive descent. -/
def Segment.isItemwise : Segment → Bool
  | .call _ _ | .recursiveWildcard => false
  | .recursive inner => inner.isItemwise
  | _ => true

/-! ### Tests with every node known -/

section

open EvalM

variable {d : Json.Document} {env : Env} (henv : env.backend = Json.backend d)
  {registry : Registry}

include henv

/-- A steady test gives in a context that knows every node what it gives in any other. -/
theorem Term.resultOn_eq {test : Term} {x : Item} {out : List Item → Option Nat → List Item}
    (htest : Gives d (test.eval env registry [x]) [x] id out)
    (hx : ∀ a, x = .node a → (d.value.at? a).isSome = true) (found : List Item) (i : Nat) :
    test.resultOn env registry found i x = out found (some i) := by
  obtain ⟨hextends, _⟩ := Context.extends_informed d found (some i)
  have hknown : (Context.informed (Json.backend d) found (some i)).KnowsAll [x] :=
    fun a ha => Context.knows_informed (hx a (List.mem_singleton.mp ha).symm) found (some i)
  obtain ⟨c', hrun, _⟩ := htest _ hextends.truthful hknown
  rw [hextends.items, hextends.index] at hrun
  rw [resultOn, henv, hrun]

theorem exists_of_mem_candidates {x : Item} (hx : ∀ a, x = .node a → (d.value.at? a).isSome = true)
    {a : Address} (ha : .node a ∈ x.candidates env.backend) : (d.value.at? a).isSome = true := by
  cases x with
  | scalar v => simp [Item.candidates] at ha
  | node e =>
    simp only [Item.candidates] at ha
    split at ha
    · obtain ⟨c, hc, heq⟩ := List.mem_map.mp ha
      obtain rfl := Item.node.inj heq
      rw [henv] at hc
      obtain ⟨i, _, hsome⟩ := Json.mem_below_backend.mp hc
      exact hsome
    · obtain rfl := Item.node.inj (List.mem_singleton.mp ha)
      exact hx a rfl

end

theorem Step.kept_congr {env : Env} {positional : Bool} {r r' : Nat → Item → List Item}
    {found : List Item} (h : ∀ i, ∀ x ∈ found, r i x = r' i x) :
    kept env positional r found = kept env positional r' found := by
  unfold kept
  congr 1
  apply List.filter_congr
  intro p hp
  rw [h p.2 p.1 ((List.mem_zipIdx' hp).2 ▸ List.getElem_mem _)]

/-! ### Nodes lead to nodes -/

theorem Step.mem_of_mem_kept {env : Env} {positional : Bool} {r : Nat → Item → List Item}
    {found : List Item} {x : Item} (h : x ∈ kept env positional r found) : x ∈ found := by
  obtain ⟨p, hp, rfl⟩ := List.mem_map.mp h
  exact (List.mem_zipIdx' (List.mem_of_mem_filter hp)).2 ▸ List.getElem_mem _

theorem Item.node?_of_mem_candidates {b : Backend} {a : Address} {y : Item}
    (h : y ∈ (Item.node a).candidates b) : y.node?.isSome = true := by
  simp only [candidates] at h
  split at h
  · obtain ⟨c, _, rfl⟩ := List.mem_map.mp h
    rfl
  · rw [List.mem_singleton.mp h]
    rfl

theorem Segment.selects_keepsNodes (env : Env) (registry : Registry) (s : Segment) :
    Item.KeepsNodes (s.selects env registry) := by
  intro a y hy
  cases s with
  | filter test => exact Item.node?_of_mem_candidates (Step.mem_of_mem_kept hy)
  | predicate test => exact Item.node?_of_mem_candidates (Step.mem_of_mem_kept hy)
  | recursive inner =>
    obtain ⟨c, _, hc⟩ := List.mem_flatMap.mp hy
    exact inner.selects_keepsNodes env registry c y hc
  | _ =>
    obtain ⟨c, _, rfl⟩ := List.mem_map.mp hy
    rfl

theorem selectsInTurn_keepsNodes (env : Env) (registry : Registry) (ss : List Segment) :
    Item.KeepsNodes (selectsInTurn env registry ss) := by
  induction ss with
  | nil =>
    intro a y hy
    rw [List.mem_singleton.mp hy]
    rfl
  | cons s ss ih =>
    intro a y hy
    obtain ⟨x, hx, hy⟩ := List.mem_flatMap.mp hy
    obtain ⟨c, hc⟩ := Option.isSome_iff_exists.mp (s.selects_keepsNodes env registry a x hx)
    cases x with
    | scalar v => cases hc
    | node e => exact ih e y hy

/-! ### One step -/

theorem Item.flatMap_filterMap_node? (f : Address → List Item) (items : List Item) :
    (items.filterMap node?).flatMap f =
      items.flatMap fun x => match x with
        | .node a => f a
        | .scalar _ => [] := by
  induction items with
  | nil => rfl
  | cons x items ih =>
    cases x with
    | scalar v => rw [List.filterMap_cons_none rfl, ih, List.flatMap_cons, List.nil_append]
    | node a =>
      show (a :: items.filterMap node?).flatMap f = _
      rw [List.flatMap_cons, ih, List.flatMap_cons]

theorem Backend.map_node_firstVisits (vs : List Visit) :
    (firstVisits vs).map (fun v => Item.node v.node) =
      Item.withoutRepeats (vs.map fun v => .node v.node) := by
  induction vs with
  | nil => rfl
  | cons v vs ih =>
    rw [firstVisits, List.map_cons, List.map_cons, Item.withoutRepeats, ← ih, List.filter_map]
    congr 2
    apply List.filter_congr
    intro w _
    simp [Item.differs, eq_comm]

theorem Backend.walked_eq (b : Backend) (nodes : List Address) :
    ((b.walk ∅ (starts nodes)).filter fun v => true || !v.isStart).map (fun v => Item.node v.node) =
      Item.withoutRepeats (nodes.flatMap fun a => (b.listing a).map .node) := by
  have hnodes : ((starts nodes).flatMap b.visits).map (fun v => Item.node v.node) =
      nodes.flatMap fun a => (b.listing a).map .node := by
    rw [List.map_flatMap, starts, List.flatMap_map]
    congr 1
    funext a
    rw [← map_node_visits b ⟨a, true⟩, List.map_map]
    rfl
  simp only [Bool.true_or, List.filter_true]
  rw [walk_eq, map_node_firstVisits, hnodes]

section

open EvalM

variable {d : Json.Document} {env : Env}

/-- A filter keeps, item by item, the candidates that pass the test with every node known. -/
theorem gives_filter (henv : env.backend = Json.backend d)
    (hlenient : env.settings.strict = false) {test : Term}
    (htest : test.Resolves Registry.builtins) (positional : Bool) (items : List Item) :
    Gives d (Step.filterAll env positional
        (fun here => test.eval env Registry.builtins here) items) items id fun _ _ =>
      items.flatMap fun x =>
        Step.kept env positional
          (test.resultOn env Registry.builtins (x.candidates env.backend))
          (x.candidates env.backend) := by
  choose out hout using fun x : Item =>
    (test.eval_steady henv (Registry.builtins_isSteady henv) [x]).gives
      (test.eval_total hlenient htest [x])
  refine (Step.gives_filterAll hout henv positional items).congr ?_
  intro c hc hitems
  apply List.flatMap_congr
  intro x hx
  apply Step.kept_congr
  intro i y hy
  refine (Term.resultOn_eq henv (hout y) ?_ _ i).symm
  rintro a rfl
  refine exists_of_mem_candidates henv ?_ hy
  rintro e rfl
  exact hc.exists_of_knows (hitems e hx)

/-- What a step selects from a list is what it selects item by item, repeats dropped. -/
theorem gives_step (henv : env.backend = Json.backend d)
    (hlenient : env.settings.strict = false) (s : Segment) (hs : s.isItemwise = true)
    (hresolves : s.Resolves Registry.builtins) (items : List Item) :
    Gives d (s.step env Registry.builtins items) items id fun _ _ =>
      Item.withoutRepeats (items.flatMap (s.selects env Registry.builtins)) := by
  have hdistinct : ∀ {m : EvalM (List Item)} {found : List Item},
      Gives d m items id (fun _ _ => found) →
      Gives d (m >>= EvalM.distinct) items id fun _ _ => Item.withoutRepeats found :=
    fun hm => hm.andThen ((Gives.distinct _).mono (List.subset_append_right _ _))
  cases s with
  | call name args => cases hs
  | recursiveWildcard => cases hs
  | filter test =>
    rw [Segment.step]
    exact hdistinct (gives_filter henv hlenient hresolves false items)
  | predicate test =>
    rw [Segment.step]
    exact hdistinct (gives_filter henv hlenient hresolves true items)
  | recursive inner =>
    rw [Segment.step]
    have hdescend := Step.gives_descend henv true items
    rw [Backend.walked_eq] at hdescend
    have hinner := hdescend.andThen ((gives_step henv hlenient inner hs hresolves _).mono
      (List.subset_append_right _ _))
    refine (hdistinct hinner).congr fun c _ _ => ?_
    -- repeats are dropped among the nodes, by the inner segment and at the end: the end is enough
    rw [Item.withoutRepeats_idem,
      Item.withoutRepeats_flatMap (inner.selects_keepsNodes env Registry.builtins),
      List.flatMap_assoc, Item.flatMap_filterMap_node?]
    congr 2
    funext x
    cases x with
    | scalar v => rfl
    | node a => exact List.flatMap_map _ _ _
  | _ =>
    rw [Segment.step]
    · refine (hdistinct (Step.gives_selectAll henv _ items)).congr fun c _ _ => ?_
      rw [Item.flatMap_filterMap_node?]
      congr 2
      funext x
      cases x <;> rfl
    all_goals
      intros
      rename_i heq
      cases heq

/-! ### Steps in turn -/

theorem gives_evalSegments (henv : env.backend = Json.backend d)
    (hlenient : env.settings.strict = false) {ss : List Segment} (hne : ss ≠ [])
    (hitemwise : ∀ s ∈ ss, s.isItemwise = true)
    (hresolves : segmentsResolve Registry.builtins ss) (items : List Item) :
    Gives d (evalSegments env Registry.builtins ss items) items id fun _ _ =>
      Item.withoutRepeats (items.flatMap (selectsInTurn env Registry.builtins ss)) := by
  induction ss generalizing items with
  | nil => exact absurd rfl hne
  | cons s ss ih =>
    rw [evalSegments]
    cases items with
    | nil => exact .pure fun c hc => hc
    | cons x items =>
      have hstep := gives_step henv hlenient s (hitemwise s List.mem_cons_self) hresolves.1
        (x :: items)
      refine hstep.andThen (Gives.mono ?_ (List.subset_append_right _ _))
      cases ss with
      | nil =>
        rw [evalSegments]
        refine (Gives.pure fun c hc => hc).congr fun c _ _ => ?_
        simp only [selectsInTurn, List.flatMap_singleton']
      | cons s' ss =>
        have hrest := ih (List.cons_ne_nil _ _)
          (fun t ht => hitemwise t (List.mem_cons_of_mem _ ht)) hresolves.2
          (Item.withoutRepeats ((x :: items).flatMap (s.selects env Registry.builtins)))
        rw [Item.withoutRepeats_flatMap (selectsInTurn_keepsNodes env _ _),
          List.flatMap_assoc] at hrest
        exact hrest

end

/-- A path of item by item steps selects what its steps select from each item by itself, one after
the other, with repeated nodes dropped at the end. -/
theorem evalSegments_selectsInTurn (d : Json.Document) (settings : Settings) (traced : Bool)
    (hlenient : settings.strict = false) {ss : List Segment} (hne : ss ≠ [])
    (hitemwise : ∀ s ∈ ss, s.isItemwise = true)
    (hresolves : segmentsResolve Registry.builtins ss) {c : Context} (hc : c.Truthful d)
    {items : List Item} (hitems : c.KnowsAll items) :
    ((evalSegments ⟨Json.backend d, settings, traced⟩ Registry.builtins ss items).runFrom c).1 =
      .ok (Item.withoutRepeats (items.flatMap
        (selectsInTurn ⟨Json.backend d, settings, traced⟩ Registry.builtins ss))) := by
  let env : Env := ⟨Json.backend d, settings, traced⟩
  have henv : env.backend = Json.backend d := rfl
  obtain ⟨c', hrun, _⟩ := gives_evalSegments henv hlenient hne hitemwise hresolves items c hc hitems
  rw [hrun]

/-- Below a list asked for twice, the last elements of lists and what is in none, as far as they are
true. -/
theorem evalSegments_selectsInTurn_lastTrue :
    let d : Json.Document :=
      ⟨.array [.array [.bool true, .null], .array [.null, .bool true], .bool true], by
        simp [Json.Ordered, Json.OrderedItems]⟩
    let last : Term := .binary .sub (.literal (.int 0)) (.literal (.int 1))
    let ss : List Segment := [.recursive .anyIndex, .predicate last, .filter (.path .current [])]
    let items : List Item := [.node [], .scalar .null, .node []]
    Settings.default.strict = false ∧ ss ≠ [] ∧ (∀ s ∈ ss, s.isItemwise = true) ∧
      segmentsResolve Registry.builtins ss ∧ Context.initial.Truthful d ∧
      Context.initial.KnowsAll items ∧
      ((evalSegments ⟨Json.backend d, .default, false⟩ Registry.builtins ss items).runFrom
        .initial).1 = .ok [.node [1, 1], .node [2], .node [0, 0]] := by
  intro d last ss items
  have hlenient : Settings.default.strict = false := rfl
  have hne : ss ≠ [] := List.cons_ne_nil _ _
  have hitemwise : ∀ s ∈ ss, s.isItemwise = true := by simp [ss, Segment.isItemwise]
  have hresolves : segmentsResolve Registry.builtins ss := by
    simp [ss, last, segmentsResolve, Segment.Resolves, Term.Resolves, Start.Resolves]
  have hknown : Context.initial.KnowsAll items := by
    intro a ha
    left
    simpa [items] using ha
  refine ⟨hlenient, hne, hitemwise, hresolves, Context.truthful_initial, hknown, ?_⟩
  rw [evalSegments_selectsInTurn d .default false hlenient hne hitemwise hresolves
    Context.truthful_initial hknown]
  decide +kernel

end PathQuery
