import PathQuery.Proofs.Eval.Descent
import PathQuery.Proofs.Eval.Steady

/-!
# What steps select

What a step selects from one item by itself, without a word on repeats: `Segment.selects`. The small
computations that steps are made of come down to it. Tests are run in a context that knows every
node of the tree; that a step runs them in one that knows only what it has met makes no difference.
-/

namespace PathQuery

/-! ### Items by themselves -/

def Item.candidates (b : Backend) : Item → List Item
  | .node a => if b.kind a = .list then (b.below a).map .node else [.node a]
  | .scalar v => [.scalar v]

/-- The candidates that are kept, given the result of the test on the one at each position. -/
def Step.kept (env : Env) (positional : Bool) (result : Nat → Item → List Item)
    (found : List Item) : List Item :=
  (found.zipIdx.filter fun p => keeps env positional found.length p.2 (result p.2 p.1)).map Prod.fst

/-- A context that hands out the children of all nodes of a walk. -/
def Context.informedOf (b : Backend) (visits : List Visit) (c : Context) : Context :=
  visits.foldl (fun c v => c.record v.node (b.get v.node .wildcard)) c

/-- The context with a list and an index in force that has handed out every node of the tree. -/
def Context.informed (b : Backend) (items : List Item) (index : Option Nat) : Context :=
  informedOf b (b.walk ∅ (Backend.starts [[]])) { initial with items := items, index := index }

def Term.resultOn (env : Env) (registry : Registry) (test : Term) (found : List Item) (i : Nat)
    (x : Item) : List Item :=
  match ((test.eval env registry [x]).runFrom (.informed env.backend found (some i))).1 with
  | .ok result => result
  | .error _ => []

def Segment.childrenOf (b : Backend) (s : Segment) (a : Address) : List Address :=
  match s with
  | .child name => (b.get a (.name name)).map Prod.fst
  | .index i => (b.get a (.index i)).map Prod.fst
  | .wildcard => b.below a
  | .anyIndex => if b.kind a = .list then b.below a else []
  | .slice first stop step =>
    if b.kind a = .list then PathQuery.slice (b.below a) first stop step else []
  | _ => []

/-- What a step selects from one item, repeats included. A computed value is its own candidate where
there is a test, and nothing is selected from it otherwise. -/
def Segment.selects (env : Env) (registry : Registry) (s : Segment) (x : Item) : List Item :=
  match s, x with
  | .filter test, x =>
    Step.kept env false (test.resultOn env registry (x.candidates env.backend))
      (x.candidates env.backend)
  | .predicate test, x =>
    Step.kept env true (test.resultOn env registry (x.candidates env.backend))
      (x.candidates env.backend)
  | .recursive inner, .node a =>
    (env.backend.listing a).flatMap fun c => inner.selects env registry (.node c)
  | s, .node a => (s.childrenOf env.backend a).map .node
  | _, .scalar _ => []

/-- What steps in turn select from one item, repeats included. -/
def selectsInTurn (env : Env) (registry : Registry) : List Segment → Item → List Item
  | [], x => [x]
  | s :: ss, x => (s.selects env registry x).flatMap (selectsInTurn env registry ss)

theorem Item.mem_filterMap_node? {items : List Item} {a : Address} :
    a ∈ items.filterMap Item.node? ↔ .node a ∈ items := by
  rw [List.mem_filterMap]
  constructor
  · rintro ⟨x, hx, hnode⟩
    cases x with
    | scalar v => cases hnode
    | node e => exact Option.some.inj hnode ▸ hx
  · intro h
    exact ⟨_, h, rfl⟩

theorem mem_of_mem_slice {α : Type} {xs : List α} {first stop step : Option Int64} {x : α}
    (h : x ∈ slice xs first stop step) : x ∈ xs := by
  obtain ⟨i, _, hx⟩ := List.mem_filterMap.mp h
  simpa using Array.mem_of_getElem? hx

/-! ### Handing out everything -/

namespace Context

variable {d : Json.Document} {c : Context}

theorem extends_informedOf (hc : c.Truthful d) (seen : AddressSet) {stack : List Visit}
    (hstack : ∀ v ∈ stack, c.Knows v.node) :
    c.Extends d (informedOf (Json.backend d) ((Json.backend d).walk seen stack) c) ∧
      ∀ v ∈ (Json.backend d).walk seen stack,
        (informedOf (Json.backend d) ((Json.backend d).walk seen stack) c).Knows v.node := by
  induction seen, stack using Backend.walk.induct (Json.backend d) generalizing c with
  | case1 seen =>
    rw [Backend.walk]
    exact ⟨.refl hc, fun v hv => absurd hv List.not_mem_nil⟩
  | case2 seen v rest hv ih =>
    rw [Backend.walk, if_pos hv]
    exact ih hc fun w hw => hstack w (List.mem_cons_of_mem _ hw)
  | case3 seen v rest hv ih =>
    have hknown := hstack v List.mem_cons_self
    have hfound : ∀ f ∈ d.value.getAt v.node .wildcard,
        d.value.link? f.1 = some ⟨v.node, f.2⟩ := fun f hf => Json.link?_of_mem_getAt hf
    obtain ⟨hrecord, hchildren⟩ := extends_record hc hknown hfound
    obtain ⟨hrest, hvisited⟩ := ih hrecord.truthful fun w hw => by
      rcases List.mem_append.mp hw with hw | hw
      · obtain ⟨f, hf, rfl⟩ := List.mem_map.mp hw
        exact hchildren f hf
      · exact hrecord.knows _ (hstack w (List.mem_cons_of_mem _ hw))
    rw [Backend.walk, if_neg hv]
    refine ⟨hrecord.trans hrest, ?_⟩
    intro w hw
    rcases List.mem_cons.mp hw with rfl | hw
    · exact hrest.knows _ (hrecord.knows _ hknown)
    · exact hvisited w hw

theorem Truthful.exists_of_knows (hc : c.Truthful d) {a : Address} (ha : c.Knows a) :
    (d.value.at? a).isSome = true := by
  rcases ha with rfl | ha
  · rfl
  · obtain ⟨l, hl⟩ := Option.isSome_iff_exists.mp (Std.TreeMap.mem_iff_isSome_getElem?.mp ha)
    exact Json.exists_of_link? (hc.link a l hl)

theorem extends_informed (d : Json.Document) (items : List Item) (index : Option Nat) :
    Extends d { initial with items := items, index := index }
        (informed (Json.backend d) items index) ∧
      ∀ v ∈ (Json.backend d).walk ∅ (Backend.starts [[]]),
        (informed (Json.backend d) items index).Knows v.node := by
  have hroot : Truthful { initial with items := items, index := index } d := by
    obtain ⟨hlink, hparent⟩ := truthful_initial (d := d)
    exact ⟨hlink, hparent⟩
  apply extends_informedOf hroot ∅
  intro v hv
  rw [List.mem_singleton.mp hv]
  exact .inl rfl

theorem knows_informed {a : Address} (ha : (d.value.at? a).isSome = true) (items : List Item)
    (index : Option Nat) : (informed (Json.backend d) items index).Knows a := by
  have hlisted : a ∈ (Json.backend d).listing [] := by
    rw [Json.mem_listing_backend]
    by_cases hroot : a = []
    · exact .inl hroot
    · exact .inr ⟨List.nil_prefix, Ne.symm hroot, ha⟩
  rw [← Backend.map_node_visits _ ⟨[], true⟩] at hlisted
  obtain ⟨v, hv, rfl⟩ := List.mem_map.mp hlisted
  obtain ⟨w, hw, hnode⟩ := Backend.exists_mem_firstVisits hv
  rw [← hnode]
  apply (extends_informed d items index).2
  rw [Backend.walk_eq, Backend.starts, List.map_singleton, List.flatMap_singleton]
  exact hw

end Context

/-! ### Steps on items one by one -/

namespace Step

open EvalM

section

variable {d : Json.Document} {env : Env} (henv : env.backend = Json.backend d)
  {needs : List Item}

include henv

theorem gives_select {s : Segment} {a : Address} (ha : .node a ∈ needs) :
    Gives d (select env s a) needs (List.map .node) fun _ _ => s.childrenOf env.backend a := by
  cases s with
  | child name => exact .children henv ha _
  | index i => exact .children henv ha _
  | wildcard => exact .children henv ha _
  | anyIndex =>
    simp only [select, Segment.childrenOf]
    split
    · exact .children henv ha _
    · exact .pure fun c _ e he => absurd he List.not_mem_nil
  | slice first stop step =>
    simp only [select, Segment.childrenOf]
    split
    · refine (Gives.children henv ha _).andThen (.pure ?_)
      intro c hc e he
      obtain ⟨x, hx, heq⟩ := List.mem_map.mp he
      apply hc e
      exact heq ▸ List.mem_append_right _ (List.mem_map_of_mem (mem_of_mem_slice hx))
    · exact .pure fun c _ e he => absurd he List.not_mem_nil
  | _ => exact .pure fun c _ e he => absurd he List.not_mem_nil

theorem gives_selectAll (s : Segment) (items : List Item) :
    Gives d (selectAll env s items) items id fun _ _ =>
      (items.filterMap Item.node?).flatMap fun a => (s.childrenOf env.backend a).map .node := by
  apply Gives.collect
  intro a ha
  refine (gives_select henv (Item.mem_filterMap_node?.mp ha)).andThen (.pure ?_)
  exact fun c hc e he => hc e (List.mem_append_right _ he)

theorem gives_candidates {x : Item} (hx : x ∈ needs) :
    Gives d (candidates env x) needs id fun _ _ => x.candidates env.backend := by
  cases x with
  | scalar v => exact .pure fun c _ e he => by simp at he
  | node a =>
    simp only [candidates, Item.candidates]
    split
    · refine (Gives.children henv hx _).andThen (.pure ?_)
      exact fun c hc e he => hc e (List.mem_append_right _ he)
    · refine .pure fun c hc e he => hc e ?_
      rw [List.mem_singleton.mp he]
      exact hx

theorem gives_descend (includeSelf : Bool) (items : List Item) :
    Gives d (descend env includeSelf items) items id fun _ _ =>
      ((env.backend.walk ∅ (Backend.starts (items.filterMap Item.node?))).filter
        fun v => includeSelf || !v.isStart).map fun v => .node v.node := by
  intro c hc hitems
  have hstarts : ∀ v ∈ Backend.starts (items.filterMap Item.node?), c.Knows v.node := by
    intro v hv
    obtain ⟨a, ha, rfl⟩ := List.mem_map.mp hv
    exact hitems a (Item.mem_filterMap_node?.mp ha)
  obtain ⟨hextends, hknown⟩ := Context.extends_informedOf hc ∅ hstarts
  refine ⟨_, rfl, henv ▸ hextends, ?_⟩
  intro a ha
  obtain ⟨v, hv, heq⟩ := List.mem_map.mp ha
  obtain rfl := Item.node.inj heq
  rw [henv] at hv ⊢
  exact hknown v (List.mem_of_mem_filter hv)

end

/-! ### Tests -/

/-- The candidates from position `i` on that are kept, given the outcome of the test on the one at each
position. The first failure of a test is that of the whole. -/
def keptFrom (env : Env) (positional : Bool) (length : Nat)
    (outcome : Nat → Item → Except EvalError (List Item)) :
    Nat → List Item → Except EvalError (List Item)
  | _, [] => .ok []
  | i, x :: found => do
    let result ← outcome i x
    let rest ← keptFrom env positional length outcome (i + 1) found
    return if keeps env positional length i result then x :: rest else rest

theorem keptFrom_ok (env : Env) (positional : Bool) (length i : Nat)
    (result : Nat → Item → List Item) (found : List Item) :
    keptFrom env positional length (fun i x => .ok (result i x)) i found =
      .ok (((found.zipIdx i).filter fun p =>
        keeps env positional length p.2 (result p.2 p.1)).map Prod.fst) := by
  induction found generalizing i with
  | nil => rfl
  | cons x found ih =>
    rw [keptFrom, ih, List.zipIdx_cons, List.filter_cons]
    change Except.ok (if keeps env positional length i (result i x) = true then _ else _) = _
    split
    · rfl
    · rfl

theorem subset_of_keptFrom {env : Env} {positional : Bool} {length i : Nat}
    {outcome : Nat → Item → Except EvalError (List Item)} {found kept : List Item}
    (h : keptFrom env positional length outcome i found = .ok kept) : kept ⊆ found := by
  induction found generalizing i kept with
  | nil =>
    cases h
    exact List.nil_subset _
  | cons x found ih =>
    rw [keptFrom] at h
    cases hresult : outcome i x with
    | error e =>
      rw [hresult] at h
      cases h
    | ok result =>
      cases hrest : keptFrom env positional length outcome (i + 1) found with
      | error e =>
        rw [hresult, hrest] at h
        cases h
      | ok rest =>
        rw [hresult, hrest] at h
        obtain rfl := Except.ok.inj h
        have hsubset := ih hrest
        split
        · exact List.cons_subset_cons x hsubset
        · exact List.subset_cons_of_subset x hsubset

section

variable {d : Json.Document} {env : Env} {test : List Item → EvalM (List Item)}

section

variable {out : Item → List Item → Option Nat → Except EvalError (List Item)}
  (htest : ∀ x, Ends d (test [x]) [x] id (out x))

include htest

/-- The index is left at the last candidate that is tried; the rest of the context is extended. -/
theorem runFrom_keepFrom (env : Env) (positional : Bool) (length i : Nat) (found : List Item)
    {c : Context} (hc : c.Truthful d) (hfound : c.KnowsAll found) :
    ∃ c' index, (keepFrom env positional length test i found).runFrom c =
        (keptFrom env positional length (fun i x => out x c.items (some i)) i found, c') ∧
      Context.Extends d { c with index := index } c' := by
  induction found generalizing i c with
  | nil => exact ⟨c, c.index, rfl, .refl hc⟩
  | cons x found ih =>
    have hset : Context.Truthful { c with index := some i } d := ⟨hc.link, hc.parent⟩
    obtain ⟨c₁, hrun, hextends, _⟩ := htest x { c with index := some i } hset fun a ha => by
      rw [List.mem_singleton] at ha
      exact hfound a (ha ▸ List.mem_cons_self)
    obtain ⟨c₂, index, hrest, hextends₂⟩ := ih (i + 1) hextends.truthful fun a ha =>
      hextends.knows a (hfound a (List.mem_cons_of_mem _ ha))
    rw [hextends.items] at hrest
    rw [keepFrom, keptFrom, runFrom_bind_ok (runFrom_modify _ c)]
    -- an error ends the scan at this candidate, with its index in force
    cases hresult : out x c.items (some i) with
    | error e =>
      refine ⟨c₁, some i, ?_, hextends⟩
      rw [hresult] at hrun
      rw [runFrom_bind, hrun]
      rfl
    | ok result =>
      refine ⟨c₂, index, ?_, (hextends.withIndex index).trans hextends₂⟩
      rw [hresult] at hrun
      rw [runFrom_bind_ok hrun, runFrom_bind, hrest]
      cases keptFrom env positional length (fun i x => out x c.items (some i)) (i + 1) found with
      | error e => rfl
      | ok rest => rfl

theorem ends_filterCandidates (positional : Bool) {found needs : List Item}
    (hfound : found ⊆ needs) :
    Ends d (filterCandidates env positional test found) needs id fun _ _ =>
      keptFrom env positional found.length (fun i x => out x found (some i)) 0 found := by
  intro c hc hneeds
  have hinner : Context.Truthful { c with items := found, index := none } d := ⟨hc.link, hc.parent⟩
  obtain ⟨c', index, hrun, hextends⟩ := runFrom_keepFrom htest env positional found.length 0 found
    hinner fun a ha => hneeds a (hfound ha)
  refine ⟨c'.leave ⟨c.items, c.index⟩, ?_, ?_, ?_⟩
  · rw [filterCandidates, runFrom_within, hrun]
  · exact ⟨rfl, rfl, hextends.scopes, hextends.knows, hextends.truthful.link,
      hextends.truthful.parent⟩
  · exact fun kept hkept a ha =>
      hextends.knows a (hneeds a (hfound (subset_of_keptFrom hkept ha)))

end

variable {out : Item → List Item → Option Nat → List Item}
  (htest : ∀ x, Gives d (test [x]) [x] id (out x))

include htest

theorem gives_filterCandidates (positional : Bool) {found needs : List Item}
    (hfound : found ⊆ needs) :
    Gives d (filterCandidates env positional test found) needs id fun _ _ =>
      kept env positional (fun i x => out x found (some i)) found := by
  have hends : Ends d (filterCandidates env positional test found) needs id _ :=
    ends_filterCandidates (fun x => (htest x).ends) positional hfound
  simp only [keptFrom_ok] at hends
  exact hends.gives

theorem gives_filterAll (henv : env.backend = Json.backend d) (positional : Bool)
    (items : List Item) :
    Gives d (filterAll env positional test items) items id fun _ _ =>
      items.flatMap fun x => kept env positional
        (fun i y => out y (x.candidates env.backend) (some i)) (x.candidates env.backend) := by
  apply Gives.collect
  intro x hx
  refine (gives_candidates henv hx).andThen ?_
  exact gives_filterCandidates htest positional (List.subset_append_right _ _)

end

end Step
end PathQuery
