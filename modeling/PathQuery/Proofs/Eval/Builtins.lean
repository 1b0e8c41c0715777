import PathQuery.Eval.Builtin
import PathQuery.Proofs.Eval.Selection

/-!
# Built-in functions are steady

No built-in function can tell which nodes have been handed out before: what it comes to depends on
its arguments, its input and the list and index in force.
-/

namespace PathQuery
namespace Builtin

open EvalM

variable {d : Json.Document} {args : List (EvalM (List Item))} {input : List Item}

/-! ### Arguments -/

section

variable (hargs : ∀ m ∈ args, Steady d m input id)

include hargs

theorem steady_gather : Steady d (gather args input) input id := by
  unfold gather
  split
  · exact .pure fun c hc => hc
  · exact .joined hargs

theorem steady_mapped (f : Env → Item → Option Item) (env : Env)
    (hf : ∀ x y, f env x = some y → y.node? = none) (name : String) :
    Steady d (mapped f env name args input) input id := by
  refine (steady_gather hargs).return_nodes fun items a ha => ?_
  obtain ⟨x, _, hx⟩ := List.mem_filterMap.mp ha
  exact absurd (hf x _ hx) (Option.some_ne_none a)

theorem steady_mappedText (f : String → String) (env : Env) (name : String) :
    Steady d (mappedText f env name args input) input id := by
  apply steady_mapped hargs _ env
  intro x y hy
  obtain ⟨s, _, rfl⟩ := Option.map_eq_some_iff.mp hy
  rfl

theorem steady_reduced (f : Env → List Item → Option Scalar) (env : Env) (name : String) :
    Steady d (reduced f env name args input) input id := by
  refine (steady_gather hargs).return_nodes fun items a ha => ?_
  obtain ⟨v, _, hv⟩ := Option.map_eq_some_iff.mp (Option.mem_toList.mp ha)
  cases hv

theorem steady_concatenated (env : Env) : Steady d (concatenated env args) input fun _ => [] := by
  induction args with
  | nil => exact .pure fun c _ a ha => absurd ha List.not_mem_nil
  | cons m args ih =>
    refine (hargs m List.mem_cons_self).bind fun items => ?_
    have hrest := ih fun m' hm => hargs m' (List.mem_cons_of_mem _ hm)
    refine (hrest.mono (List.subset_append_left _ _)).bind fun s => .pure ?_
    exact fun c _ a ha => absurd ha List.not_mem_nil

theorem steady_separately : Steady d (separately args) input List.flatten := by
  induction args with
  | nil => exact .pure fun c _ a ha => absurd ha List.not_mem_nil
  | cons m args ih =>
    refine (hargs m List.mem_cons_self).bind fun here => ?_
    have hrest := ih fun m' hm => hargs m' (List.mem_cons_of_mem _ hm)
    refine (hrest.mono (List.subset_append_left _ _)).bind fun rest => .pure ?_
    intro c hc a ha
    rcases List.mem_append.mp ha with ha | ha
    · exact hc a (List.mem_append_left _ (List.mem_append_right _ ha))
    · exact hc a (List.mem_append_right _ ha)

end

/-! ### Items -/

theorem eq_node_of_reduce {b : Backend} {x : Item} {a : Address} (h : b.reduce x = .node a) :
    x = .node a := by
  cases x with
  | scalar v => cases h
  | node e =>
    unfold Backend.reduce at h
    split at h
    · next heq =>
      split at h
      · cases h
      · exact heq.trans h
    · cases h

theorem node?_of_roundItem {mode : Binary64.Rounding} {b : Backend} {x y : Item}
    (h : roundItem mode b x = some y) : y.node? = none := by
  unfold roundItem at h
  split at h
  · obtain rfl := Option.some.inj h
    rfl
  · obtain ⟨r, _, rfl⟩ := Option.map_eq_some_iff.mp h
    rfl

theorem node?_of_numberItem {b : Backend} {x y : Item} (h : numberItem b x = some y) :
    y.node? = none := by
  unfold numberItem at h
  split at h
  · obtain rfl := Option.some.inj h
    rfl
  · obtain rfl := Option.some.inj h
    rfl
  · split at h
    · obtain rfl := Option.some.inj h
      rfl
    · obtain ⟨r, _, rfl⟩ := Option.map_eq_some_iff.mp h
      rfl
  · obtain ⟨r, _, rfl⟩ := Option.map_eq_some_iff.mp h
    rfl

theorem mem_of_mem_foldl {step : List Item → Item → List Item}
    (hstep : ∀ kept item, step kept item = kept ∨ step kept item = kept ++ [item])
    {items kept : List Item} {x : Item} (h : x ∈ items.foldl step kept) :
    x ∈ kept ∨ x ∈ items := by
  induction items generalizing kept with
  | nil => exact .inl h
  | cons y items ih =>
    rcases ih h with hkept | hitems
    · rcases hstep kept y with heq | heq
      · exact .inl (heq ▸ hkept)
      · rw [heq, List.mem_append, List.mem_singleton] at hkept
        rcases hkept with hkept | rfl
        · exact .inl hkept
        · exact .inr List.mem_cons_self
    · exact .inr (List.mem_cons_of_mem _ hitems)

theorem mem_of_mem_union {b : Backend} {items : List Item} {x : Item} (h : x ∈ union b items) :
    x ∈ items := by
  refine (mem_of_mem_foldl ?_ h).resolve_left List.not_mem_nil
  intro kept item
  split
  · exact .inl rfl
  · exact .inr rfl

theorem mem_of_mem_intersection {b : Backend} {sets : List (List Item)} {x : Item}
    (h : x ∈ intersection b sets) : x ∈ sets.flatten := by
  cases sets with
  | nil => cases h
  | cons first others =>
    refine List.mem_append_left _ ((mem_of_mem_foldl ?_ h).resolve_left List.not_mem_nil)
    intro kept item
    split
    · exact .inr rfl
    · exact .inl rfl

theorem mem_of_mem_uniqueFrom {b : Backend} {seen : Std.TreeSet String compare}
    {items : List Item} {x : Item} (h : x ∈ uniqueFrom b seen items) : x ∈ items := by
  induction items generalizing seen with
  | nil => cases h
  | cons y items ih =>
    simp only [uniqueFrom] at h
    split at h
    · exact List.mem_cons_of_mem _ (ih h)
    · rcases List.mem_cons.mp h with rfl | h
      · exact List.mem_cons_self
      · exact List.mem_cons_of_mem _ (ih h)

/-- What is read off the links of known nodes is the same in every context. -/
theorem filterMap_links {α : Type} {c : Context} {items : List Item} (hitems : c.KnowsAll items)
    {read answer : Address → Option α} (hread : ∀ a, c.Knows a → read a = answer a)
    (f : α → Item) :
    items.filterMap (fun x => (x.node?.bind read).map f) =
      items.filterMap fun x => (x.node?.bind answer).map f := by
  apply List.filterMap_congr
  intro x hx
  cases x with
  | scalar v => rfl
  | node a => simp only [Item.node?, Option.bind_some, hread a (hitems a hx)]

section

variable {env : Env} (henv : env.backend = Json.backend d) {needs : List Item}

include henv

theorem steady_lengthItem {x : Item} (hx : x ∈ needs) : Steady d (lengthItem env x) needs id := by
  unfold lengthItem
  split
  · exact .pure fun c _ a ha => by simp at ha
  · exact .pure fun c _ a ha => absurd ha List.not_mem_nil
  · next a hreduce =>
    obtain rfl := eq_node_of_reduce hreduce
    refine (Gives.children henv hx _).steady.return_nodes ?_
    intro found e he
    simp at he

theorem steady_containsItem {x y : Item} (hx : x ∈ needs) :
    Steady d (containsItem env x y) needs fun _ => [] := by
  unfold containsItem
  split
  · next a hreduce =>
    obtain rfl := eq_node_of_reduce hreduce
    refine (Gives.children henv hx _).steady.bind fun found => .pure ?_
    exact fun c _ a ha => absurd ha List.not_mem_nil
  · split
    · exact .pure fun c _ a ha => absurd ha List.not_mem_nil
    · exact .pure fun c _ a ha => absurd ha List.not_mem_nil

end

/-! ### The table -/

section

variable {args : List Argument} (hargs : ∀ m ∈ Argument.against args input, Steady d m input id)

include hargs

theorem steady_union (env : Env) (name : String) :
    Steady d (unionFunction.apply env name args input input) input id :=
  (steady_gather hargs).return_nodes fun _ _ ha => mem_of_mem_union ha

theorem steady_intersection (env : Env) (name : String) :
    Steady d (intersectionFunction.apply env name args input input) input id :=
  (steady_separately hargs).return_nodes fun _ _ ha => mem_of_mem_intersection ha

theorem steady_unique (env : Env) (name : String) :
    Steady d (unique.apply env name args input input) input id :=
  (steady_gather hargs).return_nodes fun _ _ ha => mem_of_mem_uniqueFrom ha

theorem steady_first (env : Env) (name : String) :
    Steady d (first.apply env name args input input) input id :=
  (steady_gather hargs).return_nodes fun _ _ ha => List.mem_of_mem_take ha

theorem steady_links {α : Type} (read : Context → Address → Option α) (f : α → Scalar)
    {answer : Address → Option α}
    (hread : ∀ c : Context, c.Truthful d → ∀ a, c.Knows a → read c a = answer a) :
    Steady d (do
      let items ← gather (Argument.against args input) input
      let c ← get
      return items.filterMap fun x => (x.node?.bind (read c)).map fun y => .scalar (f y))
      input id := by
  refine (steady_gather hargs).bind fun items => ?_
  have hgives : Gives d (do
      let c ← get
      return items.filterMap fun x => (x.node?.bind (read c)).map fun y => .scalar (f y))
      (input ++ items) id fun _ _ =>
        items.filterMap fun x => (x.node?.bind answer).map fun y => .scalar (f y) := by
    apply Gives.read
    intro c hc hneeds
    have hitems : c.KnowsAll items := fun a ha => hneeds a (List.mem_append_right _ ha)
    refine ⟨?_, ?_⟩
    · rw [filterMap_links hitems (hread c hc), runFrom_pure]
    · intro a ha
      obtain ⟨x, _, hx⟩ := List.mem_filterMap.mp ha
      obtain ⟨y, _, hy⟩ := Option.map_eq_some_iff.mp hx
      cases hy
  exact hgives.steady

theorem steady_key (env : Env) (name : String) :
    Steady d (key.apply env name args input input) input id :=
  steady_links hargs Context.key? .str fun _ hc _ ha => hc.key?_eq ha

theorem steady_index (env : Env) (name : String) :
    Steady d (index.apply env name args input input) input id :=
  steady_links hargs Context.index? (fun i => .int (Int64.ofNat i)) fun _ hc _ ha => hc.index?_eq ha

theorem steady_parent (env : Env) (name : String) :
    Steady d (parent.apply env name args input input) input id := by
  refine (steady_gather hargs).bind fun items => ?_
  have hgives : Gives d (do
      let c ← get
      distinct (items.filterMap fun x => (x.node?.bind c.parent?).map Item.node))
      (input ++ items) id fun _ _ => Item.withoutRepeats
        (items.filterMap fun x => (x.node?.bind fun a =>
          (d.value.link? a).map (·.parent)).map Item.node) := by
    apply Gives.read
    intro c hc hneeds
    have hitems : c.KnowsAll items := fun a ha => hneeds a (List.mem_append_right _ ha)
    rw [← filterMap_links hitems fun a ha => hc.parent?_eq ha]
    refine ⟨runFrom_distinct _ c, ?_⟩
    intro p hp
    obtain ⟨x, _, hx⟩ := List.mem_filterMap.mp (Item.mem_withoutRepeats.mp hp)
    obtain ⟨q, hq, heq⟩ := Option.map_eq_some_iff.mp hx
    obtain ⟨a, _, hparent⟩ := Option.bind_eq_some_iff.mp hq
    exact Item.node.inj heq ▸ hc.knows_parent hparent
  exact hgives.steady

omit hargs in
theorem steady_position (env : Env) (name : String) :
    Steady d (position.apply env name args input input) input id := by
  have hgives : Gives d (position.apply env name args input input) input id fun _ index =>
      (index.map fun i => Item.scalar (.int (Int64.ofNat i))).toList := by
    apply Gives.read
    intro c _ _
    refine ⟨rfl, ?_⟩
    intro a ha
    obtain ⟨i, _, hi⟩ := Option.map_eq_some_iff.mp (Option.mem_toList.mp ha)
    cases hi
  exact hgives.steady

theorem steady_concat (env : Env) (name : String) :
    Steady d (concat.apply env name args input input) input id := by
  refine (steady_concatenated hargs env).bind fun s => .pure ?_
  exact fun c _ a ha => by simp at ha

theorem steady_length {env : Env} (henv : env.backend = Json.backend d) (name : String) :
    Steady d (length.apply env name args input input) input id := by
  refine (steady_gather hargs).bind fun items => .collect ?_
  exact fun x hx => steady_lengthItem henv (List.mem_append_right _ hx)

theorem steady_contains {env : Env} (henv : env.backend = Json.backend d) (name : String) :
    Steady d (contains.apply env name args input input) input id := by
  have hanswer : ∀ (t : Bool) (needs : List Item),
      Steady d (return [.scalar (.bool t)]) needs id :=
    fun t needs => .pure fun c _ a ha => by simp at ha
  match args, hargs with
  | [], _ => exact hanswer false input
  | [_], _ => exact hanswer false input
  | [haystack, needle], hargs =>
    refine (hargs (haystack.eval input) List.mem_cons_self).bind fun hs => ?_
    have hneedle := hargs (needle.eval input) (List.mem_cons_of_mem _ List.mem_cons_self)
    refine (hneedle.mono (List.subset_append_left _ _)).bind fun ns => ?_
    split
    · have hmem : ∀ {x : Item} {xs ys : List Item},
          x ∈ (input ++ id (x :: xs)) ++ id ys := fun {x xs ys} => by simp
      exact (steady_containsItem henv hmem).bind fun found => hanswer found _
    · exact hanswer false _
  | _ :: _ :: _ :: _, _ => exact hanswer false input

theorem steady_orDefault (env : Env) (name : String) :
    Steady d (orDefault.apply env name args input input) input id := by
  match args, hargs with
  | [], _ => exact .pure fun c _ a ha => absurd ha List.not_mem_nil
  | [_], _ => exact .pure fun c _ a ha => absurd ha List.not_mem_nil
  | [value, fallback], hargs =>
    refine (hargs (value.eval input) List.mem_cons_self).bind fun items => ?_
    split
    · have hfallback := hargs (fallback.eval input) (List.mem_cons_of_mem _ List.mem_cons_self)
      exact hfallback.mono (List.subset_append_left _ _)
    · exact .pure fun c hc a ha => hc a (List.mem_append_right _ ha)
  | _ :: _ :: _ :: _, _ => exact .pure fun c _ a ha => absurd ha List.not_mem_nil

/-- Every built-in function is steady. -/
theorem steady_apply {env : Env} (henv : env.backend = Json.backend d) {f : Function}
    (hf : f ∈ all) (name : String) : Steady d (f.apply env name args input input) input id := by
  simp only [all, List.mem_cons, List.not_mem_nil, or_false] at hf
  rcases hf with rfl | rfl | rfl | rfl | rfl | rfl | rfl | rfl | rfl | rfl | rfl | rfl | rfl | rfl |
    rfl | rfl | rfl | rfl | rfl | rfl | rfl | rfl | rfl | rfl
  · exact steady_reduced hargs (fun _ items => some (.int (Int64.ofNat items.length))) env name
  · exact steady_reduced hargs (fun env items => some (sum env.backend items)) env name
  · exact steady_reduced hargs (fun env => extreme (fun a b => a < b) env.backend) env name
  · exact steady_reduced hargs (fun env => extreme (fun a b => b < a) env.backend) env name
  · exact steady_mapped hargs (fun env => roundItem (roundingOf name) env.backend) env
      (fun _ _ => node?_of_roundItem) name
  · exact steady_mapped hargs (fun env => numberItem env.backend) env
      (fun _ _ => node?_of_numberItem) name
  · exact steady_mappedText hargs _ env name
  · exact steady_mappedText hargs _ env name
  · exact steady_union hargs env name
  · exact steady_intersection hargs env name
  · exact steady_key hargs env name
  · exact steady_index hargs env name
  · refine steady_mapped hargs
      (fun env x => some (.scalar (.str (env.backend.itemKind x).text))) env ?_ name
    intro x y hy
    obtain rfl := Option.some.inj hy
    rfl
  · exact steady_parent hargs env name
  · exact steady_position env name
  · exact .pure fun c _ a ha => by simp at ha
  · exact steady_mappedText hargs _ env name
  · exact steady_mappedText hargs _ env name
  · exact steady_length hargs henv name
  · exact steady_concat hargs env name
  · exact steady_contains hargs henv name
  · exact steady_first hargs env name
  · exact steady_unique hargs env name
  · exact steady_orDefault hargs env name

end

end Builtin
end PathQuery
