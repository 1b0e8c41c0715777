import PathQuery.Eval.Engine
import PathQuery.Proofs.Eval.Walk

/-!
# Lists without repeated nodes

Every step of a path keeps the nodes that it meets for the first time. On a list by itself this is
to drop a node that stands earlier in the list, and to drop repeats before or after a map that takes
nodes to nodes comes to the same.
-/

namespace PathQuery

/-! ### Dropping repeats -/

namespace Item

/-- Whether an item is not the given one over again; computed values never are. -/
def differs (x : Item) : Item → Bool
  | .node a => decide (x ≠ .node a)
  | .scalar _ => true

/-- The items without nodes that stand earlier in the list. -/
def withoutRepeats : List Item → List Item
  | [] => []
  | x :: xs => x :: (withoutRepeats xs).filter x.differs

def isFresh (seen : Address → Bool) : Item → Bool
  | .node a => !seen a
  | .scalar _ => true

def hasNode (xs : List Item) (a : Address) : Bool := xs.contains (.node a)

@[simp] theorem differs_scalar (v : Scalar) : (scalar v).differs = fun _ => true := by
  funext x
  cases x <;> rfl

theorem filter_differs_of_seen {seen : Address → Bool} {a : Address} (ha : seen a = true)
    (xs : List Item) :
    (xs.filter (differs (.node a))).filter (isFresh seen) = xs.filter (isFresh seen) := by
  rw [List.filter_filter]
  apply List.filter_congr
  intro x _
  cases x with
  | scalar v => rfl
  | node c =>
    by_cases hc : a = c
    · subst hc
      simp [isFresh, ha]
    · simp [differs, hc]

theorem filter_differs_insert (seen : AddressSet) (a : Address) (xs : List Item) :
    (xs.filter (differs (.node a))).filter (isFresh seen.contains) =
      xs.filter (isFresh (seen.insert a).contains) := by
  rw [List.filter_filter]
  apply List.filter_congr
  intro x _
  cases x with
  | scalar v => rfl
  | node c =>
    have hne : (Item.node a ≠ .node c) ↔ c ≠ a := by
      rw [Ne, Item.node.injEq, eq_comm]
    simp only [isFresh, differs, AddressSet.contains_insert, hne, Bool.not_or, decide_not,
      Bool.and_comm]

theorem withoutRepeats_filter (p : Item → Bool) (xs : List Item) :
    withoutRepeats (xs.filter p) = (withoutRepeats xs).filter p := by
  induction xs with
  | nil => rfl
  | cons x xs ih =>
    simp only [withoutRepeats, List.filter_cons]
    split
    · simp only [withoutRepeats, ih, List.filter_filter, Bool.and_comm]
    · next hx =>
      rw [ih, List.filter_filter]
      apply List.filter_congr
      intro y _
      cases y with
      | scalar v => simp [differs]
      | node a =>
        by_cases heq : x = .node a
        · subst heq
          simp [hx]
        · simp [differs, heq]

theorem mem_withoutRepeats {x : Item} {xs : List Item} : x ∈ withoutRepeats xs ↔ x ∈ xs := by
  induction xs with
  | nil => exact Iff.rfl
  | cons y ys ih =>
    simp only [withoutRepeats, List.mem_cons, List.mem_filter, ih]
    by_cases heq : x = y
    · simp [heq]
    · cases x with
      | scalar v => simp [differs]
      | node a =>
        have hne : y ≠ .node a := fun h => heq h.symm
        simp [differs, hne]

theorem withoutRepeats_append (xs ys : List Item) :
    withoutRepeats (xs ++ ys) =
      withoutRepeats xs ++ (withoutRepeats ys).filter (isFresh (hasNode xs)) := by
  induction xs with
  | nil =>
    rw [List.nil_append, withoutRepeats, List.nil_append]
    apply (List.filter_eq_self.mpr _).symm
    intro y _
    cases y <;> simp [isFresh, hasNode]
  | cons x xs ih =>
    rw [List.cons_append, withoutRepeats, ih, List.filter_append, List.filter_filter,
      withoutRepeats, List.cons_append]
    congr 2
    apply List.filter_congr
    intro y _
    cases y with
    | scalar v => rfl
    | node a =>
      cases x with
      | scalar v => simp [differs, isFresh, hasNode]
      | node c =>
        have hsame : Item.node c = .node a ↔ a = c :=
          ⟨fun h => (Item.node.inj h).symm, fun h => h ▸ rfl⟩
        simp [differs, isFresh, hasNode, hsame]

theorem withoutRepeats_nodes {nodes : List Address} (h : nodes.Nodup) :
    withoutRepeats (nodes.map node) = nodes.map node := by
  induction nodes with
  | nil => rfl
  | cons a nodes ih =>
    obtain ⟨ha, hrest⟩ := List.nodup_cons.mp h
    rw [List.map_cons, withoutRepeats, ih hrest]
    congr 1
    rw [List.filter_eq_self]
    intro x hx
    obtain ⟨c, hc, rfl⟩ := List.mem_map.mp hx
    have hne : a ≠ c := fun heq => ha (heq ▸ hc)
    simp [differs, hne]

theorem withoutRepeats_idem (xs : List Item) :
    withoutRepeats (withoutRepeats xs) = withoutRepeats xs := by
  induction xs with
  | nil => rfl
  | cons x xs ih =>
    rw [withoutRepeats, withoutRepeats, withoutRepeats_filter, ih, List.filter_filter]
    simp only [Bool.and_self]

/-- What a map takes a node to, it takes to nodes alone. -/
def KeepsNodes (f : Item → List Item) : Prop := ∀ a, ∀ y ∈ f (.node a), y.node?.isSome = true

/-- Behind what a node is taken to, taking the node there once more adds nothing. -/
theorem withoutRepeats_flatMap_filter {f : Item → List Item} (hf : KeepsNodes f) (x : Item)
    (zs : List Item) :
    withoutRepeats (f x ++ (zs.filter x.differs).flatMap f) =
      withoutRepeats (f x ++ zs.flatMap f) := by
  simp only [withoutRepeats_append, ← withoutRepeats_filter]
  congr 2
  induction zs with
  | nil => rfl
  | cons z zs ih =>
    rw [List.filter_cons, List.flatMap_cons, List.filter_append]
    split
    · rw [List.flatMap_cons, List.filter_append, ih]
    · next hz =>
      -- a repeated node leads to nodes that are all there already
      cases z with
      | scalar v => exact absurd rfl hz
      | node a =>
        have hx : x = .node a := by simpa [differs] using hz
        subst hx
        have hnone : (f (.node a)).filter (isFresh (hasNode (f (.node a)))) = [] := by
          rw [List.filter_eq_nil_iff]
          intro y hy
          obtain ⟨c, hc⟩ := Option.isSome_iff_exists.mp (hf a y hy)
          cases y with
          | scalar v => cases hc
          | node e =>
            simp [isFresh, hasNode, hy]
        rw [hnone, List.nil_append, ih]

/-- Repeats can be dropped before a map that takes nodes to nodes. -/
theorem withoutRepeats_flatMap {f : Item → List Item} (hf : KeepsNodes f) (xs : List Item) :
    withoutRepeats ((withoutRepeats xs).flatMap f) = withoutRepeats (xs.flatMap f) := by
  induction xs with
  | nil => rfl
  | cons x xs ih =>
    rw [withoutRepeats, List.flatMap_cons, withoutRepeats_flatMap_filter hf, List.flatMap_cons,
      withoutRepeats_append, ih, ← withoutRepeats_append]

end Item
end PathQuery
