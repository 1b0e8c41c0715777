import Mathlib
import PathQuery.Eval.Walk

/-!
# What a walk visits

A walk skips a node it has seen with everything below that node. In a tree nothing is lost by it:
when a seen node comes up again, all below it has been seen as well. So a walk visits the listings
of its starts one after the other, without repeats.
-/

namespace PathQuery

theorem AddressSet.contains_insert (seen : AddressSet) (a y : Address) :
    (seen.insert a).contains y = (decide (y = a) || seen.contains y) := by
  rw [Std.TreeSet.contains_insert, Bool.eq_iff_iff, Bool.or_eq_true, Bool.or_eq_true, beq_iff_eq,
    Std.compare_eq_iff_eq, decide_eq_true_eq, eq_comm (a := a)]

namespace Backend

/-! ### Listings -/

def below (b : Backend) (a : Address) : List Address := (b.get a .wildcard).map Prod.fst

theorem weight_lt_of_mem_below (b : Backend) {a c : Address} (h : c ∈ b.below a) :
    b.weight c < b.weight a := by
  have hchildren := b.weight_children a
  have hle : ∀ xs : List Address, c ∈ xs → b.weight c ≤ totalOf b.weight xs := by
    intro xs hc
    induction xs with
    | nil => cases hc
    | cons x xs ih =>
      rw [totalOf_cons]
      rcases List.mem_cons.mp hc with rfl | hc
      · omega
      · have hrest := ih hc
        omega
  have hchild := hle _ h
  simp only [below] at hchild
  omega

/-- A node and everything below it, each node before its children and children in order. -/
def listing (b : Backend) (a : Address) : List Address :=
  a :: (b.below a).attach.flatMap fun c => b.listing c.val
termination_by b.weight a
decreasing_by exact b.weight_lt_of_mem_below c.property

section

variable (b : Backend)

theorem listing_eq (a : Address) : b.listing a = a :: (b.below a).flatMap b.listing := by
  rw [listing, List.flatMap_subtype fun c _ => rfl, List.unattach_attach]

theorem self_mem_listing (a : Address) : a ∈ b.listing a := by
  rw [listing_eq]
  exact List.mem_cons_self

/-- What holds of a node whenever it holds of its children holds of every node. -/
theorem node_induction {p : Address → Prop} (h : ∀ a, (∀ c ∈ b.below a, p c) → p a) (a : Address) :
    p a := by
  induction hweight : b.weight a using Nat.strong_induction_on generalizing a with
  | _ n ih =>
    apply h
    intro c hc
    exact ih (b.weight c) (hweight ▸ b.weight_lt_of_mem_below hc) c rfl

theorem weight_le_of_mem_listing {a c : Address} (h : c ∈ b.listing a) :
    b.weight c ≤ b.weight a := by
  induction a using b.node_induction with
  | h a ih =>
    rw [listing_eq] at h
    rcases List.mem_cons.mp h with rfl | h
    · exact Nat.le_refl _
    · obtain ⟨x, hx, hc⟩ := List.mem_flatMap.mp h
      have hchild := ih x hx hc
      have hlt := b.weight_lt_of_mem_below hx
      omega

theorem not_mem_listings_below (a : Address) : a ∉ (b.below a).flatMap b.listing := by
  intro h
  obtain ⟨c, hc, ha⟩ := List.mem_flatMap.mp h
  have hle := b.weight_le_of_mem_listing ha
  have hlt := b.weight_lt_of_mem_below hc
  omega

theorem listing_trans {a c e : Address} (hc : c ∈ b.listing a) (he : e ∈ b.listing c) :
    e ∈ b.listing a := by
  induction a using b.node_induction with
  | h a ih =>
    rw [listing_eq] at hc
    rcases List.mem_cons.mp hc with rfl | hc
    · exact he
    · obtain ⟨x, hx, hc⟩ := List.mem_flatMap.mp hc
      rw [listing_eq]
      exact List.mem_cons_of_mem _ (List.mem_flatMap.mpr ⟨x, hx, ih x hx hc⟩)

end

/-! ### Visits in a row -/

def visits (b : Backend) (v : Visit) : List Visit :=
  v :: ((b.below v.node).flatMap b.listing).map fun c => ⟨c, false⟩

/-- The visits of nodes that are not visited earlier in the list. -/
def firstVisits : List Visit → List Visit
  | [] => []
  | v :: vs => v :: (firstVisits vs).filter fun w => w.node ≠ v.node

theorem mem_of_mem_firstVisits {v : Visit} {vs : List Visit} (h : v ∈ firstVisits vs) : v ∈ vs := by
  induction vs with
  | nil => cases h
  | cons x vs ih =>
    rcases List.mem_cons.mp h with rfl | h
    · exact List.mem_cons_self
    · exact List.mem_cons_of_mem _ (ih (List.mem_of_mem_filter h))

theorem exists_mem_firstVisits {v : Visit} {vs : List Visit} (h : v ∈ vs) :
    ∃ w ∈ firstVisits vs, w.node = v.node := by
  induction vs with
  | nil => cases h
  | cons x vs ih =>
    by_cases hx : x.node = v.node
    · exact ⟨x, List.mem_cons_self, hx⟩
    · rcases List.mem_cons.mp h with rfl | h
      · exact absurd rfl hx
      · obtain ⟨w, hw, hnode⟩ := ih h
        have hkept : w ∈ (firstVisits vs).filter fun w => w.node ≠ x.node :=
          List.mem_filter.mpr ⟨hw, decide_eq_true (hnode ▸ Ne.symm hx)⟩
        exact ⟨w, List.mem_cons_of_mem _ hkept, hnode⟩

theorem firstVisits_append (xs ys : List Visit) :
    firstVisits (xs ++ ys) =
      firstVisits xs ++ (firstVisits ys).filter fun w => w.node ∉ xs.map Visit.node := by
  induction xs with
  | nil => simp [firstVisits]
  | cons x xs ih =>
    rw [List.cons_append, firstVisits, ih, List.filter_append, List.filter_filter, firstVisits,
      List.cons_append]
    congr 3
    funext w
    simp

theorem nodup_firstVisits (vs : List Visit) : ((firstVisits vs).map Visit.node).Nodup := by
  induction vs with
  | nil => exact List.nodup_nil
  | cons x vs ih =>
    rw [firstVisits, List.map_cons, List.nodup_cons]
    refine ⟨?_, ih.sublist (List.filter_sublist.map _)⟩
    intro hx
    obtain ⟨v, hv, hnode⟩ := List.mem_map.mp hx
    simp [hnode] at hv

section

variable (b : Backend)

theorem map_node_visits (v : Visit) : (b.visits v).map Visit.node = b.listing v.node := by
  rw [visits, listing_eq, List.map_cons, List.map_map]
  congr 1
  exact List.map_id' _

theorem visits_child (c : Address) :
    b.visits ⟨c, false⟩ = (b.listing c).map fun a => ⟨a, false⟩ := by
  rw [visits, listing_eq, List.map_cons]

theorem visits_eq (v : Visit) :
    b.visits v = v :: (b.childVisits v.node).flatMap b.visits := by
  have hchildren : b.childVisits v.node = (b.below v.node).map fun c => ⟨c, false⟩ := by
    simp only [childVisits, below, List.map_map, Function.comp_def]
  rw [visits, hchildren, List.flatMap_map, List.map_flatMap]
  simp only [visits_child]

/-! ### Nodes that come up again -/

/-- When a seen node comes up again in a walk over the stack, everything below it has been seen by
then: at the start, or in the listings of what lies above it on the stack. -/
def Settled (seen : Address → Prop) : List Visit → Prop
  | [] => True
  | v :: rest =>
    (∀ y ∈ b.listing v.node, seen y → ∀ z ∈ b.listing y, seen z) ∧
      Settled (fun y => seen y ∨ y ∈ b.listing v.node) rest

theorem settled_append {seen : Address → Prop} {xs ys : List Visit} :
    b.Settled seen (xs ++ ys) ↔ b.Settled seen xs ∧
      b.Settled (fun y => seen y ∨ y ∈ xs.flatMap fun v => b.listing v.node) ys := by
  induction xs generalizing seen with
  | nil => simp [Settled]
  | cons x xs ih =>
    simp only [List.cons_append, Settled, ih, List.flatMap_cons, List.mem_append, and_assoc,
      or_assoc]

/-- Whether a stack is settled depends only on seen nodes of its listings having all below them
seen. -/
theorem settled_of_closed {seen : Address → Prop} {stack : List Visit}
    (h : ∀ y ∈ stack.flatMap fun v => b.listing v.node, seen y → ∀ z ∈ b.listing y, seen z) :
    b.Settled seen stack := by
  induction stack generalizing seen with
  | nil => trivial
  | cons v rest ih =>
    refine ⟨fun y hy => h y (List.mem_append_left _ hy), ih ?_⟩
    intro y hy hseen z hz
    rcases hseen with hseen | hlisted
    · exact .inl (h y (List.mem_append_right _ hy) hseen z hz)
    · exact .inr (b.listing_trans hlisted hz)

theorem Settled.skip {seen : Address → Prop} {v : Visit} {rest : List Visit}
    (h : b.Settled seen (v :: rest)) (hv : seen v.node) :
    (∀ z ∈ b.listing v.node, seen z) ∧ b.Settled seen rest := by
  have hbelow := h.1 v.node (b.self_mem_listing v.node) hv
  refine ⟨hbelow, ?_⟩
  have hsame : (fun y => seen y ∨ y ∈ b.listing v.node) = seen := by
    funext y
    exact propext (or_iff_left_of_imp (hbelow y))
  exact hsame ▸ h.2

theorem Settled.push {seen : Address → Prop} {v : Visit} {rest : List Visit}
    (h : b.Settled seen (v :: rest)) :
    b.Settled (fun y => seen y ∨ y = v.node) (b.childVisits v.node ++ rest) := by
  have hlistings : ((b.childVisits v.node).flatMap fun w => b.listing w.node) =
      (b.below v.node).flatMap b.listing := by
    simp only [childVisits, below, List.flatMap_map]
  rw [settled_append, hlistings]
  refine ⟨settled_of_closed b ?_, ?_⟩
  · rw [hlistings]
    intro y hy hseen z hz
    rcases hseen with hseen | rfl
    · refine .inl (h.1 y ?_ hseen z hz)
      rw [listing_eq]
      exact List.mem_cons_of_mem _ hy
    · exact absurd hy (b.not_mem_listings_below _)
  · have hsame : (fun y => (seen y ∨ y = v.node) ∨ y ∈ (b.below v.node).flatMap b.listing) =
        fun y => seen y ∨ y ∈ b.listing v.node := by
      funext y
      rw [listing_eq, List.mem_cons, or_assoc]
    exact hsame ▸ h.2

/-! ### The walk -/

theorem walk_eq_filter {seen : AddressSet} {stack : List Visit}
    (h : b.Settled (fun y => seen.contains y = true) stack) :
    b.walk seen stack =
      (firstVisits (stack.flatMap b.visits)).filter fun v => !seen.contains v.node := by
  induction seen, stack using walk.induct b with
  | case1 seen => rw [walk, List.flatMap_nil, firstVisits, List.filter_nil]
  | case2 seen v rest hv ih =>
    obtain ⟨hlisted, hrest⟩ := h.skip b hv
    rw [walk, if_pos hv, ih hrest, List.flatMap_cons, firstVisits_append, List.filter_append,
      List.filter_filter, map_node_visits]
    -- the node has been seen, and with it all that it lists
    have hnone : (firstVisits (b.visits v)).filter (fun w => !seen.contains w.node) = [] := by
      rw [List.filter_eq_nil_iff]
      intro w hw
      have hnode := List.mem_map_of_mem (f := Visit.node) (mem_of_mem_firstVisits hw)
      rw [map_node_visits] at hnode
      rw [hlisted w.node hnode]
      decide
    rw [hnone, List.nil_append]
    apply List.filter_congr
    intro w _
    by_cases hw : w.node ∈ b.listing v.node
    · simp [hlisted w.node hw]
    · simp [hw]
  | case3 seen v rest hv ih =>
    have hseen : (fun y => (seen.insert v.node).contains y = true) =
        fun y => seen.contains y = true ∨ y = v.node := by
      funext y
      rw [AddressSet.contains_insert, Bool.or_eq_true, decide_eq_true_eq, or_comm]
    rw [walk, if_neg hv, ih (hseen ▸ h.push b), List.flatMap_cons, visits_eq, List.cons_append,
      firstVisits, List.filter_cons, if_pos (by simp [hv]), List.filter_filter,
      List.flatMap_append]
    congr 2
    funext w
    rw [AddressSet.contains_insert, Bool.not_or, Bool.and_comm, decide_not]

/-- A walk visits the listings of its starts in a row, without repeats. -/
theorem walk_eq (stack : List Visit) :
    b.walk ∅ stack = firstVisits (stack.flatMap b.visits) := by
  rw [b.walk_eq_filter]
  · rw [List.filter_eq_self]
    intro v _
    simp
  · apply b.settled_of_closed
    intro y _ hy
    simp at hy

end

end Backend
end PathQuery
