import PathQuery.Proofs.Eval.Paths

/-!
# Descents in pre-order

A descent walks on a stack, and passes over a node it has seen with everything below that node. Over
a JSON document this comes to the pre-order by recursion on the value: a value, then child by child
what is inside it.
-/

namespace PathQuery
namespace Json

/-! ### Pre-orders -/

mutual

/-- The addresses of a value that stands at `a` and of all values inside it, the value first and then
its children in document order, each with all that is inside it. -/
def preorder : Json → Address → List Address
  | array items, a => a :: preorderItems items a 0
  | object fields, a => a :: preorderFields fields a 0
  | _, a => [a]

def preorderItems : List Json → Address → Nat → List Address
  | [], _, _ => []
  | v :: vs, a, i => v.preorder (a ++ [i]) ++ preorderItems vs a (i + 1)

def preorderFields : List (String × Json) → Address → Nat → List Address
  | [], _, _ => []
  | (_, v) :: fs, a, i => v.preorder (a ++ [i]) ++ preorderFields fs a (i + 1)

end

def preorderAt (v : Json) (a : Address) : List Address :=
  match v.at? a with
  | some w => w.preorder a
  | none => [a]

theorem preorderItems_eq (vs : List Json) (a : Address) (i : Nat) :
    preorderItems vs a i = (vs.zipIdx i).flatMap fun p => p.1.preorder (a ++ [p.2]) := by
  induction vs generalizing i with
  | nil => rfl
  | cons v vs ih => rw [preorderItems, ih, List.zipIdx_cons, List.flatMap_cons]

theorem preorderFields_eq (fs : List (String × Json)) (a : Address) (i : Nat) :
    preorderFields fs a i =
      ((fs.map Prod.snd).zipIdx i).flatMap fun p => p.1.preorder (a ++ [p.2]) := by
  induction fs generalizing i with
  | nil => rfl
  | cons f fs ih =>
    obtain ⟨key, v⟩ := f
    rw [preorderFields, ih, List.map_cons, List.zipIdx_cons, List.flatMap_cons]

theorem preorder_eq (v : Json) (a : Address) :
    v.preorder a = a :: v.children.zipIdx.flatMap fun p => p.1.preorder (a ++ [p.2]) := by
  cases v with
  | array items => rw [preorder, preorderItems_eq, children]
  | object fields => rw [preorder, preorderFields_eq, children]
  | _ => rfl

/-! ### Listings -/

section

variable {d : Document}

theorem below_backend {a : Address} {w : Json} (h : d.value.at? a = some w) :
    (backend d).below a = w.children.zipIdx.map fun p => a ++ [p.2] := by
  show (d.value.getAt a .wildcard).map Prod.fst = _
  rw [getAt, h]
  simp only [positions, List.map_map, ← List.zipIdx_map_snd, List.range_eq_range']
  rfl

theorem listing_backend (a : Address) : (backend d).listing a = d.value.preorderAt a := by
  induction a using (backend d).node_induction with
  | h a ih =>
    rw [Backend.listing_eq, List.flatMap_congr ih, preorderAt]
    cases h : d.value.at? a with
    | none =>
      have hbelow : (backend d).below a = [] := by
        show (d.value.getAt a .wildcard).map Prod.fst = []
        rw [getAt, h]
        rfl
      rw [hbelow, List.flatMap_nil]
    | some w =>
      show _ = w.preorder a
      rw [below_backend h, List.flatMap_map, preorder_eq]
      congr 1
      apply List.flatMap_congr
      intro p hp
      have hchild : d.value.at? (a ++ [p.2]) = some p.1 := by
        rw [at?_append, h]
        simp [at?, List.mem_zipIdx_iff_getElem?.mp hp]
      rw [preorderAt, hchild]

theorem isPrefix_of_mem_listing {a b : Address} (h : b ∈ (backend d).listing a) : a <+: b := by
  rcases mem_listing_backend.mp h with rfl | hbelow
  · exact List.prefix_refl _
  · exact hbelow.1

theorem nodup_below_backend (a : Address) : ((backend d).below a).Nodup := by
  cases h : d.value.at? a with
  | none => simp [Backend.below, backend, getAt, h]
  | some w =>
    have hmap : (w.children.zipIdx.map fun p => a ++ [p.2]) =
        (w.children.zipIdx.map Prod.snd).map fun i => a ++ [i] := by rw [List.map_map]; rfl
    rw [below_backend h, hmap, List.zipIdx_map_snd]
    exact List.Nodup.map (fun i j hij => by simpa using hij) List.nodup_range'

/-- No node of a document is listed twice: two children of a node lead to different addresses. -/
theorem nodup_listing_backend (a : Address) : ((backend d).listing a).Nodup := by
  induction a using (backend d).node_induction with
  | h a ih =>
    rw [Backend.listing_eq, List.nodup_cons, List.nodup_flatMap]
    refine ⟨(backend d).not_mem_listings_below a, ih, ?_⟩
    refine List.Pairwise.imp_of_mem ?_ (nodup_below_backend (d := d) a)
    intro c e hc he hne b hb hb'
    obtain ⟨i, rfl, _⟩ := mem_below_backend.mp hc
    obtain ⟨j, rfl, _⟩ := mem_below_backend.mp he
    -- a node below both children would begin with both of their addresses
    have hbelow : a ++ [i] <+: a ++ [j] :=
      List.prefix_of_prefix_length_le (isPrefix_of_mem_listing hb) (isPrefix_of_mem_listing hb')
        (by simp)
    exact hne (hbelow.eq_of_length (by simp))

end

end Json

/-! ### Descents -/

namespace Backend

theorem firstVisits_of_nodup {vs : List Visit} (h : (vs.map Visit.node).Nodup) :
    firstVisits vs = vs := by
  induction vs with
  | nil => rfl
  | cons v vs ih =>
    rw [List.map_cons, List.nodup_cons] at h
    rw [firstVisits, ih h.2, List.filter_eq_self.mpr]
    intro w hw
    have hne : w.node ≠ v.node := fun heq => h.1 (heq ▸ List.mem_map_of_mem hw)
    exact decide_eq_true hne

/-- A walk from one node of a tree without repeats goes through its listing, and is at its start just
once. -/
theorem walk_start (b : Backend) {a : Address} (h : (b.listing a).Nodup) :
    ((b.walk ∅ (starts [a])).filter fun v => !v.isStart).map Visit.node = (b.listing a).tail := by
  have hvisits : b.walk ∅ (starts [a]) = b.visits ⟨a, true⟩ := by
    rw [walk_eq, starts, List.map_singleton, List.flatMap_singleton]
    refine firstVisits_of_nodup ?_
    rw [map_node_visits]
    exact h
  rw [hvisits, visits, listing_eq, List.tail_cons, List.filter_cons_of_neg (by simp),
    List.filter_map, List.map_map]
  simp [Function.comp_def]

end Backend

/-- A descent from some items over a JSON document hands out the pre-orders of the nodes among them one
after the other, without the nodes listed before; from a single node, without that node itself, it hands
out the pre-order of that node from the second entry on. -/
theorem descend_preorder (d : Json.Document) (settings : Settings) (traced : Bool)
    (items : List Item) (c : Context) :
    (∃ c', (Step.descend ⟨Json.backend d, settings, traced⟩ true items).runFrom c =
      (.ok (Item.withoutRepeats ((items.filterMap Item.node?).flatMap fun a =>
        (d.value.preorderAt a).map .node)), c')) ∧
    ∀ a, ∃ c', (Step.descend ⟨Json.backend d, settings, traced⟩ false [.node a]).runFrom c =
      (.ok ((d.value.preorderAt a).tail.map .node), c') := by
  let env : Env := ⟨Json.backend d, settings, traced⟩
  refine ⟨?_, fun a => ?_⟩
  · obtain ⟨c', hrun⟩ := Step.runFrom_descend env true items c
    rw [Backend.walked_eq] at hrun
    simp only [env, Json.listing_backend] at hrun
    exact ⟨c', hrun⟩
  · obtain ⟨c', hrun⟩ := Step.runFrom_descend env false [.node a] c
    have hwalk := (Json.backend d).walk_start (Json.nodup_listing_backend a)
    rw [Json.listing_backend] at hwalk
    refine ⟨c', hrun.trans ?_⟩
    rw [← hwalk, List.map_map]
    simp only [Bool.false_or]
    rfl

-- a node before its parent: the parent is listed with what is left below it
example : ((Step.descend ⟨Json.backend ⟨.array [.null, .array [.null]], by
    simp [Json.Ordered, Json.OrderedItems]⟩, .default, false⟩ true
      [.node [1], .scalar .null, .node []]).runFrom .initial).1 =
    .ok [.node [1], .node [1, 0], .node [], .node [0]] := by decide +kernel

end PathQuery
