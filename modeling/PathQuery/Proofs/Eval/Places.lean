import PathQuery.Proofs.Eval.Links

/-!
# Where nodes stand

The link of a node names a key or an index under its parent. In a document the keys of an object are
told apart by their order, so that the key or the index leads from the parent back to the node and to
nothing else.
-/

namespace PathQuery

/-- What the link of a node says is true: under a map there is a key and no index, under a list an
index and no key, and the parent hands out just that node for it. -/
def Link.LeadsTo (l : Link) (b : Backend) (a : Address) : Prop :=
  (b.kind l.parent = .map ∧ l.place.index = none ∧
      ∃ key, l.place.key = some key ∧ b.get l.parent (.name key) = [(a, l.place)]) ∨
    (b.kind l.parent = .list ∧ l.place.key = none ∧
      ∃ i, l.place.index = some i ∧ (b.get l.parent .wildcard)[i]? = some (a, l.place) ∧
        ∀ n : Int64, n.toInt = i → b.get l.parent (.index n) = [(a, l.place)])

namespace Json

/-! ### Ordered values -/

theorem ordered_of_mem_items {items : List Json} (h : OrderedItems items) {w : Json}
    (hw : w ∈ items) : w.Ordered := by
  induction items with
  | nil => exact absurd hw List.not_mem_nil
  | cons v vs ih =>
    rcases List.mem_cons.mp hw with rfl | hw
    · exact h.1
    · exact ih h.2 hw

theorem ordered_of_mem_fields {fields : List (String × Json)} (h : OrderedFields fields) {w : Json}
    (hw : w ∈ fields.map Prod.snd) : w.Ordered := by
  induction fields with
  | nil => exact absurd hw List.not_mem_nil
  | cons f fs ih =>
    obtain ⟨key, v⟩ := f
    rcases List.mem_cons.mp hw with rfl | hw
    · exact h.1
    · exact ih h.2 hw

theorem Ordered.of_mem_children {v w : Json} (h : v.Ordered) (hw : w ∈ v.children) : w.Ordered := by
  cases v with
  | array items => exact ordered_of_mem_items h hw
  | object fields => exact ordered_of_mem_fields h.2 hw
  | _ => exact absurd hw List.not_mem_nil

theorem Ordered.of_at? {v w : Json} (h : v.Ordered) {a : Address} (hw : v.at? a = some w) :
    w.Ordered := by
  induction a generalizing v with
  | nil => exact Option.some.inj hw ▸ h
  | cons i is ih =>
    obtain ⟨u, hu, hrest⟩ := Option.bind_eq_some_iff.mp hw
    exact ih (h.of_mem_children (List.mem_of_getElem? hu)) hrest

/-! ### Children by key and by index -/

theorem fieldPosition?_key {fields : List (String × Json)} (h : KeysOrdered fields) {i : Nat}
    (hi : i < fields.length) : fieldPosition? fields[i].1 fields = some i := by
  rw [fieldPosition?, List.findIdx?_eq_some_iff_getElem]
  refine ⟨hi, decide_eq_true rfl, fun j hj => ?_⟩
  have hless : fields[j].1 < fields[i].1 := by
    have hpairs := List.pairwise_iff_getElem.mp h j i
    simp only [List.length_map, List.getElem_map] at hpairs
    exact hpairs (hj.trans hi) hi hj
  intro hsame
  rw [of_decide_eq_true hsame] at hless
  exact String.lt_irrefl _ hless

theorem position?_of_toInt {length i : Nat} {n : Int64} (hi : i < length) (hn : n.toInt = i) :
    position? length n = some i := by
  have hstart : fromStart length n = i := by
    rw [fromStart, hn]
    split
    · omega
    · rfl
  rw [position?, hstart, if_pos (by omega), Int.toNat_natCast]

variable {v w : Json} {a : Address}

theorem getAt_of_positions (h : v.at? a = some w) {key : Key} {i : Nat}
    (hi : w.positions key = [i]) : v.getAt a key = [(a ++ [i], w.place i)] := by
  simp only [getAt, h, hi]
  rfl

/-! ### Links -/

/-- A link that a node of a document can get leads back to the node. -/
theorem leadsTo_of_link? {d : Document} {l : Link} (h : d.value.link? a = some l) :
    l.LeadsTo (backend d) a := by
  obtain ⟨parent, place⟩ := l
  obtain ⟨u, i, hu, hi, rfl, rfl⟩ := exists_parent_of_link? h
  dsimp only at hu
  have hkind : (backend d).kind parent = u.kind := by
    show ((d.value.at? parent).map kind).getD _ = _
    rw [hu]
    rfl
  have hget : ∀ key : Key, u.positions key = [i] →
      (backend d).get parent key = [(parent ++ [i], u.place i)] :=
    fun key => getAt_of_positions hu
  cases u with
  | object fields =>
    have hi' : i < fields.length := by simpa [children] using hi
    have hfield : fields[i]?.map Prod.fst = some fields[i].1 := by
      rw [List.getElem?_eq_getElem hi']
      rfl
    refine .inl ⟨hkind, rfl, fields[i].1, hfield, hget _ ?_⟩
    have hordered : (object fields).Ordered := d.ordered.of_at? hu
    rw [positions, fieldPosition?_key hordered.1 hi']
    rfl
  | array items =>
    have hi' : i < items.length := hi
    refine .inr ⟨hkind, rfl, i, rfl, ?_, fun n hn => hget _ ?_⟩
    · show (d.value.getAt parent .wildcard)[i]? = _
      simp [getAt, hu, positions, childAt, hi]
    · rw [positions, position?_of_toInt hi' hn]
      rfl
  | _ => exact absurd hi (Nat.not_lt_zero i)

end Json

namespace Context

variable {d : Json.Document} {c : Context}

theorem Truthful.leadsTo (h : c.Truthful d) {a : Address} {l : Link} (hl : c.links[a]? = some l) :
    l.LeadsTo (Json.backend d) a :=
  Json.leadsTo_of_link? (h.link a l hl)

end Context
end PathQuery
