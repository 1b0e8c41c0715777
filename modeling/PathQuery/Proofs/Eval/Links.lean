import PathQuery.Eval.Context
import PathQuery.Proofs.Tree.JsonBackend

/-!
# What a context knows

A context links a node to its parent when it hands the node out. Over a JSON document there is only
one link that a node can get, so two contexts that both know a node agree on it, however they came
to know it.
-/

namespace PathQuery

/-! ### Links in a document -/

namespace Json

/-- The link of the node at an address: its parent, and its place there. The root has none. -/
def link? (v : Json) (a : Address) : Option Link :=
  match a.getLast? with
  | none => none
  | some i =>
    (v.at? a.dropLast).bind fun w =>
      if i < w.children.length then some ⟨a.dropLast, w.place i⟩ else none

theorem link?_child {v w : Json} {a : Address} (h : v.at? a = some w) {i : Nat}
    (hi : i < w.children.length) : v.link? (a ++ [i]) = some ⟨a, w.place i⟩ := by
  simp [link?, h, hi]

theorem exists_parent_of_link? {v : Json} {a : Address} {l : Link} (h : v.link? a = some l) :
    ∃ w i, v.at? l.parent = some w ∧ i < w.children.length ∧ a = l.parent ++ [i] ∧
      l.place = w.place i := by
  unfold link? at h
  split at h
  · cases h
  · next i hlast =>
    obtain ⟨w, hw, hl⟩ := Option.bind_eq_some_iff.mp h
    split at hl
    · next hi =>
      cases hl
      exact ⟨w, i, hw, hi, (List.dropLast_append_getLast? i hlast).symm, rfl⟩
    · cases hl

theorem exists_of_link? {v : Json} {a : Address} {l : Link} (h : v.link? a = some l) :
    (v.at? a).isSome = true := by
  obtain ⟨w, i, hw, hi, ha, _⟩ := exists_parent_of_link? h
  rw [ha, at?_append, hw]
  simp [at?, hi]

theorem lt_of_mem_positions {v : Json} {key : Key} {i : Nat} (h : i ∈ v.positions key) :
    i < v.children.length := by
  have hfield : ∀ {k : String} {fields : List (String × Json)},
      i ∈ (fieldPosition? k fields).toList → i < (Json.object fields).children.length := by
    intro k fields hi
    rw [Option.mem_toList] at hi
    obtain ⟨hlt, _⟩ := List.findIdx?_eq_some_iff_getElem.mp hi
    simpa [children] using hlt
  cases key with
  | wildcard => simpa [positions] using h
  | name n =>
    cases v with
    | object fields => exact hfield h
    | _ => cases h
  | index n =>
    cases v with
    | object fields => exact hfield h
    | array items => exact position?_lt (Option.mem_toList.mp h)
    | _ => cases h

theorem link?_of_mem_getAt {v : Json} {a : Address} {key : Key} {f : Address × Place}
    (h : f ∈ v.getAt a key) : v.link? f.1 = some ⟨a, f.2⟩ := by
  unfold getAt at h
  cases hw : v.at? a with
  | none =>
    rw [hw] at h
    cases h
  | some w =>
    rw [hw] at h
    obtain ⟨i, hi, rfl⟩ := List.mem_map.mp h
    exact link?_child hw (lt_of_mem_positions hi)

end Json

/-! ### Known nodes -/

namespace Context

/-- Whether a context has handed out a node; the root is known from the start. -/
def Knows (c : Context) (a : Address) : Prop := a = [] ∨ a ∈ c.links

def KnowsAll (c : Context) (items : List Item) : Prop := ∀ a, .node a ∈ items → c.Knows a

/-- The links of a context are those of the document, and it knows the parents they lead to. -/
structure Truthful (c : Context) (d : Json.Document) : Prop where
  link : ∀ (a : Address) (l : Link), c.links[a]? = some l → d.value.link? a = some l
  parent : ∀ (a : Address) (l : Link), c.links[a]? = some l → c.Knows l.parent

/-- A context that evaluation over the document leads to from another one: the list in force and the
scopes are as before, and nothing is forgotten. -/
structure Extends (d : Json.Document) (c c' : Context) : Prop where
  items : c'.items = c.items
  index : c'.index = c.index
  scopes : c'.scopes = c.scopes
  knows : ∀ a, c.Knows a → c'.Knows a
  truthful : c'.Truthful d

section

variable {d : Json.Document} {c c' : Context}

theorem knows_congr (hlinks : c'.links = c.links) {a : Address} : c'.Knows a ↔ c.Knows a := by
  rw [Knows, Knows, hlinks]

theorem knowsAll_append {items items' : List Item} :
    c.KnowsAll (items ++ items') ↔ c.KnowsAll items ∧ c.KnowsAll items' := by
  simp only [KnowsAll, List.mem_append, or_imp, forall_and]

theorem Truthful.of_links (h : c.Truthful d) (hlinks : c'.links = c.links) : c'.Truthful d := by
  constructor
  · intro a l hl
    rw [hlinks] at hl
    exact h.link a l hl
  · intro a l hl
    rw [hlinks] at hl
    exact (knows_congr hlinks).mpr (h.parent a l hl)

theorem truthful_initial : initial.Truthful d := by
  constructor
  all_goals
    intro a l h
    rw [initial, Std.TreeMap.getElem?_emptyc] at h
    cases h

theorem Truthful.links_root (h : c.Truthful d) : c.links[([] : Address)]? = none := by
  cases hroot : c.links[([] : Address)]? with
  | none => rfl
  | some l =>
    have hlink := h.link [] l hroot
    cases hlink

theorem Truthful.links_eq (h : c.Truthful d) {a : Address} (ha : c.Knows a) :
    c.links[a]? = d.value.link? a := by
  rcases ha with rfl | ha
  · exact h.links_root
  · obtain ⟨l, hl⟩ := Option.isSome_iff_exists.mp (Std.TreeMap.mem_iff_isSome_getElem?.mp ha)
    rw [hl, h.link a l hl]

theorem Truthful.parent?_eq (h : c.Truthful d) {a : Address} (ha : c.Knows a) :
    c.parent? a = (d.value.link? a).map (·.parent) := by
  rw [parent?, h.links_eq ha]

theorem Truthful.key?_eq (h : c.Truthful d) {a : Address} (ha : c.Knows a) :
    c.key? a = (d.value.link? a).bind (·.place.key) := by
  rw [key?, h.links_eq ha]

theorem Truthful.index?_eq (h : c.Truthful d) {a : Address} (ha : c.Knows a) :
    c.index? a = (d.value.link? a).bind (·.place.index) := by
  rw [index?, h.links_eq ha]

theorem Truthful.knows_parent (h : c.Truthful d) {a p : Address} (hp : c.parent? a = some p) :
    c.Knows p := by
  obtain ⟨l, hl, rfl⟩ := Option.map_eq_some_iff.mp hp
  exact h.parent a l hl

theorem Extends.refl (h : c.Truthful d) : c.Extends d c := ⟨rfl, rfl, rfl, fun _ ha => ha, h⟩

theorem Extends.trans {c'' : Context} (h : c.Extends d c') (h' : c'.Extends d c'') :
    c.Extends d c'' :=
  ⟨h'.items.trans h.items, h'.index.trans h.index, h'.scopes.trans h.scopes,
    fun a ha => h'.knows a (h.knows a ha), h'.truthful⟩

theorem Extends.knowsAll (h : c.Extends d c') {items : List Item} (hitems : c.KnowsAll items) :
    c'.KnowsAll items :=
  fun a ha => h.knows a (hitems a ha)

theorem Extends.withIndex (h : c.Extends d c') (index : Option Nat) :
    Extends d { c with index := index } { c' with index := index } :=
  ⟨h.items, rfl, h.scopes, h.knows, h.truthful.link, h.truthful.parent⟩

/-! ### Handing out nodes -/

theorem knows_insertIfNew {a x : Address} {l : Link} :
    Knows { c with links := c.links.insertIfNew x l } a ↔ a = x ∨ c.Knows a := by
  simp only [Knows, Std.TreeMap.mem_insertIfNew, Std.compare_eq_iff_eq]
  rw [or_left_comm, eq_comm (a := x)]

theorem extends_insertIfNew (h : c.Truthful d) {x : Address} {l : Link}
    (hl : d.value.link? x = some l) (hparent : c.Knows l.parent) :
    c.Extends d { c with links := c.links.insertIfNew x l } := by
  have hknows : ∀ a, c.Knows a → Knows { c with links := c.links.insertIfNew x l } a :=
    fun a ha => knows_insertIfNew.mpr (.inr ha)
  have hlinks : ∀ (a : Address) (k : Link), (c.links.insertIfNew x l)[a]? = some k →
      a = x ∧ k = l ∨ c.links[a]? = some k := by
    intro a k hk
    rw [Std.TreeMap.getElem?_insertIfNew] at hk
    split at hk
    · next hx => exact .inl ⟨(Std.compare_eq_iff_eq.mp hx.1).symm, (Option.some.inj hk).symm⟩
    · exact .inr hk
  refine ⟨rfl, rfl, rfl, hknows, ?_, ?_⟩
  · intro a k hk
    rcases hlinks a k hk with ⟨rfl, rfl⟩ | hk
    · exact hl
    · exact h.link a k hk
  · intro a k hk
    rcases hlinks a k hk with ⟨rfl, rfl⟩ | hk
    · exact hknows _ hparent
    · exact hknows _ (h.parent a k hk)

theorem extends_record (h : c.Truthful d) {p : Address} (hp : c.Knows p)
    {found : List (Address × Place)}
    (hfound : ∀ f ∈ found, d.value.link? f.1 = some ⟨p, f.2⟩) :
    c.Extends d (c.record p found) ∧ ∀ f ∈ found, (c.record p found).Knows f.1 := by
  induction found generalizing c with
  | nil => exact ⟨.refl h, fun f hf => absurd hf List.not_mem_nil⟩
  | cons f found ih =>
    have hfirst := extends_insertIfNew h (hfound f List.mem_cons_self) hp
    obtain ⟨hrest, hknown⟩ := ih hfirst.truthful (hfirst.knows p hp)
      fun g hg => hfound g (List.mem_cons_of_mem _ hg)
    refine ⟨hfirst.trans hrest, ?_⟩
    intro g hg
    rcases List.mem_cons.mp hg with rfl | hg
    · exact hrest.knows _ (knows_insertIfNew.mpr (.inl rfl))
    · exact hknown g hg

end

end Context
end PathQuery
