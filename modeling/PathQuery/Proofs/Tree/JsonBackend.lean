import PathQuery.Tree.JsonBackend
import PathQuery.Proofs.Eval.Walk

/-!
# Nodes of JSON documents

The nodes below a node of a document are those whose addresses continue its own.
-/

namespace PathQuery
namespace Json

/-- The second address is of a node of the value strictly below the first. -/
def IsBelow (v : Json) (a b : Address) : Prop := a <+: b ∧ a ≠ b ∧ (v.at? b).isSome = true

theorem isSome_of_isPrefix {v : Json} {a b : Address} (h : a <+: b) (hb : (v.at? b).isSome = true) :
    (v.at? a).isSome = true := by
  obtain ⟨s, rfl⟩ := h
  rw [at?_append] at hb
  exact Option.isSome_of_isSome_bind hb

theorem mem_below_backend {d : Document} {a c : Address} :
    c ∈ (backend d).below a ↔ ∃ i, c = a ++ [i] ∧ (d.value.at? c).isSome = true := by
  show c ∈ (d.value.getAt a .wildcard).map Prod.fst ↔ _
  unfold getAt
  cases ha : d.value.at? a with
  | none =>
    refine ⟨fun h => absurd h List.not_mem_nil, ?_⟩
    rintro ⟨i, rfl, hc⟩
    rw [at?_append, ha] at hc
    cases hc
  | some w =>
    have hchild : ∀ i, (d.value.at? (a ++ [i])).isSome = true ↔ i < w.children.length := by
      intro i
      rw [at?_append, ha]
      simp [at?]
    simp only [positions, List.map_map, List.mem_map, List.mem_range, Function.comp_apply, childAt]
    constructor
    · rintro ⟨i, hi, rfl⟩
      exact ⟨i, rfl, (hchild i).mpr hi⟩
    · rintro ⟨i, rfl, hc⟩
      exact ⟨i, (hchild i).mp hc, rfl⟩

theorem mem_listing_backend {d : Document} {a b : Address} :
    b ∈ (backend d).listing a ↔ b = a ∨ d.value.IsBelow a b := by
  induction a using (backend d).node_induction with
  | h a ih =>
    rw [Backend.listing_eq, List.mem_cons, List.mem_flatMap]
    apply or_congr Iff.rfl
    constructor
    · rintro ⟨c, hc, hb⟩
      obtain ⟨i, rfl, hsome⟩ := mem_below_backend.mp hc
      have hleads : a ++ [i] <+: b := by
        rcases (ih _ hc).mp hb with rfl | hbelow
        · exact List.prefix_refl _
        · exact hbelow.1
      refine ⟨(List.prefix_append a [i]).trans hleads, ?_, ?_⟩
      · intro heq
        have hlength := hleads.length_le
        rw [← heq, List.length_append, List.length_singleton] at hlength
        omega
      · rcases (ih _ hc).mp hb with rfl | hbelow
        · exact hsome
        · exact hbelow.2.2
    · rintro ⟨⟨s, rfl⟩, hne, hsome⟩
      cases s with
      | nil => exact absurd (List.append_nil a).symm hne
      | cons i s =>
        have hleads : a ++ [i] <+: a ++ i :: s := ⟨s, by simp⟩
        have hc := mem_below_backend.mpr ⟨i, rfl, isSome_of_isPrefix hleads hsome⟩
        refine ⟨a ++ [i], hc, (ih _ hc).mpr ?_⟩
        by_cases heq : a ++ i :: s = a ++ [i]
        · exact .inl heq
        · exact .inr ⟨hleads, Ne.symm heq, hsome⟩

theorem mem_listings_below_backend {d : Document} {a b : Address} :
    b ∈ ((backend d).below a).flatMap (backend d).listing ↔ d.value.IsBelow a b := by
  have hmem := mem_listing_backend (d := d) (a := a) (b := b)
  rw [Backend.listing_eq, List.mem_cons] at hmem
  constructor
  · intro hb
    rcases hmem.mp (.inr hb) with rfl | hbelow
    · exact absurd hb ((backend d).not_mem_listings_below b)
    · exact hbelow
  · intro hbelow
    rcases hmem.mpr (.inr hbelow) with rfl | hb
    · exact absurd rfl hbelow.2.1
    · exact hb

end Json
end PathQuery
