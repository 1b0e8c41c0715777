import Mathlib
import PathQuery.Text.Classes

/-!
# Classes that exclude each other

A blank is no letter and no number character, so a scanner may test for blanks first and lose no
name. The blanks are finitely many; the halving search that finds a character's place among the
listed code points brackets it, which is enough to name them all.
-/

namespace PathQuery
namespace CharSet

/-! ### The halving search -/

theorem rank_mem_range (s : CharSet) (n low high : Nat) (h : low ≤ high) :
    low ≤ s.rank n low high ∧ s.rank n low high ≤ high := by
  induction low, high using rank.induct (s := s) (n := n) with
  | case1 low high hlt middle hle ih =>
    have hr := ih (by omega)
    rw [rank, if_pos hlt, if_pos hle]
    dsimp only [middle] at hr
    omega
  | case2 low high hlt middle hle ih =>
    have hr := ih (by omega)
    rw [rank, if_pos hlt, if_neg hle]
    dsimp only [middle] at hr
    omega
  | case3 low high hlt =>
    rw [rank, if_neg hlt]
    omega

/-- The place found lies between a code point that is at most `n` and one that is greater. -/
theorem rank_bracket (s : CharSet) (n low high : Nat) (h : low ≤ high) :
    (s.rank n low high = low ∨ s.changes.getD (s.rank n low high - 1) 0 ≤ n) ∧
      (s.rank n low high = high ∨ n < s.changes.getD (s.rank n low high) 0) := by
  induction low, high using rank.induct (s := s) (n := n) with
  | case1 low high hlt middle hle ih =>
    have hr := s.rank_mem_range n (middle + 1) high (by omega)
    obtain ⟨hlow, hhigh⟩ := ih (by omega)
    rw [rank, if_pos hlt, if_pos hle]
    refine ⟨Or.inr ?_, hhigh⟩
    rcases hlow with hlow | hlow
    · rw [hlow]
      exact hle
    · exact hlow
  | case2 low high hlt middle hle ih =>
    obtain ⟨hlow, hhigh⟩ := ih (by omega)
    rw [rank, if_pos hlt, if_neg hle]
    refine ⟨hlow, Or.inr ?_⟩
    rcases hhigh with hhigh | hhigh
    · rw [hhigh]
      omega
    · exact hhigh
  | case3 low high hlt =>
    rw [rank, if_neg hlt]
    exact ⟨Or.inl rfl, Or.inl (by omega)⟩

end CharSet

/-! ### Blanks -/

/-- The blanks outside of ASCII. -/
def wideBlanks : List Nat :=
  [0x85, 0xa0, 0x1680, 0x2000, 0x2001, 0x2002, 0x2003, 0x2004, 0x2005, 0x2006, 0x2007, 0x2008,
   0x2009, 0x200a, 0x2028, 0x2029, 0x202f, 0x205f, 0x3000]

theorem mem_wideBlanks {c : Char} (hwide : 128 ≤ c.toNat) (h : blankSet.contains c = true) :
    c.toNat ∈ wideBlanks := by
  have hsize : blankSet.changes.size = 20 := rfl
  have hrange := blankSet.rank_mem_range c.toNat 0 20 (by omega)
  have hbracket := blankSet.rank_bracket c.toNat 0 20 (by omega)
  rw [CharSet.contains, hsize, beq_iff_eq] at h
  generalize blankSet.rank c.toNat 0 20 = r at h hrange hbracket
  have hr : r = 1 ∨ r = 3 ∨ r = 5 ∨ r = 7 ∨ r = 9 ∨ r = 11 ∨ r = 13 ∨ r = 15 ∨ r = 17 ∨ r = 19 := by
    omega
  simp only [wideBlanks, List.mem_cons, List.not_mem_nil, or_false]
  rcases hr with hr | hr | hr | hr | hr | hr | hr | hr | hr | hr <;> subst hr <;>
    simp [blankSet] at hbracket <;> omega

theorem not_contains_wideBlanks :
    wideBlanks.all (fun n => !alphabeticSet.contains (Char.ofNat n)) = true := by
  decide +kernel

theorem isAlphabetic_eq_false_of_isBlank {c : Char} (h : isBlank c = true) :
    isAlphabetic c = false := by
  by_cases hwide : c.toNat < 128
  · simp only [isBlank, if_pos hwide, Bool.or_eq_true, Bool.and_eq_true, decide_eq_true_eq] at h
    simp only [isAlphabetic, if_pos hwide]
    have hle : c.toNat ≤ 32 := by
      rcases h with h | h
      · subst h
        decide
      · omega
    simp [Char.isAlpha, Char.isUpper, Char.isLower, UInt32.le_iff_toNat_le,
      ← Char.toNat_val] at hle ⊢
    omega
  · simp only [isBlank, if_neg hwide] at h
    simp only [isAlphabetic, if_neg hwide]
    have hall := List.all_eq_true.mp not_contains_wideBlanks c.toNat (mem_wideBlanks (by omega) h)
    simpa using hall

end PathQuery
