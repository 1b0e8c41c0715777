import PathQuery.Eval.Builtin
import PathQuery.Proofs.Expression.Produced
import PathQuery.Proofs.Expression.ReadBack
import PathQuery.Proofs.Expression.Reading
import PathQuery.Proofs.Expression.Sameness

/-!
# Canonical texts read back

Three shapes of terms are written like other terms: an infinite literal like a name, a bare `*` in
brackets like the selector of every element, and a call at the head of a path like a call of its
own. A term without these is read back from its canonical text as it is.
-/

namespace PathQuery

/-! ### Terms that are read back -/

/-- Whether the literal is an infinity, which no numeral of a canonical text can be. -/
def Scalar.isInfinite : Scalar → Bool
  | .real r => r.isInf
  | _ => false

def Term.isStar : Term → Bool
  | .path .context [.wildcard] => true
  | _ => false

/-- Whether a path begins with a call as its first segment. -/
def beginsWithCall : Start → List Segment → Bool
  | .context, .call _ _ :: _ => true
  | _, _ => false

mutual

/-- Whether nothing in the term is written like something else. -/
def Term.isUnambiguous : Term → Bool
  | .literal v => !v.isInfinite
  | .path start segments =>
    !beginsWithCall start segments && start.isUnambiguous && segmentsUnambiguous segments
  | .call _ args => termsUnambiguous args
  | .unary _ t => t.isUnambiguous
  | .binary _ l r => l.isUnambiguous && r.isUnambiguous
  | .ternary a b c => a.isUnambiguous && b.isUnambiguous && c.isUnambiguous
  | .list ts => termsUnambiguous ts

def Start.isUnambiguous : Start → Bool
  | .term t => t.isUnambiguous
  | _ => true

def Segment.isUnambiguous : Segment → Bool
  | .recursive inner => inner.isUnambiguous
  | .filter t => t.isUnambiguous
  | .predicate t => !t.isStar && t.isUnambiguous
  | .call _ args => termsUnambiguous args
  | _ => true

def segmentsUnambiguous : List Segment → Bool
  | [] => true
  | s :: ss => s.isUnambiguous && segmentsUnambiguous ss

def termsUnambiguous : List Term → Bool
  | [] => true
  | t :: ts => t.isUnambiguous && termsUnambiguous ts

end

/-! ### Reading back -/

theorem realTerm_eq {r : Float} (hnan : r.isNaN = false) (hfinite : r.isInf = false) :
    realTerm r = .literal (.real r) := by
  cases hx : Binary64.ofFloat? r with
  | some x => exact realTerm_of_ofFloat? hx
  | none =>
    rcases Binary64.infinite_cases hx hnan with rfl | rfl
    · exact absurd hfinite (by decide +kernel)
    · exact absurd hfinite (by decide +kernel)

theorem bracketed_of_ne_star {t : Term} (ht : t.isStar = false) (t' : Term) :
    bracketed t t' = .predicate t' := by
  unfold bracketed
  split
  · cases ht
  · rfl

theorem extendPath_of_not_isPath {t : Term} (ht : t.isPath = false) {ss : List Segment}
    (hss : ss ≠ []) : Parser.extendPath t ss = .path (.term t) ss := by
  obtain ⟨s, ss', rfl⟩ := List.exists_cons_of_ne_nil hss
  cases t with
  | path start segments => cases ht
  | _ => rfl

theorem extendPath_headTerm {s : Segment} (ss : List Segment)
    (hs : beginsWithCall .context (s :: ss) = false) :
    Parser.extendPath (headTerm s) ss = .path .context (s :: ss) := by
  cases s with
  | call name args => cases hs
  | _ => cases ss <;> rfl

section

variable {check? : Signatures}

mutual

theorem Term.reread_eq (t : Term) (h : t.WellFormed check?) (hu : t.isUnambiguous = true) :
    t.reread = t := by
  match t with
  | .literal v =>
    cases v with
    | real r =>
      simp only [Term.WellFormed, Scalar.WellFormed] at h
      simp only [Term.isUnambiguous, Scalar.isInfinite, Bool.not_eq_true'] at hu
      exact realTerm_eq h hu
    | _ => rfl
  | .path start segments =>
    simp only [Term.WellFormed] at h
    simp only [Term.isUnambiguous, Bool.and_eq_true, Bool.not_eq_true'] at hu
    obtain ⟨hstart, hsegments, hne⟩ := h
    obtain ⟨⟨hcall, hustart⟩, husegments⟩ := hu
    have hreread := rereadSegments_eq segments hsegments husegments
    match start with
    | .root => rw [Term.reread, hreread]
    | .current => rw [Term.reread, hreread]
    | .context =>
      cases segments with
      | nil => rfl
      | cons s ss =>
        rw [rereadSegments, List.cons.injEq] at hreread
        rw [Term.reread, hreread.1, hreread.2]
        -- a call at the head of a path would be read as a term
        exact extendPath_headTerm ss hcall
    | .term t =>
      simp only [Start.WellFormed] at hstart
      simp only [Start.isUnambiguous] at hustart
      rw [Term.reread, hreread, Term.reread_eq t hstart.1 hustart]
      exact extendPath_of_not_isPath hstart.2 (hne rfl)
  | .call name args =>
    simp only [Term.WellFormed] at h
    simp only [Term.isUnambiguous] at hu
    rw [Term.reread, rereadTerms_eq args h.2 hu]
  | .unary op t =>
    simp only [Term.WellFormed] at h
    simp only [Term.isUnambiguous] at hu
    rw [Term.reread, Term.reread_eq t h.1 hu]
  | .binary op l r =>
    simp only [Term.WellFormed] at h
    simp only [Term.isUnambiguous, Bool.and_eq_true] at hu
    rw [Term.reread, Term.reread_eq l h.1 hu.1, Term.reread_eq r h.2 hu.2]
  | .ternary a b c =>
    simp only [Term.WellFormed] at h
    simp only [Term.isUnambiguous, Bool.and_eq_true] at hu
    rw [Term.reread, Term.reread_eq a h.1 hu.1.1, Term.reread_eq b h.2.1 hu.1.2,
      Term.reread_eq c h.2.2 hu.2]
  | .list ts =>
    simp only [Term.WellFormed] at h
    simp only [Term.isUnambiguous] at hu
    rw [Term.reread, rereadTerms_eq ts h.2 hu]

theorem Segment.reread_eq (s : Segment) (h : s.WellFormed check?) (hu : s.isUnambiguous = true) :
    s.reread = s := by
  match s with
  | .recursive inner =>
    simp only [Segment.WellFormed] at h
    simp only [Segment.isUnambiguous] at hu
    rw [Segment.reread, Segment.reread_eq inner h.1 hu]
  | .filter t =>
    simp only [Segment.WellFormed] at h
    simp only [Segment.isUnambiguous] at hu
    rw [Segment.reread, Term.reread_eq t h hu]
  | .predicate t =>
    simp only [Segment.WellFormed] at h
    simp only [Segment.isUnambiguous, Bool.and_eq_true, Bool.not_eq_true'] at hu
    rw [Segment.reread, Term.reread_eq t h.1 hu.2, bracketed_of_ne_star hu.1]
  | .call name args =>
    simp only [Segment.WellFormed] at h
    simp only [Segment.isUnambiguous] at hu
    rw [Segment.reread, rereadTerms_eq args h.2 hu]
  | .child _ | .index _ | .anyIndex | .wildcard | .recursiveWildcard | .slice .. => rfl

theorem rereadSegments_eq (ss : List Segment) (h : segmentsWellFormed check? ss)
    (hu : segmentsUnambiguous ss = true) : rereadSegments ss = ss := by
  match ss with
  | [] => rfl
  | s :: ss =>
    simp only [segmentsWellFormed] at h
    simp only [segmentsUnambiguous, Bool.and_eq_true] at hu
    rw [rereadSegments, Segment.reread_eq s h.1 hu.1, rereadSegments_eq ss h.2 hu.2]

theorem rereadTerms_eq (ts : List Term) (h : termsWellFormed check? ts)
    (hu : termsUnambiguous ts = true) : rereadTerms ts = ts := by
  match ts with
  | [] => rfl
  | t :: ts =>
    simp only [termsWellFormed] at h
    simp only [termsUnambiguous, Bool.and_eq_true] at hu
    rw [rereadTerms, Term.reread_eq t h.1 hu.1, rereadTerms_eq ts h.2 hu.2]

end

end

/-! ### The built-in functions -/

/-- All but the one that rounds answer to their name only. -/
theorem Builtin.eq_plain_or_rounding {f : Function} (hf : f ∈ Builtin.all) :
    (∃ name arity run, f = Builtin.plain name arity run) ∨ f = Builtin.rounding := by
  simp only [Builtin.all, List.mem_cons, List.not_mem_nil, or_false] at hf
  rcases hf with rfl | rfl | rfl | rfl | rfl | rfl | rfl | rfl | rfl | rfl | rfl | rfl | rfl | rfl |
    rfl | rfl | rfl | rfl | rfl | rfl | rfl | rfl | rfl | rfl
  on_goal 5 => exact .inr rfl
  all_goals exact .inl ⟨_, _, _, rfl⟩

theorem Builtin.exists_verify_eq {f : Function} (hf : f ∈ Builtin.all) :
    ∃ arity, f.verify = Builtin.counted arity := by
  rcases Builtin.eq_plain_or_rounding hf with ⟨name, arity, run, rfl⟩ | rfl
  · exact ⟨arity, rfl⟩
  · exact ⟨Builtin.optional, rfl⟩

theorem Builtin.isNameText_name :
    ∀ f ∈ Builtin.all, Lexer.isNameText f.name.toList = true := by
  decide +kernel

theorem Builtin.isNameText_of_answersTo {f : Function} (hf : f ∈ Builtin.all) {asked : String}
    (h : f.answersTo asked = true) : Lexer.isNameText asked.toList = true := by
  rcases Builtin.eq_plain_or_rounding hf with ⟨name, arity, run, rfl⟩ | rfl
  · cases beq_iff_eq.mp h
    exact Builtin.isNameText_name _ hf
  · simp only [Builtin.rounding, Builtin.answering, Bool.or_eq_true, beq_iff_eq] at h
    rcases h with (rfl | rfl) | rfl <;> decide

theorem Registry.builtins_spelled : Registry.builtins.signatures.Spelled := by
  intro name verify h
  obtain ⟨f, hfind, _⟩ := Option.map_eq_some_iff.mp h
  obtain ⟨hf, rfl | hanswers⟩ := Registry.of_find? hfind
  · exact Builtin.isNameText_name f hf
  · exact Builtin.isNameText_of_answersTo hf hanswers

theorem Registry.builtins_countsOnly : Registry.builtins.signatures.CountsOnly := by
  rintro name args args' hlength ⟨verify, hverify, hnone⟩
  refine ⟨verify, hverify, ?_⟩
  obtain ⟨f, hfind, rfl⟩ := Option.map_eq_some_iff.mp hverify
  obtain ⟨arity, hcounted⟩ := Builtin.exists_verify_eq (Registry.mem_of_find? hfind)
  rw [hcounted, Builtin.counted] at hnone ⊢
  rwa [hlength]

/-- What an accepted text is parsed into is what its canonical text is parsed into, as long as
nothing in it is written like something else. -/
theorem parse_canonicalText_of_parse {source : String} {ts : List Term}
    (h : parse Registry.builtins.signatures source = .ok ts)
    (hu : termsUnambiguous ts = true) :
    parse Registry.builtins.signatures (canonicalText ts) = .ok ts := by
  obtain ⟨hne, hwf⟩ := parse_wellFormed h
  rw [parse_canonicalText Registry.builtins_spelled Registry.builtins_countsOnly hne hwf,
    rereadTerms_eq ts hwf hu]

theorem parse_canonicalText_of_parse_slice :
    let ts := [Term.binary .pow
      (.path (.term (.literal (.real (-1.5)))) [.slice (some 1) (some (-1)) none, .call "count" []])
      (.list [.path .root [.recursive (.child "a b")], .unary .not (.path .context [.wildcard])])]
    parse Registry.builtins.signatures "(-1.5)[1:-1].count()** ($..['a b'],!*)" = .ok ts ∧
      parse Registry.builtins.signatures (canonicalText ts) = .ok ts := by
  intro ts
  have h : parse Registry.builtins.signatures "(-1.5)[1:-1].count()** ($..['a b'],!*)" =
      .ok ts := by
    decide +kernel
  exact ⟨h, parse_canonicalText_of_parse h (by decide +kernel)⟩

end PathQuery
