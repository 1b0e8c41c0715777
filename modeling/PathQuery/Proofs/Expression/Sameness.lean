import Mathlib
import PathQuery.Expression.Term

/-!
# Structural equality

The comparison of terms decides whether they are the same tree, so terms can be compared like any
other data.
-/

namespace PathQuery

mutual

theorem Term.sameAs_iff (t t' : Term) : t.sameAs t' = true ↔ t = t' := by
  match t with
  | .literal v =>
    cases t' <;> simp only [Term.sameAs, decide_eq_true_eq, Term.literal.injEq, Bool.false_eq_true,
      reduceCtorEq]
  | .path s ss =>
    cases t' <;> simp only [Term.sameAs, Bool.and_eq_true, Start.sameAs_iff s, sameSegments_iff ss,
      Term.path.injEq, Bool.false_eq_true, reduceCtorEq]
  | .call n ts =>
    cases t' <;> simp only [Term.sameAs, Bool.and_eq_true, decide_eq_true_eq, sameTerms_iff ts,
      Term.call.injEq, Bool.false_eq_true, reduceCtorEq]
  | .unary o u =>
    cases t' <;> simp only [Term.sameAs, Bool.and_eq_true, decide_eq_true_eq, Term.sameAs_iff u,
      Term.unary.injEq, Bool.false_eq_true, reduceCtorEq]
  | .binary o l r =>
    cases t' <;> simp only [Term.sameAs, Bool.and_eq_true, decide_eq_true_eq, Term.sameAs_iff l,
      Term.sameAs_iff r, Term.binary.injEq, Bool.false_eq_true, reduceCtorEq, and_assoc]
  | .ternary a b c =>
    cases t' <;> simp only [Term.sameAs, Bool.and_eq_true, Term.sameAs_iff a, Term.sameAs_iff b,
      Term.sameAs_iff c, Term.ternary.injEq, Bool.false_eq_true, reduceCtorEq, and_assoc]
  | .list ts =>
    cases t' <;> simp only [Term.sameAs, sameTerms_iff ts, Term.list.injEq, Bool.false_eq_true,
      reduceCtorEq]

theorem Start.sameAs_iff (s s' : Start) : s.sameAs s' = true ↔ s = s' := by
  match s with
  | .root | .current | .context =>
    cases s' <;> simp only [Start.sameAs, Bool.false_eq_true, reduceCtorEq]
  | .term t =>
    cases s' <;> simp only [Start.sameAs, Term.sameAs_iff t, Start.term.injEq, Bool.false_eq_true,
      reduceCtorEq]

theorem Segment.sameAs_iff (s s' : Segment) : s.sameAs s' = true ↔ s = s' := by
  match s with
  | .child n =>
    cases s' <;> simp only [Segment.sameAs, decide_eq_true_eq, Segment.child.injEq,
      Bool.false_eq_true, reduceCtorEq]
  | .index i =>
    cases s' <;> simp only [Segment.sameAs, decide_eq_true_eq, Segment.index.injEq,
      Bool.false_eq_true, reduceCtorEq]
  | .anyIndex | .wildcard | .recursiveWildcard =>
    cases s' <;> simp only [Segment.sameAs, Bool.false_eq_true, reduceCtorEq]
  | .recursive inner =>
    cases s' <;> simp only [Segment.sameAs, Segment.sameAs_iff inner, Segment.recursive.injEq,
      Bool.false_eq_true, reduceCtorEq]
  | .slice a b c =>
    cases s' <;> simp only [Segment.sameAs, decide_eq_true_eq, Segment.slice.injEq,
      Bool.false_eq_true, reduceCtorEq]
  | .filter t =>
    cases s' <;> simp only [Segment.sameAs, Term.sameAs_iff t, Segment.filter.injEq,
      Bool.false_eq_true, reduceCtorEq]
  | .predicate t =>
    cases s' <;> simp only [Segment.sameAs, Term.sameAs_iff t, Segment.predicate.injEq,
      Bool.false_eq_true, reduceCtorEq]
  | .call n ts =>
    cases s' <;> simp only [Segment.sameAs, Bool.and_eq_true, decide_eq_true_eq, sameTerms_iff ts,
      Segment.call.injEq, Bool.false_eq_true, reduceCtorEq]

theorem sameTerms_iff (ts ts' : List Term) : sameTerms ts ts' = true ↔ ts = ts' := by
  match ts with
  | [] => cases ts' <;> simp only [sameTerms, Bool.false_eq_true, reduceCtorEq]
  | t :: ts =>
    cases ts' <;> simp only [sameTerms, Bool.and_eq_true, Term.sameAs_iff t, sameTerms_iff ts,
      List.cons.injEq, Bool.false_eq_true, reduceCtorEq]

theorem sameSegments_iff (ss ss' : List Segment) : sameSegments ss ss' = true ↔ ss = ss' := by
  match ss with
  | [] => cases ss' <;> simp only [sameSegments, Bool.false_eq_true, reduceCtorEq]
  | s :: ss =>
    cases ss' <;> simp only [sameSegments, Bool.and_eq_true, Segment.sameAs_iff s,
      sameSegments_iff ss, List.cons.injEq, Bool.false_eq_true, reduceCtorEq]

end

instance : DecidableEq Term := fun t t' => decidable_of_iff _ (t.sameAs_iff t')

end PathQuery
