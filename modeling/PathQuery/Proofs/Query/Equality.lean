import PathQuery.Proofs.Expression.UniqueReading
import PathQuery.Proofs.Query.Compiled

/-!
# Equality of queries

Queries are compared by canonical text. Two of them are equal exactly when their terms collapse to
the same terms and their configurations compare values alike, so an equal query has the same terms
unless one of them has a shape that is written like another one.
-/

namespace PathQuery
namespace Query

theorem beq_iff_comparisonKey (p q : Query) :
    (p == q) = true ↔ p.canonical = q.canonical ∧
      p.config.settings.tolerance.toBits = q.config.settings.tolerance.toBits ∧
        p.config.settings.strict = q.config.settings.strict := by
  change (p.comparisonKey == q.comparisonKey) = true ↔ _
  rw [beq_iff_eq]
  simp only [comparisonKey, Prod.mk.injEq]

section

variable {config config' : Configuration} {source source' : String} {p q : Query}
  (hfunctions : config.functions = .builtins) (hfunctions' : config'.functions = .builtins)
  (hp : compile config source = .ok p) (hq : compile config' source' = .ok q)
include hfunctions hfunctions' hp hq

/-- Two compiled queries are equal exactly when their terms collapse to the same terms under
configurations that compare values alike. So when nothing in them is written like something else,
equal queries have the same terms. -/
theorem beq_iff_collapseTerms :
    ((p == q) = true ↔ collapseTerms p.terms = collapseTerms q.terms ∧
      config.settings.tolerance.toBits = config'.settings.tolerance.toBits ∧
        config.settings.strict = config'.settings.strict) ∧
      ((p == q) = true → termsUnambiguous p.terms = true → termsUnambiguous q.terms = true →
        p.terms = q.terms) := by
  obtain ⟨_, hconfig, hparse⟩ := compile_eq_ok_iff.mp hp
  obtain ⟨_, hconfig', hparse'⟩ := compile_eq_ok_iff.mp hq
  rw [hfunctions] at hparse
  rw [hfunctions'] at hparse'
  obtain ⟨hne, hwf⟩ := parse_wellFormed hparse
  obtain ⟨hne', hwf'⟩ := parse_wellFormed hparse'
  have hspelled := Registry.builtins_spelled
  have hcounts := Registry.builtins_countsOnly
  have hiff : (p == q) = true ↔ collapseTerms p.terms = collapseTerms q.terms ∧
      config.settings.tolerance.toBits = config'.settings.tolerance.toBits ∧
        config.settings.strict = config'.settings.strict := by
    rw [beq_iff_comparisonKey, hconfig, hconfig', canonical, canonical,
      canonicalText_eq_iff hspelled hcounts hne hne' hwf hwf']
  refine ⟨hiff, fun hbeq hu hu' => ?_⟩
  have htext : canonicalText p.terms = canonicalText q.terms :=
    ((beq_iff_comparisonKey p q).mp hbeq).1
  have hread := parse_canonicalText hspelled hcounts hne hwf
  rw [htext, parse_canonicalText hspelled hcounts hne' hwf', rereadTerms_eq _ hwf hu,
    rereadTerms_eq _ hwf' hu'] at hread
  exact (Except.ok.inj hread).symm

end

/-- A numeral beyond every double is the literal of an infinity, and equal to the name `inf`. -/
theorem beq_iff_collapseTerms_infinity :
    ∃ p q : Query, compile .default "1e999" = .ok p ∧ compile .default "inf" = .ok q ∧
      p.terms ≠ q.terms ∧ (p == q) = true := by
  let p : Query := ⟨"1e999", [.literal (.real Binary64.infinity)], .default⟩
  let q : Query := ⟨"inf", [.path .context [.child "inf"]], .default⟩
  have hp : compile .default "1e999" = .ok p := by
    refine compile_eq_ok_iff.mpr ⟨rfl, rfl, ?_⟩
    change parse Registry.builtins.signatures "1e999" = .ok _
    decide +kernel
  have hq : compile .default "inf" = .ok q := by
    refine compile_eq_ok_iff.mpr ⟨rfl, rfl, ?_⟩
    change parse Registry.builtins.signatures "inf" = .ok _
    decide +kernel
  refine ⟨p, q, hp, hq, by simp [p, q], ?_⟩
  refine (beq_iff_collapseTerms rfl rfl hp hq).1.mpr ⟨?_, rfl, rfl⟩
  change collapseTerms [.literal (.real Binary64.infinity)] =
    collapseTerms [.path .context [.child "inf"]]
  decide +kernel

end Query
end PathQuery
