import PathQuery.Proofs.Expression.Stable
import PathQuery.Proofs.Query.Equality

/-!
# Canonical texts as fixed points

The canonical text of a query can always be compiled under the same configuration. The outcome is an
equal query unless a path in it changes its start on the way, and it is one whose own canonical text
stays for good.
-/

namespace PathQuery
namespace Query

section

variable {config : Configuration} {p q : Query}

theorem beq_iff_canonical (hconfig : p.config = q.config) :
    (p == q) = true ↔ p.canonical = q.canonical := by
  rw [beq_iff_comparisonKey, hconfig]
  exact ⟨fun h => h.1, fun h => ⟨h, rfl, rfl⟩⟩

theorem compile_canonical_eq {source : String} (hfunctions : config.functions = .builtins)
    (hq : compile config source = .ok q) :
    compile config q.canonical = .ok ⟨q.canonical, rereadTerms q.terms, config⟩ := by
  obtain ⟨_, _, hparse⟩ := compile_eq_ok_iff.mp hq
  rw [hfunctions] at hparse
  obtain ⟨hne, hwf⟩ := parse_wellFormed hparse
  refine compile_eq_ok_iff.mpr ⟨rfl, rfl, ?_⟩
  rw [hfunctions]
  exact parse_canonicalText Registry.builtins_spelled Registry.builtins_countsOnly hne hwf

/-- The canonical text of a compiled query is compiled again, to a query `p` that is equal to the
first one exactly when no path changes its start; and compiling the canonical text of `p` changes
nothing any more. -/
theorem compile_canonical {source : String} (hfunctions : config.functions = .builtins)
    (hq : compile config source = .ok q) :
    ∃ p, compile config q.canonical = .ok p ∧
      ((p == q) = true ↔ termsStable q.terms = true) ∧
      (p.canonical = q.canonical ↔ termsStable q.terms = true) ∧
      ∃ p', compile config p.canonical = .ok p' ∧ p'.terms = p.terms ∧ (p' == p) = true := by
  let p : Query := ⟨q.canonical, rereadTerms q.terms, config⟩
  let p' : Query := ⟨p.canonical, rereadTerms p.terms, config⟩
  obtain ⟨_, hconfig, hparse⟩ := compile_eq_ok_iff.mp hq
  have hp : compile config q.canonical = .ok p := compile_canonical_eq hfunctions hq
  have hp' : compile config p.canonical = .ok p' := compile_canonical_eq hfunctions hp
  obtain ⟨_, _, hparse'⟩ := compile_eq_ok_iff.mp hp
  rw [hfunctions] at hparse hparse'
  obtain ⟨hne, hwf⟩ := parse_wellFormed hparse
  have hwf' : termsWellFormed Registry.builtins.signatures (rereadTerms q.terms) :=
    (parse_wellFormed hparse').2
  have htext : p.canonical = q.canonical ↔ termsStable q.terms = true :=
    canonicalText_reread_eq_iff hne hwf hwf' Registry.builtins_spelled Registry.builtins_countsOnly
  have hterms : p'.terms = p.terms := rereadTerms_idem hwf' hwf
  refine ⟨p, hp, ?_, htext, p', hp', hterms, ?_⟩
  · rw [beq_iff_canonical hconfig.symm, htext]
  · have hsame : p'.canonical = p.canonical := by rw [canonical, canonical, hterms]
    have hconfig' : p'.config = p.config := rfl
    exact (beq_iff_canonical hconfig').mpr hsame

end

/-- A path that begins with a call and goes on is written without the point before the call, and
then read as a path from the result of the call. -/
theorem compile_canonical_headCall :
    ∃ p q : Query, compile .default ".count().a" = .ok q ∧ q.canonical = "count().a" ∧
      compile .default q.canonical = .ok p ∧ p.canonical = "(count()).a" ∧ (p == q) = false := by
  let q : Query := ⟨".count().a", [.path .context [.call "count" [], .child "a"]], .default⟩
  have hq : compile .default ".count().a" = .ok q := by
    refine compile_eq_ok_iff.mpr ⟨rfl, rfl, ?_⟩
    change parse Registry.builtins.signatures ".count().a" = .ok _
    decide +kernel
  obtain ⟨p, hp, hbeq, _⟩ := compile_canonical rfl hq
  have hcanonical : p.canonical = "(count()).a" := by
    rw [compile_canonical_eq rfl hq] at hp
    cases hp
    change canonicalText (rereadTerms q.terms) = _
    decide +kernel
  refine ⟨p, q, hq, ?_, hp, hcanonical, ?_⟩
  · change canonicalText q.terms = _
    decide +kernel
  · have hunstable : termsStable q.terms = false := by decide +kernel
    rw [← Bool.not_eq_true, hbeq, hunstable]
    exact Bool.false_ne_true

end Query
end PathQuery
