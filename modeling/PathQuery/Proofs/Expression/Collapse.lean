import PathQuery.Proofs.Expression.RoundTrip

/-!
# Terms that are written alike

`Term.collapse` replaces each shape that is written like another one by that one: an infinite
literal by the name `inf`, a bare `*` in brackets by the selector of every element, and a path that
is nothing but a call by the call. Two terms have the same canonical text exactly when they are the
same after that.
-/

namespace PathQuery

/-! ### Collapsed terms -/

/-- The path that an infinity is written like. -/
def infinityName : Term := Parser.contextPath [.child "inf"]

def Scalar.collapse : Scalar → Term
  | .real r =>
    if r.isInf then if r < 0.0 then .unary .neg infinityName else infinityName
    else .literal (.real r)
  | v => .literal v

def collapsePath : Start → List Segment → Term
  | .context, [.call name args] => .call name args
  | start, segments => .path start segments

mutual

/-- The term with every shape replaced that is written like another one. -/
def Term.collapse : Term → Term
  | .literal v => v.collapse
  | .path start segments => collapsePath start.collapse (collapseSegments segments)
  | .call name args => .call name (collapseTerms args)
  | .unary op t => .unary op t.collapse
  | .binary op l r => .binary op l.collapse r.collapse
  | .ternary a b c => .ternary a.collapse b.collapse c.collapse
  | .list ts => .list (collapseTerms ts)

def Start.collapse : Start → Start
  | .term t => .term t.collapse
  | s => s

def Segment.collapse : Segment → Segment
  | .recursive inner => .recursive inner.collapse
  | .filter t => .filter t.collapse
  | .predicate t => bracketed t t.collapse
  | .call name args => .call name (collapseTerms args)
  | s => s

def collapseSegments : List Segment → List Segment
  | [] => []
  | s :: ss => s.collapse :: collapseSegments ss

def collapseTerms : List Term → List Term
  | [] => []
  | t :: ts => t.collapse :: collapseTerms ts

end

/-! ### Literals -/

theorem Binary64.isInf_eq_false_of_ofFloat? {r : Float} {x : Binary64}
    (h : Binary64.ofFloat? r = some x) : r.isInf = false := by
  have hunpack := Binary64.unpack_of_ofFloat? h
  simp only [Float.isInf, Float.Model.isInf, hunpack, Binary64.unpacked]
  split <;> rfl

/-- What the text of a literal is read as: the literal, or the name of an infinity. -/
theorem Scalar.reread_cases {v : Scalar} (hv : v.WellFormed) :
    v.reread = .literal v ∨
      (v.reread = infinityName ∧ ∀ b, v.signs b = [(.name "inf", b)]) ∨
      (v.reread = .unary .neg infinityName ∧
        ∀ b, v.signs b = [Symbol.minus.sign b, (.name "inf", false)]) := by
  cases v with
  | real r =>
    simp only [Scalar.WellFormed] at hv
    cases hx : Binary64.ofFloat? r with
    | some x => exact .inl (realTerm_of_ofFloat? hx)
    | none =>
      right
      simp only [Scalar.reread, realTerm, Scalar.signs, realSigns, hx, hv, Bool.false_eq_true,
        if_false]
      by_cases hlt : r < 0.0
      · simp only [hlt, if_true]
        exact .inr ⟨rfl, fun _ => trivial⟩
      · simp only [hlt, if_false]
        exact .inl ⟨rfl, fun _ => trivial⟩
  | _ => exact .inl rfl

theorem Scalar.collapse_eq_reread {v : Scalar} (hv : v.WellFormed) : v.collapse = v.reread := by
  cases v with
  | real r =>
    simp only [Scalar.WellFormed] at hv
    simp only [Scalar.collapse, Scalar.reread]
    cases hx : Binary64.ofFloat? r with
    | some x =>
      rw [Binary64.isInf_eq_false_of_ofFloat? hx, realTerm_of_ofFloat? hx]
      rfl
    | none =>
      have hinf : r.isInf = true := by
        rcases Binary64.infinite_cases hx hv with rfl | rfl <;> decide +kernel
      simp only [realTerm, hx, hv, hinf, Bool.false_eq_true, if_false, if_true]
      rfl
  | _ => rfl

/-! ### Terms by what they are read as -/

section

variable {check? : Signatures} {t : Term} {start : Start} {ss : List Segment}

theorem eq_star_of_isStar (h : t.isStar = true) : t = .path .context [.wildcard] := by
  unfold Term.isStar at h
  split at h
  · rfl
  · cases h

theorem bracketed_of_star (h : t.isStar = true) (u : Term) : bracketed t u = .anyIndex := by
  rw [eq_star_of_isStar h]
  rfl

theorem extendPath_headTerm_cases (s : Segment) (ss : List Segment) :
    (Parser.extendPath (headTerm s) ss = .path .context (s :: ss) ∧ ∀ n as, s ≠ .call n as) ∨
      (∃ n as, s = .call n as ∧ ss = [] ∧ Parser.extendPath (headTerm s) ss = .call n as) ∨
      ∃ n as, s = .call n as ∧ ss ≠ [] ∧
        Parser.extendPath (headTerm s) ss = .path (.term (.call n as)) ss := by
  cases s with
  | call n as =>
    cases ss with
    | nil => exact .inr (.inl ⟨n, as, rfl, rfl, rfl⟩)
    | cons s ss => exact .inr (.inr ⟨n, as, rfl, by simp, rfl⟩)
  | _ => exact .inl ⟨by cases ss <;> rfl, by simp⟩

theorem Segment.reread_inversion (s : Segment) :
    match s.reread with
    | .anyIndex => s = .anyIndex ∨ ∃ t, s = .predicate t ∧ t.isStar = true
    | .recursive inner => ∃ inner', s = .recursive inner' ∧ inner'.reread = inner
    | .filter t => ∃ t', s = .filter t' ∧ t'.reread = t
    | .predicate t => ∃ t', s = .predicate t' ∧ t'.isStar = false ∧ t'.reread = t
    | .call n as => ∃ as', s = .call n as' ∧ rereadTerms as' = as
    | s' => s = s' := by
  cases s with
  | recursive inner => exact ⟨inner, rfl, rfl⟩
  | filter t => exact ⟨t, rfl, rfl⟩
  | call n as => exact ⟨as, rfl, rfl⟩
  | predicate t =>
    rw [Segment.reread]
    cases ht : t.isStar with
    | false =>
      rw [bracketed_of_ne_star ht]
      exact ⟨t, rfl, ht, rfl⟩
    | true =>
      rw [bracketed_of_star ht]
      exact .inr ⟨t, rfl, ht⟩
  | anyIndex => exact .inl rfl
  | _ => rfl

theorem rereadSegments_ne_nil (h : ss ≠ []) : rereadSegments ss ≠ [] := by
  cases ss with
  | nil => exact absurd rfl h
  | cons s ss => simp [rereadSegments]

theorem rereadTerms_ne_nil {ts : List Term} (h : ts ≠ []) : rereadTerms ts ≠ [] := by
  cases ts with
  | nil => exact absurd rfl h
  | cons t ts => simp [rereadTerms]

/-- A path from its first segment that is read as one segment is one segment. -/
theorem contextPath_of_reread_singleton {s s' : Segment}
    (h : (Term.path .context (s :: ss)).reread = .path .context [s']) :
    s.reread = s' ∧ ss = [] := by
  rw [Term.reread] at h
  rcases extendPath_headTerm_cases s.reread (rereadSegments ss) with
    ⟨heq, _⟩ | ⟨n, as, _, _, heq⟩ | ⟨n, as, _, _, heq⟩
  · rw [heq] at h
    simp only [Term.path.injEq, List.cons.injEq, true_and] at h
    cases ss with
    | nil => exact ⟨h.1, rfl⟩
    | cons s ss => cases h.2
  · rw [heq] at h
    cases h
  · rw [heq] at h
    cases h

/-- A path is read as a path, unless it is nothing but a call. -/
theorem path_reread (h : (Term.path start ss).WellFormed check?) :
    (Term.path start ss).reread.isPath = true ∨
      ∃ n as, start = .context ∧ ss = [.call n as] ∧
        (Term.path start ss).reread = .call n (rereadTerms as) := by
  simp only [Term.WellFormed] at h
  cases start with
  | root | current =>
    left
    rw [Term.reread]
    rfl
  | term t =>
    left
    rw [Term.reread]
    exact extendPath_of_ne_nil (rereadSegments_ne_nil (h.2.2 rfl))
  | context =>
    cases ss with
    | nil => exact absurd rfl (h.2.2 rfl)
    | cons s ss =>
      rw [Term.reread]
      rcases extendPath_headTerm_cases s.reread (rereadSegments ss) with
        ⟨heq, _⟩ | ⟨n, as, hs, hss, heq⟩ | ⟨n, as, _, _, heq⟩
      · left
        rw [heq]
        rfl
      · right
        have hinversion := s.reread_inversion
        rw [hs] at hinversion
        obtain ⟨as', rfl, rfl⟩ := hinversion
        cases ss with
        | nil => exact ⟨n, as', rfl, rfl, heq⟩
        | cons s ss => cases hss
      · left
        rw [heq]
        rfl

theorem Term.reread_inversion (h : t.WellFormed check?) :
    match t.reread with
    | .literal v => t = .literal v
    | .path start ss => t.isPath = true ∨ ∃ v, t = .literal v ∧ infinityName = .path start ss
    | .call n as => (∃ as', t = .call n as' ∧ rereadTerms as' = as) ∨
        ∃ as', t = .path .context [.call n as'] ∧ rereadTerms as' = as
    | .unary op u => (∃ u', t = .unary op u' ∧ u'.reread = u) ∨
        ∃ v, t = .literal v ∧ op = .neg ∧ u = infinityName
    | .binary op l r => ∃ l' r', t = .binary op l' r' ∧ l'.reread = l ∧ r'.reread = r
    | .ternary a b c => ∃ a' b' c', t = .ternary a' b' c' ∧ a'.reread = a ∧ b'.reread = b ∧
        c'.reread = c
    | .list ts => ∃ ts', t = .list ts' ∧ rereadTerms ts' = ts := by
  cases t with
  | literal v =>
    simp only [Term.WellFormed] at h
    rw [Term.reread]
    rcases Scalar.reread_cases h with hv | ⟨hv, _⟩ | ⟨hv, _⟩
    · rw [hv]
    · rw [hv]
      exact .inr ⟨v, rfl, rfl⟩
    · rw [hv]
      exact .inr ⟨v, rfl, rfl, rfl⟩
  | path start ss =>
    rcases path_reread h with hpath | ⟨n, as, rfl, rfl, heq⟩
    · cases hreread : (Term.path start ss).reread with
      | path start' ss' => exact .inl rfl
      | _ =>
        rw [hreread] at hpath
        cases hpath
    · rw [heq]
      exact .inr ⟨as, rfl, rfl⟩
  | call n as =>
    rw [Term.reread]
    exact .inl ⟨as, rfl, rfl⟩
  | unary op u =>
    rw [Term.reread]
    exact .inl ⟨u, rfl, rfl⟩
  | binary op l r =>
    rw [Term.reread]
    exact ⟨l, r, rfl, rfl, rfl⟩
  | ternary a b c =>
    rw [Term.reread]
    exact ⟨a, b, c, rfl, rfl, rfl, rfl⟩
  | list ts =>
    rw [Term.reread]
    exact ⟨ts, rfl, rfl⟩

end

/-! ### Texts of collapsed terms -/

theorem infinite_of_isInf {r : Float} (h : r.isInf = true) :
    r = Binary64.infinity ∨ r = -Binary64.infinity := by
  have hnone : Binary64.ofFloat? r = none := by
    cases hx : Binary64.ofFloat? r with
    | some x =>
      rw [Binary64.isInf_eq_false_of_ofFloat? hx] at h
      cases h
    | none => rfl
  have hnan : r.isNaN = false := by
    simp only [Float.isInf, Float.Model.isInf, Float.isNaN, Float.Model.isNaN] at h ⊢
    cases hunpack : r.toModel.unpack with
    | notANumber =>
      rw [hunpack] at h
      cases h
    | _ => rfl
  exact Binary64.infinite_cases hnone hnan

theorem Scalar.chars_collapse (v : Scalar) : v.collapse.chars = v.canonical := by
  cases v with
  | real r =>
    cases hinf : r.isInf with
    | true => rcases infinite_of_isInf hinf with rfl | rfl <;> decide +kernel
    | false =>
      simp only [Scalar.collapse, hinf, Bool.false_eq_true, if_false]
      rw [Term.chars]
  | _ => simp only [Scalar.collapse, Term.chars]

theorem isSigned_collapse (t : Term) : t.collapse.isSigned = t.isSigned := by
  cases t with
  | literal v =>
    cases v with
    | real r =>
      cases hinf : r.isInf with
      | true => rcases infinite_of_isInf hinf with rfl | rfl <;> decide +kernel
      | false => simp only [Term.collapse, Scalar.collapse, hinf, Bool.false_eq_true, if_false]
    | _ => rfl
  | path start ss =>
    rw [Term.collapse]
    unfold collapsePath
    split <;> rfl
  | _ => rfl

theorem collapsePath_chars (start : Start) (ss : List Segment) :
    (collapsePath start ss).chars = (Term.path start ss).chars := by
  unfold collapsePath
  split
  · simp only [Term.chars, Start.chars, Start.isLeading, segmentsChars, Segment.chars, dotUnless,
      if_true, List.nil_append, List.append_nil]
  · rfl

theorem isLeading_collapse (start : Start) : start.collapse.isLeading = start.isLeading := by
  cases start <;> rfl

mutual

/-- Collapsing a term leaves its canonical text as it is. -/
theorem Term.chars_collapse (t : Term) : t.collapse.chars = t.chars := by
  match t with
  | .literal v =>
    rw [Term.collapse, v.chars_collapse, Term.chars]
  | .path start ss =>
    rw [Term.collapse, collapsePath_chars, Term.chars, Term.chars, start.chars_collapse,
      isLeading_collapse, segmentsChars_collapse]
  | .call n as => rw [Term.collapse, Term.chars, Term.chars, termsChars_collapse]
  | .unary op u => rw [Term.collapse, Term.chars, Term.chars, u.chars_collapse]
  | .binary op l r =>
    rw [Term.collapse, Term.chars, Term.chars, l.chars_collapse, r.chars_collapse,
      isSigned_collapse]
  | .ternary a b c =>
    rw [Term.collapse, Term.chars, Term.chars, a.chars_collapse, b.chars_collapse,
      c.chars_collapse]
  | .list ts => rw [Term.collapse, Term.chars, Term.chars, termsChars_collapse]

theorem Start.chars_collapse (s : Start) : s.collapse.chars = s.chars := by
  match s with
  | .term t => rw [Start.collapse, Start.chars, Start.chars, t.chars_collapse]
  | .root | .current | .context => rfl

theorem Segment.chars_collapse (s : Segment) (leading : Bool) :
    s.collapse.chars leading = s.chars leading := by
  match s with
  | .recursive inner => rw [Segment.collapse, Segment.chars, Segment.chars, inner.chars_collapse]
  | .filter t => rw [Segment.collapse, Segment.chars, Segment.chars, t.chars_collapse]
  | .predicate t =>
    rw [Segment.collapse]
    cases ht : t.isStar with
    | true =>
      rw [bracketed_of_star ht, eq_star_of_isStar ht]
      rfl
    | false => rw [bracketed_of_ne_star ht, Segment.chars, Segment.chars, t.chars_collapse]
  | .call n as => rw [Segment.collapse, Segment.chars, Segment.chars, termsChars_collapse]
  | .child _ | .index _ | .anyIndex | .wildcard | .recursiveWildcard | .slice .. => rfl

theorem segmentsChars_collapse (ss : List Segment) (leading : Bool) :
    segmentsChars leading (collapseSegments ss) = segmentsChars leading ss := by
  match ss with
  | [] => rfl
  | s :: ss =>
    rw [collapseSegments, segmentsChars, segmentsChars, s.chars_collapse, segmentsChars_collapse]

theorem termsChars_collapse (ts : List Term) : termsChars (collapseTerms ts) = termsChars ts := by
  match ts with
  | [] => rfl
  | t :: ts =>
    rw [collapseTerms, termsChars, termsChars, t.chars_collapse, moreTermsChars_collapse]

theorem moreTermsChars_collapse (ts : List Term) :
    moreTermsChars (collapseTerms ts) = moreTermsChars ts := by
  match ts with
  | [] => rfl
  | t :: ts =>
    rw [collapseTerms, moreTermsChars, moreTermsChars, t.chars_collapse, moreTermsChars_collapse]

end

end PathQuery
