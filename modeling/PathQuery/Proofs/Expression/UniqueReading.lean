import PathQuery.Proofs.Expression.Collapse

/-!
# Canonical texts tell terms apart

The lexemes of a canonical text determine the term that it was written from, up to the shapes that
are written alike: terms that are read alike and have the same lexemes collapse to the same term,
and what follows them is the same as well.
-/

namespace PathQuery

/-! ### Unique reading -/

section

variable {check? : Signatures} {t u : Term} {ks ks' : List Sign} {b : Bool}

/-- A term that is read as the name of an infinity, and begins with a name, is written like it. -/
theorem collapse_of_infinityName (h : t.WellFormed check?) (hr : t.reread = infinityName)
    (hs : t.signs b ++ ks = (.name "inf", b) :: ks') : t.collapse = infinityName ∧ ks = ks' := by
  have hinversion := t.reread_inversion h
  rw [hr] at hinversion
  rcases hinversion with hpath | ⟨v, rfl, _⟩
  · cases t with
    | path start ss =>
      simp only [Term.signs] at hs
      cases start with
      | root | current | term => simp [Start.signs, Symbol.sign] at hs
      | context =>
        cases ss with
        | nil =>
          simp only [Term.WellFormed] at h
          exact absurd rfl (h.2.2 rfl)
        | cons s ss =>
          obtain ⟨hhead, rfl⟩ := contextPath_of_reread_singleton hr
          have hinversion := s.reread_inversion
          rw [hhead] at hinversion
          subst hinversion
          have hplain : isPlainName "inf" = true := by decide
          simp only [Start.signs, Start.isLeading, segmentsSigns, Segment.signs, hplain,
            if_true, dottedSigns, List.nil_append, List.append_nil, List.cons_append,
            Bool.true_and, List.cons.injEq, true_and] at hs
          exact ⟨rfl, hs⟩
    | _ => cases hpath
  · simp only [Term.WellFormed] at h
    rw [Term.reread] at hr
    rw [Term.collapse, Scalar.collapse_eq_reread h]
    rcases Scalar.reread_cases h with hv | ⟨_, hsigns⟩ | ⟨hv, _⟩
    · rw [hr] at hv
      cases hv
    · rw [Term.signs, hsigns] at hs
      simp only [List.cons_append, List.nil_append, List.cons.injEq, true_and] at hs
      exact ⟨hr, hs⟩
    · rw [hr] at hv
      cases hv

/-- A literal is read and written alike only with what collapses to the same term. -/
theorem collapse_literal_unique {v : Scalar} (hv : (Term.literal v).WellFormed check?)
    (h : t.WellFormed check?) (hr : (Term.literal v).reread = t.reread)
    (hs : (Term.literal v).signs b ++ ks = t.signs b ++ ks') :
    (Term.literal v).collapse = t.collapse ∧ ks = ks' := by
  have hinversion := t.reread_inversion h
  rw [← hr] at hinversion
  simp only [Term.WellFormed] at hv
  rw [Term.reread] at hr hinversion
  rcases Scalar.reread_cases hv with hlit | ⟨hinf, hsigns⟩ | ⟨hneg, hsigns⟩
  · rw [hlit] at hinversion
    subst hinversion
    exact ⟨rfl, List.append_cancel_left hs⟩
  · rw [Term.signs, hsigns] at hs
    rw [hinf] at hr
    obtain ⟨hcollapse, hks⟩ := collapse_of_infinityName h hr.symm hs.symm
    rw [hcollapse, Term.collapse, Scalar.collapse_eq_reread hv, hinf]
    exact ⟨rfl, hks.symm⟩
  · rw [Term.signs, hsigns] at hs
    rw [Term.collapse, Scalar.collapse_eq_reread hv, hneg]
    rw [hneg] at hinversion
    -- A negative infinity is read as a minus before the name, which a negation may be as well.
    rcases hinversion with ⟨u, rfl, hu⟩ | ⟨w, rfl, _⟩
    · simp only [Term.WellFormed] at h
      simp only [Term.signs, UnaryOp.symbol, List.cons_append, List.nil_append, List.cons.injEq,
        true_and] at hs
      obtain ⟨hcollapse, hks⟩ := collapse_of_infinityName h.1 hu hs.symm
      rw [Term.collapse, hcollapse]
      exact ⟨rfl, hks.symm⟩
    · simp only [Term.WellFormed] at h
      rw [Term.reread, hneg] at hr
      rw [Term.collapse, Scalar.collapse_eq_reread h, ← hr]
      rcases Scalar.reread_cases h with hw | ⟨hw, _⟩ | ⟨_, hsigns'⟩
      · rw [hw] at hr
        cases hr
      · rw [hw] at hr
        cases hr
      · rw [Term.signs, hsigns'] at hs
        exact ⟨rfl, List.append_cancel_left hs⟩

theorem call_signs (n : String) (as : List Term) :
    (Term.call n as).signs b = segmentsSigns true b [.call n as] := by
  simp only [segmentsSigns, Segment.signs, dottedSigns, if_true, Term.signs, List.append_nil,
    List.cons_append, List.nil_append]

theorem Term.reread_of_not_isPath (h : t.WellFormed check?) (hpath : t.isPath = false) :
    t.reread.isPath = false ∨ t.reread = infinityName := by
  have hinversion := t.reread_inversion h
  cases hr : t.reread with
  | path start ss =>
    rw [hr] at hinversion
    rcases hinversion with hp | ⟨v, _, hv⟩
    · rw [hpath] at hp
      cases hp
    · exact .inr hv.symm
  | _ => exact .inl rfl

theorem extendPath_inj {r r' : List Segment} (hne : r ≠ []) (hne' : r' ≠ [])
    (ht : t.isPath = false ∨ t = infinityName) (hu : u.isPath = false ∨ u = infinityName)
    (h : Parser.extendPath t r = Parser.extendPath u r') : t = u ∧ r = r' := by
  rcases ht with ht | rfl <;> rcases hu with hu | rfl
  · rw [extendPath_of_not_isPath ht hne, extendPath_of_not_isPath hu hne'] at h
    simpa using h
  · rw [extendPath_of_not_isPath ht hne] at h
    obtain ⟨s, ss, rfl⟩ := List.exists_cons_of_ne_nil hne'
    cases h
  · rw [extendPath_of_not_isPath hu hne'] at h
    obtain ⟨s, ss, rfl⟩ := List.exists_cons_of_ne_nil hne
    cases h
  · obtain ⟨s, ss, rfl⟩ := List.exists_cons_of_ne_nil hne
    obtain ⟨s', ss', rfl⟩ := List.exists_cons_of_ne_nil hne'
    simpa [infinityName, Parser.contextPath, Parser.extendPath] using h

theorem extendPath_headTerm_inj {s s' : Segment} {ss ss' : List Segment}
    (h : Parser.extendPath (headTerm s) ss = Parser.extendPath (headTerm s') ss') :
    s :: ss = s' :: ss' := by
  rcases extendPath_headTerm_cases s ss with
    ⟨heq, _⟩ | ⟨n, as, rfl, rfl, heq⟩ | ⟨n, as, rfl, _, heq⟩ <;>
  rcases extendPath_headTerm_cases s' ss' with
    ⟨heq', _⟩ | ⟨n', as', rfl, rfl, heq'⟩ | ⟨n', as', rfl, _, heq'⟩ <;>
  rw [heq, heq'] at h <;> simp_all

/-- The lexeme that a start is told by; only a path from its first segment has none. -/
def Start.mark : Start → Option Symbol
  | .root => some .dollar
  | .current => some .atSign
  | .context => none
  | .term _ => some .leftParen

theorem Segment.signs_ne {s : Segment} {start : Start} {k : Symbol} (hk : start.mark = some k) :
    s.signs true b ++ ks ≠ k.sign b :: ks' := by
  cases start <;> cases hk <;> cases s <;>
    simp only [Segment.signs, dottedSigns, Symbol.sign, if_true] <;>
    (try split) <;> simp

theorem mark_iff (b : Bool) (ks : List Sign) {start start' : Start} {ss : List Segment}
    {k : Symbol}
    (h : (Term.path start ss).WellFormed check?) (hk : start'.mark = some k) :
    start.mark = some k ↔ ∃ ks', (Term.path start ss).signs b ++ ks = k.sign b :: ks' := by
  cases hmark : start.mark with
  | some k' =>
    have hsigns : ∃ ks', (Term.path start ss).signs b ++ ks = k'.sign b :: ks' := by
      cases start <;> cases hmark <;> exact ⟨_, rfl⟩
    obtain ⟨ks', hks'⟩ := hsigns
    rw [hks']
    constructor
    · rintro ⟨⟩
      exact ⟨ks', rfl⟩
    · rintro ⟨_, heq⟩
      have hsign := (List.cons.inj heq).1
      simp only [Symbol.sign, Prod.mk.injEq, TokenKind.symbol.injEq, and_true] at hsign
      rw [hsign]
  | none =>
    refine ⟨fun hsome => absurd hsome (Option.some_ne_none k).symm, ?_⟩
    rintro ⟨ks', heq⟩
    simp only [Term.WellFormed] at h
    cases start with
    | context =>
      cases ss with
      | nil => exact absurd rfl (h.2.2 rfl)
      | cons s ss =>
        simp only [Term.signs, Start.signs, Start.isLeading, Bool.true_and, List.nil_append,
          segmentsSigns, List.append_assoc] at heq
        exact absurd heq (Segment.signs_ne hk)
    | _ => cases hmark

theorem mark_eq {start start' : Start} {ss ss' : List Segment}
    (h : (Term.path start ss).WellFormed check?) (h' : (Term.path start' ss').WellFormed check?)
    (hs : (Term.path start ss).signs b ++ ks = (Term.path start' ss').signs b ++ ks') :
    start.mark = start'.mark := by
  cases hmark : start.mark with
  | some k =>
    obtain ⟨rest, hrest⟩ := (mark_iff b ks h hmark).mp hmark
    exact ((mark_iff b ks' h' hmark).mpr ⟨rest, hs ▸ hrest⟩).symm
  | none =>
    cases hmark' : start'.mark with
    | some k =>
      obtain ⟨rest, hrest⟩ := (mark_iff b ks' h' hmark').mp hmark'
      rw [(mark_iff b ks h hmark').mpr ⟨rest, hs.symm ▸ hrest⟩] at hmark
      cases hmark
    | none => rfl

/-- Two starts of one kind, with terms that are read alike. -/
def Start.Alike : Start → Start → Prop
  | .root, .root | .current, .current | .context, .context => True
  | .term t, .term u => t.reread = u.reread
  | _, _ => False

theorem Start.Alike.isLeading_eq {start start' : Start} (h : start.Alike start') :
    start.isLeading = start'.isLeading := by
  cases start <;> cases start' <;> first | rfl | cases h

/-- Two paths that are read alike and begin with the same lexeme have starts and segments that are
read alike. -/
theorem path_alike {start start' : Start} {ss ss' : List Segment}
    (h : (Term.path start ss).WellFormed check?) (h' : (Term.path start' ss').WellFormed check?)
    (hr : (Term.path start ss).reread = (Term.path start' ss').reread)
    (hs : (Term.path start ss).signs b ++ ks = (Term.path start' ss').signs b ++ ks') :
    start.Alike start' ∧ rereadSegments ss = rereadSegments ss' := by
  have hmark := mark_eq h h' hs
  simp only [Term.WellFormed] at h h'
  cases start <;> cases start' <;> cases hmark
  case root.root =>
    rw [Term.reread, Term.reread] at hr
    exact ⟨trivial, (Term.path.inj hr).2⟩
  case current.current =>
    rw [Term.reread, Term.reread] at hr
    exact ⟨trivial, (Term.path.inj hr).2⟩
  case context.context =>
    obtain ⟨s, ss, rfl⟩ := List.exists_cons_of_ne_nil (h.2.2 rfl)
    obtain ⟨s', ss', rfl⟩ := List.exists_cons_of_ne_nil (h'.2.2 rfl)
    rw [Term.reread, Term.reread] at hr
    exact ⟨trivial, extendPath_headTerm_inj hr⟩
  case term.term t u =>
    simp only [Start.WellFormed] at h h'
    rw [Term.reread, Term.reread] at hr
    exact extendPath_inj (rereadSegments_ne_nil (h.2.2 rfl)) (rereadSegments_ne_nil (h'.2.2 rfl))
      (t.reread_of_not_isPath h.1.1 h.1.2) (u.reread_of_not_isPath h'.1.1 h'.1.2) hr

theorem isSigned_reread (h : t.WellFormed check?) : t.reread.isSigned = t.isSigned := by
  cases t with
  | literal v =>
    simp only [Term.WellFormed] at h
    rw [Term.reread]
    cases v with
    | real r =>
      simp only [Scalar.WellFormed] at h
      cases hx : Binary64.ofFloat? r with
      | some x => rw [Scalar.reread, realTerm_of_ofFloat? hx]
      | none => rcases Binary64.infinite_cases hx h with rfl | rfl <;> decide +kernel
    | _ => rfl
  | path start ss =>
    rcases path_reread h with hpath | ⟨n, as, _, _, heq⟩
    · cases hreread : (Term.path start ss).reread with
      | path start' ss' => rfl
      | _ =>
        rw [hreread] at hpath
        cases hpath
    · rw [heq]
      rfl
  | _ => rfl

/-
The induction is on the first term. What it is read as decides which forms the second can have; of
these the lexemes leave one, and what follows both (`ks` and `ks'`) is carried through, since
operands and arguments stand in a row.
-/
mutual

/-- Terms that are read alike and begin with the same lexemes collapse to the same term. -/
theorem Term.collapse_unique (t t' : Term) (h : t.WellFormed check?) (h' : t'.WellFormed check?)
    (hr : t.reread = t'.reread) {b : Bool} {ks ks' : List Sign}
    (hs : t.signs b ++ ks = t'.signs b ++ ks') : t.collapse = t'.collapse ∧ ks = ks' := by
  have hinversion := t'.reread_inversion h'
  rw [← hr] at hinversion
  match t with
  | .literal v => exact collapse_literal_unique h h' hr hs
  | .path start ss =>
    have hpathRead := path_reread h
    have hwf := h
    simp only [Term.WellFormed] at h
    cases t' with
    | path start' ss' =>
      obtain ⟨halike, hss⟩ := path_alike hwf h' hr hs
      simp only [Term.WellFormed] at h'
      simp only [Term.signs, ← halike.isLeading_eq, List.append_assoc] at hs
      obtain ⟨hcollapse, hks⟩ := Start.collapse_unique start start' h.1 h'.1 halike hs
      obtain ⟨hcollapse', hks'⟩ := collapseSegments_unique ss ss' h.2.1 h'.2.1 hss hks
      rw [Term.collapse, Term.collapse, hcollapse, hcollapse']
      exact ⟨rfl, hks'⟩
    | literal v =>
      obtain ⟨hcollapse, hks⟩ := collapse_literal_unique h' hwf hr.symm hs.symm
      exact ⟨hcollapse.symm, hks.symm⟩
    | call n as =>
      rw [hr, Term.reread] at hpathRead
      obtain ⟨n', as', hstart, hcall, heq⟩ := hpathRead.resolve_left (by simp [Term.isPath])
      simp only [Term.call.injEq] at heq
      simp only [Term.WellFormed] at h'
      have hwf' : segmentsWellFormed check? [.call n as] := by
        simp only [segmentsWellFormed, Segment.WellFormed]
        exact ⟨h', trivial⟩
      have hss : rereadSegments ss = rereadSegments [.call n as] := by
        simp only [hcall, rereadSegments, Segment.reread, heq]
      rw [call_signs] at hs
      simp only [Term.signs, hstart, Start.signs, Start.isLeading, Bool.true_and,
        List.nil_append] at hs
      obtain ⟨hcollapse, hks⟩ := collapseSegments_unique ss [.call n as] h.2.1 hwf' hss hs
      rw [Term.collapse, Term.collapse, hstart, hcollapse]
      exact ⟨rfl, hks⟩
    | _ =>
      rw [hr, Term.reread] at hpathRead
      simp [Term.isPath] at hpathRead
  | .call n as =>
    simp only [Term.WellFormed] at h
    rw [Term.reread] at hinversion
    rcases hinversion with ⟨as', rfl, has⟩ | ⟨as', rfl, has⟩
    · simp only [Term.WellFormed] at h'
      simp only [Term.signs, List.cons_append, List.append_assoc, List.cons.injEq, true_and] at hs
      obtain ⟨hcollapse, hks⟩ := collapseTerms_unique as as' h.2 h'.2 has.symm hs
      rw [Term.collapse, Term.collapse, hcollapse]
      exact ⟨rfl, (List.cons.inj hks).2⟩
    · simp only [Term.WellFormed, segmentsWellFormed, Segment.WellFormed] at h'
      simp only [Term.signs, Start.signs, Start.isLeading, segmentsSigns, Segment.signs,
        dottedSigns, if_true, Bool.true_and, List.nil_append, List.append_nil, List.cons_append,
        List.append_assoc, List.cons.injEq, true_and] at hs
      obtain ⟨hcollapse, hks⟩ := collapseTerms_unique as as' h.2 h'.2.1.1.2 has.symm hs
      simp only [Term.collapse, Start.collapse, collapseSegments, Segment.collapse, collapsePath,
        hcollapse, true_and]
      exact (List.cons.inj hks).2
  | .unary op u =>
    have hwf := h
    simp only [Term.WellFormed] at h
    rw [Term.reread] at hinversion
    rcases hinversion with ⟨u', rfl, hu⟩ | ⟨v, rfl, _⟩
    · simp only [Term.WellFormed] at h'
      simp only [Term.signs, List.cons_append, List.cons.injEq, true_and] at hs
      obtain ⟨hcollapse, hks⟩ := Term.collapse_unique u u' h.1 h'.1 hu.symm hs
      rw [Term.collapse, Term.collapse, hcollapse]
      exact ⟨rfl, hks⟩
    · obtain ⟨hcollapse, hks⟩ := collapse_literal_unique h' hwf hr.symm hs.symm
      exact ⟨hcollapse.symm, hks.symm⟩
  | .binary op l r =>
    simp only [Term.WellFormed] at h
    rw [Term.reread] at hinversion
    obtain ⟨l', r', rfl, hl, hr'⟩ := hinversion
    simp only [Term.WellFormed] at h'
    -- A signed base of a power stands in parentheses of its own, so on both sides or on neither.
    have hsigned : l.isSigned = l'.isSigned := by
      rw [← isSigned_reread h.1, ← isSigned_reread h'.1, hl]
    simp only [Term.signs, ← hsigned, List.cons_append, List.append_assoc, List.cons.injEq,
      true_and] at hs
    have hleft : l.collapse = l'.collapse ∧
        op.symbol.sign true :: (r.signs true ++ ([Symbol.rightParen.sign false] ++ ks)) =
          op.symbol.sign true :: (r'.signs true ++ ([Symbol.rightParen.sign false] ++ ks')) := by
      by_cases hpow : op = .pow ∧ l.isSigned = true
      · have hpow' : (decide (op = .pow) && l.isSigned) = true := by simpa using hpow
        simp only [hpow', if_true, List.cons_append, List.append_assoc, List.nil_append,
          List.cons.injEq, true_and] at hs
        obtain ⟨hcollapse, hks⟩ := Term.collapse_unique l l' h.1 h'.1 hl.symm hs
        exact ⟨hcollapse, (List.cons.inj hks).2⟩
      · have hpow' : (decide (op = .pow) && l.isSigned) = false := by simpa using hpow
        simp only [hpow', Bool.false_eq_true, if_false] at hs
        exact Term.collapse_unique l l' h.1 h'.1 hl.symm hs
    obtain ⟨hcollapse', hks'⟩ := Term.collapse_unique r r' h.2 h'.2 hr'.symm
      (List.cons.inj hleft.2).2
    rw [Term.collapse, Term.collapse, hleft.1, hcollapse']
    exact ⟨rfl, (List.cons.inj hks').2⟩
  | .ternary a d c =>
    simp only [Term.WellFormed] at h
    rw [Term.reread] at hinversion
    obtain ⟨a', d', c', rfl, ha, hd, hc⟩ := hinversion
    simp only [Term.WellFormed] at h'
    simp only [Term.signs, List.cons_append, List.append_assoc, List.cons.injEq, true_and] at hs
    obtain ⟨hcollapse₁, hks₁⟩ := Term.collapse_unique a a' h.1 h'.1 ha.symm hs
    obtain ⟨hcollapse₂, hks₂⟩ := Term.collapse_unique d d' h.2.1 h'.2.1 hd.symm
      (List.cons.inj hks₁).2
    obtain ⟨hcollapse₃, hks₃⟩ := Term.collapse_unique c c' h.2.2 h'.2.2 hc.symm
      (List.cons.inj hks₂).2
    rw [Term.collapse, Term.collapse, hcollapse₁, hcollapse₂, hcollapse₃]
    exact ⟨rfl, (List.cons.inj hks₃).2⟩
  | .list ts =>
    simp only [Term.WellFormed] at h
    rw [Term.reread] at hinversion
    obtain ⟨ts', rfl, hts⟩ := hinversion
    simp only [Term.WellFormed] at h'
    simp only [Term.signs, List.cons_append, List.append_assoc, List.cons.injEq, true_and] at hs
    obtain ⟨hcollapse, hks⟩ := collapseTerms_unique ts ts' h.2 h'.2 hts.symm hs
    rw [Term.collapse, Term.collapse, hcollapse]
    exact ⟨rfl, (List.cons.inj hks).2⟩
termination_by structural t

theorem Start.collapse_unique (start start' : Start) (h : start.WellFormed check?)
    (h' : start'.WellFormed check?) (halike : start.Alike start') {b : Bool} {ks ks' : List Sign}
    (hs : start.signs b ++ ks = start'.signs b ++ ks') :
    start.collapse = start'.collapse ∧ ks = ks' := by
  match start with
  | .root | .current | .context =>
    cases start' <;> cases halike
    exact ⟨rfl, List.append_cancel_left hs⟩
  | .term t =>
    cases start' with
    | term u =>
      simp only [Start.WellFormed] at h h'
      simp only [Start.signs, List.cons_append, List.append_assoc, List.nil_append,
        List.cons.injEq, true_and] at hs
      obtain ⟨hcollapse, hks⟩ := Term.collapse_unique t u h.1 h'.1 halike hs
      rw [Start.collapse, Start.collapse, hcollapse]
      exact ⟨rfl, (List.cons.inj hks).2⟩
    | _ => cases halike
termination_by structural start

theorem Segment.collapse_unique (s s' : Segment) (h : s.WellFormed check?)
    (h' : s'.WellFormed check?) (hr : s.reread = s'.reread) {leading b : Bool}
    {ks ks' : List Sign} (hs : s.signs leading b ++ ks = s'.signs leading b ++ ks') :
    s.collapse = s'.collapse ∧ ks = ks' := by
  have hinversion := s'.reread_inversion
  rw [← hr] at hinversion
  match s with
  | .child n =>
    subst hinversion
    exact ⟨rfl, List.append_cancel_left hs⟩
  | .index _ | .wildcard | .recursiveWildcard | .slice .. =>
    subst hinversion
    exact ⟨rfl, List.append_cancel_left hs⟩
  | .anyIndex =>
    rcases hinversion with rfl | ⟨t, rfl, ht⟩
    · exact ⟨rfl, List.append_cancel_left hs⟩
    · rw [eq_star_of_isStar ht] at hs ⊢
      exact ⟨rfl, List.append_cancel_left hs⟩
  | .recursive inner =>
    obtain ⟨inner', rfl, hinner⟩ := hinversion
    simp only [Segment.WellFormed] at h h'
    simp only [Segment.signs, List.cons_append, List.cons.injEq, true_and] at hs
    obtain ⟨hcollapse, hks⟩ := Segment.collapse_unique inner inner' h.1 h'.1 hinner.symm hs
    rw [Segment.collapse, Segment.collapse, hcollapse]
    exact ⟨rfl, hks⟩
  | .filter t =>
    obtain ⟨t', rfl, ht⟩ := hinversion
    simp only [Segment.WellFormed] at h h'
    simp only [Segment.signs, List.cons_append, List.append_assoc, List.cons.injEq,
      true_and] at hs
    obtain ⟨hcollapse, hks⟩ := Term.collapse_unique t t' h h' ht.symm hs
    rw [Segment.collapse, Segment.collapse, hcollapse]
    exact ⟨rfl, (List.cons.inj (List.cons.inj hks).2).2⟩
  | .predicate t =>
    rw [Segment.reread] at hinversion
    cases ht : t.isStar with
    | true =>
      rw [bracketed_of_star ht] at hinversion
      rw [eq_star_of_isStar ht] at hs ⊢
      rcases hinversion with rfl | ⟨t', rfl, ht'⟩
      · exact ⟨rfl, List.append_cancel_left hs⟩
      · rw [eq_star_of_isStar ht'] at hs ⊢
        exact ⟨rfl, List.append_cancel_left hs⟩
    | false =>
      rw [bracketed_of_ne_star ht] at hinversion
      obtain ⟨t', rfl, ht', hread⟩ := hinversion
      simp only [Segment.WellFormed] at h h'
      simp only [Segment.signs, List.cons_append, List.append_assoc, List.cons.injEq,
        true_and] at hs
      obtain ⟨hcollapse, hks⟩ := Term.collapse_unique t t' h.1 h'.1 hread.symm hs
      rw [Segment.collapse, Segment.collapse, bracketed_of_ne_star ht, bracketed_of_ne_star ht',
        hcollapse]
      exact ⟨rfl, (List.cons.inj hks).2⟩
  | .call n as =>
    obtain ⟨as', rfl, has⟩ := hinversion
    simp only [Segment.WellFormed] at h h'
    simp only [Segment.signs, List.append_assoc] at hs
    obtain ⟨hcollapse, hks⟩ := collapseTerms_unique as as' h.2 h'.2 has.symm
      (List.append_cancel_left hs)
    rw [Segment.collapse, Segment.collapse, hcollapse]
    exact ⟨rfl, List.append_cancel_left hks⟩
termination_by structural s

theorem collapseSegments_unique (ss ss' : List Segment) (h : segmentsWellFormed check? ss)
    (h' : segmentsWellFormed check? ss') (hr : rereadSegments ss = rereadSegments ss')
    {leading b : Bool} {ks ks' : List Sign}
    (hs : segmentsSigns leading b ss ++ ks = segmentsSigns leading b ss' ++ ks') :
    collapseSegments ss = collapseSegments ss' ∧ ks = ks' := by
  match ss, ss' with
  | [], [] => exact ⟨rfl, hs⟩
  | [], s' :: ss' => simp [rereadSegments] at hr
  | s :: ss, [] => simp [rereadSegments] at hr
  | s :: ss, s' :: ss' =>
    simp only [segmentsWellFormed] at h h'
    simp only [rereadSegments, List.cons.injEq] at hr
    simp only [segmentsSigns, List.append_assoc] at hs
    obtain ⟨hcollapse, hks⟩ := Segment.collapse_unique s s' h.1 h'.1 hr.1 hs
    obtain ⟨hcollapse', hks'⟩ := collapseSegments_unique ss ss' h.2 h'.2 hr.2 hks
    rw [collapseSegments, collapseSegments, hcollapse, hcollapse']
    exact ⟨rfl, hks'⟩
termination_by structural ss

theorem collapseTerms_unique (ts ts' : List Term) (h : termsWellFormed check? ts)
    (h' : termsWellFormed check? ts') (hr : rereadTerms ts = rereadTerms ts') {ks ks' : List Sign}
    (hs : termsSigns ts ++ ks = termsSigns ts' ++ ks') :
    collapseTerms ts = collapseTerms ts' ∧ ks = ks' := by
  match ts, ts' with
  | [], [] => exact ⟨rfl, hs⟩
  | [], t' :: ts' => simp [rereadTerms] at hr
  | t :: ts, [] => simp [rereadTerms] at hr
  | t :: ts, t' :: ts' =>
    simp only [termsWellFormed] at h h'
    simp only [rereadTerms, List.cons.injEq] at hr
    simp only [termsSigns, List.append_assoc] at hs
    obtain ⟨hcollapse, hks⟩ := Term.collapse_unique t t' h.1 h'.1 hr.1 hs
    obtain ⟨hcollapse', hks'⟩ := collapseMore_unique ts ts' h.2 h'.2 hr.2 hks
    rw [collapseTerms, collapseTerms, hcollapse, hcollapse']
    exact ⟨rfl, hks'⟩
termination_by structural ts

theorem collapseMore_unique (ts ts' : List Term) (h : termsWellFormed check? ts)
    (h' : termsWellFormed check? ts') (hr : rereadTerms ts = rereadTerms ts') {ks ks' : List Sign}
    (hs : moreTermsSigns ts ++ ks = moreTermsSigns ts' ++ ks') :
    collapseTerms ts = collapseTerms ts' ∧ ks = ks' := by
  match ts, ts' with
  | [], [] => exact ⟨rfl, hs⟩
  | [], t' :: ts' => simp [rereadTerms] at hr
  | t :: ts, [] => simp [rereadTerms] at hr
  | t :: ts, t' :: ts' =>
    simp only [termsWellFormed] at h h'
    simp only [rereadTerms, List.cons.injEq] at hr
    simp only [moreTermsSigns, List.cons_append, List.append_assoc, List.cons.injEq,
      true_and] at hs
    obtain ⟨hcollapse, hks⟩ := Term.collapse_unique t t' h.1 h'.1 hr.1 hs
    obtain ⟨hcollapse', hks'⟩ := collapseMore_unique ts ts' h.2 h'.2 hr.2 hks
    rw [collapseTerms, collapseTerms, hcollapse, hcollapse']
    exact ⟨rfl, hks'⟩
termination_by structural ts

end

end

/-! ### Whole texts -/

/-- Lists of terms have one canonical text exactly when they collapse to the same list. -/
theorem canonicalText_eq_iff {check? : Signatures} (hspelled : check?.Spelled)
    (hcounts : check?.CountsOnly) {ts us : List Term} (hts : ts ≠ []) (hus : us ≠ [])
    (h : termsWellFormed check? ts) (h' : termsWellFormed check? us) :
    canonicalText ts = canonicalText us ↔ collapseTerms ts = collapseTerms us := by
  constructor
  · intro heq
    have hreread : rereadTerms ts = rereadTerms us := by
      have hparse := parse_canonicalText hspelled hcounts hts h
      rw [heq, parse_canonicalText hspelled hcounts hus h'] at hparse
      exact (Except.ok.inj hparse).symm
    have hscans : ∀ {ts : List Term}, termsWellFormed check? ts →
        Lexer.Scans false (termsChars ts) (termsSigns ts) := by
      intro ts h
      have hscans := termsScans hspelled ts h (by rintro _ ⟨⟩) .nil
      rwa [List.append_nil, List.append_nil] at hscans
    have hchars : termsChars ts = termsChars us := String.ofList_injective heq
    have hsigns : termsSigns ts = termsSigns us := by
      obtain ⟨tokens, htokens, hts⟩ := (hscans h).tokens 0
      obtain ⟨tokens', htokens', hus⟩ := (hscans h').tokens 0
      rw [hchars, htokens'] at htokens
      rw [← hts, ← hus, Except.ok.inj htokens]
    have hrest : termsSigns ts ++ [] = termsSigns us ++ [] := by rw [hsigns]
    exact (collapseTerms_unique ts us h h' hreread hrest).1
  · intro heq
    rw [canonicalText, canonicalText, ← termsChars_collapse ts, ← termsChars_collapse us, heq]

end PathQuery
