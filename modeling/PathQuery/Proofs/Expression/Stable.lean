import PathQuery.Proofs.Expression.UniqueReading

/-!
# Terms whose canonical text stays

A canonical text is read as a term that is written alike unless a path changes its start on the way:
a call at the head of a path with more segments becomes a start of its own, and an infinity in
parentheses becomes a name at the head. What has been read from a canonical text has no shape that
is written like another one, so a second reading finds it as it is.
-/

namespace PathQuery

/-! ### Stable terms -/

/-- Whether the canonical text of a path is read as a path with another start. -/
def changesStart : Start → List Segment → Bool
  | .context, .call _ _ :: _ :: _ => true
  | .term (.literal (.real r)), _ => r.isInf && !decide (r < 0.0)
  | _, _ => false

mutual

/-- Whether no path in the term changes its start when it is read back. -/
def Term.isStable : Term → Bool
  | .literal _ => true
  | .path start segments =>
    !changesStart start segments && start.isStable && segmentsStable segments
  | .call _ args => termsStable args
  | .unary _ t => t.isStable
  | .binary _ l r => l.isStable && r.isStable
  | .ternary a b c => a.isStable && b.isStable && c.isStable
  | .list ts => termsStable ts

def Start.isStable : Start → Bool
  | .term t => t.isStable
  | _ => true

def Segment.isStable : Segment → Bool
  | .recursive inner => inner.isStable
  | .filter t => t.isStable
  | .predicate t => t.isStable
  | .call _ args => termsStable args
  | _ => true

def segmentsStable : List Segment → Bool
  | [] => true
  | s :: ss => s.isStable && segmentsStable ss

def termsStable : List Term → Bool
  | [] => true
  | t :: ts => t.isStable && termsStable ts

end

/-! ### Reading as collapsing -/

section

variable {check? : Signatures}

/-- The start of a path changes exactly when its term is read as a path. -/
theorem changesStart_term {t : Term} (h : t.WellFormed check?) (hpath : t.isPath = false)
    (ss : List Segment) : changesStart (.term t) ss = t.reread.isPath := by
  cases t with
  | literal v =>
    cases v with
    | real r =>
      simp only [Term.WellFormed, Scalar.WellFormed] at h
      cases hx : Binary64.ofFloat? r with
      | some x =>
        simp only [changesStart, Binary64.isInf_eq_false_of_ofFloat? hx, Bool.false_and,
          Term.reread, Scalar.reread, realTerm_of_ofFloat? hx, Term.isPath]
      | none =>
        rcases Binary64.infinite_cases hx h with rfl | rfl
        · have hinfinite : (Binary64.infinity.isInf && !decide (Binary64.infinity < 0.0)) =
            (realTerm Binary64.infinity).isPath := by decide +kernel
          exact hinfinite
        · have hinfinite : ((-Binary64.infinity).isInf && !decide (-Binary64.infinity < 0.0)) =
            (realTerm (-Binary64.infinity)).isPath := by decide +kernel
          exact hinfinite
    | _ => rfl
  | path start segments => cases hpath
  | _ => rfl

theorem beginsWithCall_collapse (s : Segment) (ss ss' : List Segment) :
    beginsWithCall .context (s.collapse :: ss) = beginsWithCall .context (s :: ss') := by
  cases s with
  | predicate t =>
    rw [Segment.collapse]
    unfold bracketed
    split <;> rfl
  | _ => rfl

theorem beginsWithCall_reread (s : Segment) (ss ss' : List Segment) :
    beginsWithCall .context (s.reread :: ss) = beginsWithCall .context (s :: ss') := by
  cases s with
  | predicate t =>
    rw [Segment.reread]
    unfold bracketed
    split <;> rfl
  | _ => rfl

theorem collapsePath_of_segment {s : Segment} {ss : List Segment}
    (h : beginsWithCall .context (s :: ss) = false) :
    collapsePath .context (s :: ss) = .path .context (s :: ss) := by
  cases s with
  | call n as => cases h
  | _ => rfl

/-- Reading and collapsing agree on a path from a term, if they do so on its parts. -/
theorem termPath_collapse_eq_reread_iff {t : Term} {ss : List Segment} (ht : t.WellFormed check?)
    (hpath : t.isPath = false) (hne : ss ≠ [])
    (hterm : t.collapse = t.reread ↔ t.isStable = true)
    (hsegments : collapseSegments ss = rereadSegments ss ↔ segmentsStable ss = true) :
    (Term.path (.term t) ss).collapse = (Term.path (.term t) ss).reread ↔
      (Term.path (.term t) ss).isStable = true := by
  have hnil := rereadSegments_ne_nil hne
  simp only [Term.collapse, Term.reread, Start.collapse, collapsePath, Term.isStable,
    Start.isStable, changesStart_term ht hpath]
  rcases t.reread_of_not_isPath ht hpath with hread | hname
  · rw [extendPath_of_not_isPath hread hnil, hread]
    simp [hterm, hsegments]
  · obtain ⟨s, ss', hcons⟩ := List.exists_cons_of_ne_nil hnil
    rw [hname, hcons]
    simp [infinityName, Parser.contextPath, Parser.extendPath, Term.isPath]

/-- Reading and collapsing agree on a path from its first segment, if they do so on its segments
and no call at its head becomes a start. -/
theorem contextPath_collapse_eq_reread_iff {s : Segment} {ss : List Segment}
    (hsegments : collapseSegments (s :: ss) = rereadSegments (s :: ss) ↔
      segmentsStable (s :: ss) = true) :
    (Term.path .context (s :: ss)).collapse = (Term.path .context (s :: ss)).reread ↔
      (Term.path .context (s :: ss)).isStable = true := by
  cases hcall : beginsWithCall .context (s :: ss) with
  | false =>
    have hcontext : Start.context.collapse = .context := rfl
    rw [Term.collapse, Term.reread, hcontext, collapseSegments,
      collapsePath_of_segment (by rw [beginsWithCall_collapse s _ ss, hcall]),
      extendPath_headTerm _ (by rw [beginsWithCall_reread s _ ss, hcall])]
    rw [collapseSegments, rereadSegments] at hsegments
    have hchange : changesStart .context (s :: ss) = false := by
      cases s with
      | call n as => cases hcall
      | _ => rfl
    simp [Term.isStable, Start.isStable, hchange, hsegments]
  | true =>
    match s, ss with
    | .call n as, [] =>
      have hcollapse : (Term.path .context [.call n as]).collapse =
          .call n (collapseTerms as) := by
        simp only [Term.collapse, Start.collapse, collapseSegments, Segment.collapse,
          collapsePath]
      have hreread : (Term.path .context [.call n as]).reread = .call n (rereadTerms as) := by
        simp only [Term.reread, rereadSegments, Segment.reread, headTerm, Parser.extendPath]
      rw [hcollapse, hreread]
      simpa [collapseSegments, rereadSegments, Segment.collapse, Segment.reread,
        Term.isStable, Start.isStable, changesStart] using hsegments
    | .call n as, s' :: ss' =>
      simp [Term.collapse, Term.reread, Start.collapse, collapsePath, collapseSegments,
        rereadSegments, Segment.collapse, Segment.reread, headTerm, Parser.extendPath,
        Term.isStable, changesStart]

mutual

/-- A term is read as the term it collapses to exactly when it is stable. -/
theorem Term.collapse_eq_reread_iff (t : Term) (h : t.WellFormed check?) :
    t.collapse = t.reread ↔ t.isStable = true := by
  match t with
  | .literal v =>
    simp only [Term.WellFormed] at h
    simp only [Term.collapse, Term.reread, Scalar.collapse_eq_reread h, Term.isStable]
  | .path start ss =>
    simp only [Term.WellFormed] at h
    obtain ⟨hstart, hss, hne⟩ := h
    have hsegments := collapseSegments_eq_reread_iff ss hss
    match start with
    | .root | .current =>
      simp [Term.collapse, Term.reread, Start.collapse, collapsePath, Term.isStable,
        Start.isStable, changesStart, hsegments]
    | .term t =>
      simp only [Start.WellFormed] at hstart
      exact termPath_collapse_eq_reread_iff hstart.1 hstart.2 (hne rfl)
        (Term.collapse_eq_reread_iff t hstart.1) hsegments
    | .context =>
      cases ss with
      | nil => exact absurd rfl (hne rfl)
      | cons s ss => exact contextPath_collapse_eq_reread_iff hsegments
  | .call n as =>
    simp only [Term.WellFormed] at h
    simp [Term.collapse, Term.reread, Term.isStable, collapseTerms_eq_reread_iff as h.2]
  | .unary op t =>
    simp only [Term.WellFormed] at h
    simp [Term.collapse, Term.reread, Term.isStable, Term.collapse_eq_reread_iff t h.1]
  | .binary op l r =>
    simp only [Term.WellFormed] at h
    simp [Term.collapse, Term.reread, Term.isStable, Term.collapse_eq_reread_iff l h.1,
      Term.collapse_eq_reread_iff r h.2]
  | .ternary a b c =>
    simp only [Term.WellFormed] at h
    simp [Term.collapse, Term.reread, Term.isStable, Term.collapse_eq_reread_iff a h.1,
      Term.collapse_eq_reread_iff b h.2.1, Term.collapse_eq_reread_iff c h.2.2, and_assoc]
  | .list ts =>
    simp only [Term.WellFormed] at h
    simp [Term.collapse, Term.reread, Term.isStable, collapseTerms_eq_reread_iff ts h.2]

theorem Segment.collapse_eq_reread_iff (s : Segment) (h : s.WellFormed check?) :
    s.collapse = s.reread ↔ s.isStable = true := by
  match s with
  | .recursive inner =>
    simp only [Segment.WellFormed] at h
    simp [Segment.collapse, Segment.reread, Segment.isStable,
      Segment.collapse_eq_reread_iff inner h.1]
  | .filter t =>
    simp only [Segment.WellFormed] at h
    simp [Segment.collapse, Segment.reread, Segment.isStable, Term.collapse_eq_reread_iff t h]
  | .predicate t =>
    simp only [Segment.WellFormed] at h
    cases hstar : t.isStar with
    | true =>
      rw [eq_star_of_isStar hstar]
      simp [Segment.collapse, Segment.reread, bracketed, Segment.isStable, Term.isStable,
        changesStart, Start.isStable, segmentsStable]
    | false =>
      simp [Segment.collapse, Segment.reread, Segment.isStable, bracketed_of_ne_star hstar,
        Term.collapse_eq_reread_iff t h.1]
  | .call n as =>
    simp only [Segment.WellFormed] at h
    simp [Segment.collapse, Segment.reread, Segment.isStable, collapseTerms_eq_reread_iff as h.2]
  | .child _ | .index _ | .anyIndex | .wildcard | .recursiveWildcard | .slice .. =>
    simp [Segment.collapse, Segment.reread, Segment.isStable]

theorem collapseSegments_eq_reread_iff (ss : List Segment) (h : segmentsWellFormed check? ss) :
    collapseSegments ss = rereadSegments ss ↔ segmentsStable ss = true := by
  match ss with
  | [] => simp [collapseSegments, rereadSegments, segmentsStable]
  | s :: ss =>
    simp only [segmentsWellFormed] at h
    simp [collapseSegments, rereadSegments, segmentsStable, Segment.collapse_eq_reread_iff s h.1,
      collapseSegments_eq_reread_iff ss h.2]

theorem collapseTerms_eq_reread_iff (ts : List Term) (h : termsWellFormed check? ts) :
    collapseTerms ts = rereadTerms ts ↔ termsStable ts = true := by
  match ts with
  | [] => simp [collapseTerms, rereadTerms, termsStable]
  | t :: ts =>
    simp only [termsWellFormed] at h
    simp [collapseTerms, rereadTerms, termsStable, Term.collapse_eq_reread_iff t h.1,
      collapseTerms_eq_reread_iff ts h.2]

end

/-! ### What has been read -/

theorem Term.eq_star_of_reread {t : Term} (h : t.WellFormed check?)
    (hread : t.reread = .path .context [.wildcard]) : t = .path .context [.wildcard] := by
  have hinversion := t.reread_inversion h
  rw [hread] at hinversion
  rcases hinversion with hpath | ⟨v, _, hname⟩
  · cases t with
    | path start ss =>
      simp only [Term.WellFormed] at h
      cases start with
      | root | current => simp [Term.reread] at hread
      | term t =>
        simp only [Start.WellFormed] at h
        rw [Term.reread] at hread
        cases ss with
        | nil => exact absurd rfl (h.2.2 rfl)
        | cons s ss =>
          rcases t.reread_of_not_isPath h.1.1 h.1.2 with hpath | hname
          · rw [extendPath_of_not_isPath hpath (by simp [rereadSegments])] at hread
            cases hread
          · rw [hname, rereadSegments] at hread
            cases hread
      | context =>
        cases ss with
        | nil => exact absurd rfl (h.2.2 rfl)
        | cons s ss =>
          obtain ⟨hhead, rfl⟩ := contextPath_of_reread_singleton hread
          have hinversion := s.reread_inversion
          rw [hhead] at hinversion
          rw [hinversion]
    | _ => cases hpath
  · cases hname

theorem Term.isStar_reread {t : Term} (h : t.WellFormed check?) (hstar : t.isStar = false) :
    t.reread.isStar = false := by
  cases hread : t.reread.isStar with
  | false => rfl
  | true =>
    rw [t.eq_star_of_reread h (eq_star_of_isStar hread)] at hstar
    cases hstar

theorem Scalar.isUnambiguous_reread {v : Scalar} (h : v.WellFormed) :
    v.reread.isUnambiguous = true := by
  cases v with
  | real r =>
    simp only [Scalar.WellFormed] at h
    cases hx : Binary64.ofFloat? r with
    | some x =>
      simp [Scalar.reread, realTerm_of_ofFloat? hx, Term.isUnambiguous, Scalar.isInfinite,
        Binary64.isInf_eq_false_of_ofFloat? hx]
    | none => rcases Binary64.infinite_cases hx h with rfl | rfl <;> decide +kernel
  | _ => rfl

theorem termPath_isUnambiguous_reread {t : Term} {ss : List Segment} (ht : t.WellFormed check?)
    (hpath : t.isPath = false) (hne : ss ≠ []) (hterm : t.reread.isUnambiguous = true)
    (hsegments : segmentsUnambiguous (rereadSegments ss) = true) :
    (Term.path (.term t) ss).reread.isUnambiguous = true := by
  have hnil := rereadSegments_ne_nil hne
  rw [Term.reread]
  rcases t.reread_of_not_isPath ht hpath with hread | hname
  · rw [extendPath_of_not_isPath hread hnil]
    simp [Term.isUnambiguous, beginsWithCall, Start.isUnambiguous, hterm, hsegments]
  · obtain ⟨s, ss', hcons⟩ := List.exists_cons_of_ne_nil hnil
    rw [hcons] at hsegments ⊢
    rw [hname]
    simpa [infinityName, Parser.contextPath, Parser.extendPath, Term.isUnambiguous,
      beginsWithCall, Start.isUnambiguous, segmentsUnambiguous, Segment.isUnambiguous]
      using hsegments

theorem contextPath_isUnambiguous_reread {s : Segment} {ss : List Segment}
    (hsegments : segmentsUnambiguous (rereadSegments (s :: ss)) = true) :
    (Term.path .context (s :: ss)).reread.isUnambiguous = true := by
  rw [rereadSegments] at hsegments
  rw [Term.reread]
  rcases extendPath_headTerm_cases s.reread (rereadSegments ss) with
    ⟨heq, hs⟩ | ⟨n, as, hs, _, heq⟩ | ⟨n, as, hs, _, heq⟩
  · rw [heq]
    have hcall : beginsWithCall .context (s.reread :: rereadSegments ss) = false := by
      unfold beginsWithCall
      split
      · next heq => exact absurd (List.cons.inj heq).1 (hs _ _)
      · rfl
    simp [Term.isUnambiguous, hcall, Start.isUnambiguous, hsegments]
  · rw [hs] at hsegments
    rw [heq]
    simp only [segmentsUnambiguous, Segment.isUnambiguous, Bool.and_eq_true] at hsegments
    exact hsegments.1
  · rw [hs] at hsegments
    rw [heq]
    simp only [segmentsUnambiguous, Segment.isUnambiguous, Bool.and_eq_true] at hsegments
    simp [Term.isUnambiguous, beginsWithCall, Start.isUnambiguous, hsegments]

mutual

/-- Nothing in a term that has been read is written like something else. -/
theorem Term.isUnambiguous_reread (t : Term) (h : t.WellFormed check?) :
    t.reread.isUnambiguous = true := by
  match t with
  | .literal v =>
    simp only [Term.WellFormed] at h
    rw [Term.reread]
    exact Scalar.isUnambiguous_reread h
  | .path start ss =>
    simp only [Term.WellFormed] at h
    obtain ⟨hstart, hss, hne⟩ := h
    have hsegments := segmentsUnambiguous_reread ss hss
    match start with
    | .root | .current =>
      simp [Term.reread, Term.isUnambiguous, beginsWithCall, Start.isUnambiguous, hsegments]
    | .term t =>
      simp only [Start.WellFormed] at hstart
      exact termPath_isUnambiguous_reread hstart.1 hstart.2 (hne rfl)
        (Term.isUnambiguous_reread t hstart.1) hsegments
    | .context =>
      cases ss with
      | nil => exact absurd rfl (hne rfl)
      | cons s ss => exact contextPath_isUnambiguous_reread hsegments
  | .call n as =>
    simp only [Term.WellFormed] at h
    rw [Term.reread, Term.isUnambiguous, termsUnambiguous_reread as h.2]
  | .unary op t =>
    simp only [Term.WellFormed] at h
    rw [Term.reread, Term.isUnambiguous, Term.isUnambiguous_reread t h.1]
  | .binary op l r =>
    simp only [Term.WellFormed] at h
    rw [Term.reread, Term.isUnambiguous, Term.isUnambiguous_reread l h.1,
      Term.isUnambiguous_reread r h.2, Bool.and_true]
  | .ternary a b c =>
    simp only [Term.WellFormed] at h
    rw [Term.reread, Term.isUnambiguous, Term.isUnambiguous_reread a h.1,
      Term.isUnambiguous_reread b h.2.1, Term.isUnambiguous_reread c h.2.2, Bool.and_true,
      Bool.and_true]
  | .list ts =>
    simp only [Term.WellFormed] at h
    rw [Term.reread, Term.isUnambiguous, termsUnambiguous_reread ts h.2]

theorem Segment.isUnambiguous_reread (s : Segment) (h : s.WellFormed check?) :
    s.reread.isUnambiguous = true := by
  match s with
  | .recursive inner =>
    simp only [Segment.WellFormed] at h
    rw [Segment.reread, Segment.isUnambiguous, Segment.isUnambiguous_reread inner h.1]
  | .filter t =>
    simp only [Segment.WellFormed] at h
    rw [Segment.reread, Segment.isUnambiguous, Term.isUnambiguous_reread t h]
  | .predicate t =>
    simp only [Segment.WellFormed] at h
    rw [Segment.reread]
    cases hstar : t.isStar with
    | true =>
      rw [bracketed_of_star hstar]
      rfl
    | false =>
      rw [bracketed_of_ne_star hstar, Segment.isUnambiguous, Term.isUnambiguous_reread t h.1,
        Term.isStar_reread h.1 hstar]
      rfl
  | .call n as =>
    simp only [Segment.WellFormed] at h
    rw [Segment.reread, Segment.isUnambiguous, termsUnambiguous_reread as h.2]
  | .child _ | .index _ | .anyIndex | .wildcard | .recursiveWildcard | .slice .. => rfl

theorem segmentsUnambiguous_reread (ss : List Segment) (h : segmentsWellFormed check? ss) :
    segmentsUnambiguous (rereadSegments ss) = true := by
  match ss with
  | [] => rfl
  | s :: ss =>
    simp only [segmentsWellFormed] at h
    rw [rereadSegments, segmentsUnambiguous, Segment.isUnambiguous_reread s h.1,
      segmentsUnambiguous_reread ss h.2, Bool.and_true]

theorem termsUnambiguous_reread (ts : List Term) (h : termsWellFormed check? ts) :
    termsUnambiguous (rereadTerms ts) = true := by
  match ts with
  | [] => rfl
  | t :: ts =>
    simp only [termsWellFormed] at h
    rw [rereadTerms, termsUnambiguous, Term.isUnambiguous_reread t h.1,
      termsUnambiguous_reread ts h.2, Bool.and_true]

end

/-! ### What is written like nothing else -/

theorem changesStart_of_isUnambiguous {start : Start} {ss : List Segment}
    (hstart : start.isUnambiguous = true) (hcall : beginsWithCall start ss = false) :
    changesStart start ss = false := by
  unfold changesStart
  split
  · cases hcall
  · simp only [Start.isUnambiguous, Term.isUnambiguous, Scalar.isInfinite,
      Bool.not_eq_true'] at hstart
    rw [hstart, Bool.false_and]
  · rfl

mutual

/-- A term with nothing in it that is written like something else is stable. -/
theorem Term.isStable_of_isUnambiguous (t : Term) (hu : t.isUnambiguous = true) :
    t.isStable = true := by
  match t with
  | .literal v => rfl
  | .path start ss =>
    simp only [Term.isUnambiguous, Bool.and_eq_true, Bool.not_eq_true'] at hu
    obtain ⟨⟨hcall, hstart⟩, hss⟩ := hu
    rw [Term.isStable, changesStart_of_isUnambiguous hstart hcall,
      Start.isStable_of_isUnambiguous start hstart, segmentsStable_of_isUnambiguous ss hss]
    rfl
  | .call n as =>
    rw [Term.isUnambiguous] at hu
    rw [Term.isStable, termsStable_of_isUnambiguous as hu]
  | .unary op t =>
    rw [Term.isUnambiguous] at hu
    rw [Term.isStable, Term.isStable_of_isUnambiguous t hu]
  | .binary op l r =>
    simp only [Term.isUnambiguous, Bool.and_eq_true] at hu
    rw [Term.isStable, Term.isStable_of_isUnambiguous l hu.1, Term.isStable_of_isUnambiguous r hu.2,
      Bool.and_true]
  | .ternary a b c =>
    simp only [Term.isUnambiguous, Bool.and_eq_true] at hu
    rw [Term.isStable, Term.isStable_of_isUnambiguous a hu.1.1,
      Term.isStable_of_isUnambiguous b hu.1.2, Term.isStable_of_isUnambiguous c hu.2,
      Bool.and_true, Bool.and_true]
  | .list ts =>
    rw [Term.isUnambiguous] at hu
    rw [Term.isStable, termsStable_of_isUnambiguous ts hu]

theorem Start.isStable_of_isUnambiguous (s : Start) (hu : s.isUnambiguous = true) :
    s.isStable = true := by
  match s with
  | .term t =>
    rw [Start.isUnambiguous] at hu
    rw [Start.isStable, Term.isStable_of_isUnambiguous t hu]
  | .root | .current | .context => rfl

theorem Segment.isStable_of_isUnambiguous (s : Segment) (hu : s.isUnambiguous = true) :
    s.isStable = true := by
  match s with
  | .recursive inner =>
    rw [Segment.isUnambiguous] at hu
    rw [Segment.isStable, Segment.isStable_of_isUnambiguous inner hu]
  | .filter t =>
    rw [Segment.isUnambiguous] at hu
    rw [Segment.isStable, Term.isStable_of_isUnambiguous t hu]
  | .predicate t =>
    simp only [Segment.isUnambiguous, Bool.and_eq_true] at hu
    rw [Segment.isStable, Term.isStable_of_isUnambiguous t hu.2]
  | .call n as =>
    rw [Segment.isUnambiguous] at hu
    rw [Segment.isStable, termsStable_of_isUnambiguous as hu]
  | .child _ | .index _ | .anyIndex | .wildcard | .recursiveWildcard | .slice .. => rfl

theorem segmentsStable_of_isUnambiguous (ss : List Segment) (hu : segmentsUnambiguous ss = true) :
    segmentsStable ss = true := by
  match ss with
  | [] => rfl
  | s :: ss =>
    simp only [segmentsUnambiguous, Bool.and_eq_true] at hu
    rw [segmentsStable, Segment.isStable_of_isUnambiguous s hu.1,
      segmentsStable_of_isUnambiguous ss hu.2, Bool.and_true]

theorem termsStable_of_isUnambiguous (ts : List Term) (hu : termsUnambiguous ts = true) :
    termsStable ts = true := by
  match ts with
  | [] => rfl
  | t :: ts =>
    simp only [termsUnambiguous, Bool.and_eq_true] at hu
    rw [termsStable, Term.isStable_of_isUnambiguous t hu.1, termsStable_of_isUnambiguous ts hu.2,
      Bool.and_true]

end

/-! ### Texts -/

section

variable {ts : List Term} (hne : ts ≠ []) (h : termsWellFormed check? ts)
  (hreread : termsWellFormed check? (rereadTerms ts))
include hreread

/-- What has been read from a canonical text is read again as it is. -/
theorem rereadTerms_idem (h : termsWellFormed check? ts) :
    rereadTerms (rereadTerms ts) = rereadTerms ts :=
  rereadTerms_eq _ hreread (termsUnambiguous_reread ts h)

include hne h

/-- The canonical text stays as it is exactly when the terms are stable. -/
theorem canonicalText_reread_eq_iff (hspelled : check?.Spelled) (hcounts : check?.CountsOnly) :
    canonicalText (rereadTerms ts) = canonicalText ts ↔ termsStable ts = true := by
  have hstable := termsStable_of_isUnambiguous _ (termsUnambiguous_reread ts h)
  have hcollapse : collapseTerms (rereadTerms ts) = rereadTerms ts := by
    rw [(collapseTerms_eq_reread_iff _ hreread).mpr hstable, rereadTerms_idem hreread h]
  rw [canonicalText_eq_iff hspelled hcounts (rereadTerms_ne_nil hne) hne hreread h, hcollapse,
    ← collapseTerms_eq_reread_iff ts h]
  exact eq_comm

end

end

end PathQuery
