import PathQuery.Template.Nesting

/-!
# The grammar of templates

A tag asks for something if what stands in it can be read, and a template is well nested if its marks
are derived from a grammar in which blocks stand whole inside each other. A derivation is a tree of
parts, and written out in order the tree is the marks again, but for what ends name and for turning
points with nothing behind them.
-/

namespace PathQuery

/-! ### Reading -/

/-- What the body of a tag asks for: the terms behind its sign can be read, an include has a name, and
the turning point of a choice has nothing but blanks. -/
inductive Mark.ReadFrom (check? : Signatures) : List Char → Mark → Prop where
  | loop {body rest : List Char} {skipped : Nat} {ts : List Term}
      (hsign : splitSign body = (some .loop, skipped, rest))
      (hterms : parse check? (String.ofList rest) = .ok ts) : ReadFrom check? body (.loop ts)
  | choice {body rest : List Char} {skipped : Nat} {ts : List Term}
      (hsign : splitSign body = (some .choice, skipped, rest))
      (hterms : parse check? (String.ofList rest) = .ok ts) : ReadFrom check? body (.choice ts)
  | otherwise {body rest : List Char} {skipped : Nat}
      (hsign : splitSign body = (some .otherwise, skipped, rest)) (hblank : isBlankRun rest = true) :
      ReadFrom check? body .otherwise
  | close {body rest : List Char} {skipped : Nat}
      (hsign : splitSign body = (some .close, skipped, rest)) (hblank : isBlankRun rest = true) :
      ReadFrom check? body (.close none)
  | closeNamed {body rest : List Char} {skipped : Nat} {ts : List Term}
      (hsign : splitSign body = (some .close, skipped, rest)) (hblank : isBlankRun rest = false)
      (hterms : parse check? (String.ofList rest) = .ok ts) : ReadFrom check? body (.close (some ts))
  | insertion {body rest : List Char} {skipped : Nat}
      (hsign : splitSign body = (some .insertion, skipped, rest)) (hblank : isBlankRun rest = false) :
      ReadFrom check? body (.insertion (String.ofList (trimBlank rest)))
  | value {body rest : List Char} {skipped : Nat} {ts : List Term}
      (hsign : splitSign body = (none, skipped, rest)) (hblank : isBlankRun rest = false)
      (hterms : parse check? (String.ofList rest) = .ok ts) : ReadFrom check? body (.value ts)

/-- The marks of pieces: every tag is closed and can be read, and comments are left out. -/
inductive Reads (check? : Signatures) : List Piece → List Mark → Prop where
  | nil : Reads check? [] []
  | text (cs : List Char) {ps : List Piece} {ms : List Mark} (h : Reads check? ps ms) :
      Reads check? (.text cs :: ps) (.text (String.ofList cs) :: ms)
  | comment (offset : Nat) (body : List Char) {ps : List Piece} {ms : List Mark}
      (h : Reads check? ps ms) : Reads check? (.comment offset body :: ps) ms
  | tag (offset : Nat) {body : List Char} {m : Mark} {ps : List Piece} {ms : List Mark}
      (hm : m.ReadFrom check? body) (h : Reads check? ps ms) :
      Reads check? (.tag offset body :: ps) (m :: ms)

namespace Mark

variable {check? : Signatures}

theorem termsAt_eq_ok_iff {offset : Nat} {cs : List Char} {ts : List Term} :
    termsAt check? offset cs = .ok ts ↔ parse check? (String.ofList cs) = .ok ts := by
  unfold termsAt
  cases parse check? (String.ofList cs) with
  | ok ts' =>
    change (Except.ok ts' : Except TemplateFault (List Term)) = .ok ts ↔ _
    simp only [Except.ok.injEq]
  | error e =>
    constructor
    · intro h
      cases h
    · intro h
      cases h

theorem map_eq_ok_iff {offset : Nat} {cs : List Char} {make : List Term → Mark} {m : Mark} :
    (termsAt check? offset cs).map make = .ok m ↔
      ∃ ts, parse check? (String.ofList cs) = .ok ts ∧ make ts = m := by
  cases hterms : termsAt check? offset cs with
  | ok ts =>
    rw [termsAt_eq_ok_iff] at hterms
    rw [hterms]
    constructor
    · intro h
      cases h
      exact ⟨ts, rfl, rfl⟩
    · rintro ⟨_, hts, rfl⟩
      cases hts
      rfl
  | error e =>
    constructor
    · intro h
      cases h
    · rintro ⟨ts, hts, _⟩
      rw [termsAt_eq_ok_iff.mpr hts] at hterms
      cases hterms

theorem ReadFrom.of_ofTag {offset : Nat} {body : List Char} {m : Mark}
    (h : ofTag check? offset body = .ok m) : m.ReadFrom check? body := by
  rcases hsign : splitSign body with ⟨sign, skipped, rest⟩
  simp only [ofTag, hsign] at h
  cases sign with
  | none =>
    simp only at h
    split at h
    · cases h
    · rename_i hblank
      obtain ⟨ts, hts, rfl⟩ := map_eq_ok_iff.mp h
      exact .value hsign (Bool.eq_false_iff.mpr hblank) hts
  | some sign =>
    cases sign with
    | loop =>
      obtain ⟨ts, hts, rfl⟩ := map_eq_ok_iff.mp h
      exact .loop hsign hts
    | choice =>
      obtain ⟨ts, hts, rfl⟩ := map_eq_ok_iff.mp h
      exact .choice hsign hts
    | otherwise =>
      simp only at h
      split at h
      · rename_i hblank
        cases h
        exact .otherwise hsign hblank
      · cases h
    | close =>
      simp only at h
      split at h
      · rename_i hblank
        cases h
        exact .close hsign hblank
      · rename_i hblank
        obtain ⟨ts, hts, rfl⟩ := map_eq_ok_iff.mp h
        exact .closeNamed hsign (Bool.eq_false_iff.mpr hblank) hts
    | insertion =>
      simp only at h
      split at h
      · cases h
      · rename_i hblank
        cases h
        exact .insertion hsign (Bool.eq_false_iff.mpr hblank)

/-- A tag is accepted just if it can be read, wherever it stands. -/
theorem ofTag_eq_ok_iff {offset : Nat} {body : List Char} {m : Mark} :
    ofTag check? offset body = .ok m ↔ m.ReadFrom check? body := by
  refine ⟨.of_ofTag, fun h => ?_⟩
  cases h with
  | loop hsign hterms | choice hsign hterms =>
    simp only [ofTag, hsign]
    exact map_eq_ok_iff.mpr ⟨_, hterms, rfl⟩
  | otherwise hsign hblank | close hsign hblank => simp [ofTag, hsign, hblank]
  | insertion hsign hblank => simp [ofTag, hsign, hblank]
  | closeNamed hsign hblank hterms | value hsign hblank hterms =>
    simp only [ofTag, hsign, hblank, Bool.false_eq_true, if_false]
    exact map_eq_ok_iff.mpr ⟨_, hterms, rfl⟩

end Mark

/-! ### Deriving -/

/-- An end may name what it ends: then by terms of the same text as those the block has opened with. -/
def Closes (opening : List Term) (named : Option (List Term)) : Prop :=
  ∀ closing ∈ named, canonicalText closing = canonicalText opening

theorem closes_none (opening : List Term) : Closes opening none := fun closing h => by cases h

/-- The marks of well-nested templates, each with its derivation as a tree of parts. -/
inductive Derives : List Mark → List Part → Prop where
  | nil : Derives [] []
  | text (s : String) {ms : List Mark} {ps : List Part} (h : Derives ms ps) :
      Derives (.text s :: ms) (.text s :: ps)
  | value (terms : List Term) {ms : List Mark} {ps : List Part} (h : Derives ms ps) :
      Derives (.value terms :: ms) (.value terms :: ps)
  | insertion (name : String) {ms : List Mark} {ps : List Part} (h : Derives ms ps) :
      Derives (.insertion name :: ms) (.insertion name :: ps)
  | loop (subject : List Term) {named : Option (List Term)} (hnamed : Closes subject named)
      {inner : List Mark} {body : List Part} (hbody : Derives inner body) {ms : List Mark}
      {ps : List Part} (h : Derives ms ps) :
      Derives (.loop subject :: (inner ++ .close named :: ms)) (.loop subject body :: ps)
  | choice (guard : List Term) {named : Option (List Term)} (hnamed : Closes guard named)
      {inner : List Mark} {yes : List Part} (hyes : Derives inner yes) {ms : List Mark}
      {ps : List Part} (h : Derives ms ps) :
      Derives (.choice guard :: (inner ++ .close named :: ms)) (.choice guard yes [] :: ps)
  | choiceOtherwise (guard : List Term) {named : Option (List Term)} (hnamed : Closes guard named)
      {first second : List Mark} {yes no : List Part} (hyes : Derives first yes)
      (hno : Derives second no) {ms : List Mark} {ps : List Part} (h : Derives ms ps) :
      Derives (.choice guard :: (first ++ .otherwise :: (second ++ .close named :: ms)))
        (.choice guard yes no :: ps)

theorem Derives.append {ms ms' : List Mark} {ps ps' : List Part} (h : Derives ms ps)
    (h' : Derives ms' ps') : Derives (ms ++ ms') (ps ++ ps') := by
  induction h with
  | nil => exact h'
  | text s _ ih => exact .text s ih
  | value terms _ ih => exact .value terms ih
  | insertion name _ ih => exact .insertion name ih
  | loop subject hnamed hbody _ _ ih =>
    simp only [List.cons_append, List.append_assoc]
    exact .loop subject hnamed hbody ih
  | choice guard hnamed hyes _ _ ih =>
    simp only [List.cons_append, List.append_assoc]
    exact .choice guard hnamed hyes ih
  | choiceOtherwise guard hnamed hyes hno _ _ _ ih =>
    simp only [List.cons_append, List.append_assoc]
    exact .choiceOtherwise guard hnamed hyes hno ih

/-- Marks without what ends name, and without the turning points right before an end. -/
def Mark.plain : List Mark → List Mark
  | [] => []
  | .otherwise :: .close _ :: ms => .close none :: plain ms
  | .close _ :: ms => .close none :: plain ms
  | m :: ms => m :: plain ms

/-- What is derived begins with no end, so that no end before or after it is taken for its own. -/
theorem Derives.ne_close {m : Mark} {ms : List Mark} {ps : List Part} (h : Derives (m :: ms) ps)
    (named : Option (List Term)) : m ≠ .close named := by
  rintro rfl
  cases h

theorem Derives.eq_nil_iff {ms : List Mark} {ps : List Part} (h : Derives ms ps) :
    ms = [] ↔ ps = [] := by
  cases h <;> simp

namespace Mark

theorem plain_cons {m : Mark} (hturn : m ≠ .otherwise) (hend : ∀ named, m ≠ .close named)
    (ms : List Mark) : plain (m :: ms) = m :: plain ms := by
  cases m with
  | otherwise => exact absurd rfl hturn
  | close named => exact absurd rfl (hend named)
  | _ => rfl

theorem plain_otherwise {m : Mark} (hend : ∀ named, m ≠ .close named) (ms : List Mark) :
    plain (.otherwise :: m :: ms) = .otherwise :: plain (m :: ms) := by
  cases m with
  | close named => exact absurd rfl (hend named)
  | _ => rfl

end Mark

/-- The marks of a tree in front of others, by induction on the derivation of the tree. -/
theorem Derives.plain_append {ms : List Mark} {ps : List Part} (h : Derives ms ps)
    (rest : List Mark) : Mark.plain (ms ++ rest) = marksOf ps ++ Mark.plain rest := by
  induction h generalizing rest with
  | nil => rfl
  | text s _ ih | value terms _ ih | insertion name _ ih =>
    rw [List.cons_append, Mark.plain_cons (by simp) (by simp), ih, marksOf, Part.marks]
    rfl
  | loop subject _ _ _ ihbody ih =>
    rw [List.cons_append, List.append_assoc, Mark.plain_cons (by simp) (by simp), ihbody,
      List.cons_append, Mark.plain, ih]
    simp only [marksOf, Part.marks, List.cons_append, List.append_assoc, List.nil_append]
  | choice guard _ _ _ ihyes ih =>
    rw [List.cons_append, List.append_assoc, Mark.plain_cons (by simp) (by simp), ihyes,
      List.cons_append, Mark.plain, ih]
    simp only [marksOf, Part.marks, List.cons_append, List.append_assoc, List.nil_append]
  | @choiceOtherwise guard named _ first second yes no _ hno ms _ _ ihyes ihno ih =>
    rw [List.cons_append, List.append_assoc, Mark.plain_cons (by simp) (by simp), ihyes,
      List.cons_append, List.append_assoc, List.cons_append]
    have hrest := ihno (.close named :: (ms ++ rest))
    cases second with
    | nil =>
      -- nothing stands behind the turning point, and the tree has nothing to show for it
      obtain rfl := hno.eq_nil_iff.mp rfl
      rw [List.nil_append, Mark.plain, ih]
      simp only [marksOf, Part.marks, List.cons_append, List.append_assoc, List.nil_append]
    | cons m second =>
      have hne : no ≠ [] := fun hno' => List.cons_ne_nil m second (hno.eq_nil_iff.mpr hno')
      obtain ⟨p, no, rfl⟩ := List.exists_cons_of_ne_nil hne
      rw [List.cons_append] at hrest ⊢
      rw [Mark.plain_otherwise hno.ne_close, hrest, Mark.plain, ih]
      simp only [marksOf, Part.marks, List.cons_append, List.append_assoc, List.nil_append]

/-- Written out in order, the tree of a derivation is the marks it was derived from, as far as it has
them. -/
theorem Derives.marksOf_eq {ms : List Mark} {ps : List Part} (h : Derives ms ps) :
    marksOf ps = Mark.plain ms := by
  have hplain := h.plain_append []
  rwa [List.append_nil, Mark.plain, List.append_nil, eq_comm] at hplain

/-! ### Pieces and their source -/

def Piece.written : Piece → List Char
  | text cs => cs
  | comment _ body | tag _ body => '\x7b' :: '\x7b' :: (body ++ ['\x7d', '\x7d'])
  | unclosed _ => ['\x7b', '\x7b']

theorem Reads.unclosed_not_mem {check? : Signatures} {ps : List Piece} {ms : List Mark}
    (h : Reads check? ps ms) (offset : Nat) : Piece.unclosed offset ∉ ps := by
  induction h with
  | nil => exact List.not_mem_nil
  | text cs _ ih | comment _ _ _ ih | tag _ _ _ ih =>
    simp only [List.mem_cons, reduceCtorEq, false_or]
    exact ih

theorem Piece.written_ofText (cs : List Char) : (ofText cs).flatMap written = cs := by
  cases cs with
  | nil => rfl
  | cons c cs =>
    change (c :: cs) ++ [] = c :: cs
    rw [List.append_nil]

theorem Piece.written_ofBody (offset : Nat) (body : List Char) :
    (ofBody offset body).written = '\x7b' :: '\x7b' :: (body ++ ['\x7d', '\x7d']) := by
  unfold ofBody
  split
  · rfl
  · rfl

namespace Piece

variable {offset : Nat} {cs : List Char}

theorem scan_of_text (h : splitAtPair? '\x7b' cs = none) : scan offset cs = ofText cs := by
  rw [scan]
  split
  · rfl
  · rename_i hpair
    rw [h] at hpair
    cases hpair

theorem scan_of_unclosed {before inside : List Char}
    (h : splitAtPair? '\x7b' cs = some (before, inside)) (hclose : close? inside = none) :
    scan offset cs = ofText before ++ [unclosed (offset + byteLength before)] := by
  rw [scan]
  split
  · rename_i hnone
    rw [h] at hnone
    cases hnone
  · rename_i hpair
    rw [h] at hpair
    cases hpair
    split
    · rfl
    · rename_i hbody
      rw [hclose] at hbody
      cases hbody

theorem scan_of_body {before inside body rest : List Char}
    (h : splitAtPair? '\x7b' cs = some (before, inside)) (hclose : close? inside = some (body, rest)) :
    scan offset cs = ofText before ++ ofBody (offset + byteLength before) body ::
      scan (offset + byteLength before + byteLength body + 4) rest := by
  rw [scan]
  split
  · rename_i hnone
    rw [h] at hnone
    cases hnone
  · rename_i hpair
    rw [h] at hpair
    cases hpair
    split
    · rename_i hnone
      rw [hclose] at hnone
      cases hnone
    · rename_i hbody
      rw [hclose] at hbody
      cases hbody
      rfl

theorem ne_nil_of_mem_ofText {text : List Char} (h : Piece.text text ∈ ofText cs) : text ≠ [] := by
  cases cs with
  | nil => cases h
  | cons c cs =>
    cases List.mem_singleton.mp h
    exact List.cons_ne_nil c cs

/-- The pieces of a template whose tags are all closed are the template. -/
theorem written_scan (offset : Nat) (cs : List Char) (hclosed : ∀ o, unclosed o ∉ scan offset cs) :
    (scan offset cs).flatMap written = cs := by
  induction offset, cs using scan.induct with
  | case1 offset cs hnone =>
    rw [scan_of_text hnone, written_ofText]
  | case2 offset cs before inside hpair hnone =>
    rw [scan_of_unclosed hpair hnone] at hclosed
    exact absurd (List.mem_append_right _ List.mem_cons_self) (hclosed _)
  | case3 offset cs before inside hpair start body rest hbody ih =>
    rw [scan_of_body hpair hbody] at hclosed ⊢
    have hrest := ih fun o ho =>
      hclosed o (List.mem_append_right _ (List.mem_cons_of_mem _ ho))
    rw [List.flatMap_append, List.flatMap_cons, written_ofText, written_ofBody, hrest,
      eq_of_splitAtPair? hpair, eq_of_close? hbody]
    simp only [List.cons_append, List.append_assoc, List.nil_append]

theorem ne_nil_of_mem_scan (offset : Nat) (cs : List Char) {text : List Char}
    (h : .text text ∈ scan offset cs) : text ≠ [] := by
  induction offset, cs using scan.induct with
  | case1 offset cs hnone =>
    rw [scan_of_text hnone] at h
    exact ne_nil_of_mem_ofText h
  | case2 offset cs before inside hpair hnone =>
    rw [scan_of_unclosed hpair hnone] at h
    rcases List.mem_append.mp h with h | h
    · exact ne_nil_of_mem_ofText h
    · cases List.mem_singleton.mp h
  | case3 offset cs before inside hpair start body rest hbody ih =>
    rw [scan_of_body hpair hbody] at h
    rcases List.mem_append.mp h with h | h
    · exact ne_nil_of_mem_ofText h
    · rcases List.mem_cons.mp h with h | h
      · unfold ofBody at h
        split at h
        · cases h
        · cases h
      · exact ih h

end Piece

end PathQuery
