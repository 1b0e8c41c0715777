import PathQuery.Eval.Builtin
import PathQuery.Proofs.Expression.Sameness
import PathQuery.Proofs.Number.Doubles
import PathQuery.Proofs.Template.Grammar

/-!
# Compilation accepts the well-nested templates

Compilation keeps the blocks that are open on a stack and puts each part into the innermost one. What
it has read at any time is a derivation with a hole in each block that is open. So it accepts a template
just if the grammar derives its marks, and what it gives is the tree of the derivation.
-/

namespace PathQuery

namespace Nesting

variable {check? : Signatures}

/-! ### Marks in order -/

/-- Places marks in order, each with the byte it stands at. -/
def places (n : Nesting) : List (Nat × Mark) → Except TemplateFault Nesting
  | [] => .ok n
  | m :: ms => do
    let next ← n.place m.1 m.2
    next.places ms

theorem places_append (n : Nesting) (ms ms' : List (Nat × Mark)) :
    n.places (ms ++ ms') = n.places ms >>= fun next => next.places ms' := by
  induction ms generalizing n with
  | nil => rfl
  | cons m ms ih =>
    rw [List.cons_append, places, places]
    cases n.place m.1 m.2 with
    | error e => rfl
    | ok next => exact ih next

/-- A tag that can be read is placed like its mark, also where it would end nothing. -/
theorem step_tag {offset : Nat} {body : List Char} {m : Mark} (hm : m.ReadFrom check? body)
    (n : Nesting) : n.step check? (.tag offset body) = n.place offset m := by
  rw [step]
  split
  · rename_i hnothing
    simp only [endsNothing, Bool.and_eq_true, List.isEmpty_iff, beq_iff_eq] at hnothing
    obtain ⟨hblocks, hsign⟩ := hnothing
    -- only an end has the sign of an end
    cases hm with
    | close hread | closeNamed hread => rw [place, hblocks]
    | loop hread | choice hread | otherwise hread | insertion hread | value hread =>
      rw [hread] at hsign
      cases hsign
  · rw [Mark.ofTag_eq_ok_iff.mpr hm]
    rfl

theorem steps_eq_places {ps : List Piece} {ms : List Mark} (h : Reads check? ps ms) :
    ∃ placed : List (Nat × Mark), placed.map Prod.snd = ms ∧
      ∀ n : Nesting, n.steps check? ps = n.places placed := by
  induction h with
  | nil => exact ⟨[], rfl, fun n => rfl⟩
  | text cs _ ih =>
    obtain ⟨placed, hplaced, hsteps⟩ := ih
    refine ⟨(0, .text (String.ofList cs)) :: placed, congrArg _ hplaced, fun n => ?_⟩
    exact hsteps _
  | comment offset body _ ih =>
    obtain ⟨placed, hplaced, hsteps⟩ := ih
    exact ⟨placed, hplaced, hsteps⟩
  | @tag offset body m ps ms hm _ ih =>
    obtain ⟨placed, hplaced, hsteps⟩ := ih
    refine ⟨(offset, m) :: placed, congrArg _ hplaced, fun n => ?_⟩
    rw [steps, places, step_tag hm, funext hsteps]

theorem reads_of_steps {n n' : Nesting} {ps : List Piece} (h : n.steps check? ps = .ok n') :
    ∃ ms, Reads check? ps ms := by
  induction ps generalizing n with
  | nil => exact ⟨[], .nil⟩
  | cons p ps ih =>
    rw [steps] at h
    cases hstep : n.step check? p with
    | error e =>
      rw [hstep] at h
      cases h
    | ok next =>
      rw [hstep] at h
      obtain ⟨ms, hms⟩ := ih h
      cases p with
      | text cs => exact ⟨_, .text cs hms⟩
      | comment offset body => exact ⟨ms, .comment offset body hms⟩
      | unclosed offset => cases hstep
      | tag offset body =>
        rw [step] at hstep
        split at hstep
        · cases hstep
        · cases hmark : Mark.ofTag check? offset body with
          | error e =>
            rw [hmark] at hstep
            cases hstep
          | ok m => exact ⟨m :: ms, .tag offset (Mark.ofTag_eq_ok_iff.mp hmark) hms⟩

/-! ### What is derived is accepted -/

def addAll (n : Nesting) (ps : List Part) : Nesting := ps.foldl add n

theorem addAll_outside (parts ps : List Part) :
    (Nesting.mk [] parts).addAll ps = ⟨[], ps.reverse ++ parts⟩ := by
  induction ps generalizing parts with
  | nil => rfl
  | cons p ps ih =>
    rw [List.reverse_cons, List.append_assoc]
    exact ih (p :: parts)

theorem addAll_open (kind : BlockKind) (terms : List Term) (offset : Nat) (body : List Part)
    (outer : List OpenBlock) (parts ps : List Part) :
    (Nesting.mk (⟨kind, terms, offset, body, none⟩ :: outer) parts).addAll ps =
      ⟨⟨kind, terms, offset, ps.reverse ++ body, none⟩ :: outer, parts⟩ := by
  induction ps generalizing body with
  | nil => rfl
  | cons p ps ih =>
    rw [List.reverse_cons, List.append_assoc]
    exact ih (p :: body)

theorem addAll_turned (kind : BlockKind) (terms : List Term) (offset : Nat) (body later : List Part)
    (outer : List OpenBlock) (parts ps : List Part) :
    (Nesting.mk (⟨kind, terms, offset, body, some later⟩ :: outer) parts).addAll ps =
      ⟨⟨kind, terms, offset, body, some (ps.reverse ++ later)⟩ :: outer, parts⟩ := by
  induction ps generalizing later with
  | nil => rfl
  | cons p ps ih =>
    rw [List.reverse_cons, List.append_assoc]
    exact ih (p :: later)

theorem closedBy_of_closes {b : OpenBlock} {named : Option (List Term)} (h : Closes b.terms named) :
    b.closedBy named = true := by
  cases named with
  | none => rfl
  | some closing => exact beq_iff_eq.mpr (h closing rfl)

/-- An end that may end the innermost block makes it a part of what is around it. -/
theorem place_close {b : OpenBlock} {named : Option (List Term)} (h : Closes b.terms named)
    (outer : List OpenBlock) (parts : List Part) (offset : Nat) :
    (Nesting.mk (b :: outer) parts).place offset (.close named) =
      .ok (add ⟨outer, parts⟩ b.close) := by
  rw [place]
  exact if_pos (closedBy_of_closes h)

/-- What stands between the beginning of a block and its end becomes its body. -/
theorem places_block (n : Nesting) (kind : BlockKind) (terms : List Term) (offset closing : Nat)
    {named : Option (List Term)} (hnamed : Closes terms named) {inner : List (Nat × Mark)}
    {body : List Part} (hinner : ∀ n : Nesting, n.places inner = .ok (n.addAll body))
    (rest : List (Nat × Mark)) :
    (n.enter kind terms offset).places (inner ++ (closing, .close named) :: rest) =
      (n.add (OpenBlock.close ⟨kind, terms, offset, body.reverse, none⟩)).places rest := by
  rw [places_append, hinner, enter, addAll_open, List.append_nil]
  change (place _ closing (.close named) >>= fun next => next.places rest) = _
  rw [place_close hnamed]
  rfl

/-- What is derived is placed wherever it stands, and adds the parts of its derivation. -/
theorem places_of_derives {ms : List Mark} {ps : List Part} (h : Derives ms ps) (n : Nesting)
    (placed : List (Nat × Mark)) (hplaced : placed.map Prod.snd = ms) :
    n.places placed = .ok (n.addAll ps) := by
  -- for all nestings at once: the body of a block is placed where one more block is open
  induction h generalizing n placed with
  | nil =>
    rw [List.map_eq_nil_iff] at hplaced
    subst hplaced
    rfl
  | text s _ ih | value terms _ ih | insertion name _ ih =>
    rw [List.map_eq_cons_iff] at hplaced
    obtain ⟨⟨offset, _⟩, placed, rfl, rfl, hplaced⟩ := hplaced
    exact ih _ placed hplaced
  | @loop subject named hnamed inner body _ ms ps _ ihbody ih =>
    simp only [List.map_eq_cons_iff, List.map_eq_append_iff] at hplaced
    obtain ⟨⟨offset, _⟩, _, rfl, rfl, first, _, rfl, hfirst, ⟨closing, _⟩, rest, rfl, rfl, hrest⟩ :=
      hplaced
    change (n.enter .loop subject offset).places _ = _
    rw [places_block n .loop subject offset closing hnamed fun n => ihbody n first hfirst,
      ih _ rest hrest, OpenBlock.close, List.reverse_reverse]
    rfl
  | @choice guard named hnamed inner yes _ ms ps _ ihyes ih =>
    simp only [List.map_eq_cons_iff, List.map_eq_append_iff] at hplaced
    obtain ⟨⟨offset, _⟩, _, rfl, rfl, first, _, rfl, hfirst, ⟨closing, _⟩, rest, rfl, rfl, hrest⟩ :=
      hplaced
    change (n.enter .choice guard offset).places _ = _
    rw [places_block n .choice guard offset closing hnamed fun n => ihyes n first hfirst,
      ih _ rest hrest, OpenBlock.close, List.reverse_reverse]
    rfl
  | @choiceOtherwise guard named hnamed first second yes no _ _ ms ps _ ihyes ihno ih =>
    simp only [List.map_eq_cons_iff, List.map_eq_append_iff] at hplaced
    obtain ⟨⟨offset, _⟩, _, rfl, rfl, front, _, rfl, hfront, ⟨turning, _⟩, _, rfl, rfl, back, _, rfl,
      hback, ⟨closing, _⟩, rest, rfl, rfl, hrest⟩ := hplaced
    change (n.enter .choice guard offset).places _ = _
    rw [places_append, ihyes _ front hfront, enter, addAll_open, List.append_nil]
    change places ⟨⟨.choice, guard, offset, yes.reverse, some []⟩ :: n.blocks, n.parts⟩ _ = _
    rw [places_append, ihno _ back hback, addAll_turned, List.append_nil]
    change (place _ closing (.close named) >>= fun next => next.places rest) = _
    rw [place_close hnamed]
    change (add _ _).places rest = _
    rw [ih _ rest hrest, OpenBlock.close, List.reverse_reverse, Option.getD_some,
      List.reverse_reverse]
    rfl

/-! ### What is accepted is derived -/

/-- The marks that a nesting has been made from: a derivation with a hole in each open block. -/
inductive Assembled : Nesting → List Mark → Prop where
  | outside {parts : List Part} {ms : List Mark} (h : Derives ms parts.reverse) :
      Assembled ⟨[], parts⟩ ms
  | loop (subject : List Term) (offset : Nat) {outer : List OpenBlock} {parts : List Part}
      {ms : List Mark} (h : Assembled ⟨outer, parts⟩ ms) {body : List Part} {inner : List Mark}
      (hbody : Derives inner body.reverse) :
      Assembled ⟨⟨.loop, subject, offset, body, none⟩ :: outer, parts⟩ (ms ++ .loop subject :: inner)
  | choice (guard : List Term) (offset : Nat) {outer : List OpenBlock} {parts : List Part}
      {ms : List Mark} (h : Assembled ⟨outer, parts⟩ ms) {body : List Part} {inner : List Mark}
      (hbody : Derives inner body.reverse) :
      Assembled ⟨⟨.choice, guard, offset, body, none⟩ :: outer, parts⟩ (ms ++ .choice guard :: inner)
  | turned (guard : List Term) (offset : Nat) {outer : List OpenBlock} {parts : List Part}
      {ms : List Mark} (h : Assembled ⟨outer, parts⟩ ms) {body : List Part} {first : List Mark}
      (hbody : Derives first body.reverse) {later : List Part} {second : List Mark}
      (hlater : Derives second later.reverse) :
      Assembled ⟨⟨.choice, guard, offset, body, some later⟩ :: outer, parts⟩
        (ms ++ .choice guard :: (first ++ .otherwise :: second))

theorem Assembled.add {n : Nesting} {ms new : List Mark} {p : Part} (h : Assembled n ms)
    (hp : Derives new [p]) : Assembled (n.add p) (ms ++ new) := by
  cases h with
  | outside h =>
    refine .outside ?_
    rw [List.reverse_cons]
    exact h.append hp
  | loop subject offset h hbody =>
    rw [List.append_assoc, List.cons_append]
    refine .loop subject offset h ?_
    rw [List.reverse_cons]
    exact hbody.append hp
  | choice guard offset h hbody =>
    rw [List.append_assoc, List.cons_append]
    refine .choice guard offset h ?_
    rw [List.reverse_cons]
    exact hbody.append hp
  | turned guard offset h hbody hlater =>
    rw [List.append_assoc, List.cons_append, List.append_assoc, List.cons_append]
    refine .turned guard offset h hbody ?_
    rw [List.reverse_cons]
    exact hlater.append hp

theorem Assembled.close {b : OpenBlock} {outer : List OpenBlock} {parts : List Part} {ms : List Mark}
    {named : Option (List Term)} (h : Assembled ⟨b :: outer, parts⟩ ms)
    (hnamed : Closes b.terms named) :
    Assembled (Nesting.add ⟨outer, parts⟩ b.close) (ms ++ [.close named]) := by
  cases h with
  | loop subject offset h hbody =>
    rw [List.append_assoc, List.cons_append]
    exact h.add (.loop subject hnamed hbody .nil)
  | choice guard offset h hbody =>
    rw [List.append_assoc, List.cons_append]
    exact h.add (.choice guard hnamed hbody .nil)
  | turned guard offset h hbody hlater =>
    rw [List.append_assoc, List.cons_append, List.append_assoc, List.cons_append]
    exact h.add (.choiceOtherwise guard hnamed hbody hlater .nil)

theorem Assembled.place {n n' : Nesting} {ms : List Mark} (h : Assembled n ms) {offset : Nat}
    {m : Mark} (hplace : n.place offset m = .ok n') : Assembled n' (ms ++ [m]) := by
  cases m with
  | text s =>
    cases hplace
    exact h.add (.text s .nil)
  | value terms =>
    cases hplace
    exact h.add (.value terms .nil)
  | insertion name =>
    cases hplace
    exact h.add (.insertion name .nil)
  | loop subject =>
    cases hplace
    exact .loop subject offset h .nil
  | choice guard =>
    cases hplace
    exact .choice guard offset h .nil
  | otherwise =>
    -- only a choice that has not turned yet lets it through
    cases h with
    | outside => cases hplace
    | loop => cases hplace
    | turned => cases hplace
    | choice guard opened h hbody =>
      cases hplace
      rw [List.append_assoc, List.cons_append]
      exact .turned guard opened h hbody .nil
  | close named =>
    obtain ⟨blocks, parts⟩ := n
    cases blocks with
    | nil => cases hplace
    | cons b outer =>
      simp only [Nesting.place] at hplace
      split at hplace
      · rename_i hclosed
        cases hplace
        refine h.close fun closing hclosing => ?_
        cases hclosing
        exact beq_iff_eq.mp hclosed
      · cases hplace

theorem Assembled.places {n n' : Nesting} {ms : List Mark} (h : Assembled n ms)
    {placed : List (Nat × Mark)} (hplaces : n.places placed = .ok n') :
    Assembled n' (ms ++ placed.map Prod.snd) := by
  induction placed generalizing n ms with
  | nil =>
    cases hplaces
    rw [List.map_nil, List.append_nil]
    exact h
  | cons m placed ih =>
    rw [Nesting.places] at hplaces
    cases hplace : n.place m.1 m.2 with
    | error e =>
      rw [hplace] at hplaces
      cases hplaces
    | ok next =>
      rw [hplace] at hplaces
      have hnext := ih (h.place hplace) hplaces
      rwa [List.append_assoc] at hnext

end Nesting

/-! ### Templates -/

open Nesting

theorem parseTemplate_eq_ok {check? : Signatures} {source : String} {parts : List Part} :
    parseTemplate check? source = .ok parts ↔
      ∃ n : Nesting, Nesting.empty.steps check? (Piece.ofSource source.toList) = .ok n ∧
        n.finish = .ok parts := by
  unfold parseTemplate
  dsimp only
  cases Nesting.empty.steps check? (Piece.ofSource source.toList) with
  | error e =>
    constructor
    · intro h
      cases h
    · rintro ⟨n, hn, _⟩
      cases hn
  | ok n =>
    change n.finish.mapError _ = _ ↔ _
    constructor
    · intro h
      cases hfinish : n.finish with
      | error e =>
        rw [hfinish] at h
        cases h
      | ok ps =>
        rw [hfinish] at h
        cases h
        exact ⟨n, rfl, hfinish⟩
    · rintro ⟨n', hn', hparts⟩
      cases hn'
      rw [hparts]
      rfl

/-- A template is accepted just if its tags can be read and its marks are well nested, and what it
gives is the derivation. -/
theorem parseTemplate_eq_ok_iff {check? : Signatures} {source : String} {parts : List Part} :
    parseTemplate check? source = .ok parts ↔
      ∃ marks, Reads check? (Piece.ofSource source.toList) marks ∧ Derives marks parts := by
  rw [parseTemplate_eq_ok]
  constructor
  · rintro ⟨⟨blocks, outside⟩, hsteps, hfinish⟩
    obtain ⟨marks, hreads⟩ := reads_of_steps hsteps
    obtain ⟨placed, hplaced, hsame⟩ := steps_eq_places hreads
    rw [hsame] at hsteps
    have hassembled := (Assembled.outside Derives.nil : Assembled .empty []).places hsteps
    rw [List.nil_append, hplaced] at hassembled
    refine ⟨marks, hreads, ?_⟩
    cases blocks with
    | cons b outer => cases hfinish
    | nil =>
      -- with no block open there is no hole, and what is assembled is derived
      cases hfinish
      cases hassembled with
      | outside h => exact h
  · rintro ⟨marks, hreads, hderives⟩
    obtain ⟨placed, hplaced, hsame⟩ := steps_eq_places hreads
    refine ⟨Nesting.empty.addAll parts, ?_, ?_⟩
    · rw [hsame]
      exact places_of_derives hderives _ placed hplaced
    · rw [Nesting.empty, addAll_outside, List.append_nil]
      exact congrArg _ (List.reverse_reverse parts)

theorem Derives.unique {ms : List Mark} {ps ps' : List Part} (h : Derives ms ps)
    (h' : Derives ms ps') : ps = ps' := by
  let placed := ms.map fun m => (0, m)
  have hplaced : placed.map Prod.snd = ms := by
    rw [List.map_map]
    exact List.map_id ms
  have hsame := (places_of_derives h .empty placed hplaced).symm.trans
    (places_of_derives h' .empty placed hplaced)
  simp only [Nesting.empty, addAll_outside, List.append_nil, Except.ok.injEq, Nesting.mk.injEq,
    true_and] at hsame
  exact List.reverse_inj.mp hsame

/-- Compilation accepts exactly the well-nested templates: the tags of an accepted template are all
closed and can be read, the grammar derives its marks, and the result is the tree of the one derivation.
Written out in order the tree is the marks, but for what ends name and for turning points right before
an end; and the pieces are the template, without empty texts. -/
theorem parseTemplate_wellNested (check? : Signatures) (source : String) (parts : List Part) :
    let pieces := Piece.ofSource source.toList
    (parseTemplate check? source = .ok parts ↔
        ∃ marks, Reads check? pieces marks ∧ Derives marks parts) ∧
      ∀ marks, Reads check? pieces marks →
        (Derives marks parts →
          (∀ other, Derives marks other → other = parts) ∧
            marksOf parts = Mark.plain marks) ∧
          pieces.flatMap Piece.written = source.toList ∧ ∀ text, .text text ∈ pieces → text ≠ [] := by
  intro pieces
  refine ⟨parseTemplate_eq_ok_iff, fun marks hreads => ⟨fun hderives => ⟨?_, ?_⟩, ?_, ?_⟩⟩
  · exact fun other hother => hother.unique hderives
  · exact hderives.marksOf_eq
  · exact Piece.written_scan 0 source.toList hreads.unclosed_not_mem
  · exact fun text => Piece.ne_nil_of_mem_scan 0 source.toList

/-- A choice with a turning point, and a comment between its tags. -/
theorem parseTemplate_wellNested_choice :
    let source := "\x7b\x7b?a\x7d\x7dx\x7b\x7b!c\x7d\x7d\x7b\x7b:\x7d\x7dy\x7b\x7b/a\x7d\x7d"
    let a : List Term := [.path .context [.child "a"]]
    parseTemplate Registry.builtins.signatures source = .ok [.choice a [.text "x"] [.text "y"]] ∧
      marksOf [.choice a [.text "x"] [.text "y"]] =
        [.choice a, .text "x", .otherwise, .text "y", .close none] := by
  intro source a
  have hpieces : Piece.ofSource source.toList =
      [.tag 0 ['?', 'a'], .text ['x'], .comment 7 ['!', 'c'], .tag 13 [':'], .text ['y'],
        .tag 19 ['/', 'a']] := by
    decide +kernel
  have hterms : parse Registry.builtins.signatures (String.ofList ['a']) = .ok a := by decide +kernel
  have hreads : Reads Registry.builtins.signatures (Piece.ofSource source.toList)
      [.choice a, .text "x", .otherwise, .text "y", .close (some a)] := by
    rw [hpieces]
    refine .tag 0 (.choice rfl hterms) (.text ['x'] (.comment 7 _ ?_))
    refine .tag 13 (.otherwise rfl rfl) (.text ['y'] ?_)
    exact .tag 19 (.closeNamed rfl rfl hterms) .nil
  have hnamed : Closes a (some a) := fun closing h => by
    cases h
    rfl
  have hderives : Derives [.choice a, .text "x", .otherwise, .text "y", .close (some a)]
      [.choice a [.text "x"] [.text "y"]] :=
    .choiceOtherwise a hnamed (.text "x" .nil) (.text "y" .nil) .nil
  have hwell := parseTemplate_wellNested Registry.builtins.signatures source
    [.choice a [.text "x"] [.text "y"]]
  exact ⟨hwell.1.mpr ⟨_, hreads, hderives⟩, ((hwell.2 _ hreads).1 hderives).2⟩

/-- An end may name terms that only look like those its block has opened with. -/
theorem parseTemplate_alike :
    let check? := Registry.builtins.signatures
    let source := "\x7b\x7b?1e999\x7d\x7dx\x7b\x7b/inf\x7d\x7d"
    ∃ opening closing parts, opening ≠ closing ∧ parseTemplate check? source = .ok parts ∧
      Reads check? (Piece.ofSource source.toList)
        [.choice opening, .text "x", .close (some closing)] := by
  intro check? source
  let opening : List Term := [.literal (.real Binary64.infinity)]
  let closing : List Term := [.path .context [.child "inf"]]
  have hpieces : Piece.ofSource source.toList =
      [.tag 0 ['?', '1', 'e', '9', '9', '9'], .text ['x'], .tag 11 ['/', 'i', 'n', 'f']] := by
    decide +kernel
  have hopening : parse check? (String.ofList ['1', 'e', '9', '9', '9']) = .ok opening := by
    decide +kernel
  have hclosing : parse check? (String.ofList ['i', 'n', 'f']) = .ok closing := by decide +kernel
  have hreads : Reads check? (Piece.ofSource source.toList)
      [.choice opening, .text "x", .close (some closing)] := by
    rw [hpieces]
    refine .tag 0 (.choice rfl hopening) (.text ['x'] ?_)
    exact .tag 11 (.closeNamed rfl rfl hclosing) .nil
  have hnamed : Closes opening (some closing) := fun named h => by
    cases h
    decide +kernel
  have hparts : parseTemplate check? source = .ok [.choice opening [.text "x"] []] :=
    parseTemplate_eq_ok_iff.mpr ⟨_, hreads, .choice opening hnamed (.text "x" .nil) .nil⟩
  exact ⟨opening, closing, _, by simp [opening, closing], hparts, hreads⟩

/-- A turning point with nothing behind it is not in the tree: a template with one and a template
without it have the same tree, so no way of writing trees out gives the marks back. And an end may name
other terms than those its block has opened with. -/
theorem parseTemplate_forgets :
    let check? := Registry.builtins.signatures
    let a : List Term := [.path .context [.child "a"]]
    let short := "\x7b\x7b?a\x7d\x7dx\x7b\x7b/\x7d\x7d"
    let long := "\x7b\x7b?a\x7d\x7dx\x7b\x7b:\x7d\x7d\x7b\x7b/\x7d\x7d"
    let alike := "\x7b\x7b?1e999\x7d\x7dx\x7b\x7b/inf\x7d\x7d"
    (parseTemplate check? short = .ok [.choice a [.text "x"] []] ∧
        Reads check? (Piece.ofSource short.toList) [.choice a, .text "x", .close none]) ∧
      (parseTemplate check? long = .ok [.choice a [.text "x"] []] ∧
        Reads check? (Piece.ofSource long.toList) [.choice a, .text "x", .otherwise, .close none]) ∧
      (¬ ∃ flatten : List Part → List Mark, ∀ source parts marks,
        parseTemplate check? source = .ok parts →
          Reads check? (Piece.ofSource source.toList) marks → flatten parts = marks) ∧
      ∃ opening closing parts, opening ≠ closing ∧ parseTemplate check? alike = .ok parts ∧
        Reads check? (Piece.ofSource alike.toList)
          [.choice opening, .text "x", .close (some closing)] := by
  intro check? a short long alike
  have hterms : parse check? (String.ofList ['a']) = .ok a := by decide +kernel
  have hpieces : Piece.ofSource short.toList =
      [.tag 0 ['?', 'a'], .text ['x'], .tag 7 ['/']] := by decide +kernel
  have hpieces' : Piece.ofSource long.toList =
      [.tag 0 ['?', 'a'], .text ['x'], .tag 7 [':'], .tag 12 ['/']] := by decide +kernel
  have hreads : Reads check? (Piece.ofSource short.toList) [.choice a, .text "x", .close none] := by
    rw [hpieces]
    exact .tag 0 (.choice rfl hterms) (.text ['x'] (.tag 7 (.close rfl rfl) .nil))
  have hreads' : Reads check? (Piece.ofSource long.toList)
      [.choice a, .text "x", .otherwise, .close none] := by
    rw [hpieces']
    refine .tag 0 (.choice rfl hterms) (.text ['x'] ?_)
    exact .tag 7 (.otherwise rfl rfl) (.tag 12 (.close rfl rfl) .nil)
  have hparts : parseTemplate check? short = .ok [.choice a [.text "x"] []] :=
    parseTemplate_eq_ok_iff.mpr ⟨_, hreads, .choice a (closes_none a) (.text "x" .nil) .nil⟩
  have hparts' : parseTemplate check? long = .ok [.choice a [.text "x"] []] :=
    parseTemplate_eq_ok_iff.mpr
      ⟨_, hreads', .choiceOtherwise a (closes_none a) (.text "x" .nil) .nil .nil⟩
  refine ⟨⟨hparts, hreads⟩, ⟨hparts', hreads'⟩, ?_, parseTemplate_alike⟩
  rintro ⟨flatten, hflatten⟩
  have hmarks := (hflatten _ _ _ hparts hreads).symm.trans (hflatten _ _ _ hparts' hreads')
  simp at hmarks

end PathQuery
