import PathQuery.Text.Offset

/-!
# Pieces of a template

A template is text with tags between double braces. A tag ends at the first two closing braces that
stand outside of quoted strings, in which a backslash takes the character after it along. A tag that
begins with an exclamation mark is a comment, and ends at the first two closing braces at all.
-/

namespace PathQuery

/-- A stretch of a template. An offset is the byte of the opening braces of a tag. -/
inductive Piece where
  /-- Text between tags, never empty. -/
  | text (cs : List Char)
  | comment (offset : Nat) (body : List Char)
  | tag (offset : Nat) (body : List Char)
  /-- Two opening braces without closing ones. -/
  | unclosed (offset : Nat)
  deriving DecidableEq, Repr

namespace Piece

/-! ### Ends of tags -/

/-- What stands before and after the first `b` that is followed by another. -/
def splitAtPair? (b : Char) : List Char → Option (List Char × List Char)
  | c :: d :: cs =>
    if c = b ∧ d = b then some ([], cs)
    else (splitAtPair? b (d :: cs)).map fun (before, after) => (c :: before, after)
  | _ => none

/-- What stands before and after the two closing braces that end a tag, given the quote that is open
at its beginning. -/
def closeTag? : Option Char → List Char → Option (List Char × List Char)
  | some q, '\\' :: c :: cs =>
    (closeTag? (some q) cs).map fun (body, rest) => ('\\' :: c :: body, rest)
  | some q, c :: cs =>
    (closeTag? (if c = q then none else some q) cs).map fun (body, rest) => (c :: body, rest)
  | none, '\x7d' :: '\x7d' :: cs => some ([], cs)
  | none, c :: cs =>
    (closeTag? (if c = '"' ∨ c = '\'' then some c else none) cs).map fun (body, rest) =>
      (c :: body, rest)
  | _, [] => none

theorem eq_of_splitAtPair? {b : Char} {cs before after : List Char}
    (h : splitAtPair? b cs = some (before, after)) : cs = before ++ b :: b :: after := by
  fun_induction splitAtPair? b cs generalizing before with
  | case1 c d cs hcd =>
    simp only [Option.some.injEq, Prod.mk.injEq] at h
    obtain ⟨rfl, rfl⟩ := h
    simp [hcd.1, hcd.2]
  | case2 c d cs _ ih =>
    simp only [Option.map_eq_some_iff, Prod.exists, Prod.mk.injEq] at h
    obtain ⟨x, y, hxy, rfl, rfl⟩ := h
    simp [ih hxy]
  | case3 => simp at h

theorem eq_of_closeTag? {quote : Option Char} {cs body rest : List Char}
    (h : closeTag? quote cs = some (body, rest)) : cs = body ++ '\x7d' :: '\x7d' :: rest := by
  fun_induction closeTag? quote cs generalizing body with
  | case1 q c cs ih =>
    simp only [Option.map_eq_some_iff, Prod.exists, Prod.mk.injEq] at h
    obtain ⟨x, y, hxy, rfl, rfl⟩ := h
    simp [ih hxy]
  | case2 q c cs _ ih =>
    simp only [Option.map_eq_some_iff, Prod.exists, Prod.mk.injEq] at h
    obtain ⟨x, y, hxy, rfl, rfl⟩ := h
    simp [ih hxy]
  | case3 cs =>
    simp only [Option.some.injEq, Prod.mk.injEq] at h
    obtain ⟨rfl, rfl⟩ := h
    rfl
  | case4 c cs _ ih =>
    simp only [Option.map_eq_some_iff, Prod.exists, Prod.mk.injEq] at h
    obtain ⟨x, y, hxy, rfl, rfl⟩ := h
    simp [ih hxy]
  | case5 => simp at h

/-- The body of a tag or comment that follows opening braces, and what comes after it. -/
def close? (inside : List Char) : Option (List Char × List Char) :=
  if inside.head? = some '!' then splitAtPair? '\x7d' inside else closeTag? none inside

theorem eq_of_close? {inside body rest : List Char} (h : close? inside = some (body, rest)) :
    inside = body ++ '\x7d' :: '\x7d' :: rest := by
  unfold close? at h
  split at h
  · exact eq_of_splitAtPair? h
  · exact eq_of_closeTag? h

/-! ### Pieces -/

def ofText (cs : List Char) : List Piece := if cs.isEmpty then [] else [text cs]

def ofBody (offset : Nat) (body : List Char) : Piece :=
  if body.head? = some '!' then comment offset body else tag offset body

set_option linter.unusedVariables false in
def scan (offset : Nat) (cs : List Char) : List Piece :=
  match h : splitAtPair? '\x7b' cs with
  | none => ofText cs
  | some (before, inside) =>
    let start := offset + byteLength before
    match hc : close? inside with
    | none => ofText before ++ [unclosed start]
    | some (body, rest) =>
      ofText before ++ ofBody start body :: scan (start + byteLength body + 4) rest
termination_by cs.length
decreasing_by
  have h1 := congrArg List.length (eq_of_splitAtPair? h)
  have h2 := congrArg List.length (eq_of_close? hc)
  simp only [List.length_append, List.length_cons] at h1 h2
  omega

def ofSource (source : List Char) : List Piece := scan 0 source

end Piece
end PathQuery
