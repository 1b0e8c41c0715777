import PathQuery.Json.Reader
import PathQuery.Settings

/-!
# Reading settings

Settings are read from a JSON object that names the ones to change, or from an array that gives them
in their order. What is not given keeps its default, and fields of other names are passed over
whatever they hold. A setting given twice, or one whose value is of the wrong type, is refused.
-/

namespace PathQuery

inductive Setting where
  | locale
  | tolerance
  | strict
  | escapeHtml
  | maxIncludeDepth
  | maxIterations
  | maxOutputSize
  deriving DecidableEq, Repr

namespace Setting

def key : Setting → String
  | locale => "locale"
  | tolerance => "min_double"
  | strict => "strict_arithmetic"
  | escapeHtml => "html_escape"
  | maxIncludeDepth => "max_include_depth"
  | maxIterations => "max_iterations"
  | maxOutputSize => "max_output_size"

/-- Every setting, in the order of an array. -/
def all : List Setting :=
  [locale, tolerance, strict, escapeHtml, maxIncludeDepth, maxIterations, maxOutputSize]

def ofKey? (name : String) : Option Setting := all.find? fun s => s.key = name

end Setting

namespace Settings

/-! ### Values -/

def textOf? : RawJson → Option String
  | .string ps => (StringPiece.decode? ps).map String.ofList
  | _ => none

def boolOf? : RawJson → Option Bool
  | .bool b => some b
  | _ => none

def realOf? : RawJson → Option Float
  | .number n =>
    match n.toNumber? with
    | some (.int i) => some (Float.ofInt i)
    | some (.real r) => some r
    | none => none
  | _ => none

/-- A number written as an integer that is not negative. -/
def countOf? : RawJson → Option Nat
  | .number n =>
    match n.toNumber? with
    | some (.int i) => if 0 ≤ i then some i.toNat else none
    | _ => none
  | _ => none

/-- Changes one setting to a value of its type. -/
def assign? (s : Settings) (v : RawJson) : Setting → Option Settings
  | .locale => (textOf? v).map fun t => { s with locale := t }
  | .tolerance => (realOf? v).map fun r => { s with tolerance := r }
  | .strict => (boolOf? v).map fun b => { s with strict := b }
  | .escapeHtml => (boolOf? v).map fun b => { s with escapeHtml := b }
  | .maxIncludeDepth => (countOf? v).map fun n => { s with maxIncludeDepth := n }
  | .maxIterations => (countOf? v).map fun n => { s with maxIterations := n }
  | .maxOutputSize => (countOf? v).map fun n => { s with maxOutputSize := n }

/-! ### Objects and arrays -/

/-- Changes the settings that fields name; `given` are those named before. -/
def ofFields? (given : List Setting) (s : Settings) :
    List (List StringPiece × RawJson) → Option Settings
  | [] => some s
  | (key, v) :: fields => do
    let name ← StringPiece.decode? key
    match Setting.ofKey? (String.ofList name) with
    | none => ofFields? given s fields
    | some setting =>
      if setting ∈ given then none
      else do
        let changed ← s.assign? v setting
        ofFields? (setting :: given) changed fields

/-- Changes settings in the order `next` to the elements of an array; no element may be left. -/
def ofItems? (s : Settings) : List Setting → List RawJson → Option Settings
  | _, [] => some s
  | [], _ :: _ => none
  | setting :: next, v :: vs => do
    let changed ← s.assign? v setting
    changed.ofItems? next vs

/-- Reads settings over the defaults; `none` if the text gives none. -/
def read? (text : String) : Option Settings :=
  let cs := text.toList
  match RawJson.read? cs.length cs with
  | some (.object fields) => ofFields? [] default fields
  | some (.array items) => default.ofItems? Setting.all items
  | _ => none

end Settings
end PathQuery
