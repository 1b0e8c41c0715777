import PathQuery.Proofs.Expression.Reading

/-!
# How tight operators bind

A formula is a tree of operators over names. It is written with parentheses only where an operand
binds looser than its place asks for, and the parser reads such a text as the tree it was written
from.

From loose to tight, the places of operands are:

* 0, a whole expression: the branches of a ternary, and what stands in parentheses;
* 1, the test of a ternary;
* the precedence of an operator and the number after it, its left and its right operand;
* 10, the operand of a prefix operator, and the exponent of a power;
* 12, the base of a power.
-/

namespace PathQuery

open PathQuery.Parser

/-! ### Formulas -/

/-- A name that is no keyword and needs no quotes. -/
abbrev PlainName := {name : String // isPlainName name = true}

/-- A tree of operators over names. -/
inductive Formula where
  | name (n : PlainName)
  | unary (op : UnaryOp) (f : Formula)
  | binary (op : BinaryOp) (l r : Formula)
  | ternary (test yes no : Formula)

/-- How tight the left operand binds at least. -/
def BinaryOp.leftLevel (op : BinaryOp) : Nat := if op = .pow then 12 else op.precedence

/-- How tight the right operand binds at least. -/
def BinaryOp.rightLevel (op : BinaryOp) : Nat := if op = .pow then 10 else op.precedence + 1

/-- What stands between two blanks. -/
inductive Word where
  | name (n : PlainName)
  | symbol (s : Symbol)

namespace Word

def text : Word → String
  | name n => n
  | symbol s => s.text

def kind : Word → TokenKind
  | name n => .name n
  | symbol s => .symbol s

/-- The lexemes of words with blanks between them. -/
def signs (spaced : Bool) : List Word → List Sign
  | [] => []
  | w :: ws => (w.kind, spaced) :: signs true ws

/-- Words in parentheses if what they say binds looser than `least`. -/
def enclose (least level : Nat) (ws : List Word) : List Word :=
  if level < least then symbol .leftParen :: (ws ++ [symbol .rightParen]) else ws

end Word

namespace Formula

/-- The term that a formula is. -/
def term : Formula → Term
  | name n => contextPath [.child n]
  | unary op f => .unary op f.term
  | binary op l r => .binary op l.term r.term
  | ternary test yes no => .ternary test.term yes.term no.term

/-- The words of a formula at a place where it has to bind at least as tight as `least`. -/
def words : Formula → (least : Nat) → List Word
  | name n, _ => [.name n]
  | unary op f, least => Word.enclose least 10 (.symbol op.symbol :: f.words 10)
  | binary op l r, least =>
    Word.enclose least op.precedence
      (l.words op.leftLevel ++ .symbol op.symbol :: r.words op.rightLevel)
  | ternary test yes no, least =>
    Word.enclose least 0
      (test.words 1 ++ .symbol .question :: (yes.words 0 ++ .symbol .colon :: no.words 0))

/-- The text of a formula: its words with blanks between them. -/
def text (f : Formula) : String := " ".intercalate ((f.words 0).map Word.text)

end Formula

/-! ### Scanning words -/

theorem Symbol.space_notMem_longer (s : Symbol) : ' ' ∉ s.longer := by
  cases s <;> decide

theorem Word.scans (w : Word) {spaced : Bool} {rest : List Char} {ks : List Sign}
    (hrest : ∀ d ∈ rest.head?, d = ' ') (h : Lexer.Scans false rest ks) :
    Lexer.Scans spaced (w.text.toList ++ rest) ((w.kind, spaced) :: ks) := by
  cases w with
  | name n =>
    refine .name (isNameText_of_isPlainName n.2) (fun d hd => ?_) h
    rw [hrest d hd]
    decide
  | symbol s =>
    refine .symbol s (fun d hd => ?_) h
    rw [hrest d hd]
    exact s.space_notMem_longer

theorem Word.scans_intercalate (spaced : Bool) (ws : List Word) :
    Lexer.Scans spaced (" ".intercalate (ws.map Word.text)).toList (signs spaced ws) := by
  induction ws generalizing spaced with
  | nil => exact .nil
  | cons w ws ih =>
    cases ws with
    | nil =>
      have hw : Lexer.Scans spaced (w.text.toList ++ []) (signs spaced [w]) :=
        w.scans (by rintro _ ⟨⟩) .nil
      simpa only [List.map_cons, List.map_nil, String.intercalate_singleton, List.append_nil]
        using hw
    | cons w' ws =>
      have hw : Lexer.Scans spaced
          (w.text.toList ++ ' ' :: (" ".intercalate ((w' :: ws).map Word.text)).toList)
          (signs spaced (w :: w' :: ws)) :=
        w.scans (by rintro _ ⟨⟩; rfl) (.space (ih true))
      simpa [String.intercalate_cons_cons] using hw

/-! ### What may follow an operand -/

/-- These lexemes go on neither with a power nor with an operator tighter than `level`. -/
structure Loose (level : Nat) (ks : List Sign) : Prop where
  noPower : NoPower ks
  precedence_le : ∀ s ∈ ks.head?, ∀ op ∈ binaryOp? s.1, op.precedence ≤ level

theorem Loose.mono {level level' : Nat} (h : level ≤ level') {ks : List Sign}
    (hks : Loose level ks) : Loose level' ks :=
  ⟨hks.noPower, fun s hs op hop => Nat.le_trans (hks.precedence_le s hs op hop) h⟩

theorem Loose.of_closed (level : Nat) {ks : List Sign} (hks : Closed ks) : Loose level ks := by
  refine ⟨hks.noPower, fun s hs op hop => ?_⟩
  have hnone : binaryOp? s.1 = none :=
    hks.of_kind (p := fun k => binaryOp? k = none) (by decide) s hs
  rw [hnone] at hop
  cases hop

theorem Loose.op {op : BinaryOp} (hop : op ≠ .pow) (ks : List Sign) :
    Loose op.precedence (op.symbol.sign true :: ks) := by
  refine ⟨noPower_op hop ks, ?_⟩
  rintro _ ⟨⟩ op' hop'
  rw [Symbol.sign, binaryOp?_symbol hop] at hop'
  cases hop'
  exact Nat.le_refl _

theorem Loose.question (level : Nat) (b : Bool) (ks : List Sign) :
    Loose level (Symbol.question.sign b :: ks) := by
  refine ⟨?_, ?_⟩
  · rintro _ ⟨⟩
    simp [Symbol.sign]
  · rintro _ ⟨⟩ _ ⟨⟩

/-- No segment is attached to a word that has a blank before it. -/
theorem detached_signs (ws : List Word) : Detached (Word.signs true ws) := by
  cases ws with
  | nil => rintro _ ⟨⟩
  | cons w ws =>
    rintro _ ⟨⟩ h
    cases h

/-! ### How words are read -/

section

variable (check? : Signatures) (stop : Nat)

/-- The words `ws` are read as `t`, which binds as tight as `level`: by the rule for expressions,
and by each rule below it that stands no tighter than `level`. In `chain`, `t` is the left operand
that the operators after it go on from. -/
structure IsReadAt (level : Nat) (ws : List Word) (t : Term) : Prop where
  expr : ∀ b rest, Closed (Word.signs true rest) →
    Reads (parseExpr check? stop) (Word.signs b (ws ++ rest)) t (Word.signs true rest)
  chain : 1 ≤ level → ∀ b rest {least t' ks}, least ≤ level → Loose level (Word.signs true rest) →
    Reads (climb check? stop least t) (Word.signs true rest) t' ks →
    Reads (parseBinary check? stop least) (Word.signs b (ws ++ rest)) t' ks
  operand : 10 ≤ level → ∀ b rest, NoPower (Word.signs true rest) →
    Reads (parseUnary check? stop) (Word.signs b (ws ++ rest)) t (Word.signs true rest)
  base : 12 ≤ level → ∀ b rest,
    Reads (parsePostfix check? stop) (Word.signs b (ws ++ rest)) t (Word.signs true rest)
  unsigned : 12 ≤ level → ∀ b rest, ∀ s ∈ (Word.signs b (ws ++ rest)).head?,
    s.1 ≠ .symbol .bang ∧ s.1 ≠ .symbol .minus

end

section

variable {check? : Signatures} {stop level level' : Nat} {ws : List Word} {t : Term}

theorem IsReadAt.mono (h : level' ≤ level) (hws : IsReadAt check? stop level ws t) :
    IsReadAt check? stop level' ws t where
  expr := hws.expr
  chain hlevel b rest {_ _ _} hleast hrest :=
    hws.chain (Nat.le_trans hlevel h) b rest (Nat.le_trans hleast h) (hrest.mono h)
  operand hlevel := hws.operand (Nat.le_trans hlevel h)
  base hlevel := hws.base (Nat.le_trans hlevel h)
  unsigned hlevel := hws.unsigned (Nat.le_trans hlevel h)

/-! #### By the tightest rule that reads them -/

theorem IsReadAt.of_base (level : Nat)
    (hbase : ∀ b rest,
      Reads (parsePostfix check? stop) (Word.signs b (ws ++ rest)) t (Word.signs true rest))
    (hunsigned : ∀ b rest, ∀ s ∈ (Word.signs b (ws ++ rest)).head?,
      s.1 ≠ .symbol .bang ∧ s.1 ≠ .symbol .minus) :
    IsReadAt check? stop level ws t where
  expr b rest hrest :=
    expr_of_operand
      (parseUnary_reads (parsePower_reads (hbase b rest) hrest.noPower) (hunsigned b rest)) hrest
  chain _ b rest {_ _ _} _ hrest hclimb :=
    parseBinary_reads
      (parseUnary_reads (parsePower_reads (hbase b rest) hrest.noPower) (hunsigned b rest)) hclimb
  operand _ b rest hrest :=
    parseUnary_reads (parsePower_reads (hbase b rest) hrest) (hunsigned b rest)
  base _ := hbase
  unsigned _ := hunsigned

theorem IsReadAt.of_operand (hlevel : level < 12)
    (h : ∀ b rest, NoPower (Word.signs true rest) →
      Reads (parseUnary check? stop) (Word.signs b (ws ++ rest)) t (Word.signs true rest)) :
    IsReadAt check? stop level ws t where
  expr b rest hrest := expr_of_operand (h b rest hrest.noPower) hrest
  chain _ b rest {_ _ _} _ hrest hclimb := parseBinary_reads (h b rest hrest.noPower) hclimb
  operand _ := h
  base hbase := absurd hlevel (Nat.not_lt.mpr hbase)
  unsigned hbase := absurd hlevel (Nat.not_lt.mpr hbase)

theorem IsReadAt.of_chain (hone : 1 ≤ level) (hlevel : level < 10)
    (h : ∀ b rest {least t' ks}, least ≤ level → Loose level (Word.signs true rest) →
      Reads (climb check? stop least t) (Word.signs true rest) t' ks →
      Reads (parseBinary check? stop least) (Word.signs b (ws ++ rest)) t' ks) :
    IsReadAt check? stop level ws t where
  expr b rest hrest :=
    parseExpr_reads
      (h b rest hone (.of_closed level hrest)
        (climb_reads_stop (hrest.of_kind (p := fun k => binaryOp? k = none) (by decide))))
      (hrest.of_kind (p := fun k => k ≠ .symbol .question) (by decide))
  chain _ b rest {_ _ _} := h b rest
  operand hoperand := absurd hlevel (Nat.not_lt.mpr hoperand)
  base hbase := absurd hlevel (by omega)
  unsigned hbase := absurd hlevel (by omega)

theorem IsReadAt.of_expr
    (h : ∀ b rest, Closed (Word.signs true rest) →
      Reads (parseExpr check? stop) (Word.signs b (ws ++ rest)) t (Word.signs true rest)) :
    IsReadAt check? stop 0 ws t where
  expr := h
  chain hlevel := absurd hlevel (by decide)
  operand hlevel := absurd hlevel (by decide)
  base hlevel := absurd hlevel (by decide)
  unsigned hlevel := absurd hlevel (by decide)

/-- In parentheses, words are read as what they are without. -/
theorem IsReadAt.parens (h : IsReadAt check? stop level' ws t) :
    IsReadAt check? stop level (.symbol .leftParen :: (ws ++ [.symbol .rightParen])) t := by
  refine .of_base level (fun b rest => ?_) fun b rest => ?_
  · rw [List.cons_append, List.append_assoc, List.singleton_append]
    exact base_of_primary (group_reads (h.expr true _ (.cons (by decide) true _)))
      (detached_signs rest)
  · rintro _ ⟨⟩
    simp [Word.kind]

theorem IsReadAt.enclose (h : IsReadAt check? stop level ws t) (least : Nat) :
    IsReadAt check? stop least (Word.enclose least level ws) t := by
  unfold Word.enclose
  split
  · exact h.parens
  · next hlevel => exact h.mono (Nat.not_lt.mp hlevel)

/-! ### How formulas are read -/

variable {op : BinaryOp}

/-- What an operator is put before is no numeral, which the sign would be taken into. -/
theorem Formula.isNumber_term (f : Formula) : f.term.isNumber = false := by
  cases f <;> rfl

theorem IsReadAt.name (n : PlainName) :
    IsReadAt check? stop level [.name n] (contextPath [.child n]) := by
  refine .of_base level (fun b rest => ?_) fun b rest => ?_
  · have hatom : atom? (Word.name n).kind = some (contextPath [.child n]) :=
      congrArg some (nameTerm_of_isPlainName n.2)
    exact base_of_primary (parsePrimary_reads_atom hatom) (detached_signs rest)
  · rintro _ ⟨⟩
    simp [Word.kind]

theorem IsReadAt.unary (op : UnaryOp) (hnumber : t.isNumber = false)
    (h : IsReadAt check? stop 10 ws t) :
    IsReadAt check? stop 10 (.symbol op.symbol :: ws) (.unary op t) := by
  refine .of_operand (by decide) fun b rest hrest => ?_
  rw [← applyUnary_of_isNumber fun _ => hnumber]
  exact parseUnary_reads_op op (h.operand (Nat.le_refl _) true rest hrest)

variable {lws rws : List Word} {l r : Term}

/-- The exponent is an operand of its own, so a power in it needs no parentheses. -/
theorem IsReadAt.pow (hl : IsReadAt check? stop 12 lws l) (hr : IsReadAt check? stop 10 rws r) :
    IsReadAt check? stop 11 (lws ++ .symbol .starStar :: rws) (.binary .pow l r) := by
  refine .of_operand (by decide) fun b rest hrest => ?_
  rw [List.append_assoc, List.cons_append]
  exact parseUnary_reads
    (parsePower_reads_pow (hl.base (Nat.le_refl _) b _)
      (hr.operand (Nat.le_refl _) true rest hrest))
    (hl.unsigned (Nat.le_refl _) b _)

theorem BinaryOp.precedence_lt_ten (hop : op ≠ .pow) : op.precedence < 10 := by
  cases op <;> first | exact absurd rfl hop | decide

/-- The left operand goes on into the operator; the right one ends where an operator follows that
binds no tighter. -/
theorem IsReadAt.binary (hop : op ≠ .pow) (hl : IsReadAt check? stop op.precedence lws l)
    (hr : IsReadAt check? stop (op.precedence + 1) rws r) :
    IsReadAt check? stop op.precedence (lws ++ .symbol op.symbol :: rws) (.binary op l r) := by
  have hone := one_le_precedence op
  refine .of_chain hone (BinaryOp.precedence_lt_ten hop)
    fun b rest {least t' ks} hleast hrest hclimb => ?_
  rw [List.append_assoc, List.cons_append]
  have hright : Reads (parseBinary check? stop (op.precedence + 1)) (Word.signs true (rws ++ rest))
      r (Word.signs true rest) :=
    hr.chain (Nat.le_add_left 1 _) true rest (Nat.le_refl _) (hrest.mono (Nat.le_succ _))
      (climb_reads_looser fun s hs op' hop' =>
        Nat.lt_succ_of_le (hrest.precedence_le s hs op' hop'))
  exact hl.chain hone b _ hleast (Loose.op hop _)
    (climb_reads_op (binaryOp?_symbol hop) hleast hright hclimb)

theorem IsReadAt.ternary {aws bws cws : List Word} {a b c : Term}
    (ha : IsReadAt check? stop 1 aws a) (hb : IsReadAt check? stop 0 bws b)
    (hc : IsReadAt check? stop 0 cws c) :
    IsReadAt check? stop 0
      (aws ++ .symbol .question :: (bws ++ .symbol .colon :: cws)) (.ternary a b c) := by
  refine .of_expr fun spaced rest hrest => ?_
  simp only [List.append_assoc, List.cons_append]
  refine parseExpr_reads_ternary
    (ha.chain (Nat.le_refl _) spaced _ (Nat.le_refl _) (Loose.question 1 true _)
      (climb_reads_stop ?_))
    (hb.expr true _ (.cons (by decide) true _)) (hc.expr true rest hrest)
  rintro _ ⟨⟩
  rfl

theorem Formula.isReadAt (f : Formula) (least : Nat) :
    IsReadAt check? stop least (f.words least) f.term := by
  induction f generalizing least with
  | name n => exact .name n
  | unary op f ih => exact (IsReadAt.unary op f.isNumber_term (ih 10)).enclose least
  | binary op l r hl hr =>
    refine IsReadAt.enclose ?_ least
    by_cases hop : op = .pow
    · subst hop
      exact .pow (hl _) (hr _)
    · have hleft := hl op.leftLevel
      have hright := hr op.rightLevel
      simp only [BinaryOp.leftLevel, BinaryOp.rightLevel, if_neg hop] at hleft hright ⊢
      exact .binary hop hleft hright
  | ternary test yes no ha hb hc =>
    exact (IsReadAt.ternary (ha 1) (hb 0) (hc 0)).enclose least

end

/-- The text of a formula is read as the formula: operators bind as tight as their precedence
says. -/
theorem Formula.parse_text (check? : Signatures) (f : Formula) :
    parse check? f.text = .ok [f.term] := by
  refine parse_reads (Word.scans_intercalate false (f.words 0)) fun stop => ?_
  have hread : IsReadAt check? stop 0 (f.words 0) f.term := f.isReadAt 0
  have hexpr := hread.expr false [] .nil
  rw [List.append_nil] at hexpr
  exact parseList_reads hexpr (parseMore_reads_nil (by rintro _ ⟨⟩))

example :
    let a : Formula := .name ⟨"a", by decide⟩
    let b : Formula := .name ⟨"b", by decide⟩
    Formula.text (.binary .or (.ternary a b a)
      (.binary .sub (.binary .sub (.unary .neg (.binary .pow a (.unary .neg b))) a)
        (.binary .sub (.binary .pow (.unary .neg a) b) b))) =
      "( a ? b : a ) || - a ** - b - a - ( ( - a ) ** b - b )" := by decide +kernel

end PathQuery
