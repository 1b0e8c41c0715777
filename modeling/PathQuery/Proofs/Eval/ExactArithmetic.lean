import Mathlib
import PathQuery.Proofs.Eval.Steady
import PathQuery.Tree.JsonBackend

/-!
# Exact integers

An operator on two integers gives an integer just where its exact result is one of 64 bits, and then
it gives this integer. A power asks in addition for an exponent of 32 bits: with a larger one it is a
real even where the exact result, which is 0, 1 or -1, would fit.
-/

namespace PathQuery

/-- The integer `r` is the exact result of an operator. A quotient leaves nothing, a remainder has the
sign of the dividend, a power has no negative exponent, and bits are those of the two's complement. -/
def BinaryOp.Exact (op : BinaryOp) (x y r : Int) : Prop :=
  match op with
  | .add => r = x + y
  | .sub => r = x - y
  | .mul => r = x * y
  | .div => y ≠ 0 ∧ x = r * y
  | .mod => y ≠ 0 ∧ y ∣ x - r ∧ r.natAbs < y.natAbs ∧ (r = 0 ∨ r.sign = x.sign)
  | .pow => 0 ≤ y ∧ r = x ^ y.toNat
  | .bitAnd => ∀ k, r.testBit k = (x.testBit k && y.testBit k)
  | .bitOr => ∀ k, r.testBit k = (x.testBit k || y.testBit k)
  | .bitXor => ∀ k, r.testBit k = (x.testBit k ^^ y.testBit k)
  | _ => False

/-! ### Division -/

theorem eq_tdiv_iff {x y r : Int} (hy : y ≠ 0) :
    r = x.tdiv y ∧ x.tmod y = 0 ↔ x = r * y := by
  constructor
  · rintro ⟨rfl, hzero⟩
    exact (Int.tdiv_mul_cancel (Int.dvd_iff_tmod_eq_zero.mpr hzero)).symm
  · rintro rfl
    exact ⟨(Int.mul_tdiv_cancel r hy).symm, Int.mul_tmod_left r y⟩

theorem sign_tmod (x y : Int) : x.tmod y = 0 ∨ (x.tmod y).sign = x.sign := by
  rcases Int.lt_trichotomy x 0 with hx | rfl | hx
  · have hneg := Int.tmod_nonneg y (a := -x) (by omega)
    rw [Int.neg_tmod] at hneg
    rcases Int.lt_or_eq_of_le hneg with hlt | heq
    · right
      rw [Int.sign_eq_neg_one_of_neg hx, Int.sign_eq_neg_one_of_neg (by omega)]
    · left
      omega
  · exact .inl (Int.zero_tmod y)
  · rcases Int.lt_or_eq_of_le (Int.tmod_nonneg y hx.le) with hlt | heq
    · right
      rw [Int.sign_eq_one_of_pos hx, Int.sign_eq_one_of_pos hlt]
    · exact .inl heq.symm

/-- Two remainders of one division that both have the sign of the dividend are less than the divisor
apart. -/
theorem natAbs_sub_lt {x y r s : Int} (hr : r.natAbs < y.natAbs) (hs : s.natAbs < y.natAbs)
    (hrsign : r = 0 ∨ r.sign = x.sign) (hssign : s = 0 ∨ s.sign = x.sign) :
    (r - s).natAbs < y.natAbs := by
  rcases hrsign with rfl | hrsign
  · omega
  rcases hssign with rfl | hssign
  · omega
  have hsame : r.sign = s.sign := hrsign.trans hssign.symm
  rcases Int.lt_trichotomy s 0 with h | rfl | h
  · have : r < 0 := Int.sign_eq_neg_one_iff_neg.mp (hsame.trans (Int.sign_eq_neg_one_of_neg h))
    omega
  · omega
  · have : 0 < r := Int.sign_eq_one_iff_pos.mp (hsame.trans (Int.sign_eq_one_of_pos h))
    omega

theorem eq_tmod_iff {x y r : Int} (hy : y ≠ 0) :
    r = x.tmod y ↔ y ∣ x - r ∧ r.natAbs < y.natAbs ∧ (r = 0 ∨ r.sign = x.sign) := by
  have hlt : (x.tmod y).natAbs < y.natAbs := by
    rw [Int.natAbs_tmod]
    exact Nat.mod_lt _ (by omega)
  constructor
  · rintro rfl
    exact ⟨Int.dvd_self_sub_tmod, hlt, sign_tmod x y⟩
  · rintro ⟨hdvd, hr, hsign⟩
    have hdvd' : y ∣ r - x.tmod y := by
      have := Int.dvd_sub (Int.dvd_self_sub_tmod (x := x) (m := y)) hdvd
      rwa [sub_sub_sub_cancel_left] at this
    have := Int.eq_zero_of_dvd_of_natAbs_lt_natAbs hdvd'
      (natAbs_sub_lt hr hlt hsign (sign_tmod x y))
    omega

/-! ### Bits -/

theorem testBit_toInt {w : Nat} (x : BitVec w) (k : Nat) :
    x.toInt.testBit k = if k < w then x.getLsbD k else x.msb := by
  rw [BitVec.toInt_eq_msb_cond]
  cases hmsb : x.msb with
  | false =>
    change x.toNat.testBit k = _
    rw [BitVec.testBit_toNat]
    split
    · rfl
    · exact BitVec.getLsbD_of_ge x k (by omega)
  | true =>
    have hlt := x.isLt
    have hnegSucc : (x.toNat : Int) - (2 ^ w : Nat) = Int.negSucc (2 ^ w - (x.toNat + 1)) := by
      omega
    rw [if_pos rfl, hnegSucc]
    change (!(2 ^ w - (x.toNat + 1)).testBit k) = _
    rw [Nat.testBit_two_pow_sub_succ hlt, BitVec.testBit_toNat]
    split <;> simp_all

theorem eq_iff_testBit {f : Bool → Bool → Bool} {x y z : Int64}
    (hbits : ∀ k < 64, z.toBitVec.getLsbD k = f (x.toBitVec.getLsbD k) (y.toBitVec.getLsbD k))
    (hmsb : z.toBitVec.msb = f x.toBitVec.msb y.toBitVec.msb) (i : Int64) :
    z = i ↔ ∀ k, i.toInt.testBit k = f (x.toInt.testBit k) (y.toInt.testBit k) := by
  have htest : ∀ k, z.toInt.testBit k = f (x.toInt.testBit k) (y.toInt.testBit k) := by
    intro k
    simp only [← Int64.toInt_toBitVec, testBit_toInt]
    split
    · next hk => exact hbits k hk
    · exact hmsb
  constructor
  · rintro rfl
    exact htest
  · intro hi
    apply Int64.toBitVec_inj.mp
    apply BitVec.eq_of_getLsbD_eq
    intro k hk
    have hsame : z.toInt.testBit k = i.toInt.testBit k := (htest k).trans (hi k).symm
    simpa only [← Int64.toInt_toBitVec, testBit_toInt, if_pos hk] using hsame

/-! ### Powers -/

theorem pow_eq_of_natAbs_le_one {x : Int} (hx : x.natAbs ≤ 1) {m n : Nat} (hm : 0 < m) (hn : 0 < n)
    (hparity : m % 2 = n % 2) : x ^ m = x ^ n := by
  obtain rfl | rfl | rfl : x = 0 ∨ x = 1 ∨ x = -1 := by omega
  · rw [zero_pow hm.ne', zero_pow hn.ne']
  · rw [one_pow, one_pow]
  · rw [neg_one_pow_eq_pow_mod_two, hparity, ← neg_one_pow_eq_pow_mod_two]

/-- No power of another base than 0, 1 and -1 fits beyond the 63rd. -/
theorem toInt_ne_pow {x : Int} (hx : 1 < x.natAbs) {e : Nat} (he : 63 < e) (i : Int64) :
    i.toInt ≠ x ^ e := by
  intro heq
  have hlow := i.le_toInt
  have hhigh := i.toInt_lt
  have hpow : 2 ^ 64 ≤ x.natAbs ^ e :=
    (Nat.pow_le_pow_right (by decide) he).trans (Nat.pow_le_pow_left hx e)
  rw [← Int.natAbs_pow, ← heq] at hpow
  omega

theorem power?_eq_some_iff {x y i : Int64} :
    power? x y = some i ↔
      (0 ≤ y.toInt ∧ i.toInt = x.toInt ^ y.toInt.toNat) ∧ y.toInt < 2 ^ 32 := by
  unfold power?
  dsimp only
  split
  · next hout =>
    constructor
    · intro h
      cases h
    · rintro ⟨⟨hnonneg, -⟩, hlt⟩
      omega
  · next hin =>
    have hexponent : 0 ≤ y.toInt ∧ y.toInt < 2 ^ 32 := by omega
    simp only [hexponent, true_and, and_true]
    generalize y.toInt.toNat = e
    split
    · next hsmall =>
      rw [fitInt64?_eq_some_iff]
      change _ = x.toInt ^ _ ↔ _
      split
      · next hzero => rw [hzero]
      · next hpos =>
        rw [pow_eq_of_natAbs_le_one hsmall (m := 2 - e % 2) (n := e) (by omega) (by omega)
          (by omega)]
    · next hlarge =>
      split
      · next hbeyond =>
        constructor
        · intro h
          cases h
        · exact fun h => absurd h (toInt_ne_pow (by omega) hbeyond i)
      · exact fitInt64?_eq_some_iff

example : power? (-1) 0xffffffff = some (-1) ∧ power? (-1) 0x100000000 = none := by decide +kernel

/-! ### Operators -/

theorem realOperation_ne_int (op : BinaryOp) (x y : Float) (i : Int64) :
    realOperation op x y ≠ .ok (.int i) := by
  unfold realOperation
  cases op <;> grind

theorem integerOr_eq_int_iff {op : BinaryOp} {x y i : Int64} {o : Option Int64} :
    integerOr op x y o = .ok (.int i) ↔ o = some i := by
  cases o with
  | none => simp [integerOr, realOperation_ne_int]
  | some j => simp [integerOr]

theorem integerOperation_eq_int_iff (op : BinaryOp) {x y i : Int64} :
    integerOperation op x y = .ok (.int i) ↔
      op.Exact x.toInt y.toInt i.toInt ∧ (op = .pow → y.toInt < 2 ^ 32) := by
  have hzero : y = 0 ↔ y.toInt = 0 := by
    rw [← Int64.toInt_inj]
    rfl
  cases op with
  | add | sub | mul =>
    simp [integerOperation, BinaryOp.Exact, integerOr_eq_int_iff, fitInt64?_eq_some_iff]
  | div =>
    simp only [integerOperation, BinaryOp.Exact, hzero]
    split
    · next hy => simp [hy]
    · next hy =>
      split
      · next hexact =>
        simp [integerOr_eq_int_iff, fitInt64?_eq_some_iff, hy, hexact, ← eq_tdiv_iff hy]
      · next hrest =>
        simp [integerOr_eq_int_iff, hy, hrest, ← eq_tdiv_iff hy]
  | mod =>
    simp only [integerOperation, BinaryOp.Exact, hzero]
    split
    · next hy => simp [hy]
    · next hy =>
      simp [integerOr_eq_int_iff, fitInt64?_eq_some_iff, hy, ← eq_tmod_iff hy]
  | pow =>
    simp [integerOperation, BinaryOp.Exact, integerOr_eq_int_iff, power?_eq_some_iff]
  | bitAnd =>
    simp [integerOperation, BinaryOp.Exact, ← eq_iff_testBit (f := and) (z := x &&& y)
      (fun _ _ => BitVec.getLsbD_and) BitVec.msb_and]
  | bitOr =>
    simp [integerOperation, BinaryOp.Exact, ← eq_iff_testBit (f := or) (z := x ||| y)
      (fun _ _ => BitVec.getLsbD_or) BitVec.msb_or]
  | bitXor =>
    simp [integerOperation, BinaryOp.Exact, ← eq_iff_testBit (f := xor) (z := x ^^^ y)
      (fun _ _ => BitVec.getLsbD_xor) BitVec.msb_xor]
  | _ => simp [integerOperation, BinaryOp.Exact]

/-! ### Items -/

theorem runFrom_settle_eq_ok_iff {env : Env} {outcome : Except ArithmeticFailure Scalar} {v : Scalar}
    {c : Context} :
    ((EvalM.settle env outcome).runFrom c).1 = .ok [.scalar v] ↔ outcome = .ok v := by
  cases outcome with
  | ok w =>
    simp [EvalM.settle]
  | error f =>
    have hnone : ((EvalM.settle env (.error f)).runFrom c).1 ≠ .ok [.scalar v] := by
      rw [EvalM.settle, EvalM.emit_eq]
      intro h
      split at h <;> cases h
    constructor
    · exact fun h => absurd h hnone
    · intro h
      cases h

theorem arithmetic_of_integers {b : Backend} {u v : Item} {x y : Int64}
    (hu : b.reduce u = .scalar (.int x)) (hv : b.reduce v = .scalar (.int y)) (op : BinaryOp)
    {s : Scalar} : b.arithmetic op u v = .ok s ↔ integerOperation op x y = .ok s := by
  rw [Backend.arithmetic, hu, hv]
  change Except.mapError _ (integerOperation op x y) = .ok s ↔ _
  cases integerOperation op x y <;> simp [Except.mapError]

/-- An operator on two integers gives an integer just if this is its exact result and fits, and, for a
power, the exponent has 32 bits. In all other cases the result is not an integer. -/
theorem arithmetic_int_iff {env : Env} {u v : Item} {x y : Int64}
    (hu : env.backend.reduce u = .scalar (.int x)) (hv : env.backend.reduce v = .scalar (.int y))
    (op : BinaryOp) (i : Int64) (c : Context) :
    ((EvalM.settle env (env.backend.arithmetic op u v)).runFrom c).1 = .ok [.scalar (.int i)] ↔
      op.Exact x.toInt y.toInt i.toInt ∧ (op = .pow → y.toInt < 2 ^ 32) := by
  rw [runFrom_settle_eq_ok_iff, arithmetic_of_integers hu hv, integerOperation_eq_int_iff]

/-- The least integer is a power that fits exactly. -/
theorem arithmetic_int_iff_least :
    let d : Json.Document := ⟨.null, trivial⟩
    let env : Env := ⟨Json.backend d, .default, false⟩
    env.backend.reduce (.scalar (.int (-2))) = .scalar (.int (-2)) ∧
      env.backend.reduce (.scalar (.int 63)) = .scalar (.int 63) ∧
      ((EvalM.settle env (env.backend.arithmetic .pow (.scalar (.int (-2))) (.scalar (.int 63)))).runFrom
        .initial).1 = .ok [.scalar (.int Int64.minValue)] := by
  intro d env
  have hbase : env.backend.reduce (.scalar (.int (-2))) = .scalar (.int (-2)) := rfl
  have hexponent : env.backend.reduce (.scalar (.int 63)) = .scalar (.int 63) := rfl
  have hexact : BinaryOp.pow.Exact (-2) 63 Int64.minValue.toInt := ⟨by decide, by decide⟩
  exact ⟨hbase, hexponent, (arithmetic_int_iff hbase hexponent .pow Int64.minValue .initial).mpr
    ⟨hexact, fun _ => by decide⟩⟩

end PathQuery
