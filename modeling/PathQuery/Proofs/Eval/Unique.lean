import PathQuery.Proofs.Eval.Sets
import PathQuery.Proofs.Expression.Numerals

/-!
# Keys of values

`unique` tells items apart by a text, and `union` compares them in pairs. Where no real is involved a
key names the kind of a value and the value itself, so two keys are the same just if the values are
strictly equal, and both functions keep the items that are unlike every item before them.
-/

namespace PathQuery

/-! ### Texts of numbers -/

theorem toDigits_injective : Function.Injective (Nat.toDigits 10) := by
  intro m n h
  have hvalue := congrArg (fun ds => Nat.ofDigitChars 10 ds 0) h
  simpa using hvalue

theorem isDigit_of_mem_toDigits {n : Nat} : ∀ c ∈ Nat.toDigits 10 n, c.isDigit = true :=
  fun _ hc => Nat.isDigit_of_mem_toDigits (by decide) (by decide) hc

theorem toDigits_ne_minus (m : Nat) (cs : List Char) : Nat.toDigits 10 m ≠ '-' :: cs := by
  intro h
  have hdigit := isDigit_of_mem_toDigits '-' (h ▸ List.mem_cons_self)
  revert hdigit
  decide

theorem intText_injective : Function.Injective intText := by
  intro i j h
  have hchars : intChars i = intChars j := String.ofList_injective h
  rw [← Int64.toInt_inj]
  unfold intChars at hchars
  cases hi : i.toInt with
  | ofNat m =>
    cases hj : j.toInt with
    | ofNat n =>
      rw [hi, hj] at hchars
      rw [toDigits_injective hchars]
    | negSucc n =>
      rw [hi, hj] at hchars
      exact absurd hchars (toDigits_ne_minus _ _)
  | negSucc m =>
    cases hj : j.toInt with
    | ofNat n =>
      rw [hi, hj] at hchars
      exact absurd hchars.symm (toDigits_ne_minus _ _)
    | negSucc n =>
      rw [hi, hj] at hchars
      rw [Nat.succ.inj (toDigits_injective (List.cons.inj hchars).2)]

theorem boolText_injective : Function.Injective Scalar.boolText := by decide

namespace Builtin

/-- The characters of an address: each position after a slash, so none runs into the next. -/
theorem addressText_injective : Function.Injective addressText := by
  intro p q h
  have hchars := String.ofList_injective h
  clear h
  -- after the digits of a position comes a slash or nothing
  have hnext : ∀ (is : Address),
      ∀ d ∈ (is.flatMap fun i => '/' :: Nat.toDigits 10 i).head?, d.isDigit = false := by
    intro is d hd
    cases is with
    | nil => cases hd
    | cons i is =>
      cases hd
      decide
  induction p generalizing q with
  | nil =>
    cases q with
    | nil => rfl
    | cons j js => cases hchars
  | cons i is ih =>
    cases q with
    | nil => cases hchars
    | cons j js =>
      simp only [List.flatMap_cons, List.cons_append, List.cons.injEq, true_and] at hchars
      have hdigits := congrArg (List.takeWhile Char.isDigit) hchars
      rw [takeWhile_append_of_head isDigit_of_mem_toDigits (hnext is),
        takeWhile_append_of_head isDigit_of_mem_toDigits (hnext js)] at hdigits
      rw [hdigits] at hchars
      rw [toDigits_injective hdigits, ih (List.append_cancel_left hchars)]

/-! ### Keys -/

def isReal : Item → Bool
  | .scalar (.real _) => true
  | _ => false

/-- The item is not a real and holds none: it is null, a boolean, an integer, a text or a container. -/
def Exact (b : Backend) (x : Item) : Prop := isReal (b.reduce x) = false

instance (b : Backend) (x : Item) : Decidable (Exact b x) := inferInstanceAs (Decidable (_ = _))

section

variable {b : Backend} {x y : Item}

theorem reduce_eq_of_uniqueKey_eq (hx : Exact b x) (hy : Exact b y)
    (h : uniqueKey b x = uniqueKey b y) : b.reduce x = b.reduce y := by
  unfold uniqueKey at h
  unfold Exact at hx hy
  generalize b.reduce x = u at *
  generalize b.reduce y = v at *
  rcases u with (_ | t | i | r | s) | p <;> rcases v with (_ | t' | i' | r' | s') | q
  case scalar.null.scalar.null => rfl
  case scalar.bool.scalar.bool => rw [boolText_injective (String.append_right_inj _ |>.mp h)]
  case scalar.int.scalar.int => rw [intText_injective (String.append_right_inj _ |>.mp h)]
  case scalar.str.scalar.str => rw [String.append_right_inj _ |>.mp h]
  case node.node => rw [addressText_injective (String.append_right_inj _ |>.mp h)]
  -- keys of different kinds differ at one of their first two characters
  all_goals simp [isReal, ← String.toList_inj] at hx hy h

theorem uniqueKey_eq_of_reduce_eq (h : b.reduce x = b.reduce y) : uniqueKey b x = uniqueKey b y := by
  rw [uniqueKey, uniqueKey, h]

theorem same_iff_reduce_eq (hx : Exact b x) (hy : Exact b y) :
    b.same x y = true ↔ b.reduce x = b.reduce y := by
  unfold Backend.same
  unfold Exact at hx hy
  generalize b.reduce x = u at *
  generalize b.reduce y = v at *
  rcases u with (_ | t | i | r | s) | p <;> rcases v with (_ | t' | i' | r' | s') | q
  all_goals simp [isReal, Scalar.same] at hx hy ⊢

/-- Without reals, keys are the same just if the values are strictly equal. -/
theorem uniqueKey_eq_iff (hx : Exact b x) (hy : Exact b y) :
    uniqueKey b x = uniqueKey b y ↔ b.same x y = true := by
  rw [same_iff_reduce_eq hx hy]
  exact ⟨reduce_eq_of_uniqueKey_eq hx hy, uniqueKey_eq_of_reduce_eq⟩

end

/-! ### First occurrences -/

/-- The items whose value is not strictly equal to that of an item before them, in order. -/
def firsts (b : Backend) (items : List Item) : List Item :=
  (items.zipIdx.filter fun p => !member b (items.take p.2) p.1).map Prod.fst

section

variable {b : Backend} {items : List Item} {x : Item}

theorem firsts_concat (b : Backend) (items : List Item) (x : Item) :
    firsts b (items ++ [x]) = firsts b items ++ if member b items x then [] else [x] := by
  have hbefore : ∀ p ∈ items.zipIdx, (items ++ [x]).take p.2 = items.take p.2 := by
    intro p hp
    have hlt : p.2 < items.length := (List.mem_zipIdx' hp).1
    rw [List.take_append_of_le_length (Nat.le_of_lt hlt)]
  have hhead : (items.zipIdx.filter fun p => !member b ((items ++ [x]).take p.2) p.1) =
      items.zipIdx.filter fun p => !member b (items.take p.2) p.1 :=
    List.filter_congr fun p hp => by rw [hbefore p hp]
  rw [firsts, List.zipIdx_append, List.filter_append, hhead, List.map_append, firsts]
  cases hx : member b items x <;> simp [hx]

theorem member_union (hitems : ∀ y ∈ items, Exact b y) (hx : Exact b x) :
    member b (union b items) x = member b items x := by
  obtain ⟨hsublist, -, -, hcovers⟩ := union_represents b items
  rw [Bool.eq_iff_iff, member_iff, member_iff]
  constructor
  · rintro ⟨y, hy, hsame⟩
    exact ⟨y, hsublist.subset hy, hsame⟩
  · rintro ⟨y, hy, hsame⟩
    rcases hcovers y hy trivial with hkept | ⟨z, hz, hzy⟩
    · exact ⟨y, hkept, hsame⟩
    · have hexact := hitems z (hsublist.subset hz)
      rw [same_iff_reduce_eq hexact (hitems y hy)] at hzy
      rw [same_iff_reduce_eq (hitems y hy) hx] at hsame
      exact ⟨z, hz, (same_iff_reduce_eq hexact hx).mpr (hzy.trans hsame)⟩

theorem union_eq_firsts (hitems : ∀ y ∈ items, Exact b y) : union b items = firsts b items := by
  induction items using List.reverseRecOn with
  | nil => rfl
  | append_singleton items x ih =>
    rw [List.forall_mem_append, List.forall_mem_singleton] at hitems
    obtain ⟨hitems, hx⟩ := hitems
    have hconcat : union b (items ++ [x]) = adjoin b (union b items) x := List.foldl_concat ..
    rw [hconcat, firsts_concat, adjoin, member_union hitems hx, ih hitems]
    split
    · rw [List.append_nil]
    · rfl

theorem contains_insert (seen : Std.TreeSet String compare) (key other : String) :
    (seen.insert key).contains other = (decide (other = key) || seen.contains other) := by
  rw [Std.TreeSet.contains_insert, Bool.eq_iff_iff, Bool.or_eq_true, Bool.or_eq_true, beq_iff_eq,
    Std.compare_eq_iff_eq, decide_eq_true_eq, eq_comm (a := key)]

/-- At the end of a list an item is kept just if its key is neither seen before nor the key of an item
of the list. -/
theorem uniqueFrom_concat (seen : Std.TreeSet String compare) (items : List Item) (x : Item) :
    uniqueFrom b seen (items ++ [x]) = uniqueFrom b seen items ++
      if seen.contains (uniqueKey b x) ∨ uniqueKey b x ∈ items.map (uniqueKey b) then [] else [x] := by
  induction items generalizing seen with
  | nil => simp [uniqueFrom]
  | cons y items ih =>
    rw [List.cons_append, uniqueFrom, uniqueFrom]
    cases hy : seen.contains (uniqueKey b y) with
    | true =>
      -- a key that is that of `y` has been seen
      have hkeys : (seen.contains (uniqueKey b x) = true ∨
            uniqueKey b x ∈ (y :: items).map (uniqueKey b)) ↔
          (seen.contains (uniqueKey b x) = true ∨ uniqueKey b x ∈ items.map (uniqueKey b)) := by
        rw [List.map_cons, List.mem_cons, ← or_assoc,
          or_iff_left_of_imp fun heq : uniqueKey b x = uniqueKey b y => heq ▸ hy]
      simp only [if_true, ih, hkeys]
    | false =>
      have hkeys : ((seen.insert (uniqueKey b y)).contains (uniqueKey b x) = true ∨
            uniqueKey b x ∈ items.map (uniqueKey b)) ↔
          (seen.contains (uniqueKey b x) = true ∨
            uniqueKey b x ∈ (y :: items).map (uniqueKey b)) := by
        rw [contains_insert, Bool.or_eq_true, decide_eq_true_eq, List.map_cons, List.mem_cons,
          or_comm (a := uniqueKey b x = uniqueKey b y), or_assoc]
      simp only [Bool.false_eq_true, if_false, ih, hkeys, List.cons_append]

theorem uniqueFrom_eq_firsts (hitems : ∀ y ∈ items, Exact b y) :
    uniqueFrom b ∅ items = firsts b items := by
  induction items using List.reverseRecOn with
  | nil => rfl
  | append_singleton items x ih =>
    rw [List.forall_mem_append, List.forall_mem_singleton] at hitems
    obtain ⟨hitems, hx⟩ := hitems
    have hkeys : ((∅ : Std.TreeSet String compare).contains (uniqueKey b x) = true ∨
        uniqueKey b x ∈ items.map (uniqueKey b)) ↔ member b items x = true := by
      rw [Std.TreeSet.contains_emptyc, or_iff_right Bool.false_ne_true, List.mem_map, member_iff]
      exact exists_congr fun y => and_congr_right fun hy => uniqueKey_eq_iff (hitems y hy) hx
    rw [uniqueFrom_concat, firsts_concat, ih hitems]
    simp only [hkeys]

end

/-! ### Calls -/

/-- On items without reals `unique` and `union` return the same: the items whose value is not strictly
equal to that of an item before them, in order. -/
theorem unique_eq_union {env : Env} {name name' : String} {args : List Argument}
    {context input items : List Item} {c c' : Context}
    (h : (gather (Argument.against args context) input).runFrom c = (.ok items, c'))
    (hitems : ∀ x ∈ items, Exact env.backend x) :
    (unique.apply env name args context input).runFrom c = (.ok (firsts env.backend items), c') ∧
      (unionFunction.apply env name' args context input).runFrom c =
        (.ok (firsts env.backend items), c') := by
  constructor
  · rw [← uniqueFrom_eq_firsts hitems]
    exact EvalM.runFrom_bind_ok h _
  · rw [← union_eq_firsts hitems]
    exact EvalM.runFrom_bind_ok h _

/-- An integer, a truth value, null and a container beside texts that look like them or like their keys,
some of them twice. -/
theorem unique_eq_union_texts :
    let env : Env := ⟨Json.backend ⟨.array [.array []], by simp [Json.Ordered, Json.OrderedItems]⟩,
      .default, false⟩
    let others : List Item := [.scalar (.str "1"), .scalar (.str "n:1"), .scalar (.str "b:true"),
      .scalar (.str "null"), .scalar (.str "node:/0")]
    let first : List Item := [.scalar (.int 1), .scalar (.bool true), .scalar .null, .node [0]]
    let items := first ++ others ++ first
    (gather [] items).runFrom .initial = (.ok items, .initial) ∧
      (∀ x ∈ items, Exact env.backend x) ∧
      (unique.apply env "unique" [] [] items).runFrom .initial =
        (.ok (first ++ others), .initial) ∧
      (unionFunction.apply env "union" [] [] items).runFrom .initial =
        (.ok (first ++ others), .initial) := by
  intro env others first items
  have hgather : (gather [] items).runFrom .initial = (.ok items, .initial) := rfl
  have hexact : ∀ x ∈ items, Exact env.backend x := by
    decide +kernel
  have hfirsts : firsts env.backend items = first ++ others := by decide +kernel
  obtain ⟨hunique, hunion⟩ := @unique_eq_union env "unique" "union" [] [] _ _ _ _ hgather hexact
  rw [hfirsts] at hunique hunion
  exact ⟨hgather, hexact, hunique, hunion⟩

end Builtin
end PathQuery
