import PathQuery.Eval.Builtin
import PathQuery.Proofs.Eval.Running
import PathQuery.Tree.JsonBackend

/-!
# Computed positions

A predicate tests the elements of a list one by one, and an index asks for one element at once. If the
test comes to the same integer on every element, the two select the same: the element at this
position, counted from the end if it is negative.
-/

namespace PathQuery

/-! ### Positions named by an integer -/

/-- Whether an integer names position `i` of `length` elements, from the beginning or from the end. -/
def names (length : Nat) (n : Int64) (i : Nat) : Bool :=
  decide (n.toInt = i ∨ n.toInt + length = i)

theorem decide_fromStart (length : Nat) (n : Int64) :
    ∀ i ∈ List.range length, decide (fromStart length n = i) = names length n i := by
  intro i hi
  have hlt := List.mem_range.mp hi
  rw [names, fromStart, decide_eq_decide]
  split <;> omega

theorem filter_range_eq {length m : Nat} (hm : m < length) :
    ((List.range length).filter fun i => decide (i = m)) = [m] := by
  rw [List.filter_eq, List.count_eq_one_of_mem List.nodup_range (List.mem_range.mpr hm),
    List.replicate_one]

theorem toList_position? (length : Nat) (n : Int64) :
    (position? length n).toList = (List.range length).filter (names length n) := by
  rw [← List.filter_congr (decide_fromStart length n), position?]
  split
  · next hrange =>
    have hcast : ∀ i : Nat, fromStart length n = i ↔ i = (fromStart length n).toNat := by
      intro i
      omega
    simp only [hcast]
    exact (filter_range_eq (by omega)).symm
  · next hrange =>
    rw [eq_comm, Option.toList_none, List.filter_eq_nil_iff]
    intro i hi heq
    have hlt := List.mem_range.mp hi
    have hvalue := of_decide_eq_true heq
    omega

/-! ### Tests -/

namespace Step

/-- On each candidate in turn, the first of which has number `i`, the result of the test begins with
the integer `n`. A test runs in the context that the one before it has left, with the number of its
candidate as the index. -/
inductive ComesTo (test : List Item → EvalM (List Item)) (n : Int64) :
    Nat → List Item → Context → Prop where
  | nil (i : Nat) (c : Context) : ComesTo test n i [] c
  | cons {i : Nat} {x : Item} {found more : List Item} {c c' : Context}
      (hrun : (test [x]).runFrom { c with index := some i } =
        (.ok (.scalar (.int n) :: more), c'))
      (hrest : ComesTo test n (i + 1) found c') : ComesTo test n i (x :: found) c

theorem runFrom_keepFrom_of_comesTo (env : Env) (length : Nat)
    {test : List Item → EvalM (List Item)} {n : Int64} {i : Nat} {found : List Item} {c : Context}
    (h : ComesTo test n i found c) :
    ∃ c', (keepFrom env true length test i found).runFrom c =
      (.ok (((found.zipIdx i).filter fun p => decide (fromStart length n = p.2)).map Prod.fst),
        c') := by
  induction h with
  | nil i c => exact ⟨c, rfl⟩
  | @cons i x found more c c' hrun hrest ih =>
    obtain ⟨c'', hkept⟩ := ih
    refine ⟨c'', ?_⟩
    rw [keepFrom, EvalM.runFrom_bind_ok (EvalM.runFrom_modify _ c), EvalM.runFrom_bind_ok hrun,
      EvalM.runFrom_bind_ok hkept, EvalM.runFrom_pure, List.zipIdx_cons, List.filter_cons]
    by_cases hnamed : fromStart length n = i
    · simp only [keeps, hnamed, decide_true, if_true, List.map_cons]
    · simp only [keeps, hnamed, decide_false, Bool.false_eq_true, if_false]

end Step

/-- The context in which the elements of the list at `a` are tested: the list has handed them out, and
they are in force. -/
def Context.amongElements (b : Backend) (a : Address) (c : Context) : Context :=
  ((c.record a (b.get a .wildcard)).enter ((b.below a).map .node)).2

/-- On every element of the list at `a`, tested in turn, the first result of the term is the integer
`n`. -/
def Term.ComesTo (env : Env) (registry : Registry) (test : Term) (n : Int64) (a : Address)
    (c : Context) : Prop :=
  Step.ComesTo (fun here => test.eval env registry here) n 0 ((env.backend.below a).map .node)
    (c.amongElements env.backend a)

/-! ### Elements -/

/-- The nodes of the elements that an integer names in the list at `a`. -/
def Json.named (a : Address) (length : Nat) (n : Int64) : List Address :=
  ((List.range length).filter (names length n)).map fun i => a ++ [i]

namespace Json

variable {d : Document} {a : Address} {items : List Json}

theorem nodup_named (a : Address) (length : Nat) (n : Int64) : (named a length n).Nodup := by
  apply (List.nodup_range.filter _).map
  intro i j h
  simpa using h

section

variable (ha : d.value.at? a = some (.array items))

include ha

theorem below_array : (backend d).below a = (List.range items.length).map fun i => a ++ [i] := by
  show (d.value.getAt a .wildcard).map Prod.fst = _
  rw [getAt, ha, List.map_map]
  rfl

theorem get_index_array (n : Int64) :
    ((backend d).get a (.index n)).map Prod.fst = named a items.length n := by
  show (d.value.getAt a (.index n)).map Prod.fst = _
  rw [getAt, ha, named, ← toList_position?, List.map_map]
  rfl

theorem kind_array : (backend d).kind a = .list := by
  show ((d.value.at? a).map kind).getD _ = _
  rw [ha]
  rfl

/-- The elements whose position is the one an integer leads to are those that it names. -/
theorem filter_zipIdx_below (n : Int64) :
    (((((backend d).below a).map Item.node).zipIdx 0).filter fun p =>
      decide (fromStart items.length n = p.2)).map Prod.fst =
        (named a items.length n).map .node := by
  have hnumbered : (((backend d).below a).map Item.node).zipIdx 0 =
      (List.range items.length).map fun i => (Item.node (a ++ [i]), i) := by
    rw [below_array ha]
    apply List.ext_getElem <;> simp
  rw [hnumbered, List.filter_map, List.map_map, named, List.map_map]
  exact congrArg (List.map _) (List.filter_congr (decide_fromStart items.length n))

end

end Json

/-! ### Steps -/

namespace EvalM

theorem runFrom_children (env : Env) (a : Address) (key : Key) (c : Context) :
    (children env a key).runFrom c =
      (.ok ((env.backend.get a key).map Prod.fst), c.record a (env.backend.get a key)) := rfl

theorem runFrom_within_ok {α : Type} {items : List Item} {body : EvalM α} {x : α} {c c' : Context}
    (h : body.runFrom (c.enter items).2 = (.ok x, c')) :
    (within items body).runFrom c = (.ok x, c'.leave (c.enter items).1) := by
  rw [runFrom_within]
  change ((body.runFrom (c.enter items).2).1, (body.runFrom (c.enter items).2).2.leave _) = _
  rw [h]
  rfl

theorem runFrom_collect_single {α β : Type} {x : α} {body : α → EvalM (List β)} {ys : List β}
    {c c' : Context} (h : (body x).runFrom c = (.ok ys, c')) :
    (collect [x] body).runFrom c = (.ok ys, c') := by
  rw [collect, runFrom_bind_ok h, collect, runFrom_bind_ok (runFrom_pure _ _), runFrom_pure,
    List.append_nil]

end EvalM

section

variable {d : Json.Document} {env : Env} (henv : env.backend = Json.backend d) {a : Address}
  {items : List Json} (ha : d.value.at? a = some (.array items)) {n : Int64}

include henv ha

theorem runFrom_predicate {registry : Registry} {test : Term} {c : Context}
    (htest : test.ComesTo env registry n a c) :
    ∃ c', ((Segment.predicate test).step env registry [.node a]).runFrom c =
      (.ok ((Json.named a items.length n).map .node), c') := by
  have hlength : ((env.backend.below a).map Item.node).length = items.length := by
    rw [henv, Json.below_array ha]
    simp
  obtain ⟨c', hkept⟩ := Step.runFrom_keepFrom_of_comesTo env items.length htest
  rw [henv, Json.filter_zipIdx_below ha, ← henv] at hkept
  refine ⟨c'.leave ⟨c.items, c.index⟩, ?_⟩
  have hcandidates : (Step.candidates env (.node a)).runFrom c =
      (.ok ((env.backend.below a).map .node), c.record a (env.backend.get a .wildcard)) := by
    have hlist : env.backend.kind a = .list := henv ▸ Json.kind_array ha
    rw [Step.candidates, if_pos hlist, EvalM.runFrom_bind_ok (EvalM.runFrom_children _ _ _ _),
      EvalM.runFrom_pure]
    rfl
  have hfiltered : (Step.filterAll env true (fun here => test.eval env registry here)
      [.node a]).runFrom c =
        (.ok ((Json.named a items.length n).map .node), c'.leave ⟨c.items, c.index⟩) := by
    apply EvalM.runFrom_collect_single
    rw [EvalM.runFrom_bind_ok hcandidates, Step.filterCandidates, hlength]
    exact EvalM.runFrom_within_ok hkept
  rw [Segment.step, EvalM.runFrom_bind_ok hfiltered, EvalM.runFrom_distinct,
    Item.withoutRepeats_nodes (Json.nodup_named a items.length n)]

theorem runFrom_index (registry : Registry) (c : Context) :
    ∃ c', ((Segment.index n).step env registry [.node a]).runFrom c =
      (.ok ((Json.named a items.length n).map .node), c') := by
  have hselected : (Step.selectAll env (.index n) [.node a]).runFrom c =
      (.ok ((Json.named a items.length n).map .node),
        c.record a (env.backend.get a (.index n))) := by
    apply EvalM.runFrom_collect_single
    rw [Step.select, EvalM.runFrom_bind_ok (EvalM.runFrom_children _ _ _ _), EvalM.runFrom_pure,
      henv, Json.get_index_array ha]
  refine ⟨c.record a (env.backend.get a (.index n)), ?_⟩
  simp only [Segment.step]
  rw [EvalM.runFrom_bind_ok hselected, EvalM.runFrom_distinct,
    Item.withoutRepeats_nodes (Json.nodup_named a items.length n)]

end

/-- A predicate whose test comes to the integer `n` on every element of a list selects the same nodes of
the list as the index `n`: the element at position `n`, or `n` counted from the end if it is negative,
and nothing if there is none. -/
theorem predicate_selects_index {d : Json.Document} {env : Env}
    (henv : env.backend = Json.backend d) (registry : Registry) {a : Address} {items : List Json}
    (ha : d.value.at? a = some (.array items)) {test : Term} {n : Int64} {c : Context}
    (htest : test.ComesTo env registry n a c) :
    ∃ nodes : List Address,
      (∃ c', ((Segment.predicate test).step env registry [.node a]).runFrom c =
        (.ok (nodes.map .node), c')) ∧
      (∃ c', ((Segment.index n).step env registry [.node a]).runFrom c =
        (.ok (nodes.map .node), c')) ∧
      nodes = ((List.range items.length).filter fun i : Nat =>
        n.toInt = i ∨ n.toInt + items.length = i).map fun i => a ++ [i] :=
  ⟨Json.named a items.length n, runFrom_predicate henv ha htest, runFrom_index henv ha registry c,
    rfl⟩

/-- On every element its position less one more than that is -1, which names the last element. -/
theorem predicate_selects_index_last :
    let d : Json.Document := ⟨.array [.null, .bool true, .null],
      by simp [Json.Ordered, Json.OrderedItems]⟩
    let env : Env := ⟨Json.backend d, .default, false⟩
    let test : Term :=
      .binary .sub (.call "position" []) (.binary .add (.call "position" []) (.literal (.int 1)))
    env.backend = Json.backend d ∧
      d.value.at? [] = some (.array [.null, .bool true, .null]) ∧
      test.ComesTo env Registry.builtins (-1) [] .initial ∧
      (((Segment.predicate test).step env Registry.builtins [.node []]).runFrom .initial).1 =
        .ok [.node [2]] := by
  intro d env test
  have henv : env.backend = Json.backend d := rfl
  have ha : d.value.at? [] = some (.array [.null, .bool true, .null]) := rfl
  have htest : test.ComesTo env Registry.builtins (-1) [] .initial := by
    exact .cons rfl (.cons rfl (.cons rfl (.nil _ _)))
  obtain ⟨nodes, ⟨c', hrun⟩, -, hnodes⟩ :=
    predicate_selects_index henv Registry.builtins ha htest
  refine ⟨henv, ha, htest, ?_⟩
  rw [hrun, hnodes]
  dsimp only
  decide

end PathQuery
