import PathQuery.Proofs.Eval.Builtins
import PathQuery.Proofs.Eval.Tracing

/-!
# Functions called as methods

A function that reads its input can be called on a path as a last step of it, or with the path as its
argument. On the way to the step the nodes of the path are found alike, and what the function gives has no
repeats for the step to drop. But a path that finds nothing is left before the step, so a function that
has an answer to nothing gives it only when it is called with the path.
-/

namespace PathQuery

/-! ### Results without repeats -/

namespace Item

theorem withoutRepeats_of_scalars {xs : List Item} (h : ∀ x ∈ xs, x.node? = none) :
    withoutRepeats xs = xs := by
  induction xs with
  | nil => rfl
  | cons x xs ih =>
    obtain ⟨hx, hrest⟩ := List.forall_mem_cons.mp h
    cases x with
    | node a => cases hx
    | scalar v => rw [withoutRepeats, ih hrest, differs_scalar, List.filter_true]

end Item

namespace Builtin

theorem uniqueKey_of_mem_uniqueFrom {b : Backend} {seen : Std.TreeSet String compare}
    {items : List Item} {x : Item} (h : x ∈ uniqueFrom b seen items) :
    seen.contains (uniqueKey b x) = false := by
  induction items generalizing seen with
  | nil => cases h
  | cons y items ih =>
    rw [uniqueFrom] at h
    split at h
    · exact ih h
    · next hy =>
      rcases List.mem_cons.mp h with rfl | h
      · exact Bool.eq_false_iff.mpr hy
      · have hlater := ih h
        rw [Std.TreeSet.contains_insert, Bool.or_eq_false_iff] at hlater
        exact hlater.2

/-- What is kept has different keys, so no node is kept twice. -/
theorem withoutRepeats_uniqueFrom (b : Backend) (seen : Std.TreeSet String compare)
    (items : List Item) :
    Item.withoutRepeats (uniqueFrom b seen items) = uniqueFrom b seen items := by
  induction items generalizing seen with
  | nil => rfl
  | cons y items ih =>
    rw [uniqueFrom]
    split
    · exact ih seen
    · rw [Item.withoutRepeats, ih, List.filter_eq_self.mpr]
      intro x hx
      have hkey := uniqueKey_of_mem_uniqueFrom hx
      cases x with
      | scalar v => rfl
      | node a =>
        refine decide_eq_true fun hsame => ?_
        rw [hsame, Std.TreeSet.contains_insert_self] at hkey
        cases hkey

/-! ### Functions of their input -/

/-- The names of the functions that read their input when they are called without arguments. -/
def inputReaders : List String :=
  ["count", "sum", "min", "max", "floor", "ceil", "round", "number", "string", "encode", "key", "index",
   "type", "parent", "lower", "upper", "length", "first", "unique"]

def answerToNothing (name : String) : List Item :=
  if name = "count" ∨ name = "sum" then [.scalar (.int 0)] else []

open EvalM

/-- The function does with the items of a single argument what it does with its input, and gives no
repeated nodes. -/
structure ReadsInput (env : Env) (name : String) (f : Function) : Prop where
  single : ∀ a items,
    f.apply env name [a] items items = a.eval items >>= fun found => f.apply env name [] found found
  once : ∀ items c found c', (f.apply env name [] items items).runFrom c = (.ok found, c') →
    Item.withoutRepeats found = found
  nothing : ∀ c, ((f.apply env name [] [] []).runFrom c).1 = .ok (answerToNothing name)

theorem gather_single (m : EvalM (List Item)) (input : List Item) : gather [m] input = m := by
  simp [gather, EvalM.joined, EvalM.collect]

namespace ReadsInput

variable {env : Env} {name : String} {f : Function}

theorem of_gather {k : List Item → EvalM (List Item)}
    (happly : ∀ args items,
      f.apply env name args items items = gather (Argument.against args items) items >>= k)
    (honce : ∀ items c found c', (k items).runFrom c = (.ok found, c') →
      Item.withoutRepeats found = found)
    (hnothing : ∀ c, ((k []).runFrom c).1 = .ok (answerToNothing name)) :
    ReadsInput env name f := by
  have hinput : ∀ items, f.apply env name [] items items = k items := happly []
  refine ⟨fun a items => ?_, fun items => ?_, ?_⟩
  · rw [happly, funext hinput]
    exact congrArg (· >>= k) (gather_single (a.eval items) items)
  · rw [hinput]
    exact honce items
  · rw [hinput]
    exact hnothing

theorem of_result {g : List Item → List Item}
    (happly : ∀ args items, f.apply env name args items items =
      gather (Argument.against args items) items >>= fun found => pure (g found))
    (honce : ∀ items, Item.withoutRepeats (g items) = g items) (hnothing : g [] = answerToNothing name) :
    ReadsInput env name f := by
  refine of_gather happly (fun items c found c' hrun => ?_) fun c => congrArg Except.ok hnothing
  cases hrun
  exact honce items

theorem of_reduced {own : String} {arity : Arity} {g : Env → List Item → Option Scalar}
    (hnothing : ((g env []).map Item.scalar).toList = answerToNothing name) :
    ReadsInput env name (plain own arity (reduced g)) := by
  refine of_result (fun _ _ => rfl) (fun items => ?_) hnothing
  refine Item.withoutRepeats_of_scalars fun x hx => ?_
  obtain ⟨v, _, rfl⟩ := Option.map_eq_some_iff.mp (Option.mem_toList.mp hx)
  rfl

theorem of_mapped (g : Env → Item → Option Item)
    (happly : ∀ args items, f.apply env name args items items =
      mapped g env name (Argument.against args items) items)
    (hg : ∀ x y, g env x = some y → y.node? = none) (hnothing : answerToNothing name = []) :
    ReadsInput env name f := by
  refine of_result happly (fun items => ?_) hnothing.symm
  refine Item.withoutRepeats_of_scalars fun y hy => ?_
  obtain ⟨x, _, hx⟩ := List.mem_filterMap.mp hy
  exact hg x y hx

theorem of_mappedText {own : String} {arity : Arity} {g : String → String}
    (hnothing : answerToNothing name = []) :
    ReadsInput env name (plain own arity (mappedText g)) := by
  refine of_mapped (fun env item => (env.backend.textOf? item).map fun s => .scalar (.str (g s)))
    (fun _ _ => rfl) (fun x y hy => ?_) hnothing
  obtain ⟨s, _, rfl⟩ := Option.map_eq_some_iff.mp hy
  rfl

theorem of_links {α : Type} {read : Context → Address → Option α} {g : α → Scalar}
    (happly : ∀ args items, f.apply env name args items items = (do
      let found ← gather (Argument.against args items) items
      let c ← get
      return found.filterMap fun x => (x.node?.bind (read c)).map fun y => .scalar (g y)))
    (hnothing : answerToNothing name = []) : ReadsInput env name f := by
  refine of_gather happly (fun items c found c' hrun => ?_) fun c => by rw [hnothing]; rfl
  cases hrun
  refine Item.withoutRepeats_of_scalars fun y hy => ?_
  obtain ⟨x, _, hx⟩ := List.mem_filterMap.mp hy
  obtain ⟨v, _, rfl⟩ := Option.map_eq_some_iff.mp hx
  rfl

end ReadsInput

theorem scalars_of_lengthItem {env : Env} {x : Item} {c c' : Context} {found : List Item}
    (hrun : (lengthItem env x).runFrom c = (.ok found, c')) : ∀ y ∈ found, y.node? = none := by
  have hone : ∀ v : Scalar, ∀ y ∈ [Item.scalar v], y.node? = none := fun v y hy =>
    (List.mem_singleton.mp hy) ▸ rfl
  unfold lengthItem at hrun
  split at hrun
  · cases hrun
    exact hone _
  · cases hrun
    exact fun y hy => absurd hy List.not_mem_nil
  · cases hrun
    exact hone _

theorem scalars_of_collect_lengthItem {env : Env} {items : List Item} {c c' : Context}
    {found : List Item} (hrun : (collect items (lengthItem env)).runFrom c = (.ok found, c')) :
    ∀ y ∈ found, y.node? = none := by
  induction items generalizing c found with
  | nil =>
    cases hrun
    exact fun y hy => absurd hy List.not_mem_nil
  | cons x items ih =>
    obtain ⟨here, c₁, hhere, hrun⟩ := ok_of_runFrom_bind hrun
    obtain ⟨rest, c₂, hrest, hrun⟩ := ok_of_runFrom_bind hrun
    cases hrun
    exact List.forall_mem_append.mpr ⟨scalars_of_lengthItem hhere, ih hrest⟩

theorem readsInput_rounding (env : Env) {name : String} (hnothing : answerToNothing name = []) :
    ReadsInput env name rounding :=
  .of_mapped (fun env => roundItem (roundingOf name) env.backend) (fun _ _ => rfl)
    (fun _ _ => node?_of_roundItem) hnothing

/-- Every function that reads its input reads it alone. -/
theorem readsInput_of_mem {name : String} (h : name ∈ inputReaders) (env : Env) :
    ∃ f, Registry.builtins.find? name = some f ∧ ReadsInput env name f := by
  simp only [inputReaders, List.mem_cons, List.not_mem_nil, or_false] at h
  rcases h with rfl | rfl | rfl | rfl | rfl | rfl | rfl | rfl | rfl | rfl | rfl | rfl | rfl | rfl |
    rfl | rfl | rfl | rfl | rfl
  · exact ⟨count, rfl, .of_reduced rfl⟩
  · exact ⟨sumFunction, rfl, .of_reduced rfl⟩
  · exact ⟨minimum, rfl, .of_reduced rfl⟩
  · exact ⟨maximum, rfl, .of_reduced rfl⟩
  · exact ⟨rounding, rfl, readsInput_rounding env rfl⟩
  · exact ⟨rounding, rfl, readsInput_rounding env rfl⟩
  · exact ⟨rounding, rfl, readsInput_rounding env rfl⟩
  · exact ⟨number, rfl, .of_mapped (fun env => numberItem env.backend) (fun _ _ => rfl)
      (fun _ _ => node?_of_numberItem) rfl⟩
  · exact ⟨string, rfl, .of_mappedText rfl⟩
  · exact ⟨encode, rfl, .of_mappedText rfl⟩
  · exact ⟨key, rfl, .of_links (fun _ _ => rfl) rfl⟩
  · exact ⟨index, rfl, .of_links (fun _ _ => rfl) rfl⟩
  · refine ⟨type, rfl, .of_mapped (fun env x => some (.scalar (.str (env.backend.itemKind x).text)))
      (fun _ _ => rfl) (fun x y hy => ?_) rfl⟩
    obtain rfl := Option.some.inj hy
    rfl
  · refine ⟨parent, rfl, .of_gather (fun _ _ => rfl) (fun items c found c' hrun => ?_) fun c => ?_⟩
    · rw [runFrom_bind_ok (runFrom_get c), runFrom_distinct] at hrun
      cases hrun
      exact Item.withoutRepeats_idem _
    · rw [runFrom_bind_ok (runFrom_get c), runFrom_distinct]
      rfl
  · exact ⟨lower, rfl, .of_mappedText rfl⟩
  · exact ⟨upper, rfl, .of_mappedText rfl⟩
  · refine ⟨length, rfl, .of_gather (fun _ _ => rfl) (fun items c found c' hrun => ?_) fun _ => rfl⟩
    exact Item.withoutRepeats_of_scalars (scalars_of_collect_lengthItem hrun)
  · refine ⟨first, rfl, .of_result (fun _ _ => rfl) (fun items => ?_) rfl⟩
    cases items with
    | nil => rfl
    | cons x items => rfl
  · exact ⟨unique, rfl, .of_result (fun _ _ => rfl) (withoutRepeats_uniqueFrom _ _) rfl⟩

end Builtin

open EvalM

/-! ### Both forms -/

theorem evalSegments_append (env : Env) (registry : Registry) (ss ss' : List Segment)
    (items : List Item) :
    evalSegments env registry (ss ++ ss') items =
      evalSegments env registry ss items >>= evalSegments env registry ss' := by
  induction ss generalizing items with
  | nil => rw [List.nil_append, evalSegments, pure_bind]
  | cons s ss ih =>
    rw [List.cons_append, evalSegments, evalSegments]
    split
    · next hempty =>
      -- nothing is left to either list of steps
      rw [pure_bind]
      cases ss' with
      | nil => rw [evalSegments]
      | cons s' ss' => rw [evalSegments, if_pos hempty]
    · simp only [ih, bind_assoc]

section

variable (env : Env)

theorem evalSegments_alike (ss : List Segment) (items : List Item) :
    Alike (evalSegments env .builtins ss items) (evalSegments env .builtins ss items) :=
  evalSegments_corresponds (Alike.correspondence env env.traced) (Builtin.covers_builtins _) ss
    (.inl trivial) items

theorem eval_alike (t : Term) (items : List Item) :
    Alike (t.eval env .builtins items) (t.eval env .builtins items) :=
  t.eval_corresponds (Alike.correspondence env env.traced) (Builtin.covers_builtins _) (.inl trivial)
    items

/-- A path goes on from what it has found, which is what is found without the steps behind. -/
theorem path_append_alike (start : Start) (ss ss' : List Segment) (items : List Item) :
    Alike ((Term.path start (ss ++ ss')).eval env .builtins items)
      ((Term.path start ss).eval env .builtins items >>= evalSegments env .builtins ss') := by
  have hstart : Alike (start.eval env .builtins items) (start.eval env .builtins items) :=
    start.eval_corresponds (Alike.correspondence env env.traced) (Builtin.covers_builtins _)
      (.inl trivial) items
  have hbody := hstart.bind fun found => evalSegments_alike env ss found
  have hfront := (hbody.untraced env (.path start ss) items.length).symm
  have hwhole := hfront.bind fun found => evalSegments_alike env ss' found
  rw [Term.eval, Term.eval]
  simp only [evalSegments_append, ← bind_assoc]
  exact hwhole.untraced env _ _

theorem path_term_alike (t : Term) (ss : List Segment) (items : List Item) :
    Alike ((Term.path (.term t) ss).eval env .builtins items)
      (t.eval env .builtins items >>= evalSegments env .builtins ss) := by
  rw [Term.eval, Start.eval]
  exact ((eval_alike env t items).bind fun found => evalSegments_alike env ss found).untraced env _ _

theorem extendPath_alike (p : Term) (s : Segment) (items : List Item) :
    Alike ((Parser.extendPath p [s]).eval env .builtins items)
      (p.eval env .builtins items >>= evalSegments env .builtins [s]) := by
  cases p with
  | path start ss => exact path_append_alike env start ss [s] items
  | _ => exact path_term_alike env _ [s] items

variable {name : String} {f : Function} (hfind : Registry.builtins.find? name = some f)

include hfind

/-- What a function does as the last step of a path. -/
theorem evalSegments_call (items : List Item) :
    evalSegments env .builtins [.call name []] items =
      if items.isEmpty then pure items
      else f.apply env name [] items items >>= distinct := by
  simp only [evalSegments, Segment.step, callFunction, hfind, evalArgs, bind_pure]

theorem outcome_evalSegments_call (hreads : Builtin.ReadsInput env name f) {items : List Item}
    (hitems : items.isEmpty = false) (c : Context) :
    ((evalSegments env .builtins [.call name []] items).runFrom c).1 =
      ((f.apply env name [] items items).runFrom c).1 := by
  rw [evalSegments_call env hfind, hitems, if_neg Bool.false_ne_true, runFrom_bind]
  cases hrun : (f.apply env name [] items items).runFrom c with
  | mk outcome c' =>
    cases outcome with
    | error e => rfl
    | ok found =>
      dsimp only
      rw [runFrom_distinct, hreads.once items c found c' hrun]

theorem call_alike (hreads : Builtin.ReadsInput env name f) (p : Term) (items : List Item) :
    Alike ((Term.call name [p]).eval env .builtins items)
      (p.eval env .builtins items >>= fun found => f.apply env name [] found found) := by
  have hf : f ∈ Registry.builtins.functions := Registry.mem_of_find? hfind
  have hcall : Alike (f.apply env name (evalArgs env .builtins [p]) items items)
      (f.apply env name (evalArgs env .builtins [p]) items items) :=
    Builtin.covers_builtins (Alike.correspondence env env.traced) f hf name _ _ items items
      (.cons ⟨rfl, eval_alike env p⟩ .nil)
  have hsingle : f.apply env name (evalArgs env .builtins [p]) items items =
      p.eval env .builtins items >>= fun found => f.apply env name [] found found := by
    rw [evalArgs, evalArgs, hreads.single]
  rw [Term.eval, callFunction, hfind, ← hsingle]
  exact hcall.untraced env _ _

end

/-- A function that reads its input, called as the last step of a path, gives what it gives with the
path as its argument, just if the path finds something or the function has no answer to nothing. -/
theorem method_eq_call_iff (env : Env) {name : String} (hname : name ∈ Builtin.inputReaders)
    (p : Term) (items : List Item) (c : Context) :
    let method := (((Parser.extendPath p [.call name []]).eval env .builtins items).runFrom c).1
    let call := (((Term.call name [p]).eval env .builtins items).runFrom c).1
    let found := ((p.eval env .builtins items).runFrom c).1
    (method = call ↔ ¬(found = .ok [] ∧ (name = "count" ∨ name = "sum"))) ∧
      (found = .ok [] → method = .ok [] ∧ call = .ok (Builtin.answerToNothing name)) := by
  intro method call found
  obtain ⟨f, hfind, hreads⟩ := Builtin.readsInput_of_mem hname env
  have hmethod : method = _ := (extendPath_alike env p (.call name []) items c c rfl).1
  have hcall : call = _ := (call_alike env hfind hreads p items c c rfl).1
  rw [hmethod, hcall, runFrom_bind, runFrom_bind]
  cases hfound : (p.eval env .builtins items).runFrom c with
  | mk outcome c' =>
    have houtcome : found = outcome := congrArg Prod.fst hfound
    rw [houtcome]
    match outcome with
    | .error e => simp
    | .ok [] =>
      -- the path ends before the step, while the function is called with nothing
      dsimp only
      rw [evalSegments_call env hfind, List.isEmpty_nil, if_pos rfl, runFrom_pure, hreads.nothing]
      by_cases hcounts : name = "count" ∨ name = "sum"
      · simp [Builtin.answerToNothing, hcounts]
      · simp [Builtin.answerToNothing, hcounts]
    | .ok (x :: xs) =>
      dsimp only
      rw [outcome_evalSegments_call env hfind hreads rfl]
      simp

/-- Of a member that is not there, `count` as a step gives nothing, and `count` of it gives zero. -/
theorem method_eq_call_iff_count :
    let empty : Json.Document :=
      ⟨.object [], by simp [Json.Ordered, Json.KeysOrdered, Json.OrderedFields]⟩
    let env : Env := ⟨Json.backend empty, .default, false⟩
    let p : Term := .path .root [.child "a"]
    (((Parser.extendPath p [.call "count" []]).eval env .builtins [.node []]).runFrom .initial).1 =
        .ok [] ∧
      (((Term.call "count" [p]).eval env .builtins [.node []]).runFrom .initial).1 =
        .ok [.scalar (.int 0)] := by
  intro empty env p
  exact (method_eq_call_iff env (by decide) p [.node []] .initial).2 rfl

end PathQuery
