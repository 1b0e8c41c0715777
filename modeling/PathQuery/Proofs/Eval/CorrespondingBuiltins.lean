import PathQuery.Eval.Builtin
import PathQuery.Proofs.Eval.Correspondence

/-!
# Built-in functions under correspondences

No built-in function computes with operators or handles a failure of an argument. Of the settings it
consults only the tolerance and the locale, of a context only the index and the links. So every
built-in function that gets corresponding arguments does corresponding things.
-/

namespace PathQuery

namespace Context

theorem key?_locates : Locates key? := fun c c' _ hlinks => by
  funext a
  rw [key?, key?, hlinks]

theorem index?_locates : Locates index? := fun c c' _ hlinks => by
  funext a
  rw [index?, index?, hlinks]

theorem parent?_locates : Locates parent? := fun c c' _ hlinks => by
  funext a
  rw [parent?, parent?, hlinks]

theorem Locates.links {α β : Type} {look : Context → Address → Option α} (h : Locates look)
    (items : List Item) (f : α → β) :
    Locates fun c => items.filterMap fun item => (item.node?.bind (look c)).map f := by
  intro c c' hindex hlinks
  simp only [h c c' hindex hlinks]

end Context

namespace Builtin

open EvalM Context

variable {env : Env} {settings : Settings} {tracing : Bool} (R : Correspondence env settings tracing)

/-! ### Arguments -/

section

variable {args args' : List (EvalM (List Item))}
  (hargs : List.Forall₂ (fun m m' => R.rel m m') args args') (input : List Item)

include hargs

theorem gather_corresponds : R.rel (gather args input) (gather args' input) := by
  cases hargs with
  | nil => exact R.pure input
  | cons hm hargs => exact R.joined (.cons hm hargs)

theorem gathered_corresponds (f : List Item → List Item) :
    R.rel (gather args input >>= fun items => pure (f items))
      (gather args' input >>= fun items => pure (f items)) :=
  R.bind (gather_corresponds R hargs input) fun items => R.pure (f items)

theorem concatenated_corresponds :
    R.rel (concatenated env args) (concatenated (env.under settings tracing) args') := by
  induction hargs with
  | nil => exact R.pure ""
  | cons hm _ ih => exact R.bind hm fun _ => R.bind ih fun _ => R.pure _

theorem separately_corresponds : R.rel (separately args) (separately args') := by
  induction hargs with
  | nil => exact R.pure []
  | cons hm _ ih => exact R.bind hm fun here => R.bind ih fun rest => R.pure (here :: rest)

end

/-! ### Items -/

theorem lengthItem_corresponds (x : Item) :
    R.rel (lengthItem env x) (lengthItem (env.under settings tracing) x) := by
  change R.rel (lengthItem env x) (lengthItem env x)
  unfold lengthItem
  split
  · exact R.pure _
  · exact R.pure _
  · exact R.bind (R.children _ _) fun _ => R.pure _

theorem containsItem_corresponds (x y : Item) :
    R.rel (containsItem env x y) (containsItem (env.under settings tracing) x y) := by
  have hsame : containsItem (env.under settings tracing) x y = containsItem env x y := by
    unfold containsItem Env.under
    simp only [R.agrees.tolerance]
    rfl
  rw [hsame]
  unfold containsItem
  split
  · exact R.bind (R.children _ _) fun _ => R.pure _
  · split
    · exact R.pure _
    · exact R.pure _

/-! ### The table -/

variable {args args' : List Argument} (hargs : R.Arguments args args') (name : String)
  (context input : List Item)

include hargs in
theorem contains_corresponds :
    R.rel (contains.apply env name args context input)
      (contains.apply (env.under settings tracing) name args' context input) := by
  match args, args', hargs with
  | [], [], _ => exact R.pure _
  | [_], [_], _ => exact R.pure _
  | [_, _], [_, _], .cons hhaystack (.cons hneedle .nil) =>
    refine R.bind (hhaystack.2 context) fun hs => R.bind (hneedle.2 context) fun ns => ?_
    split
    · exact R.bind (containsItem_corresponds R _ _) fun _ => R.pure _
    · exact R.pure _
  | _ :: _ :: _ :: _, _ :: _ :: _ :: _, _ => exact R.pure _

include hargs in
theorem orDefault_corresponds :
    R.rel (orDefault.apply env name args context input)
      (orDefault.apply (env.under settings tracing) name args' context input) := by
  match args, args', hargs with
  | [], [], _ => exact R.pure _
  | [_], [_], _ => exact R.pure _
  | [_, _], [_, _], .cons hvalue (.cons hfallback .nil) =>
    refine R.bind (hvalue.2 context) fun items => ?_
    change R.rel (if items.all fun item => env.backend.reduce item = .scalar .null then _ else _)
      (if items.all fun item => env.backend.reduce item = .scalar .null then _ else _)
    split
    · exact hfallback.2 context
    · exact R.pure items
  | _ :: _ :: _ :: _, _ :: _ :: _ :: _, _ => exact R.pure _

theorem locale_corresponds :
    R.rel (locale.apply env name args context input)
      (locale.apply (env.under settings tracing) name args' context input) := by
  change R.rel (pure [Item.scalar (.str env.settings.locale)])
    (pure [Item.scalar (.str settings.locale)])
  rw [R.agrees.locale]
  exact R.pure _

/-- Every built-in function does corresponding things with corresponding arguments. -/
theorem covers_builtins : R.Covers .builtins := by
  intro f hf name args args' context input harguments
  have hargs := harguments.against context
  change f ∈ all at hf
  simp only [all, List.mem_cons, List.not_mem_nil, or_false] at hf
  rcases hf with rfl | rfl | rfl | rfl | rfl | rfl | rfl | rfl | rfl | rfl | rfl | rfl | rfl | rfl |
    rfl | rfl | rfl | rfl | rfl | rfl | rfl | rfl | rfl | rfl
  · exact gathered_corresponds R hargs input _
  · exact gathered_corresponds R hargs input _
  · exact gathered_corresponds R hargs input _
  · exact gathered_corresponds R hargs input _
  · exact gathered_corresponds R hargs input _
  · exact gathered_corresponds R hargs input _
  · exact gathered_corresponds R hargs input _
  · exact gathered_corresponds R hargs input _
  · exact gathered_corresponds R hargs input _
  · exact R.bind (separately_corresponds R hargs) fun _ => R.pure _
  · exact R.bind (gather_corresponds R hargs input) fun items => R.read (key?_locates.links items _)
  · exact R.bind (gather_corresponds R hargs input) fun items => R.read (index?_locates.links items _)
  · exact gathered_corresponds R hargs input _
  · refine R.bind (gather_corresponds R hargs input) fun items => ?_
    have hparents := R.bind (R.read (parent?_locates.links items Item.node)) R.distinct
    simpa only [bind_assoc, pure_bind] using hparents
  · exact R.read fun c c' hindex _ => by rw [hindex]
  · exact locale_corresponds R name context input
  · exact gathered_corresponds R hargs input _
  · exact gathered_corresponds R hargs input _
  · exact R.bind (gather_corresponds R hargs input) fun _ =>
      R.collect fun x => lengthItem_corresponds R x
  · exact R.bind (concatenated_corresponds R hargs) fun _ => R.pure _
  · exact contains_corresponds R harguments name context input
  · exact gathered_corresponds R hargs input _
  · exact gathered_corresponds R hargs input _
  · exact orDefault_corresponds R harguments name context input

end Builtin
end PathQuery
