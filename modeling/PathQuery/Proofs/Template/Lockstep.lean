import PathQuery.Proofs.Template.Running
import PathQuery.Template.Basic

/-!
# Renderings in lockstep

Two renderers can be compared on the same parts without looking at the parts. A `Lockstep` relates their
computations, and says of each thing that a rendering is made of that it is related to its counterpart.
From that, whole renderings are related. A property of one rendering is a relation that does not look at
the other one.

A relation can ask for items whose nodes are known. The body of a loop moves the index in the list that
the loop puts in force, so there is a second relation for what runs inside a list.
-/

namespace PathQuery
namespace Renderer

open RenderM

/-- What is written for a text of the template or, if it is substituted, for the text of an item. -/
def shown (r : Renderer) (s : String) (substituted : Bool) : Write :=
  ⟨if substituted then r.substitution s else s, substituted⟩

structure SameTree (r r' : Renderer) : Prop where
  backend : r'.env.backend = r.env.backend

theorem SameTree.refl (r : Renderer) : r.SameTree r := ⟨rfl⟩

/-- Relations between computations of two renderers, given items that are known, which everything that
renderings are made of respects. -/
structure Lockstep (r r' : Renderer) where
  rel : List Item → RenderM Unit → RenderM Unit → Prop
  /-- Two computations are related inside a list that is put in force. -/
  inner : List Item → RenderM Unit → RenderM Unit → Prop
  tree : r.SameTree r'
  mono : ∀ {needs more : List Item} {m m' : RenderM Unit}, needs ⊆ more → rel needs m m' →
    rel more m m'
  nothing : ∀ needs, rel needs (pure ()) (pure ())
  andThen : ∀ {needs : List Item} {m m' k k' : RenderM Unit}, rel needs m m' → rel needs k k' →
    rel needs (do m; k) (do m'; k')
  select : ∀ {current : List Item} {k k' : List Item → RenderM Unit} (terms : List Term),
    (∀ items, rel (current ++ items) (k items) (k' items)) →
      rel current (r.select terms current >>= k) (r'.select terms current >>= k')
  write : ∀ needs s substituted,
    rel needs (RenderM.write r.sink r.config.settings.maxOutputSize (r.shown s substituted))
      (RenderM.write r'.sink r'.config.settings.maxOutputSize (r'.shown s substituted))
  inner_of_rel : ∀ {needs : List Item} {m m' : RenderM Unit}, rel needs m m' → inner needs m m'
  inner_andThen : ∀ {needs : List Item} {m m' k k' : RenderM Unit}, inner needs m m' →
    inner needs k k' → inner needs (do m; k) (do m'; k')
  inner_tick : ∀ needs, inner needs (tick r.config.settings.maxIterations)
    (tick r'.config.settings.maxIterations)
  inner_index : ∀ needs i, inner needs (setIndex i) (setIndex i)
  within : ∀ {needs : List Item} {m m' : RenderM Unit} (items : List Item), inner needs m m' →
    rel needs (RenderM.within items m) (RenderM.within items m')

namespace Lockstep

variable {r r' : Renderer} (L : Lockstep r r')

/-! ### Parts -/

theorem writeFirst (needs items : List Item) :
    L.rel needs (r.writeFirst items) (r'.writeFirst items) := by
  rw [Renderer.writeFirst, Renderer.writeFirst, L.tree.backend]
  cases items.head?.bind r.env.backend.textOf? with
  | none => exact L.nothing needs
  | some s => exact L.write needs s true

theorem currentIn_subset {current items needs : List Item} (hcurrent : current ⊆ needs)
    (hitems : items ⊆ needs) {item : Item} (hitem : item ∈ items) :
    currentIn current item ⊆ needs := by
  cases item with
  | node a => exact List.cons_subset.mpr ⟨hitems hitem, List.nil_subset needs⟩
  | scalar v => exact hcurrent

theorem each {current needs : List Item} {body body' : List Item → RenderM Unit}
    (hbody : ∀ here, L.rel here (body here) (body' here)) (hcurrent : current ⊆ needs) (i : Nat)
    {items : List Item} (hitems : items ⊆ needs) :
    L.inner needs (r.each current body i items) (r'.each current body' i items) := by
  induction items generalizing i with
  | nil =>
    rw [Renderer.each, Renderer.each]
    exact L.inner_of_rel (L.nothing needs)
  | cons item items ih =>
    have hrest := fun i => ih i fun x hx => hitems (List.mem_cons_of_mem item hx)
    have hskips : r'.skips item = r.skips item := by rw [skips, skips, L.tree.backend]
    rw [Renderer.each, Renderer.each, hskips]
    refine L.inner_andThen (L.inner_tick needs) ?_
    split
    · exact hrest (i + 1)
    · refine L.inner_andThen (L.inner_index needs i) ?_
      refine L.inner_andThen (L.inner_of_rel ?_) (hrest (i + 1))
      exact L.mono (currentIn_subset hcurrent hitems List.mem_cons_self) (hbody _)

section

variable {insert insert' : IncludeCall → List Item → RenderM Unit}

mutual

theorem renderPart (hinsert : ∀ call current, L.rel current (insert call current) (insert' call current))
    (base : Option String) (current : List Item) (p : Part) :
    L.rel current (r.renderPart insert base current p) (r'.renderPart insert' base current p) := by
  cases p with
  | text s =>
    rw [Renderer.renderPart, Renderer.renderPart]
    exact L.write current s false
  | value terms =>
    rw [Renderer.renderPart, Renderer.renderPart]
    exact L.select terms fun items => L.writeFirst _ items
  | insertion name =>
    rw [Renderer.renderPart, Renderer.renderPart]
    exact hinsert _ current
  | loop subject body =>
    rw [Renderer.renderPart, Renderer.renderPart]
    refine L.select subject fun items => L.within items ?_
    exact L.each (fun here => renderParts hinsert base here body) (List.subset_append_left _ _) 0
      (List.subset_append_right _ _)
  | choice guard yes no =>
    rw [Renderer.renderPart, Renderer.renderPart]
    refine L.select guard fun items => L.mono (List.subset_append_left _ _) ?_
    rw [L.tree.backend]
    split
    · exact renderParts hinsert base current yes
    · exact renderParts hinsert base current no

theorem renderParts (hinsert : ∀ call current, L.rel current (insert call current) (insert' call current))
    (base : Option String) (current : List Item) (ps : List Part) :
    L.rel current (r.renderParts insert base current ps)
      (r'.renderParts insert' base current ps) := by
  cases ps with
  | nil =>
    rw [Renderer.renderParts, Renderer.renderParts]
    exact L.nothing current
  | cons p ps =>
    rw [Renderer.renderParts, Renderer.renderParts]
    exact L.andThen (renderPart hinsert base current p) (renderParts hinsert base current ps)

end

end

/-! ### Includes -/

/-- A question to the includer and the compiling of its answer are related, if what follows is. -/
def FindsAlike : Prop :=
  ∀ (needs : List Item) (includer : Includer), r.config.includer = some includer →
    ∀ (depth : Nat) (call : IncludeCall) (k k' : Included → List Part → RenderM Unit),
      (∀ found parts, L.rel needs (k found parts) (k' found parts)) →
        L.rel needs (ask includer depth call >>= fun found => r.partsOf call.name found >>= k found)
          (ask includer depth call >>= fun found => r'.partsOf call.name found >>= k' found)

variable (hdepth : r'.config.settings.maxIncludeDepth = r.config.settings.maxIncludeDepth)
  (hincluder : r'.config.includer = r.config.includer)
  (hfailure : ∀ needs e, L.rel needs (throw e) (throw e)) (hfinds : L.FindsAlike)

include hdepth hincluder hfailure hfinds

theorem insertion (remaining : Nat) (call : IncludeCall) (current : List Item) :
    L.rel current (r.insertion remaining call current) (r'.insertion remaining call current) := by
  induction remaining generalizing call current with
  | zero =>
    rw [Renderer.insertion, Renderer.insertion, hdepth]
    exact hfailure current _
  | succ remaining ih =>
    rw [Renderer.insertion, Renderer.insertion, hdepth, hincluder]
    cases hasked : r.config.includer with
    | none => exact hfailure current _
    | some includer =>
      exact hfinds current includer hasked _ call _ _ fun found parts =>
        L.renderParts ih (some found.location) current parts

theorem renderTop (base : Option String) (ps : List Part) :
    L.rel [.node []] (r.renderTop base ps) (r'.renderTop base ps) := by
  rw [Renderer.renderTop, Renderer.renderTop, hdepth]
  exact L.renderParts (L.insertion hdepth hincluder hfailure hfinds _) base [.node []] ps

end Lockstep
end Renderer
end PathQuery
