import PathQuery.Proofs.Eval.Running
import PathQuery.Proofs.Tree.JsonBackend

/-!
# Descendants

What a recursive wildcard selects from the nodes of a JSON document. It leaves out the nodes a walk
starts at, and a walk meets a start that is below a later start before it meets it as a descendant.
-/

namespace PathQuery

/-! ### Visits that are not starts -/

namespace Backend

variable (b : Backend)

def starts (nodes : List Address) : List Visit := nodes.map fun a => ⟨a, true⟩

theorem mem_firstVisits_append {xs ys : List Visit} {v : Visit} :
    v ∈ firstVisits (xs ++ ys) ↔
      v ∈ firstVisits xs ∨ v.node ∉ xs.map Visit.node ∧ v ∈ firstVisits ys := by
  rw [firstVisits_append, List.mem_append, List.mem_filter, decide_eq_true_eq]
  exact or_congr Iff.rfl and_comm

/-- Among the visits of one start, the nodes below it are those that are not starts. -/
theorem mem_firstVisits_visits {a c : Address} :
    ⟨c, false⟩ ∈ firstVisits (b.visits ⟨a, true⟩) ↔ c ∈ (b.below a).flatMap b.listing := by
  constructor
  · intro h
    have hmem := mem_of_mem_firstVisits h
    simpa [visits] using hmem
  · intro h
    have hvisit : (⟨c, false⟩ : Visit) ∈ b.visits ⟨a, true⟩ :=
      List.mem_cons_of_mem _ (List.mem_map_of_mem h)
    obtain ⟨v, hv, hnode⟩ := exists_mem_firstVisits hvisit
    rcases List.mem_cons.mp (mem_of_mem_firstVisits hv) with rfl | hbelow
    · obtain rfl : a = c := hnode
      exact absurd h (b.not_mem_listings_below a)
    · obtain ⟨e, _, rfl⟩ := List.mem_map.mp hbelow
      obtain rfl : e = c := hnode
      exact hv

/-- A node below a start is left out exactly if it is itself a start before that. -/
theorem mem_walk_starts {nodes : List Address} {c : Address} :
    ⟨c, false⟩ ∈ b.walk ∅ (starts nodes) ↔
      ∃ before a after, nodes = before ++ a :: after ∧ c ∈ (b.below a).flatMap b.listing ∧
        c ∉ before := by
  rw [walk_eq]
  induction nodes with
  | nil => simp [starts, firstVisits]
  | cons x nodes ih =>
    rw [starts, List.map_cons, List.flatMap_cons, mem_firstVisits_append, map_node_visits,
      mem_firstVisits_visits, listing_eq, List.mem_cons, not_or]
    change _ ∨ _ ∧ _ ∈ firstVisits ((starts nodes).flatMap b.visits) ↔ _
    rw [ih]
    constructor
    · rintro (hbelow | ⟨⟨hne, _⟩, before, a, after, rfl, hbelow, hbefore⟩)
      · exact ⟨[], x, nodes, rfl, hbelow, List.not_mem_nil⟩
      · exact ⟨x :: before, a, after, rfl, hbelow, List.not_mem_cons_of_ne_of_not_mem hne hbefore⟩
    · rintro ⟨before, a, after, heq, hbelow, hbefore⟩
      cases before with
      | nil =>
        obtain ⟨rfl, rfl⟩ := List.cons.inj heq
        exact .inl hbelow
      | cons y before =>
        obtain ⟨rfl, rfl⟩ := List.cons.inj heq
        rw [List.mem_cons, not_or] at hbefore
        by_cases hx : c ∈ (b.below x).flatMap b.listing
        · exact .inl hx
        · exact .inr ⟨⟨hbefore.1, hx⟩, before, a, after, rfl, hbelow, hbefore.2⟩

end Backend

/-! ### The recursive wildcard -/

namespace Step

/-- What a descent does: it hands out the walk over the nodes among its items, and the context knows
the children of every node on the walk. -/
theorem runFrom_descend (env : Env) (includeSelf : Bool) (items : List Item) (c : Context) :
    ∃ c', (descend env includeSelf items).runFrom c =
      (.ok (((env.backend.walk ∅ (Backend.starts (items.filterMap Item.node?))).filter
        fun v => includeSelf || !v.isStart).map fun v => .node v.node), c') :=
  ⟨_, rfl⟩

end Step

/-- Of the nodes strictly below an input node the recursive wildcard selects, each once, those that
are not themselves input nodes before every input node they are below. -/
theorem recursiveWildcard_step (d : Json.Document) (settings : Settings) (traced : Bool)
    (registry : Registry) (items : List Item) (c : Context) :
    ∃ (nodes : List Address) (c' : Context),
      (Segment.recursiveWildcard.step ⟨Json.backend d, settings, traced⟩ registry items).runFrom c =
        (.ok (nodes.map .node), c') ∧
      nodes.Nodup ∧
      ∀ b, b ∈ nodes ↔ ∃ before a after, items.filterMap Item.node? = before ++ a :: after ∧
        d.value.IsBelow a b ∧ b ∉ before := by
  let walked := (Json.backend d).walk ∅ (Backend.starts (items.filterMap Item.node?))
  let nodes := (walked.filter fun v => !v.isStart).map Visit.node
  have hnodup : nodes.Nodup := by
    have hwalked : (walked.map Visit.node).Nodup := by
      simp only [walked, Backend.walk_eq]
      exact Backend.nodup_firstVisits _
    exact hwalked.sublist (List.filter_sublist.map _)
  obtain ⟨c', hdescend⟩ := Step.runFrom_descend ⟨Json.backend d, settings, traced⟩ false items c
  refine ⟨nodes, c', ?_, hnodup, ?_⟩
  · have hfound : (walked.filter fun v => false || !v.isStart).map (fun v => Item.node v.node) =
        nodes.map .node := by
      simp only [nodes, Bool.false_or, List.map_map]
      rfl
    rw [Segment.step, EvalM.runFrom_bind_ok hdescend, hfound, EvalM.runFrom_distinct,
      Item.withoutRepeats_nodes hnodup]
  · intro b
    have hmem : b ∈ nodes ↔ ⟨b, false⟩ ∈ walked := by
      simp only [nodes, List.mem_map, List.mem_filter]
      constructor
      · rintro ⟨⟨a, isStart⟩, ⟨hv, hflag⟩, rfl⟩
        cases isStart with
        | true => cases hflag
        | false => exact hv
      · intro hv
        exact ⟨_, ⟨hv, rfl⟩, rfl⟩
    rw [hmem, Backend.mem_walk_starts]
    simp only [Json.mem_listings_below_backend]

end PathQuery
