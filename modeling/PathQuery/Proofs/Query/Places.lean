import PathQuery.Proofs.Eval.Places
import PathQuery.Proofs.Query.Independence

/-!
# Where the results of queries stand

Links are recorded by every way of asking for children and are never changed. After any number of
queries in one context, each node among the results has a link, and every link there is tells the truth.
-/

namespace PathQuery
namespace Query

open EvalM

section

variable {d : Json.Document} {env : Env} (henv : env.backend = Json.backend d)

include henv

theorem OfBuiltins.knowsAll_select {q : Query} (h : q.OfBuiltins) {c : Context} (hc : c.Truthful d)
    {items : List Item} (hok : ((q.select env [.node []]).runFrom c).1 = .ok items) :
    ((q.select env [.node []]).runFrom c).2.KnowsAll items := by
  obtain ⟨out, hout⟩ := h.steady henv [.node []]
  obtain ⟨c', hrun, _, hknown⟩ := hout c hc fun a ha =>
    .inl (Item.node.inj (List.mem_singleton.mp ha))
  rw [hrun] at hok ⊢
  exact hknown items hok

end

/-- After queries from the root of a JSON document in one context, whatever they have come to, each
node in the result of the last one is the root or has a link. The parent of a linked node is the root or
linked itself, and hands out the node, and only it, for the key or the index that the link names. The
root has no link. -/
theorem links_lead_to_nodes (d : Json.Document) (settings : Settings) (traced : Bool)
    {earlier : List Query} (hearlier : ∀ p ∈ earlier, p.OfBuiltins) {q : Query} (hq : q.OfBuiltins) :
    let env : Env := ⟨Json.backend d, settings, traced⟩
    let ran := (q.select env [.node []]).runFrom (contextAfter env earlier .initial)
    (∀ items, ran.1 = .ok items → ∀ a, .node a ∈ items → a = [] ∨ a ∈ ran.2.links) ∧
      (∀ (a : Address) (l : Link), ran.2.links[a]? = some l →
        (l.parent = [] ∨ l.parent ∈ ran.2.links) ∧ l.LeadsTo (Json.backend d) a) ∧
      ran.2.links[([] : Address)]? = none := by
  intro env ran
  have hbefore : Context.Extends d .initial (contextAfter env earlier .initial) :=
    extends_contextAfter rfl hearlier Context.truthful_initial
  have henv : env.backend = Json.backend d := rfl
  have hafter : ran.2.Truthful d := (hq.extends_select henv hbefore.truthful).truthful
  refine ⟨fun items hok => ?_, fun a l hl => ⟨hafter.parent a l hl, hafter.leadsTo hl⟩,
    hafter.links_root⟩
  exact hq.knowsAll_select henv hbefore.truthful hok

/-- An element reached from the end of a list under the key `a`, and its parent, know where they stand. -/
theorem links_lead_to_nodes_list :
    let d : Json.Document := ⟨.object [("a", .array [.null, .bool true])], by
      simp [Json.Ordered, Json.OrderedItems, Json.OrderedFields, Json.KeysOrdered]⟩
    let q : Query := ⟨"$.a[-1]", [.path .root [.child "a", .index (-1)]], .default⟩
    let env : Env := ⟨Json.backend d, .default, false⟩
    let ran := (q.select env [.node []]).runFrom .initial
    q.OfBuiltins ∧ ran.1 = .ok [.node [0, 1]] ∧ [0, 1] ∈ ran.2.links ∧
      ran.2.links[[0, 1]]? = some ⟨[0], ⟨none, some 1⟩⟩ ∧
        (Json.backend d).get [0] (.index 1) = [([0, 1], ⟨none, some 1⟩)] := by
  intro d q env ran
  have hq : q.OfBuiltins := ⟨rfl, compile_eq_ok_iff.mpr ⟨rfl, rfl, by decide +kernel⟩⟩
  have hok : ran.1 = .ok [.node [0, 1]] := by decide +kernel
  have hlink : ran.2.links[[0, 1]]? = some ⟨[0], ⟨none, some 1⟩⟩ := by decide +kernel
  obtain ⟨hnodes, hlinks, _⟩ :=
    links_lead_to_nodes d .default false (fun p hp => absurd hp List.not_mem_nil) hq
  refine ⟨hq, hok, ?_, hlink, ?_⟩
  · exact (hnodes _ hok _ List.mem_cons_self).resolve_left (by decide)
  · rcases (hlinks _ _ hlink).2 with ⟨_, _, key, hkey, _⟩ | ⟨_, _, i, hi, _, hget⟩
    · cases hkey
    · cases hi
      exact hget 1 (by decide)

end Query
end PathQuery
