import Mathlib.Data.List.Induction
import Mathlib.Data.List.Nodup
import CallFlow.Proofs.MergedGraph

namespace CallFlow

def mentionedIds (edges : List Edge) : List String :=
  edges.flatMap fun edge => [edge.source, edge.target]

/-- The mentioned identifiers that belong to no module, each at its first mention. -/
def undeclaredIds (modules : List Module) (edges : List Edge) : List String :=
  distinct ((mentionedIds edges).filter (· ∉ modules.map Module.id))

/-- What a repeated member yields has been yielded by the first one of its kind. -/
theorem distinct_flatMap_distinct {α β : Type} [DecidableEq α] [DecidableEq β] (f : α → List β)
    (as : List α) : distinct ((distinct as).flatMap f) = distinct (as.flatMap f) := by
  -- From the end, since a further member counts by what came before it.
  induction as using List.reverseRecOn with
  | nil => rfl
  | append_singleton as a ih =>
    have same : ∀ b, b ∈ (distinct as).flatMap f ↔ b ∈ as.flatMap f := by
      intro b
      simp only [List.mem_flatMap, mem_distinct]
    rw [distinct_concat, addNew, List.flatMap_append, List.flatMap_singleton]
    by_cases known : a ∈ distinct as
    · have seen : f a ⊆ as.flatMap f := fun b hb =>
        List.mem_flatMap.mpr ⟨a, mem_distinct.mp known, hb⟩
      rw [if_pos known, distinct_append_of_subset seen, ih]
    · rw [if_neg known, List.flatMap_append, List.flatMap_singleton, distinct_append,
        distinct_append, ih]
      simp only [same]

namespace Graph

variable {graph : Graph} {modules : List Module} {edges : List Edge}

theorem Represents.endpoints_eq (h : graph.Represents modules edges) :
    graph.endpoints = (distinct (edges.map Edge.ends)).flatMap fun pair => [pair.1, pair.2] := by
  rw [endpoints, h.edges, List.flatMap_map]
  rfl

theorem Represents.distinct_endpoints (h : graph.Represents modules edges) :
    distinct graph.endpoints = distinct (mentionedIds edges) := by
  rw [h.endpoints_eq, distinct_flatMap_distinct, List.flatMap_map]
  rfl

theorem Represents.mem_endpoints (h : graph.Represents modules edges) {id : String} :
    id ∈ graph.endpoints ↔ id ∈ mentionedIds edges := by
  rw [← mem_distinct, h.distinct_endpoints, mem_distinct]

theorem Represents.isNone_nodeIndex (h : graph.Represents modules edges) (id : String) :
    (graph.nodeIndex.get? id).isNone = decide (id ∉ modules.map Module.id) := by
  rw [Bool.eq_iff_iff, Option.isNone_iff_eq_none, h.nodeIndex.get?_eq_none, h.mem_nodeIds,
    decide_eq_true_iff]

theorem Represents.danglingIds_eq (h : graph.Represents modules edges) :
    graph.danglingIds = undeclaredIds modules edges := by
  simp only [danglingIds, h.isNone_nodeIndex]
  rw [distinct_filter, h.distinct_endpoints, ← distinct_filter, undeclaredIds]

/-- The dangling identifiers of a graph are told by its modules and raw edges alone, in the order of
first mention. Together with those of nodes they are all identifiers of the graph, each listed
once. -/
theorem danglingIds_build (modules : List Module) (edges : List Edge) :
    let graph := build modules edges
    graph.danglingIds = undeclaredIds modules edges ∧
    (graph.danglingIds.Pairwise fun a b =>
      (mentionedIds edges).idxOf a < (mentionedIds edges).idxOf b) ∧
    ∀ id, (graph.nodeIds ++ graph.danglingIds).count id =
      if id ∈ modules.map Module.id ∨ id ∈ mentionedIds edges then 1 else 0 := by
  intro graph
  have h := build_represents modules edges
  refine ⟨h.danglingIds_eq, ?_, ?_⟩
  · rw [h.danglingIds_eq, undeclaredIds, distinct_filter]
    exact (pairwise_idxOf_distinct (mentionedIds edges)).filter _
  · intro id
    have hn : (graph.nodeIds ++ graph.danglingIds).Nodup := h.nodup_shownIds
    have hm : id ∈ graph.nodeIds ++ graph.danglingIds ↔
        id ∈ modules.map Module.id ∨ id ∈ mentionedIds edges := by
      rw [← h.mem_nodeIds, ← h.mem_endpoints]
      exact h.mem_shownIds
    simp only [hn.count, hm]

end Graph

end CallFlow
