import Mathlib.Data.List.Perm.Basic
import CallFlow.Proofs.DanglingIds

namespace CallFlow

namespace MergedEdge

/-- Differing at most in the order of the labels. -/
structure Alike (edge other : MergedEdge) : Prop where
  ends : edge.ends = other.ends
  style : edge.style = other.style
  labels : edge.labels.Perm other.labels

variable {edges others : List Edge}

theorem labelsOf_perm (h : edges.Perm others) : (labelsOf edges).Perm (labelsOf others) :=
  perm_distinct ((h.filterMap Edge.label).filter (· ≠ ""))

theorem styleOf_perm (h : edges.Perm others) : styleOf edges = styleOf others := by
  rw [styleOf, styleOf, h.any_eq]

theorem ofPair_alike (h : edges.Perm others) (pair : String × String) :
    (ofPair edges pair).Alike (ofPair others pair) where
  ends := rfl
  style := styleOf_perm (h.filter (·.ends = pair))
  labels := labelsOf_perm (h.filter (·.ends = pair))

end MergedEdge

theorem undeclaredIds_perm {modules others : List Module} {edges more : List Edge}
    (hm : modules.Perm others) (he : edges.Perm more) :
    (undeclaredIds modules edges).Perm (undeclaredIds others more) := by
  have known : ∀ id, id ∈ modules.map Module.id ↔ id ∈ others.map Module.id := fun _ =>
    (hm.map Module.id).mem_iff
  unfold undeclaredIds
  simp only [known]
  exact perm_distinct ((he.flatMap_right _).filter _)

namespace Graph

/-- Differing at most in the order of nodes, edges, labels and dangling identifiers. -/
structure Alike (graph other : Graph) : Prop where
  source : graph.source = other.source
  nodes : graph.nodes.Perm other.nodes
  edgeEnds : graph.edgeEnds.Perm other.edgeEnds
  edges : ∀ edge ∈ graph.edges, ∀ twin ∈ other.edges, edge.ends = twin.ends → edge.Alike twin
  danglingIds : graph.danglingIds.Perm other.danglingIds

variable {graph other : Graph} {modules others : List Module} {edges more : List Edge}

theorem Represents.nodes_of_nodup (h : graph.Represents modules edges)
    (hn : (modules.map Module.id).Nodup) : graph.nodes = modules.map Node.ofModule := by
  rw [h.nodes, distinctBy_of_nodup hn]

theorem Represents.alike_edges (h : graph.Represents modules edges)
    (ho : other.Represents others more) (he : edges.Perm more) {edge twin : MergedEdge}
    (hg : edge ∈ graph.edges) (ht : twin ∈ other.edges) (hp : edge.ends = twin.ends) :
    edge.Alike twin := by
  have first : edge = MergedEdge.ofPair edges twin.ends := h.eq_ofPair hg hp
  have second : twin = MergedEdge.ofPair more twin.ends := ho.eq_ofPair ht rfl
  rw [first, second]
  exact MergedEdge.ofPair_alike he twin.ends

/-- Modules with identifiers of their own and raw edges may arrive in any order: the graph has the
same nodes, the same pairs with the same styles and labels, and the same dangling identifiers. -/
theorem build_alike_of_perm (hn : (modules.map Module.id).Nodup) (hm : modules.Perm others)
    (he : edges.Perm more) : (build modules edges).Alike (build others more) := by
  have h := build_represents modules edges
  have ho := build_represents others more
  have hd : (others.map Module.id).Nodup := (hm.map Module.id).nodup hn
  constructor
  case source =>
    rw [(build_determined modules edges).source, (build_determined others more).source]
  case nodes =>
    rw [h.nodes_of_nodup hn, ho.nodes_of_nodup hd]
    exact hm.map Node.ofModule
  case edgeEnds =>
    rw [h.edgeEnds_eq, ho.edgeEnds_eq]
    exact perm_distinct (he.map Edge.ends)
  case edges =>
    intro edge hg twin ht hp
    exact h.alike_edges ho he hg ht hp
  case danglingIds =>
    rw [h.danglingIds_eq, ho.danglingIds_eq]
    exact undeclaredIds_perm hm he

/-- Two steps, one of which refers to the other twice; and two unknown identifiers. -/
def menuBeforeBye : List Module :=
  [⟨"menu", .menu, "Main", none, none, [], []⟩, ⟨"bye", .hangup, "Bye", none, none, [], []⟩]

def branchBeforeHandler : List Edge :=
  [.labeled "menu" "bye" "1", .plain "before" "menu", .exception "menu" "bye",
    .plain "bye" "after"]

/-- Reversed, the same comes in another order. -/
theorem build_alike_reversed :
    (menuBeforeBye.map Module.id).Nodup ∧
    menuBeforeBye.Perm menuBeforeBye.reverse ∧
    branchBeforeHandler.Perm branchBeforeHandler.reverse ∧
    (build menuBeforeBye branchBeforeHandler).Alike
      (build menuBeforeBye.reverse branchBeforeHandler.reverse) ∧
    (build menuBeforeBye branchBeforeHandler).danglingIds = ["before", "after"] ∧
    (build menuBeforeBye.reverse branchBeforeHandler.reverse).danglingIds =
      ["after", "before"] := by
  have apart : (menuBeforeBye.map Module.id).Nodup := by decide
  have hm : menuBeforeBye.Perm menuBeforeBye.reverse := (List.reverse_perm _).symm
  have he : branchBeforeHandler.Perm branchBeforeHandler.reverse := (List.reverse_perm _).symm
  exact ⟨apart, hm, he, build_alike_of_perm apart hm he, by decide, by decide⟩

end Graph

end CallFlow
