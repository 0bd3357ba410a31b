import CallFlow.Diagram.Mermaid
import CallFlow.Diagram.PlantUml
import CallFlow.Proofs.DanglingIds
import CallFlow.Proofs.NamesApart

namespace CallFlow

/-- What an edge may become when more raw edges of its pair are taken in. -/
structure MergedEdge.GrowsTo (edge grown : MergedEdge) : Prop where
  ends : grown.ends = edge.ends
  labels : edge.labels <+: grown.labels
  style : grown.style = edge.style ∨ grown.style = .exception

/-- The nodes and edges of a graph stand at the beginning of those of the other, the edges grown. -/
structure Graph.GrowsTo (graph grown : Graph) : Prop where
  nodes : graph.nodes <+: grown.nodes
  edges : List.Forall₂ MergedEdge.GrowsTo graph.edges (grown.edges.take graph.edges.length)

/-- Each of the identifiers has a name, and it is the same in both. -/
def Diagram.Names.Agree (names others : Names) (ids : List String) : Prop :=
  ∀ id ∈ ids, ∃ name, names.get? id = some name ∧ others.get? id = some name

namespace MergedEdge

theorem prefix_labelsOf {edges more : List Edge} (h : edges <+: more) :
    labelsOf edges <+: labelsOf more :=
  prefix_distinct ((h.filterMap Edge.label).filter (· ≠ ""))

/-- A further raw edge can only make a pair exceptional. -/
theorem styleOf_append (edges more : List Edge) :
    styleOf (edges ++ more) = styleOf edges ∨ styleOf (edges ++ more) = .exception := by
  unfold styleOf
  rw [List.any_append]
  cases more.any (·.style = .exception) with
  | true =>
    right
    rw [Bool.or_true, if_pos rfl]
  | false =>
    left
    rw [Bool.or_false]

theorem ofPair_growsTo (edges more : List Edge) (pair : String × String) :
    (ofPair edges pair).GrowsTo (ofPair (edges ++ more) pair) where
  ends := rfl
  labels := prefix_labelsOf ((List.prefix_append edges more).filter _)
  style := by
    simp only [ofPair, List.filter_append]
    exact styleOf_append _ _

end MergedEdge

namespace Graph

variable {graph grown : Graph} {modules more : List Module} {edges further : List Edge}

theorem Represents.growsTo (h : graph.Represents modules edges)
    (hg : grown.Represents (modules ++ more) (edges ++ further)) : graph.GrowsTo grown where
  nodes := by
    rw [h.nodes, hg.nodes]
    exact (prefix_distinctBy Module.id (List.prefix_append modules more)).map Node.ofModule
  edges := by
    have hp : distinct (edges.map Edge.ends) <+: distinct ((edges ++ further).map Edge.ends) :=
      prefix_distinct ((List.prefix_append edges further).map Edge.ends)
    rw [h.edges, hg.edges, ← List.map_take, List.length_map, ← List.prefix_iff_eq_take.mp hp]
    rw [List.forall₂_map_left_iff, List.forall₂_map_right_iff, List.forall₂_same]
    exact fun pair _ => MergedEdge.ofPair_growsTo edges further pair

/-- Without new modules the dangling identifiers stay dangling, and in their places. -/
theorem Represents.prefix_danglingIds (h : graph.Represents modules edges)
    (hg : grown.Represents modules (edges ++ further)) :
    graph.danglingIds <+: grown.danglingIds := by
  have hm : mentionedIds edges <+: mentionedIds (edges ++ further) := by
    rw [mentionedIds, mentionedIds, List.flatMap_append]
    exact List.prefix_append _ _
  rw [h.danglingIds_eq, hg.danglingIds_eq]
  exact prefix_distinct (hm.filter _)

end Graph

namespace Diagram

namespace NameRule

variable {graph grown : Graph} {id : String}

theorem prefix_assign (rule : NameRule) (names : Names) (id shown : String) :
    names <+: rule.assign names id shown := by
  unfold assign
  split
  · exact List.prefix_rfl
  · exact List.prefix_append _ _

theorem prefix_assignAll (rule : NameRule) (names : Names) (subjects : List (String × String)) :
    names <+: rule.assignAll names subjects := by
  induction subjects generalizing names with
  | nil => exact List.prefix_rfl
  | cons subject rest ih => exact (prefix_assign rule names subject.1 subject.2).trans (ih _)

/-- Subjects that come first are named first, whatever follows them. -/
theorem prefix_names (rule : NameRule) {first : List (String × String)}
    (hf : first <+: subjects graph) : rule.assignAll [] first <+: rule.names graph := by
  obtain ⟨rest, hr⟩ := hf
  have hs : rule.assignAll [] (first ++ rest) = rule.assignAll (rule.assignAll [] first) rest :=
    List.foldl_append
  rw [names, ← hr, hs]
  exact prefix_assignAll rule _ rest

theorem agree_of_first (rule : NameRule) {first : List (String × String)}
    (hf : first <+: subjects graph) (hg : first <+: subjects grown) :
    (rule.names graph).Agree (rule.names grown) (first.map Prod.fst) := by
  intro id hi
  have hm : id ∈ (rule.assignAll [] first).map Prod.fst := mem_ids_assignAll.mpr (.inr hi)
  cases hn : (rule.assignAll [] first).get? id with
  | none => exact absurd hm (Names.get?_eq_none.mp hn)
  | some name =>
    have kept : ∀ {names : Names}, rule.assignAll [] first <+: names →
        names.get? id = some name := by
      intro names hp
      obtain ⟨entry, he, rfl⟩ := Option.map_eq_some_iff.mp hn
      rw [Names.get?, hp.find?_eq_some he]
      rfl
    exact ⟨name, kept (prefix_names rule hf), kept (prefix_names rule hg)⟩

theorem agree_nodeIds (rule : NameRule) (hn : graph.nodes <+: grown.nodes) :
    (rule.names graph).Agree (rule.names grown) graph.nodeIds := by
  have hf : graph.nodes.map (fun node => (node.id, node.labelTail)) <+: subjects graph :=
    List.prefix_append _ _
  have hg : graph.nodes.map (fun node => (node.id, node.labelTail)) <+: subjects grown :=
    (hn.map _).trans (List.prefix_append _ _)
  have hs := rule.agree_of_first hf hg
  rwa [List.map_map] at hs

theorem agree_shownIds (rule : NameRule) (hn : graph.nodes = grown.nodes)
    (hd : graph.danglingIds <+: grown.danglingIds) :
    (rule.names graph).Agree (rule.names grown) graph.shownIds := by
  have hp : subjects graph <+: subjects grown := by
    rw [subjects, subjects, Graph.shown, Graph.shown, hn, List.prefix_append_right_inj]
    exact hd.map _
  have hs := rule.agree_of_first List.prefix_rfl hp
  rwa [subjects, Graph.map_fst_shown] at hs

end NameRule

end Diagram

namespace Graph

open Diagram

/-- A graph that is given more modules and more raw edges keeps its nodes and edges in their places,
and its nodes keep their names in both kinds of drawing. If no module is new, dangling ends keep
theirs too. -/
theorem build_grows (modules more : List Module) (edges further : List Edge) :
    let graph := build modules edges
    let grown := build (modules ++ more) (edges ++ further)
    graph.GrowsTo grown ∧
    (Mermaid.names graph).Agree (Mermaid.names grown) graph.nodeIds ∧
    (PlantUml.names graph).Agree (PlantUml.names grown) graph.nodeIds ∧
    (more = [] →
      (Mermaid.names graph).Agree (Mermaid.names grown) graph.danglingIds ∧
      (PlantUml.names graph).Agree (PlantUml.names grown) graph.danglingIds) := by
  intro graph grown
  have h : graph.Represents modules edges := build_represents modules edges
  have hg : grown.Represents (modules ++ more) (edges ++ further) :=
    build_represents (modules ++ more) (edges ++ further)
  have grows : graph.GrowsTo grown := h.growsTo hg
  refine ⟨grows, Mermaid.nameRule.agree_nodeIds grows.nodes,
    PlantUml.nameRule.agree_nodeIds grows.nodes, ?_⟩
  intro none_new
  rw [none_new, List.append_nil] at hg
  have hn : graph.nodes = grown.nodes := by rw [h.nodes, hg.nodes]
  have hd : graph.danglingIds <+: grown.danglingIds := h.prefix_danglingIds hg
  have shown : ∀ id ∈ graph.danglingIds, id ∈ graph.shownIds := fun _ hi =>
    List.mem_append_right _ hi
  exact ⟨fun id hi => Mermaid.nameRule.agree_shownIds hn hd id (shown id hi),
    fun id hi => PlantUml.nameRule.agree_shownIds hn hd id (shown id hi)⟩

/-- Two steps that are shown alike, one of which leads to an unknown one. -/
def twoMains : List Module :=
  [⟨"a", .play, "Main", none, none, [], []⟩, ⟨"b", .menu, "Main", none, none, [], []⟩]

def mainToLost : List Edge :=
  [.plain "a" "b", .labeled "b" "lost" "1"]

/-- One pair becomes exceptional, and another gets one more label. -/
def moreFromMain : List Edge :=
  [.exception "a" "b", .labeled "b" "lost" "2", .plain "b" "gone"]

/-- A step that is shown as the unknown one was. -/
def lostAndFound : List Module :=
  [⟨"c", .play, "lost", none, none, [], []⟩]

theorem twoMains_grow :
    let graph := build twoMains mainToLost
    let grown := build (twoMains ++ lostAndFound) (mainToLost ++ moreFromMain)
    let edged := build (twoMains ++ []) (mainToLost ++ moreFromMain)
    graph.GrowsTo grown ∧ grown.edges.map MergedEdge.labels = [["Exception"], ["1", "2"], []] ∧
    "b" ∈ graph.nodeIds ∧ (Mermaid.names grown).get? "b" = some "Main_b" ∧
    (∃ name, (Mermaid.names graph).get? "b" = some name ∧
      (Mermaid.names grown).get? "b" = some name) ∧
    "lost" ∈ graph.danglingIds ∧
    ∃ name, (PlantUml.names graph).get? "lost" = some name ∧
      (PlantUml.names edged).get? "lost" = some name := by
  intro graph grown edged
  obtain ⟨grows, keepsNode, -, -⟩ := build_grows twoMains lostAndFound mainToLost moreFromMain
  obtain ⟨-, -, -, keepsEnd⟩ := build_grows twoMains [] mainToLost moreFromMain
  have node : "b" ∈ graph.nodeIds := by decide
  have dangling : "lost" ∈ graph.danglingIds := by decide
  exact ⟨grows, by decide, node, by decide +kernel, keepsNode "b" node, dangling,
    (keepsEnd rfl).2 "lost" dangling⟩

/-- The new step is named before the dangling end and takes its name. -/
example :
    (Mermaid.names (build twoMains mainToLost)).get? "lost" = some "lost" ∧
      (Mermaid.names (build (twoMains ++ lostAndFound) mainToLost)).get? "lost" =
        some "lost_lost" := by
  decide +kernel

end Graph

end CallFlow
