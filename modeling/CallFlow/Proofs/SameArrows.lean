import Mathlib.Data.Set.Function
import CallFlow.Diagram.Drawn
import CallFlow.Proofs.DotDrawing
import CallFlow.Proofs.FlowchartLines
import CallFlow.Proofs.StateDiagramLines

namespace CallFlow

namespace Graph

open Diagram (Arrow NameRule)

section Drawings

variable {modules : List Module} {edges : List Edge} {graph : Graph}

theorem drawnArrows_eq (h : graph.Represents modules edges) (format : TextFormat) :
    graph.drawnArrows format = graph.edges.map (Arrow.ofEdge (graph.written format)) := by
  cases format with
  | dot => exact Diagram.Dot.onLines_draw h
  | mermaid => exact Diagram.Mermaid.onLines_draw h
  | plantUml => exact Diagram.PlantUml.onLines_draw h

/-- In no format are two shown identifiers written alike. -/
theorem written_injOn (graph : Graph) (format : TextFormat) :
    Set.InjOn (graph.written format) {id | id ∈ graph.shownIds} := by
  intro a ha b hb h
  cases format with
  | dot => exact Diagram.Dot.quote_injective h
  | mermaid => exact (NameRule.resolve_inj _ ha hb).mp h
  | plantUml => exact (NameRule.resolve_inj _ ha hb).mp h

theorem drawnEnds_eq (h : graph.Represents modules edges) (format : TextFormat) :
    graph.drawnEnds format = graph.endpoints.map (graph.written format) := by
  rw [drawnEnds, drawnArrows_eq h, endpoints, List.flatMap_map, List.map_flatMap]
  rfl

theorem drawnEnds_coincide (h : graph.Represents modules edges) (format : TextFormat) (i j : Nat) :
    (graph.drawnEnds format)[i]? = (graph.drawnEnds format)[j]? ↔
      graph.endpoints[i]? = graph.endpoints[j]? := by
  have hs : ∀ {i : Nat} {id}, graph.endpoints[i]? = some id → id ∈ graph.shownIds := fun hi =>
    h.mem_shownIds.mpr (.inr (List.mem_of_getElem? hi))
  rw [drawnEnds_eq h, List.getElem?_map, List.getElem?_map]
  cases hi : graph.endpoints[i]? with
  | none => cases graph.endpoints[j]? <;> simp
  | some a =>
    cases hj : graph.endpoints[j]? with
    | none => simp
    | some b =>
      simp only [Option.map_some, Option.some.injEq]
      exact (graph.written_injOn format).eq_iff (hs hi) (hs hj)

end Drawings

/-- The arrows in a drawing are the edges of the graph in order, each with its own ends, its stroke
and a label where it has one. No format writes two identifiers alike, so all drawings of a graph
are isomorphic: where two arrows meet in one of them, they meet in each. -/
theorem drawings_isomorphic (modules : List Module) (edges : List Edge) :
    let graph := build modules edges
    (∀ format, graph.drawnArrows format = graph.edges.map (Arrow.ofEdge (graph.written format))) ∧
    (∀ format, Set.InjOn (graph.written format)
      {id | id ∈ graph.nodeIds ∨ id ∈ graph.endpoints}) ∧
    ∀ (format other : TextFormat) (i j : Nat),
      (graph.drawnEnds format)[i]? = (graph.drawnEnds format)[j]? ↔
        (graph.drawnEnds other)[i]? = (graph.drawnEnds other)[j]? := by
  intro graph
  have h := build_represents modules edges
  refine ⟨drawnArrows_eq h, fun format a ha b hb => ?_, fun format other i j => ?_⟩
  · exact graph.written_injOn format (h.mem_shownIds.mpr ha) (h.mem_shownIds.mpr hb)
  · exact (drawnEnds_coincide h format i j).trans (drawnEnds_coincide h other i j).symm

def collidingSteps : Graph :=
  build [⟨"a1", .play, "Ask", ⟨none, none, [], []⟩⟩, ⟨"a2", .menu, "Ask", ⟨none, none, [], []⟩⟩]
    [.plain "a1" "a2", .plain "a2" "a2", .plain "a1" "Ask"]

example : collidingSteps.endpoints.map (collidingSteps.written .plantUml) =
    ["Ask", "Ask_a2", "Ask_a2", "Ask_a2", "Ask", "Ask_Ask"] := by
  decide +kernel

end Graph

end CallFlow
