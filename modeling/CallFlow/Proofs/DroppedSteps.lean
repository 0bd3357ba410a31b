import CallFlow.Proofs.ArrivalOrder
import CallFlow.Proofs.DescribedSteps

namespace CallFlow

open Xml (Document)
open Extraction (collected collectionField described? idField)

/-- A document whose first collection holds these steps, with other nodes around it. -/
def Xml.Document.around (root : String) (before after steps : List Xml.Node) : Document :=
  ⟨root, before ++ .element collectionField steps :: after⟩

namespace Extraction

variable {root : String} {before after front back : List Xml.Node} {tag : String}
  {content other : List Xml.Node}

theorem head?_named_around (first : collectionField ∉ Xml.Node.elementNames before)
    (after steps : List Xml.Node) :
    ((Document.around root before after steps).named collectionField).head? =
      some ⟨collectionField, steps⟩ := by
  have none_before : (Xml.Node.elements before).filter (·.name = collectionField) = [] := by
    refine List.filter_eq_nil_iff.mpr fun element he hn => first ?_
    obtain ⟨node, hm, hf⟩ := List.mem_filterMap.mp he
    refine List.mem_filterMap.mpr ⟨node, hm, ?_⟩
    cases node with
    | text content => cases hf
    | element name children =>
      cases hf
      exact congrArg some (of_decide_eq_true hn)
  rw [Document.named, Document.elements, Document.around, Xml.Node.elements_append,
    Xml.Node.elements_element, List.filter_append, none_before, List.nil_append]
  simp

/-- A child without an identifier describes no module. -/
theorem described?_eq_none {element : Document} (blank : element.firstText? idField = none) :
    described? element = none := by
  rw [described?_eq, blank, Option.map_none]

theorem filterMap_described?_dropped {dropped : Document} (hd : described? dropped = none)
    (front back : List Document) (name : String) :
    ((front ++ dropped :: back).filter (·.name = name)).filterMap described? =
      ((front ++ back).filter (·.name = name)).filterMap described? := by
  rw [List.filter_append, List.filter_append, List.filterMap_append, List.filterMap_append,
    List.filter_cons]
  split
  · rw [List.filterMap_cons_none hd]
  · rfl

theorem collected_dropped_perm (blank : Document.firstText? ⟨tag, content⟩ idField = none)
    (front back : List Xml.Node) :
    (collected (.ofDocument ⟨collectionField, front ++ .element tag content :: back⟩)).Perm
      (collected (.ofDocument ⟨collectionField, front ++ back⟩)) := by
  have same : (Document.elements ⟨collectionField, front ++ .element tag content :: back⟩).filterMap
        described? =
      (Document.elements ⟨collectionField, front ++ back⟩).filterMap described? := by
    simp only [Document.elements, Xml.Node.elements_append, Xml.Node.elements_element,
      List.filterMap_append, List.filterMap_cons_none (described?_eq_none blank)]
  refine (collected_perm _).trans ?_
  rw [same]
  exact (collected_perm _).symm

/-- Of a child without an identifier only the name counts. -/
theorem collected_dropped_congr (blank : Document.firstText? ⟨tag, content⟩ idField = none)
    (blank' : Document.firstText? ⟨tag, other⟩ idField = none) (front back : List Xml.Node) :
    collected (.ofDocument ⟨collectionField, front ++ .element tag content :: back⟩) =
      collected (.ofDocument ⟨collectionField, front ++ .element tag other :: back⟩) := by
  rw [collected_eq, collected_eq]
  simp only [Document.elements, Xml.Node.elements_append, Xml.Node.elements_element,
    filterMap_described?_dropped (described?_eq_none blank),
    filterMap_described?_dropped (described?_eq_none blank'), List.map_append, List.map_cons]

end Extraction

theorem deriveEdges_perm {modules others : List Module} (h : modules.Perm others) :
    (deriveEdges modules).Perm (deriveEdges others) :=
  h.flatMap_right Module.edges

namespace Compilation

theorem ofDocument_around (root : String) {before : List Xml.Node}
    (first : collectionField ∉ Xml.Node.elementNames before) (after steps : List Xml.Node) :
    ofDocument (.around root before after steps) =
      .ok (ofModules (collected (.ofDocument ⟨collectionField, steps⟩))) :=
  ofDocument_eq_ok.mpr ⟨_, Extraction.head?_named_around first after steps, rfl⟩

/-- Modules with identifiers of their own compile to the same graph in any order. -/
theorem alike_of_perm {modules others : List Module} (hm : modules.Perm others)
    (hn : (others.map Module.id).Nodup) :
    (ofModules modules).graph.Alike (ofModules others).graph := by
  have h := Graph.build_represents modules (deriveEdges modules)
  have ho := Graph.build_represents others (deriveEdges others)
  have he : (deriveEdges modules).Perm (deriveEdges others) := deriveEdges_perm hm
  have apart : (modules.map Module.id).Nodup := (hm.map Module.id).nodup_iff.mpr hn
  constructor
  case source =>
    exact (Graph.build_determined _ _).source.trans (Graph.build_determined _ _).source.symm
  case nodes => simpa [ofModules, h.nodes_of_nodup apart, ho.nodes_of_nodup hn] using hm.map _
  case edgeEnds =>
    simpa [ofModules, h.edgeEnds_eq, ho.edgeEnds_eq] using perm_distinct (he.map Edge.ends)
  case edges => exact fun edge hg twin ht hp => h.alike_edges ho he hg ht hp
  case danglingIds =>
    simpa [ofModules, h.danglingIds_eq, ho.danglingIds_eq] using undeclaredIds_perm hm he

/-- A child of the collection that has no identifier leaves no trace. Without it the same modules
and raw edges come, if in another order, and with identifiers of their own the same graph; and
nothing depends on what stands in it. -/
theorem dropped_without_trace (root : String) {before : List Xml.Node}
    (first : collectionField ∉ Xml.Node.elementNames before) (after front back : List Xml.Node)
    {tag : String} {content : List Xml.Node}
    (blank : Document.firstText? ⟨tag, content⟩ idField = none) :
    ∃ whole less,
      ofDocument (.around root before after (front ++ .element tag content :: back)) =
        .ok whole ∧
      ofDocument (.around root before after (front ++ back)) = .ok less ∧
      whole.modules.Perm less.modules ∧ whole.edges.Perm less.edges ∧
      ((less.modules.map Module.id).Nodup → whole.graph.Alike less.graph) ∧
      ∀ other, Document.firstText? ⟨tag, other⟩ idField = none →
        ofDocument (.around root before after (front ++ .element tag other :: back)) =
          .ok whole := by
  have hm := Extraction.collected_dropped_perm blank front back
  refine ⟨_, _, ofDocument_around root first after _, ofDocument_around root first after _, hm,
    deriveEdges_perm hm, alike_of_perm hm, ?_⟩
  intro other blank'
  rw [ofDocument_around root first, Extraction.collected_dropped_congr blank blank']

/-- A menu whose first identifier is blank, with references to other steps. -/
def ghost : List Xml.Node :=
  [.element idField [.text " "], .element idField [.text "G"],
    .element Extraction.singleNextField [.text "P"],
    .element Extraction.ascendantsField [.text "M"]]

def stepAndMenu : List Xml.Node :=
  [.element "play" [.element idField [.text "P"],
      .element Extraction.singleNextField [.text "M"]],
    .element "menu" [.element idField [.text "M"]]]

/-- The menu without an identifier brings the other one forward. -/
theorem ghost_without_trace :
    let whole := Document.around "s" [] [] ([] ++ .element "menu" ghost :: stepAndMenu)
    let less := Document.around "s" [] [] ([] ++ stepAndMenu)
    let plain := Document.around "s" [] [] ([] ++ .element "menu" [] :: stepAndMenu)
    collectionField ∉ Xml.Node.elementNames [] ∧
    Document.firstText? ⟨"menu", ghost⟩ idField = none ∧
    Document.firstText? ⟨"menu", []⟩ idField = none ∧
    ∃ compiled remaining, ofDocument whole = .ok compiled ∧ ofDocument plain = .ok compiled ∧
      ofDocument less = .ok remaining ∧
      compiled.modules.map Module.id = ["M", "P"] ∧
      remaining.modules.map Module.id = ["P", "M"] ∧
      (remaining.modules.map Module.id).Nodup ∧ compiled.graph.Alike remaining.graph := by
  intro whole less plain
  have first : collectionField ∉ Xml.Node.elementNames [] := List.not_mem_nil
  have blank : Document.firstText? ⟨"menu", ghost⟩ idField = none := by decide
  have blank' : Document.firstText? ⟨"menu", []⟩ idField = none := by decide
  obtain ⟨compiled, remaining, hw, hl, -, -, alike, content⟩ :=
    dropped_without_trace "s" first [] [] stepAndMenu blank
  have hw' := ofDocument_around "s" first [] ([] ++ .element "menu" ghost :: stepAndMenu)
  have hl' := ofDocument_around "s" first [] ([] ++ stepAndMenu)
  obtain rfl := Except.ok.inj (hw.symm.trans hw')
  obtain rfl := Except.ok.inj (hl.symm.trans hl')
  have brought : (collected (.ofDocument ⟨collectionField,
      [] ++ .element "menu" ghost :: stepAndMenu⟩)).map Module.id = ["M", "P"] := by
    rw [Extraction.collected_eq]
    simp only [Extraction.described?_eq]
    decide +kernel
  have own : (collected (.ofDocument ⟨collectionField, [] ++ stepAndMenu⟩)).map Module.id =
      ["P", "M"] := by
    rw [Extraction.collected_eq]
    simp only [Extraction.described?_eq]
    decide +kernel
  have apart : (["P", "M"] : List String).Nodup := by decide
  rw [← own] at apart
  exact ⟨first, blank, blank', _, _, hw, content [] blank', hl, brought, own, apart, alike apart⟩

end Compilation

end CallFlow
