import CallFlow.Compilation
import CallFlow.Proofs.ModulesReadBack
import CallFlow.Proofs.References

namespace CallFlow.Extraction

open Xml (Document Element)

/-- The identifier that an element carries: its own text, or that of its first identifier child. -/
def carried? (element : Document) : Option String :=
  element.text?.or (element.firstText? idField)

/-- The first identifier child of a listing hides no identifier but its own. -/
def IsUnambiguous (listing : Document) : Prop :=
  ∀ head, listing.firstText? idField = some head →
    ∀ child ∈ listing.elements, ∀ source, carried? child = some source → source = head

section Listing

variable {listing : Document}

/-- A listing without a text is a reference itself only by its first identifier child. -/
theorem referenceId?_of_blank (hb : listing.text = "") :
    referenceId? (.ofDocument listing) = listing.firstText? idField := by
  rw [referenceId?_ofDocument, Document.text?, if_pos hb, Option.none_or]

/-- Whatever stands for the whole listing is the only predecessor it gives. -/
theorem predecessors_of_head (hb : listing.text = "") {head : String}
    (hh : listing.firstText? idField = some head) :
    predecessors (.ofDocument listing) = [head] := by
  rw [predecessors, referenceId?_of_blank hb, hh]

theorem mem_predecessors_of_no_head (hb : listing.text = "")
    (hh : listing.firstText? idField = none) {source : String} :
    source ∈ predecessors (.ofDocument listing) ↔
      ∃ child ∈ listing.elements, carried? child = some source := by
  rw [predecessors, referenceId?_of_blank hb, hh]
  dsimp only
  rw [Element.groups_ofDocument, Element.groupByName, List.flatMap_map, List.mem_flatMap]
  constructor
  · rintro ⟨tag, -, hs⟩
    obtain ⟨element, he, hr⟩ := List.mem_filterMap.mp hs
    obtain ⟨child, hc, rfl⟩ := List.mem_map.mp (List.mem_filter.mp he).1
    rw [referenceId?_ofDocument] at hr
    exact ⟨child, hc, hr⟩
  · rintro ⟨child, hc, hs⟩
    have hm := List.mem_map_of_mem (f := Element.ofDocument) hc
    refine ⟨child.name, mem_distinct.mpr (List.mem_map_of_mem (f := Element.name) hm), ?_⟩
    refine List.mem_filterMap.mpr ⟨.ofDocument child, ?_, ?_⟩
    · exact List.mem_filter.mpr ⟨hm, decide_eq_true rfl⟩
    · rw [referenceId?_ofDocument]
      exact hs

/-- A listing gives all that its children carry exactly when its first identifier child hides
nothing. -/
theorem forall_carried_mem_iff (hb : listing.text = "") :
    (∀ child ∈ listing.elements, ∀ source, carried? child = some source →
        source ∈ predecessors (.ofDocument listing)) ↔ IsUnambiguous listing := by
  constructor
  · intro h head hh child hc source hs
    have hm := h child hc source hs
    rw [predecessors_of_head hb hh] at hm
    exact List.mem_singleton.mp hm
  · intro h child hc source hs
    cases hh : listing.firstText? idField with
    | some head =>
      rw [predecessors_of_head hb hh]
      exact List.mem_singleton.mpr (h head hh child hc source hs)
    | none => exact (mem_predecessors_of_no_head hb hh).mpr ⟨child, hc, hs⟩

end Listing

section Modules

variable {document collection step : Document} {id : String}

theorem exists_mem_collected (hs : step ∈ collection.elements)
    (hi : step.firstText? idField = some id) :
    ∃ module ∈ collected (.ofDocument collection), module.id = id ∧
      module.payload = payload (.ofDocument step) := by
  have hm := module?_ofDocument (.ofTag step.name) step
  rw [hi, Option.map_some] at hm
  have hf : step ∈ collection.elements.filter (·.name = step.name) :=
    List.mem_filter.mpr ⟨hs, decide_eq_true rfl⟩
  have ht : step.name ∈ distinct (collection.elements.map Document.name) :=
    mem_distinct.mpr (List.mem_map_of_mem hs)
  rw [collected_ofDocument]
  exact ⟨_, List.mem_flatMap.mpr ⟨_, ht, List.mem_filterMap.mpr ⟨step, hf, hm⟩⟩, rfl, rfl⟩

theorem mem_ascendants {source : String} :
    source ∈ ascendants (.ofDocument step) ↔
      ∃ listing ∈ step.named ascendantsField, source ∈ predecessors (.ofDocument listing) := by
  rw [ascendants, Element.field_ofDocument, List.flatMap_map, List.mem_flatMap]

theorem ends_of_ascendant {modules : List Module} {module : Module} (hm : module ∈ modules)
    {source : String} (hs : source ∈ module.payload.ascendants) :
    (source, module.id) ∈ (Compilation.ofModules modules).graph.edges.map MergedEdge.ends := by
  refine (Graph.build_represents modules (deriveEdges modules)).mem_edgeEnds.mpr ?_
  have he : Edge.plain source module.id ∈ deriveEdges modules :=
    mem_deriveEdges.mpr ⟨module, hm, .predecessor hs⟩
  exact List.mem_map_of_mem he

/-- Of a blank listing, all that its children carry reaches the module exactly when the listing is
unambiguous, and what reaches the module has an edge into it. -/
theorem predecessors_joined (hc : (document.named collectionField).head? = some collection)
    (hs : step ∈ collection.elements) (hi : step.firstText? idField = some id) :
    ∃ compilation, Compilation.ofDocument document = .ok compilation ∧
      ∃ module ∈ compilation.modules, module.id = id ∧
        ∀ listing ∈ step.named ascendantsField, listing.text = "" →
          ((∀ child ∈ listing.elements, ∀ source, carried? child = some source →
              source ∈ predecessors (.ofDocument listing)) ↔ IsUnambiguous listing) ∧
          ∀ source ∈ predecessors (.ofDocument listing),
            source ∈ module.payload.ascendants ∧
              (source, id) ∈ compilation.graph.edges.map MergedEdge.ends := by
  have hk : modules (.ofDocument document) = .ok (collected (.ofDocument collection)) := by
    rw [modules, Element.first?_ofDocument, hc]
    rfl
  obtain ⟨module, hm, rfl, hp⟩ := exists_mem_collected hs hi
  refine ⟨Compilation.ofModules (collected (.ofDocument collection)), ?_, module, hm, rfl, ?_⟩
  · rw [Compilation.ofDocument, hk]
    rfl
  · intro listing hl hb
    refine ⟨forall_carried_mem_iff hb, fun source hr => ?_⟩
    have ha : source ∈ module.payload.ascendants := by
      rw [hp]
      exact mem_ascendants.mpr ⟨listing, hl, hr⟩
    exact ⟨ha, ends_of_ascendant hm ha⟩

end Modules

def listingUnder (entries : List (String × String)) : Document :=
  ⟨ascendantsField, entries.map fun (name, id) => .element name [.text id]⟩

def listedUnder (entries : List (String × String)) : Document :=
  ⟨"play", [.element idField [.text "M"],
    .element ascendantsField (listingUnder entries).children]⟩

def aloneIn (step : Document) : Document :=
  ⟨"s", [.element collectionField [.element step.name step.children]]⟩

theorem two_carried_joined :
    let step := listedUnder [("a", "A"), ("b", "B")]
    step.firstText? idField = some "M" ∧
      ∃ compilation, Compilation.ofDocument (aloneIn step) = .ok compilation ∧
        ∀ source ∈ ["A", "B"], (source, "M") ∈ compilation.graph.edges.map MergedEdge.ends := by
  intro step
  have hi : step.firstText? idField = some "M" := rfl
  have hd : ((aloneIn step).named collectionField).head? =
      some ⟨collectionField, [.element step.name step.children]⟩ := rfl
  obtain ⟨compilation, hc, module, -, -, hl⟩ := predecessors_joined hd List.mem_cons_self hi
  have hj := (hl (listingUnder [("a", "A"), ("b", "B")]) List.mem_cons_self rfl).2
  have hp : predecessors (.ofDocument (listingUnder [("a", "A"), ("b", "B")])) = ["A", "B"] := by
    decide +kernel
  rw [hp] at hj
  exact ⟨hi, compilation, hc, fun source hs => (hj source hs).2⟩

/-- Of two identifier children the first hides the second. -/
theorem second_identifier_lost :
    let step := listedUnder [(idField, "A"), (idField, "B")]
    step.firstText? idField = some "M" ∧
      (∃ listing ∈ step.named ascendantsField, listing.text = "" ∧
        ∃ child ∈ listing.elements, carried? child = some "B") ∧
      ∃ compilation, Compilation.ofDocument (aloneIn step) = .ok compilation ∧
        compilation.modules.map (·.payload.ascendants) = [["A"]] ∧
        ("B", "M") ∉ compilation.graph.edges.map MergedEdge.ends := by
  intro step
  have hl : listingUnder [(idField, "A"), (idField, "B")] ∈ step.named ascendantsField :=
    List.mem_cons_self
  refine ⟨rfl, ⟨_, hl, rfl, _, List.mem_cons_of_mem _ List.mem_cons_self, rfl⟩, ?_⟩
  have hk : modules (.ofDocument (aloneIn step)) =
      .ok [⟨"M", .play, "play", ⟨none, none, [], ["A"]⟩⟩] := rfl
  refine ⟨.ofModules [⟨"M", .play, "play", ⟨none, none, [], ["A"]⟩⟩], ?_, rfl, by decide⟩
  rw [Compilation.ofDocument, hk]
  rfl

end CallFlow.Extraction
