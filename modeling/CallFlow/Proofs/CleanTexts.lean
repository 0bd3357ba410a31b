import CallFlow.Proofs.DanglingIds
import CallFlow.Proofs.DescribedSteps
import CallFlow.Proofs.ModulesReadBack
import CallFlow.Proofs.References

namespace CallFlow

open Xml (Document Element)
open Extraction (IsClean collected collectionField)

/-- A name as elements have it: there is something of it, and no blank in it. -/
structure IsUnbroken (name : String) : Prop where
  ne_empty : name ≠ ""
  no_blank : ∀ c ∈ name.toList, Text.isBlank c = false

theorem isUnbroken_iff {name : String} :
    IsUnbroken name ↔ name ≠ "" ∧ name.toList.all (!Text.isBlank ·) = true := by
  constructor
  · rintro ⟨hn, hb⟩
    exact ⟨hn, List.all_eq_true.mpr fun c hc => by rw [hb c hc]; rfl⟩
  · rintro ⟨hn, hb⟩
    exact ⟨hn, fun c hc => by simpa using List.all_eq_true.mp hb c hc⟩

instance (name : String) : Decidable (IsUnbroken name) :=
  decidable_of_iff _ isUnbroken_iff.symm

theorem IsUnbroken.isClean {name : String} (h : IsUnbroken name) : IsClean name := by
  refine ⟨h.ne_empty, ?_⟩
  rw [Text.trim, Text.trimChars_of_forall h.no_blank, String.ofList_toList]

/-- A raw edge between clean identifiers, with a clean label or none, and with its own label if it
is exceptional. -/
structure Edge.IsClean (edge : Edge) : Prop where
  source : Extraction.IsClean edge.source
  target : Extraction.IsClean edge.target
  label : ∀ label ∈ edge.label, Extraction.IsClean label
  exception : edge.style = .exception → edge.label = some exceptionLabel

/-- A graph of clean identifiers and labels, where no exceptional edge lacks its label. -/
structure Graph.IsClean (graph : Graph) : Prop where
  nodeIds : ∀ id ∈ graph.nodeIds, Extraction.IsClean id
  endpoints : ∀ id ∈ graph.endpoints, Extraction.IsClean id
  danglingIds : ∀ id ∈ graph.danglingIds, Extraction.IsClean id
  labels : ∀ edge ∈ graph.edges, ∀ label ∈ edge.labels, Extraction.IsClean label
  exceptions : ∀ edge ∈ graph.edges, edge.style = .exception →
    Edge.exceptionLabel ∈ edge.labels

structure Compilation.IsClean (compilation : Compilation) : Prop where
  modules : ∀ module ∈ compilation.modules, module.IsWritable
  edges : ∀ edge ∈ compilation.edges, edge.IsClean
  graph : compilation.graph.IsClean

namespace Extraction

section Elements

variable {element : Document} {name text : String}

theorem isClean_of_text? (h : element.text? = some text) : IsClean text := by
  unfold Document.text? at h
  split at h
  · cases h
  · rename_i hn
    obtain rfl := Option.some.inj h
    exact ⟨hn, Text.trim_trim _⟩

theorem isClean_of_firstText? (h : element.firstText? name = some text) : IsClean text := by
  obtain ⟨child, -, ht⟩ := Option.bind_eq_some_iff.mp h
  exact isClean_of_text? ht

theorem isClean_of_mem_texts (h : text ∈ element.texts name) : IsClean text := by
  obtain ⟨child, -, ht⟩ := List.mem_filterMap.mp h
  exact isClean_of_text? ht

theorem isClean_of_referenceId? (h : referenceId? (.ofDocument element) = some text) :
    IsClean text := by
  rw [referenceId?_ofDocument, Option.or_eq_some_iff] at h
  rcases h with ht | ⟨-, ht⟩
  · exact isClean_of_text? ht
  · exact isClean_of_firstText? ht

theorem isClean_of_mem_entryTexts (h : text ∈ entryTexts (.ofDocument element) name) :
    IsClean text := by
  unfold entryTexts at h
  rw [Element.textsOf_ofDocument, Element.first?_ofDocument] at h
  split at h
  · cases hv : (element.named "value").head? with
    | none =>
      rw [hv] at h
      cases h
    | some value =>
      rw [hv, Option.map_some, Option.map_some, Option.getD_some, Element.textsOf_ofDocument] at h
      exact isClean_of_mem_texts h
  · exact isClean_of_mem_texts h

theorem isWritable_branchEntry (entry : Document) :
    (branchEntry (.ofDocument entry)).IsWritable where
  key _ hk := isClean_of_mem_entryTexts (List.mem_of_mem_head? hk)
  names _ hn := isClean_of_mem_entryTexts hn
  targets _ ht := isClean_of_mem_entryTexts ht

theorem isWritable_of_mem_branches {entry : BranchEntry}
    (h : entry ∈ branches (.ofDocument element)) : entry.IsWritable := by
  rw [branches_ofDocument] at h
  cases ht : tableIn? element with
  | none =>
    rw [ht] at h
    cases h
  | some table =>
    rw [ht, Option.map_some, Option.getD_some] at h
    obtain ⟨row, -, rfl⟩ := List.mem_map.mp h
    exact isWritable_branchEntry row

/-- A predecessor is the listing's own reference or that of one of its children. -/
theorem isClean_of_mem_predecessors (h : text ∈ predecessors (.ofDocument element)) :
    IsClean text := by
  unfold predecessors at h
  split at h
  · rename_i id hr
    obtain rfl := List.mem_singleton.mp h
    exact isClean_of_referenceId? hr
  · rw [Element.groups_ofDocument, Element.groupByName, List.flatMap_map] at h
    obtain ⟨tag, -, h⟩ := List.mem_flatMap.mp h
    obtain ⟨member, hm, hr⟩ := List.mem_filterMap.mp h
    obtain ⟨child, -, rfl⟩ := List.mem_map.mp (List.mem_filter.mp hm).1
    exact isClean_of_referenceId? hr

theorem isWritable_of_described? {module : Module} (hn : IsClean element.name)
    (h : described? element = some module) : module.IsWritable := by
  rw [described?_eq] at h
  obtain ⟨id, hi, rfl⟩ := Option.map_eq_some_iff.mp h
  constructor
  case id => exact isClean_of_firstText? hi
  case kind => exact (congrArg ModuleKind.ofTag (ModuleKind.tag_ofTag _)).symm
  case displayName =>
    cases hd : element.firstText? nameField with
    | none => exact hn
    | some name => exact isClean_of_firstText? hd
  case singleNext => exact fun next hs => isClean_of_firstText? hs
  case exceptionNext => exact fun next he => isClean_of_firstText? he
  case branches => exact fun entry he => isWritable_of_mem_branches he
  case ascendants =>
    intro source hs
    rw [ascendants_ofDocument] at hs
    obtain ⟨listing, -, hs⟩ := List.mem_flatMap.mp hs
    exact isClean_of_mem_predecessors hs

end Elements

end Extraction

section Derivation

variable {module : Module} {edge : Edge}

theorem BranchEntry.IsWritable.isClean_of_takes {entry : BranchEntry} {position : Nat}
    {label : String} (he : entry.IsWritable) (h : entry.Takes position label) (hn : label ≠ "") :
    IsClean label := by
  cases h with
  | lone_key one key => exact he.key label key
  | lone_name one key first => exact he.names label (List.mem_of_mem_head? first)
  | own_name several own => exact he.names label (List.mem_of_getElem? own)
  | first_name several own first => exact he.names label (List.mem_of_mem_head? first)
  | shared_key several own first key => exact he.key label key
  | lone_bare | bare => exact absurd rfl hn

theorem Module.IsWritable.isClean_of_refers (hm : module.IsWritable) (h : module.Refers edge) :
    edge.IsClean := by
  cases h with
  | successor next => exact ⟨hm.id, hm.singleNext _ next, nofun, nofun⟩
  | handler next =>
    refine ⟨hm.id, hm.exceptionNext _ next, ?_, fun _ => rfl⟩
    rintro label ⟨⟩
    decide
  | branch branching row occurs takes =>
    have he := hm.branches _ row
    refine ⟨hm.id, he.targets _ (List.mem_of_getElem? occurs), ?_, nofun⟩
    intro label hl
    obtain ⟨hn, hl⟩ := Option.ite_none_left_eq_some.mp hl
    obtain rfl := Option.some.inj hl
    exact he.isClean_of_takes takes hn
  | predecessor listed => exact ⟨hm.ascendants _ listed, hm.id, nofun, nofun⟩

end Derivation

/-- Merging takes identifiers and labels from the raw edges, and the style with the label. -/
theorem Graph.Represents.isClean {graph : Graph} {modules : List Module} {edges : List Edge}
    (h : graph.Represents modules edges) (hm : ∀ module ∈ modules, Extraction.IsClean module.id)
    (he : ∀ edge ∈ edges, edge.IsClean) : graph.IsClean := by
  have ends : ∀ id ∈ graph.endpoints, Extraction.IsClean id := by
    intro id hi
    obtain ⟨edge, hg, hi⟩ := List.mem_flatMap.mp (h.mem_endpoints.mp hi)
    rcases List.mem_pair.mp hi with rfl | rfl
    · exact (he edge hg).source
    · exact (he edge hg).target
  constructor
  case nodeIds =>
    intro id hi
    obtain ⟨module, hd, rfl⟩ := List.mem_map.mp (h.mem_nodeIds.mp hi)
    exact hm module hd
  case endpoints => exact ends
  case danglingIds => exact fun id hi => ends id (h.mem_danglingIds.mp hi).1
  case labels =>
    intro merged hg label hl
    rw [h.eq_ofPair hg rfl] at hl
    obtain ⟨edge, hr, -, hs, -⟩ := MergedEdge.mem_labels_ofPair.mp hl
    exact (he edge hr).label label hs
  case exceptions =>
    intro merged hg hx
    rw [h.eq_ofPair hg rfl] at hx ⊢
    obtain ⟨edge, hr, hp, hs⟩ := MergedEdge.style_ofPair_eq_exception.mp hx
    exact MergedEdge.mem_labels_ofPair.mpr ⟨edge, hr, hp, (he edge hr).exception hs, by decide⟩

namespace Compilation

/-- No text of a compilation is blank or has blanks at its ends, as long as the names of steps are
unbroken: not in its modules, not in its raw edges and not in its graph. -/
theorem isClean_of_ofDocument {document : Document} {compilation : Compilation}
    (named : ∀ collection ∈ document.named collectionField, ∀ element ∈ collection.elements,
      IsUnbroken element.name)
    (compiled : ofDocument document = .ok compilation) : compilation.IsClean := by
  obtain ⟨collection, hc, rfl⟩ := ofDocument_eq_ok.mp compiled
  have modules : ∀ module ∈ collected (.ofDocument collection), module.IsWritable := by
    intro module hm
    obtain ⟨element, he, hd⟩ := Extraction.mem_collected.mp hm
    have hn : Extraction.IsClean element.name :=
      (named collection (List.mem_of_mem_head? hc) element he).isClean
    exact Extraction.isWritable_of_described? hn hd
  have edges : ∀ edge ∈ deriveEdges (collected (.ofDocument collection)), edge.IsClean := by
    intro edge he
    obtain ⟨module, hm, hr⟩ := mem_deriveEdges.mp he
    exact (modules module hm).isClean_of_refers hr
  exact ⟨modules, edges,
    (Graph.build_represents _ _).isClean (fun module hm => (modules module hm).id) edges⟩

/-- A menu without a name whose texts have blanks around them or are blank, in every place from
which texts are taken, and a step without an identifier. -/
def untidy : Document :=
  ⟨collectionField,
    [.element "menu"
      [.element Extraction.idField [.text " M "], .element Extraction.nameField [.text "\n"],
        .element Extraction.singleNextField [.text " "],
        .element Extraction.exceptionNextField [.text "\tE"],
        .element "branches" [.element "entry" [.element "key" [.text " "],
          .element "value" [.element "key" [.text " 1 "], .element "targetId" [.text "T "],
            .element "targetId" [.text " "]]]],
        .element Extraction.ascendantsField
          [.text " ", .element "step" [.text " A "], .element "step" [.text " "]]],
      .element "queue" [.element Extraction.idField [.text ""]]]⟩

theorem untidy_cleaned :
    let document : Document := ⟨"s", [.element collectionField untidy.children]⟩
    (∀ collection ∈ document.named collectionField, ∀ element ∈ collection.elements,
      IsUnbroken element.name) ∧
    ∃ compilation, ofDocument document = .ok compilation ∧
      compilation.modules =
        [⟨"M", .menu, "menu", none, some "E", [⟨some "1", [], ["T"]⟩], ["A"]⟩] ∧
      compilation.IsClean := by
  intro document
  have named : ∀ collection ∈ document.named collectionField, ∀ element ∈ collection.elements,
      IsUnbroken element.name := by decide
  have hc : (document.named collectionField).head? = some untidy := rfl
  have listed : collected (.ofDocument untidy) =
      [⟨"M", .menu, "menu", none, some "E", [⟨some "1", [], ["T"]⟩], ["A"]⟩] := by decide +kernel
  have compiled : ofDocument document = .ok (ofModules (collected (.ofDocument untidy))) :=
    ofDocument_eq_ok.mpr ⟨untidy, hc, rfl⟩
  exact ⟨named, _, compiled, listed, isClean_of_ofDocument named compiled⟩

end Compilation

end CallFlow
