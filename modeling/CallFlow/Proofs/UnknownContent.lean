import CallFlow.Diagram
import CallFlow.Proofs.DescribedSteps
import CallFlow.Success

namespace CallFlow

open Xml (Document Element)
open Extraction (collected collectionField described?)

namespace Extraction

def fieldNames : List String :=
  [idField, nameField, singleNextField, exceptionNextField, ascendantsField, "data", "branches"]

/-- Nodes, and the same nodes with elements of other names anywhere between them. -/
inductive Padded : List Xml.Node → List Xml.Node → Prop where
  | nil : Padded [] []
  | kept {nodes padded : List Xml.Node} (node : Xml.Node) (rest : Padded nodes padded) :
      Padded (node :: nodes) (node :: padded)
  | added {nodes padded : List Xml.Node} {name : String} (unknown : name ∉ fieldNames)
      (content : List Xml.Node) (rest : Padded nodes padded) :
      Padded nodes (.element name content :: padded)

/-- A child of a collection, and the same with padding if it is a step. -/
inductive PaddedStep : Xml.Node → Xml.Node → Prop where
  | text (content : String) : PaddedStep (.text content) (.text content)
  | step {nodes padded : List Xml.Node} (name : String) (children : Padded nodes padded) :
      PaddedStep (.element name nodes) (.element name padded)

/-- A child of the root, and the same with any steps padded if it is a collection. -/
inductive PaddedPart : Xml.Node → Xml.Node → Prop where
  | other (node : Xml.Node) : PaddedPart node node
  | collection {nodes padded : List Xml.Node} (steps : List.Forall₂ PaddedStep nodes padded) :
      PaddedPart (.element collectionField nodes) (.element collectionField padded)

/-- A document, and the same with any of its steps padded. -/
structure PaddedDocument (document padded : Document) : Prop where
  name : padded.name = document.name
  parts : List.Forall₂ PaddedPart document.children padded.children

section Steps

variable {nodes padded : List Xml.Node} {element other : Document}

theorem Padded.refl (nodes : List Xml.Node) : Padded nodes nodes := by
  induction nodes with
  | nil => exact .nil
  | cons node rest ih => exact .kept node ih

/-- One more element may stand at any position. -/
theorem Padded.insert {name : String} (unknown : name ∉ fieldNames) (content : List Xml.Node)
    (front back : List Xml.Node) :
    Padded (front ++ back) (front ++ .element name content :: back) := by
  induction front with
  | nil => exact .added unknown content (.refl back)
  | cons node rest ih => exact .kept node ih

/-- Padding is not found under the name of a field. -/
theorem Padded.filter_elements (h : Padded nodes padded) {field : String}
    (known : field ∈ fieldNames) :
    (Xml.Node.elements padded).filter (·.name = field) =
      (Xml.Node.elements nodes).filter (·.name = field) := by
  induction h with
  | nil => rfl
  | kept node _ ih =>
    cases node with
    | text content => exact ih
    | element name children =>
      rw [Xml.Node.elements_element, Xml.Node.elements_element, List.filter_cons,
        List.filter_cons, ih]
  | @added _ _ name unknown content _ ih =>
    have hn : name ≠ field := fun he => unknown (he ▸ known)
    rw [Xml.Node.elements_element, List.filter_cons_of_neg (by simpa using hn), ih]

/-- What an element describes is told by its name and by its children of known names. -/
theorem described?_congr (hn : other.name = element.name)
    (hf : ∀ field ∈ fieldNames, other.named field = element.named field) :
    described? other = described? element := by
  have text : ∀ field ∈ fieldNames, other.firstText? field = element.firstText? field := by
    intro field known
    rw [Document.firstText?, hf field known, Document.firstText?]
  have table : tableIn? other = tableIn? element := by
    rw [tableIn?, hf "data" (by decide), hf "branches" (by decide), tableIn?]
  have rows : branches (.ofDocument other) = branches (.ofDocument element) := by
    rw [branches_ofDocument, table, branches_ofDocument]
  have listed : ascendants (.ofDocument other) = ascendants (.ofDocument element) := by
    rw [ascendants_ofDocument, hf ascendantsField (by decide), ascendants_ofDocument]
  rw [described?_eq, described?_eq, hn, rows, listed, text idField (by decide),
    text nameField (by decide), text singleNextField (by decide),
    text exceptionNextField (by decide)]

theorem Padded.described? (h : Padded nodes padded) (name : String) :
    Extraction.described? ⟨name, padded⟩ = Extraction.described? ⟨name, nodes⟩ :=
  described?_congr rfl fun _ known => h.filter_elements known

end Steps

section Collections

variable {nodes padded : List Xml.Node} {collection other : Document}

theorem collected_congr
    (h : other.elements.map (fun element => (element.name, described? element)) =
      collection.elements.map fun element => (element.name, described? element)) :
    collected (.ofDocument other) = collected (.ofDocument collection) := by
  have names : other.elements.map Document.name = collection.elements.map Document.name := by
    simpa [Function.comp_def] using congrArg (List.map Prod.fst) h
  have group : ∀ tag (elements : List Document),
      (elements.filter (·.name = tag)).filterMap described? =
        ((elements.map fun element => (element.name, described? element)).filter
          (·.1 = tag)).filterMap Prod.snd := by
    intro tag elements
    rw [List.filter_map, List.filterMap_map]
    rfl
  rw [collected_eq, collected_eq, names]
  refine List.flatMap_congr fun tag _ => ?_
  rw [group, h, group]

theorem collected_padded (h : List.Forall₂ PaddedStep nodes padded) (name : String) :
    collected (.ofDocument ⟨name, padded⟩) = collected (.ofDocument ⟨name, nodes⟩) := by
  apply collected_congr
  change (Xml.Node.elements padded).map _ = (Xml.Node.elements nodes).map _
  induction h with
  | nil => rfl
  | cons step _ ih =>
    cases step with
    | text content => exact ih
    | step name children =>
      rw [Xml.Node.elements_element, Xml.Node.elements_element, List.map_cons, List.map_cons, ih,
        children.described? name]

theorem collections_paddedParts (h : List.Forall₂ PaddedPart nodes padded) :
    ((Xml.Node.elements padded).filter (·.name = collectionField)).map
        (fun collection => collected (.ofDocument collection)) =
      ((Xml.Node.elements nodes).filter (·.name = collectionField)).map
        fun collection => collected (.ofDocument collection) := by
  induction h with
  | nil => rfl
  | @cons node _ _ _ part _ ih =>
    cases part with
    | other =>
      cases node with
      | text content => exact ih
      | element name children =>
        rw [Xml.Node.elements_element, Xml.Node.elements_element, List.filter_cons,
          List.filter_cons]
        split
        · rw [List.map_cons, List.map_cons, ih]
        · exact ih
    | collection steps =>
      simp only [Xml.Node.elements_element, List.filter_cons, decide_true, if_true, List.map_cons,
        ih, collected_padded steps]

theorem PaddedDocument.modules {document padded : Document} (h : PaddedDocument document padded) :
    modules (.ofDocument padded) = Extraction.modules (.ofDocument document) := by
  have heads := congrArg List.head? (collections_paddedParts h.parts)
  rw [List.head?_map, List.head?_map] at heads
  change (padded.named collectionField).head?.map _ =
    (document.named collectionField).head?.map _ at heads
  rw [Extraction.modules, Extraction.modules, Element.first?_ofDocument,
    Element.first?_ofDocument]
  cases hp : (padded.named collectionField).head? with
  | none =>
    rw [hp] at heads
    rw [Option.map_eq_none_iff.mp heads.symm, Element.name_ofDocument, Element.name_ofDocument,
      h.name]
  | some collection =>
    rw [hp] at heads
    obtain ⟨original, hd, same⟩ := Option.map_eq_some_iff.mp heads.symm
    rw [hd]
    exact congrArg Except.ok same.symm

end Collections

end Extraction

theorem Xml.Document.parse_unmarked {text : String} {document : Document}
    (unmarked : (Text.dropMarks text).toList = text.toList)
    (h : ofChars text.toList = .ok document) : parse text = .ok document := by
  unfold parse
  rw [unmarked]
  dsimp only
  rw [h]

namespace Compilation

/-- Elements without meaning that are added to steps, anywhere among their children and whatever
they hold, change nothing: not the modules, raw edges and graph, not the failure if there is no
collection, and so no drawing, with a source or without. -/
theorem unknown_content_ignored {document padded : Document}
    (h : Extraction.PaddedDocument document padded) :
    ofDocument padded = ofDocument document ∧
    (∀ text other, Document.parse text = .ok document → Document.parse other = .ok padded →
      ofText other = ofText text) ∧
    ∀ format annotate,
      (ofDocument padded).map (fun compilation => compilation.graph.draw format annotate) =
        (ofDocument document).map (fun compilation => compilation.graph.draw format annotate) ∧
      ∀ source,
        (ofDocument padded).map
            (fun compilation => (compilation.graph.withSource source).draw format annotate) =
          (ofDocument document).map fun compilation =>
            (compilation.graph.withSource source).draw format annotate := by
  have same : ofDocument padded = ofDocument document := by
    rw [ofDocument, h.modules, ofDocument]
  refine ⟨same, ?_, ?_⟩
  · intro text other ht ho
    rw [ofText, ofText, ht, ho]
    exact same
  · rw [same]
    exact fun _ _ => ⟨rfl, fun _ => rfl⟩

def menuDocument (children : List Xml.Node) : Document :=
  ⟨"s", [.element collectionField [.element "menu" children]]⟩

def menuId : Xml.Node := .element Extraction.idField [.text "M"]

/-- An element without meaning, with another identifier in it. -/
def decoy : Xml.Node := .element "old" [.element Extraction.idField [.text "X"]]

def plainText : String := "<s><modules><menu><moduleId>M</moduleId></menu></modules></s>"

def paddedText : String :=
  "<s><modules><menu><old><moduleId>X</moduleId></old><moduleId>M</moduleId></menu></modules></s>"

theorem decoy_ignored :
    Extraction.PaddedDocument (menuDocument [menuId]) (menuDocument [decoy, menuId]) ∧
    Document.parse plainText = .ok (menuDocument [menuId]) ∧
    Document.parse paddedText = .ok (menuDocument [decoy, menuId]) ∧
    ofText paddedText = ofText plainText ∧
    ∃ compilation, ofDocument (menuDocument [decoy, menuId]) = .ok compilation ∧
      ofDocument (menuDocument [menuId]) = .ok compilation ∧
      compilation.modules = [⟨"M", .menu, "menu", none, none, [], []⟩] := by
  have unknown : "old" ∉ Extraction.fieldNames := by decide
  have h : Extraction.PaddedDocument (menuDocument [menuId]) (menuDocument [decoy, menuId]) :=
    ⟨rfl, .cons (.collection (.cons (.step "menu" (.insert unknown _ [] [menuId])) .nil)) .nil⟩
  have plain : Document.parse plainText = .ok (menuDocument [menuId]) :=
    Document.parse_unmarked (by decide +kernel) (eq_ok_of_toOption (by decide +kernel))
  have padded : Document.parse paddedText = .ok (menuDocument [decoy, menuId]) :=
    Document.parse_unmarked (by decide +kernel) (eq_ok_of_toOption (by decide +kernel))
  have compiled : ofDocument (menuDocument [menuId]) = .ok (ofModules (collected (.ofDocument
      ⟨collectionField, [.element "menu" [menuId]]⟩))) :=
    ofDocument_eq_ok.mpr ⟨_, rfl, rfl⟩
  have listed : collected (.ofDocument ⟨collectionField, [.element "menu" [menuId]]⟩) =
      [⟨"M", .menu, "menu", none, none, [], []⟩] := by decide +kernel
  obtain ⟨same, sameTexts, -⟩ := unknown_content_ignored h
  exact ⟨h, plain, padded, sameTexts _ _ plain padded, _, same.trans compiled, compiled, listed⟩

end Compilation

end CallFlow
