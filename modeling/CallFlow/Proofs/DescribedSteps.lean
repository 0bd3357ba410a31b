import CallFlow.Compilation
import CallFlow.Proofs.ModuleList

namespace CallFlow

open Xml (Document Element)

namespace Extraction

/-- The module that a child of the collection describes, if it describes one. -/
def described? (element : Document) : Option Module :=
  module? (.ofTag element.name) (.ofDocument element)

def tableIn? (element : Document) : Option Document :=
  ((element.named "data").head?.bind fun data => (data.named "branches").head?).or
    (element.named "branches").head?

section Fields

variable {element other : Document}

theorem branchTable?_ofDocument (element : Document) :
    branchTable? (.ofDocument element) = (tableIn? element).map Element.ofDocument := by
  rw [branchTable?, tableIn?, Element.first?_ofDocument, Option.map_or]
  congr 1
  simp only [Element.path?, List.foldlM_cons, List.foldlM_nil, Element.first?_ofDocument]
  cases (element.named "data").head? with
  | none => rfl
  | some data => simp [Element.first?_ofDocument]

theorem branches_ofDocument (element : Document) :
    branches (.ofDocument element) = ((tableIn? element).map fun table =>
      (table.named "entry").map fun entry => branchEntry (.ofDocument entry)).getD [] := by
  rw [branches, branchTable?_ofDocument]
  cases tableIn? element with
  | none => rfl
  | some table =>
    rw [Option.map_some, Option.map_some, Option.getD_some]
    dsimp only
    rw [Element.field_ofDocument, List.map_map]
    rfl

theorem ascendants_ofDocument (element : Document) :
    ascendants (.ofDocument element) =
      (element.named ascendantsField).flatMap fun listing =>
        predecessors (.ofDocument listing) := by
  rw [ascendants, Element.field_ofDocument, List.flatMap_map]

theorem described?_eq (element : Document) :
    described? element = (element.firstText? idField).map fun id =>
      { id
        kind := .ofTag element.name
        displayName := (element.firstText? nameField).getD element.name
        payload :=
          { singleNext := element.firstText? singleNextField
            exceptionNext := element.firstText? exceptionNextField
            branches := branches (.ofDocument element)
            ascendants := ascendants (.ofDocument element) } } := by
  rw [described?, module?_ofDocument, ModuleKind.tag_ofTag, payload, Element.textOf?_ofDocument,
    Element.textOf?_ofDocument]

end Fields

section Collections

variable {collection : Document} {module : Module}

theorem collected_eq (collection : Document) :
    collected (.ofDocument collection) =
      (distinct (collection.elements.map Document.name)).flatMap fun tag =>
        (collection.elements.filter (·.name = tag)).filterMap described? := by
  rw [collected_ofDocument]
  refine List.flatMap_congr fun tag _ => List.filterMap_congr fun element he => ?_
  obtain rfl : element.name = tag := of_decide_eq_true (List.mem_filter.mp he).2
  rfl

/-- Up to the order of names, each child of the collection gives the module that it describes. -/
theorem collected_perm (collection : Document) :
    (collected (.ofDocument collection)).Perm (collection.elements.filterMap described?) := by
  have known : ∀ element ∈ collection.elements,
      element.name ∈ distinct (collection.elements.map Document.name) := fun element he =>
    mem_distinct.mpr (List.mem_map_of_mem he)
  have grouped := flatMap_filter_perm_filter Document.name collection.elements
    (nodup_distinct (collection.elements.map Document.name))
  rw [List.filter_eq_self.mpr fun element he => decide_eq_true (known element he)] at grouped
  rw [collected_eq, ← List.filterMap_flatMap]
  exact grouped.filterMap described?

theorem mem_collected : module ∈ collected (.ofDocument collection) ↔
    ∃ element ∈ collection.elements, described? element = some module := by
  rw [(collected_perm collection).mem_iff, List.mem_filterMap]

end Collections

end Extraction

open Extraction (collected collectionField)

/-- A document compiles exactly when it has a collection, and then to the modules of the first. -/
theorem Compilation.ofDocument_eq_ok {document : Document} {compilation : Compilation} :
    ofDocument document = .ok compilation ↔
      ∃ collection, (document.named collectionField).head? = some collection ∧
        ofModules (collected (.ofDocument collection)) = compilation := by
  rw [ofDocument, Extraction.modules, Element.first?_ofDocument]
  cases (document.named collectionField).head? with
  | none =>
    constructor
    · intro h
      cases h
    · rintro ⟨collection, hc, -⟩
      cases hc
  | some collection =>
    constructor
    · intro h
      exact ⟨collection, rfl, Except.ok.inj h⟩
    · rintro ⟨other, ho, rfl⟩
      obtain rfl := Option.some.inj ho
      rfl

end CallFlow
