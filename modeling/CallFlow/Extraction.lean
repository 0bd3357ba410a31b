import CallFlow.Failure
import CallFlow.Module
import CallFlow.Xml.Element

namespace CallFlow.Extraction

open Xml (Element)

def collectionField : String := "modules"

def idField : String := "moduleId"

def nameField : String := "moduleName"

def singleNextField : String := "singleDescendant"

def exceptionNextField : String := "exceptionalDescendant"

def ascendantsField : String := "ascendants"

/-- The values of a field of a branch entry, which may stand in its `value` child instead. -/
def entryTexts (entry : Element) (name : String) : List String :=
  match entry.textsOf name with
  | [] => ((entry.first? "value").map (·.textsOf name)).getD []
  | texts => texts

def branchEntry (entry : Element) : BranchEntry :=
  { key := (entryTexts entry "key").head?
    names := entryTexts entry "name"
    targets := entryTexts entry "targetId" }

/-- The branch table stands below `data`, or else directly below the module. -/
def branchTable? (element : Element) : Option Element :=
  (element.path? ["data", "branches"]).or (element.first? "branches")

def branches (element : Element) : List BranchEntry :=
  match branchTable? element with
  | none => []
  | some table => (table.field "entry").map branchEntry

/-- The identifier that an element refers to: its own text, or that of its identifier child. -/
def referenceId? (element : Element) : Option String :=
  element.text?.or (element.textOf? idField)

/-- The predecessors that one element lists. If it is no reference itself, its children are. -/
def predecessors (element : Element) : List String :=
  match referenceId? element with
  | some id => [id]
  | none => element.groups.flatMap fun (_, members) => members.filterMap referenceId?

def ascendants (element : Element) : List String :=
  (element.field ascendantsField).flatMap predecessors

def payload (element : Element) : Payload :=
  { singleNext := element.textOf? singleNextField
    exceptionNext := element.textOf? exceptionNextField
    branches := branches element
    ascendants := ascendants element }

/-- The module that an element describes. Without an identifier it describes none. -/
def module? (kind : ModuleKind) (element : Element) : Option Module :=
  (element.textOf? idField).map fun id =>
    { id, kind
      displayName := (element.textOf? nameField).getD kind.tag
      payload := payload element }

/-- The modules of a collection, group by group. -/
def collected (collection : Element) : List Module :=
  collection.groups.flatMap fun (tag, members) => members.filterMap (module? (.ofTag tag))

/-- The modules of a document, which has to hold a collection of them. -/
def modules (root : Element) : Except Failure (List Module) :=
  match root.first? collectionField with
  | some collection => .ok (collected collection)
  | none =>
    .error (((Failure.new .schemaError
      "expected top-level module collection missing").withOperation
      "extract::extract_modules").withContext "root" root.name)

end CallFlow.Extraction
