import CallFlow.Extraction

namespace CallFlow.Extraction

/-- A text that stands for itself: not empty and without blanks at its ends. -/
def IsClean (text : String) : Prop :=
  text ≠ "" ∧ Text.trim text = text

instance (text : String) : Decidable (IsClean text) :=
  inferInstanceAs (Decidable (_ ∧ _))

def leaf (name text : String) : Xml.Node :=
  .element name [.text text]

/-- Where a field of a branch entry stands. -/
inductive FieldPlace where
  | entry
  | value
  deriving DecidableEq, Repr

/-- How a branch entry is written. Its `value` child may be there with nothing to hold. -/
structure EntryShape where
  key : FieldPlace
  names : FieldPlace
  targets : FieldPlace
  spareValue : Bool
  deriving DecidableEq, Repr

namespace EntryShape

def fields (shape : EntryShape) (entry : BranchEntry) (place : FieldPlace) : List Xml.Node :=
  (if shape.key = place then entry.key.toList.map (leaf "key") else []) ++
  (if shape.names = place then entry.names.map (leaf "name") else []) ++
  (if shape.targets = place then entry.targets.map (leaf "targetId") else [])

def hasValue (shape : EntryShape) : Bool :=
  shape.key = .value || shape.names = .value || shape.targets = .value || shape.spareValue

def node (shape : EntryShape) (entry : BranchEntry) : Xml.Node :=
  .element "entry" (shape.fields entry .entry ++
    if shape.hasValue then [.element "value" (shape.fields entry .value)] else [])

end EntryShape

/-- Where the branch table of a module stands. Only an empty one may be left out. -/
inductive TablePlace where
  | data
  | direct
  | omitted
  deriving DecidableEq, Repr

namespace TablePlace

def nodes (place : TablePlace) (rows : List Xml.Node) : List Xml.Node :=
  match place with
  | data => [.element "data" [.element "branches" rows]]
  | direct => [.element "branches" rows]
  | omitted => []

end TablePlace

/-- How an element names a module: by its own text or by that of an identifier child. -/
inductive Mention where
  | plain (id : String)
  | nested (id : String)
  deriving DecidableEq, Repr

namespace Mention

def id : Mention → String
  | plain id => id
  | nested id => id

def children : Mention → List Xml.Node
  | plain id => [.text id]
  | nested id => [leaf idField id]

end Mention

/-- How predecessors are listed: one by the element itself, or several by its children, whose name
must not be that of an identifier. -/
inductive Listing where
  | lone (mention : Mention)
  | wrapper (tag : String) (other : tag ≠ idField) (mentions : List Mention)

namespace Listing

def ids : Listing → List String
  | lone mention => [mention.id]
  | wrapper _ _ mentions => mentions.map Mention.id

def children : Listing → List Xml.Node
  | lone mention => mention.children
  | wrapper tag _ mentions => mentions.map fun mention => .element tag mention.children

def node (listing : Listing) : Xml.Node :=
  .element ascendantsField listing.children

end Listing

/-- How a module is written, with a shape for each row of its branch table. -/
structure ModuleShape where
  table : TablePlace
  entry : Nat → EntryShape
  listings : List Listing

namespace ModuleShape

/-- The shape has a place for every row and names just the predecessors of the module. -/
structure Fits (shape : ModuleShape) (module : Module) : Prop where
  rows : shape.table = .omitted → module.payload.branches = []
  predecessors : shape.listings.flatMap Listing.ids = module.payload.ascendants

def rows (shape : ModuleShape) (module : Module) : List Xml.Node :=
  module.payload.branches.zipIdx.map fun (entry, position) => (shape.entry position).node entry

def children (shape : ModuleShape) (module : Module) : List Xml.Node :=
  [leaf idField module.id, leaf nameField module.displayName] ++
  module.payload.singleNext.toList.map (leaf singleNextField) ++
  module.payload.exceptionNext.toList.map (leaf exceptionNextField) ++
  shape.table.nodes (shape.rows module) ++ shape.listings.map Listing.node

end ModuleShape

/-- The node is the module, written in some shape. Its children stand in any order in which those of
one name keep theirs. -/
def Writes (module : Module) (node : Xml.Node) : Prop :=
  ∃ (shape : ModuleShape) (children : List Xml.Node), shape.Fits module ∧
    node = .element module.kind.tag children ∧
    ∀ name, (Xml.Node.elements children).filter (·.name = name) =
      (Xml.Node.elements (shape.children module)).filter (·.name = name)

/-- The modules tag by tag, in the order in which the tags first appear. -/
def regrouped (modules : List Module) : List Module :=
  (distinct (modules.map (·.kind.tag))).flatMap fun tag => modules.filter (·.kind.tag = tag)

end CallFlow.Extraction

namespace CallFlow

open Extraction (IsClean)

/-- Every text in the row stands for itself. -/
structure BranchEntry.IsWritable (entry : BranchEntry) : Prop where
  key : ∀ key ∈ entry.key, IsClean key
  names : ∀ name ∈ entry.names, IsClean name
  targets : ∀ target ∈ entry.targets, IsClean target

theorem BranchEntry.isWritable_iff {entry : BranchEntry} :
    entry.IsWritable ↔ (∀ key ∈ entry.key, IsClean key) ∧ (∀ name ∈ entry.names, IsClean name) ∧
      ∀ target ∈ entry.targets, IsClean target :=
  ⟨fun ⟨hk, hn, ht⟩ => ⟨hk, hn, ht⟩, fun ⟨hk, hn, ht⟩ => ⟨hk, hn, ht⟩⟩

instance (entry : BranchEntry) : Decidable entry.IsWritable :=
  decidable_of_iff _ BranchEntry.isWritable_iff.symm

/-- Every text in the module stands for itself, and its kind is the one that its tag names. -/
structure Module.IsWritable (module : Module) : Prop where
  id : IsClean module.id
  kind : module.kind = .ofTag module.kind.tag
  displayName : IsClean module.displayName
  singleNext : ∀ next ∈ module.payload.singleNext, IsClean next
  exceptionNext : ∀ next ∈ module.payload.exceptionNext, IsClean next
  branches : ∀ entry ∈ module.payload.branches, entry.IsWritable
  ascendants : ∀ id ∈ module.payload.ascendants, IsClean id

theorem Module.isWritable_iff {module : Module} :
    module.IsWritable ↔ IsClean module.id ∧ module.kind = .ofTag module.kind.tag ∧
      IsClean module.displayName ∧ (∀ next ∈ module.payload.singleNext, IsClean next) ∧
      (∀ next ∈ module.payload.exceptionNext, IsClean next) ∧
      (∀ entry ∈ module.payload.branches, entry.IsWritable) ∧
      ∀ id ∈ module.payload.ascendants, IsClean id :=
  ⟨fun ⟨hi, hk, hd, hs, he, hb, ha⟩ => ⟨hi, hk, hd, hs, he, hb, ha⟩,
    fun ⟨hi, hk, hd, hs, he, hb, ha⟩ => ⟨hi, hk, hd, hs, he, hb, ha⟩⟩

instance (module : Module) : Decidable module.IsWritable :=
  decidable_of_iff _ Module.isWritable_iff.symm

end CallFlow
