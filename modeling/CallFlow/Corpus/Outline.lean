import CallFlow.Corpus.Reader
import Mathlib.Data.List.Forall2

namespace CallFlow.Corpus

def bareLines (text : String) : List String :=
  (Text.lines text).map bareLine

/-- Those of them that are no comments. -/
def outlineLines (text : String) : List String :=
  (bareLines text).filter fun line => !isComment line

/-- A line that is neither a banner nor a header. -/
structure IsInner (line : String) : Prop where
  not_banner : isBanner line = false
  not_header : sectionOf? line = none

def argsOf? (line : String) : Option (List String) :=
  match splitColon? (Text.trim line) with
  | some ("args", value) => Text.Words.split? (Text.trim value)
  | _ => none

/-- A name between two banners. Blank lines may part the three. -/
structure Title where
  opening : String
  above : List String
  name : String
  below : List String
  closing : String
  opens : isBanner opening = true
  above_blank : ∀ line ∈ above, isBlankLine line = true
  name_not_blank : isBlankLine name = false
  below_blank : ∀ line ∈ below, isBlankLine line = true
  closes : isBanner closing = true

def Title.lines (title : Title) : List String :=
  title.opening :: (title.above ++ title.name :: (title.below ++ [title.closing]))

/-- A body holds rows: each is a line of it, and the last is ended. Nothing else stands in it. -/
structure Holds (body : String) (rows : List String) : Prop where
  ended : body = "" ∨ body.toList.getLast? = some '\n'
  lines_eq : Text.splitAt '\n' body = rows ∨ Text.splitAt '\n' body = rows ++ [""]

/-- A header with the lines below it. -/
structure Block where
  header : String
  head : Section
  rows : List String
  opens : sectionOf? header = some head
  inner : ∀ row ∈ rows, IsInner row

namespace Block

def lines (block : Block) : List String :=
  block.header :: block.rows

def document? (block : Block) : Option Document :=
  match block.head with
  | .document path => some { path, contents := bodyText block.rows }
  | .expectation _ => none

def expectation? (block : Block) : Option Expectation :=
  match block.head with
  | .document _ => none
  | .expectation kind => some { kind, value := bodyText block.rows }

end Block

/-- A case as it stands in a text. -/
structure Entry where
  title : Title
  fields : List String
  blocks : List Block
  inner : ∀ field ∈ fields, IsInner field

namespace Entry

def lines (entry : Entry) : List String :=
  entry.title.lines ++ entry.fields ++ entry.blocks.flatMap Block.lines

/-- The last arguments count. -/
def args (entry : Entry) : List String :=
  (entry.fields.filterMap argsOf?).getLast?.getD []

def documents (entry : Entry) : List Document :=
  entry.blocks.filterMap Block.document?

def expectations (entry : Entry) : List Expectation :=
  entry.blocks.filterMap Block.expectation?

/-- What an entry tells of a case: everything but its comments. -/
structure Tells (suite : String) (entry : Entry) (c : Case) : Prop where
  suite_eq : c.suite = suite
  name_eq : c.name = slug (Text.trim entry.title.name)
  args_eq : c.args = entry.args
  documents_eq : c.documents = entry.documents
  expectations_eq : c.expectations = entry.expectations

end Entry

def entryLines (entries : List Entry) : List String :=
  entries.flatMap Entry.lines

/-- Lines behind which a title may stand: entries, with other lines above the first. -/
def AreEntries (lines : List String) : Prop :=
  ∃ lead entries, (∀ line ∈ lead, isBanner line = false) ∧ lines = lead ++ entryLines entries

/-- The lines hold the entries of the cases, and no others but blank lines above the first. -/
def Outlines (suite : String) (lines : List String) (cases : List Case) : Prop :=
  ∃ lead entries, (∀ line ∈ lead, isBlankLine line = true) ∧ lines = lead ++ entryLines entries ∧
    List.Forall₂ (Entry.Tells suite) entries cases

/-- What may be wrong with the lines of a text. -/
inductive Faulty : List String → Prop
  /-- A line that is not blank stands above the first banner. -/
  | stray (lead : List String) (line : String) (rest : List String)
      (lead_no_banner : ∀ line ∈ lead, isBanner line = false) (no_banner : isBanner line = false)
      (not_blank : isBlankLine line = false) : Faulty (lead ++ line :: rest)
  /-- A banner where a title has to begin begins none. -/
  | untitled (front : List String) (opening : String) (rest : List String)
      (behind : AreEntries front) (opens : isBanner opening = true)
      (no_title : ∀ (title : Title) (more : List String), opening :: rest ≠ title.lines ++ more) :
      Faulty (front ++ opening :: rest)
  /-- A line below a title, before any header, is neither blank nor a line of arguments. -/
  | badField (front : List String) (title : Title) (fields : List String) (line : String)
      (rest : List String) (behind : AreEntries front) (inner : ∀ field ∈ fields, IsInner field)
      (line_inner : IsInner line) (not_blank : isBlankLine line = false)
      (no_args : argsOf? line = none) :
      Faulty (front ++ title.lines ++ fields ++ line :: rest)
  /-- There is no title. -/
  | noCase (lines : List String)
      (no_title : ∀ (front : List String) (title : Title) (rest : List String),
        AreEntries front → lines ≠ front ++ title.lines ++ rest) : Faulty lines
  /-- An entry that reaches up to the next banner, or to the end, has no document. -/
  | noDocument (front : List String) (entry : Entry) (rest : List String) (behind : AreEntries front)
      (whole : ∀ line ∈ rest.head?, isBanner line = true) (none_stands : entry.documents = []) :
      Faulty (front ++ entry.lines ++ rest)

end CallFlow.Corpus
