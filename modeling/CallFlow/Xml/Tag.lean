import CallFlow.Xml.Reference

namespace CallFlow.Xml

def xmlUri : String := "http://www.w3.org/XML/1998/namespace"

def declarationUri : String := "http://www.w3.org/2000/xmlns/"

def declarationSpace : String := "xmlns"

/-- Line ends and tabulators in a value are spaces, and the two characters of one line end are one
space. -/
def normalizeValue (chars : List Char) : List Char :=
  (Text.unifyLineEnds chars).map fun c => if isSpace c then ' ' else c

namespace Reader

/-- The value of the stretch being read. A character reference inside an entity must not bring in
the start of a tag. -/
def value (nested : Bool) (expand : Cursor → Reader (List Char)) : Reader (List Char) :=
  loop [] fun before => do
    if (← peek?) = some '&' then
      match ← reference with
      | (.entity name, start) => return .again (before ++ (← expand (← entityNamed name start)))
      | (.char c, start) =>
        if nested then
          if c = '<' then failAt start .unescapedMarkup
          return .again (before ++ normalizeValue [c])
        else return .again (before ++ [c])
    else return .again (before ++ normalizeValue (← takeWhile (· ≠ '&')))

def entityValue : Nat → Cursor → Reader (List Char)
  | 0, _ => fail .referenceLoop
  | levels + 1, stretch => inEntity (levels + 1) stretch (value true (entityValue levels))

def rawAttribute : Reader (QualifiedName × Cursor) := do
  let name ← qualifiedName
  skipSpaces
  expectChar '='
  skipSpaces
  let quote ← expectQuote
  let start ← offset
  let chars ← takeUntil fun rest => rest.head?.any fun c => c = quote || c = '<'
  expectChar quote
  return (name, { offset := start, rest := chars })

/-- Declares a prefix. The prefix `xml` and its namespace belong to each other alone, and a prefix
is declared once in a tag. -/
def declarePrefix (start : Nat) (space uri : String) : Reader Unit := do
  if uri = declarationUri then failAt start .reservedUri
  if space = "xml" then
    if uri ≠ xmlUri then failAt start .wrongXmlUri
  else
    if uri = xmlUri then failAt start .xmlUriElsewhere
    if (← get).declared.any (·.1 = space) then failAt start (.duplicatePrefix space)
    modify fun scan => { scan with declared := scan.declared ++ [(space, uri)] }

/-- Declares the namespace of names without a prefix, on which no name depends here. -/
def declareDefault (start : Nat) (uri : String) : Reader Unit := do
  if uri = xmlUri then failAt start .xmlUriElsewhere
  if uri = declarationUri then failAt start .reservedUri

def readAttribute (levels : Nat) : Reader Unit := do
  let start ← offset
  let (name, raw) ← rawAttribute
  let uri := String.ofList (← within raw (value (isNested levels) (entityValue levels)))
  if name.space = declarationSpace then declarePrefix start name.name uri
  else if name.name = declarationSpace then declareDefault start uri
  else modify fun scan =>
    { scan with attributes := scan.attributes ++ [{ name, offset := start }] }

/-- The prefixes that may be used in a tag, the innermost declaration first. -/
def bindings : Reader (List (String × String)) := do
  let scan ← get
  return scan.declared ++ (scan.opened.head?.map (·.bindings)).getD []

/-- The namespace of an attribute. Without a prefix it has none. -/
def attributeSpace (bindings : List (String × String)) (attr : PlacedName) :
    Reader (Option String) := do
  if attr.name.space = "" then return none
  else if attr.name.space = "xml" then return some xmlUri
  else
    match bindings.lookup attr.name.space with
    | some uri => return some uri
    | none => failAt attr.offset (.unknownPrefix attr.name.space)

/-- Attributes need declared prefixes, and no two may have the same namespace and name. -/
def checkAttributes (bindings : List (String × String)) :
    List (Option String × String) → List PlacedName → Reader Unit
  | _, [] => return
  | seen, attr :: rest => do
    let full := (← attributeSpace bindings attr, attr.name.name)
    if full ∈ seen then failAt attr.offset (.duplicateAttribute attr.name.name)
    checkAttributes bindings (seen ++ [full]) rest

def close (name : String) (children : List Node) : Reader Unit :=
  modify fun scan =>
    match scan.opened with
    | [] => { scan with finished := scan.finished ++ [{ name, children }] }
    | parent :: others =>
      let parent := { parent with children := .element name children :: parent.children }
      { scan with opened := parent :: others }

/-- Ends a tag: what it has named so far is checked only now, and the next tag names anew. A close
tag does this for a start tag that was left unfinished. -/
def settle : Reader (List (String × String)) := do
  let scan ← get
  let bindings ← bindings
  set { scan with declared := [], attributes := [] }
  checkAttributes bindings [] scan.attributes
  return bindings

def endStartTag (isEmpty : Bool) : Reader Unit := do
  let scan ← get
  let bindings ← settle
  match scan.tag with
  | none => return
  | some tag =>
    if tag.name.space ≠ "" && (bindings.lookup tag.name.space).isNone then
      failAt tag.offset (.unknownPrefix tag.name.space)
    if isEmpty then close tag.name.name []
    else modify fun scan =>
      { scan with opened := { name := tag.name, bindings, children := [] } :: scan.opened }

/-- Reads a start tag and says whether it opened an element. A text that ends after the name or
after an attribute leaves the tag unfinished. -/
def startTag (levels : Nat) : Reader Bool := do
  advance 1
  let start ← offset
  let name ← qualifiedName
  if name.space = declarationSpace then failAt start .reservedPrefix
  modify fun scan => { scan with tag := some { name, offset := start } }
  loop false fun _ => do
    let spaced := (← peek?).any isSpace
    skipSpaces
    let c ← peek
    if c = '/' then
      advance 1
      expectChar '>'
      endStartTag true
      return .done false
    else if c = '>' then
      advance 1
      endStartTag false
      return .done true
    else if spaced then
      readAttribute levels
      return .again false
    else fail (.wrongClass "a whitespace" c)

/-- Reads a close tag, which has to name the element opened last. An entity may close elements
only once it has begun one. -/
def closeTag : Reader Unit := do
  let start ← offset
  advance 2
  let name ← qualifiedName
  skipSpaces
  expectChar '>'
  let scan ← get
  if scan.tag.isNone then failAt start .strayCloseTag
  discard settle
  let scan ← get
  match scan.opened with
  | [] => failAt start .strayCloseTag
  | element :: others =>
    if element.name ≠ name then failAt start (.wrongCloseTag element.name.text name.text)
    set { scan with opened := others }
    close element.name.name element.children.reverse

end Reader

end CallFlow.Xml
