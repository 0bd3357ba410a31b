import CallFlow.Text

namespace CallFlow.Xml

inductive Node where
  | text (content : String)
  | element (name : String) (children : List Node)

namespace Node

mutual

/-- Nodes are compared together with lists of them, so that the recursion follows the nesting. -/
def decEq : (node other : Node) → Decidable (node = other)
  | .text content, .text found =>
    if h : content = found then isTrue (congrArg text h) else isFalse fun he => h (text.inj he)
  | .text _, .element _ _ => isFalse nofun
  | .element _ _, .text _ => isFalse nofun
  | .element name children, .element found nodes =>
    match decEqList children nodes with
    | isTrue hc =>
      if hn : name = found then isTrue (by rw [hn, hc])
      else isFalse fun he => hn (element.inj he).1
    | isFalse hc => isFalse fun he => hc (element.inj he).2

def decEqList : (nodes others : List Node) → Decidable (nodes = others)
  | [], [] => isTrue rfl
  | [], _ :: _ => isFalse nofun
  | _ :: _, [] => isFalse nofun
  | node :: rest, other :: others =>
    match decEq node other, decEqList rest others with
    | isTrue hn, isTrue hr => isTrue (by rw [hn, hr])
    | isFalse hn, _ => isFalse fun he => hn (List.cons.inj he).1
    | _, isFalse hr => isFalse fun he => hr (List.cons.inj he).2

end

instance : DecidableEq Node := decEq

end Node

/-- The root element. -/
structure Document where
  name : String
  children : List Node
  deriving DecidableEq

namespace Node

def ownTexts (nodes : List Node) : List String :=
  nodes.filterMap fun
    | text content => some content
    | element _ _ => none

def elementNames (nodes : List Node) : List String :=
  nodes.filterMap fun
    | text _ => none
    | element name _ => some name

def elements (nodes : List Node) : List Document :=
  nodes.filterMap fun
    | text _ => none
    | element name children => some { name, children }

@[simp]
theorem elements_nil : elements [] = [] := rfl

@[simp]
theorem elements_text (content : String) (rest : List Node) :
    elements (text content :: rest) = elements rest := rfl

@[simp]
theorem elements_element (name : String) (children rest : List Node) :
    elements (element name children :: rest) = { name, children } :: elements rest := rfl

@[simp]
theorem elements_append (nodes more : List Node) :
    elements (nodes ++ more) = elements nodes ++ elements more :=
  List.filterMap_append

end Node

namespace Document

def elements (document : Document) : List Document :=
  Node.elements document.children

def named (document : Document) (name : String) : List Document :=
  document.elements.filter (·.name = name)

/-- What stands directly in the root element, without blanks at its ends. -/
def text (document : Document) : String :=
  Text.trim (String.join (Node.ownTexts document.children))

def text? (document : Document) : Option String :=
  if document.text = "" then none else some document.text

def firstText? (document : Document) (name : String) : Option String :=
  (document.named name).head?.bind text?

def texts (document : Document) (name : String) : List String :=
  (document.named name).filterMap text?

end Document

end CallFlow.Xml
