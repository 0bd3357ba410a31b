import CallFlow.Distinct
import CallFlow.Xml.Node

namespace CallFlow.Xml

inductive Element where
  | mk (name text : String) (groups : List (String × List Element))

namespace Element

def name : Element → String
  | mk name _ _ => name

def text : Element → String
  | mk _ text _ => text

def groups : Element → List (String × List Element)
  | mk _ _ groups => groups

def groupByName (elements : List Element) : List (String × List Element) :=
  (distinct (elements.map name)).map fun tag => (tag, elements.filter (·.name = tag))

mutual

def ofNode? : Node → Option Element
  | .text _ => none
  | .element name children =>
    some (mk name (Text.trim (String.join (Node.ownTexts children)))
      (groupByName (ofNodes children)))

def ofNodes : List Node → List Element
  | [] => []
  | node :: rest =>
    match ofNode? node with
    | none => ofNodes rest
    | some element => element :: ofNodes rest

end

def ofDocument (document : Document) : Element :=
  mk document.name (Text.trim (String.join (Node.ownTexts document.children)))
    (groupByName (ofNodes document.children))

def field (element : Element) (name : String) : List Element :=
  ((element.groups.find? (·.1 = name)).map (·.2)).getD []

def first? (element : Element) (name : String) : Option Element :=
  (element.field name).head?

def path? (element : Element) (names : List String) : Option Element :=
  names.foldlM first? element

def text? (element : Element) : Option String :=
  if element.text = "" then none else some element.text

def textOf? (element : Element) (name : String) : Option String :=
  (element.first? name).bind text?

def textsOf (element : Element) (name : String) : List String :=
  (element.field name).filterMap text?

@[simp]
theorem name_ofDocument (document : Document) : (ofDocument document).name = document.name := rfl

theorem ofNodes_eq (nodes : List Node) : ofNodes nodes = (Node.elements nodes).map ofDocument := by
  induction nodes with
  | nil => rw [ofNodes, Node.elements_nil, List.map_nil]
  | cons node rest ih =>
    cases node with
    | text content => rw [ofNodes, ofNode?, ih, Node.elements_text]
    | element name children =>
      rw [ofNodes, ofNode?, ih, Node.elements_element, List.map_cons]
      rfl

theorem groups_ofDocument (document : Document) :
    (ofDocument document).groups = groupByName (document.elements.map ofDocument) := by
  rw [Document.elements, ← ofNodes_eq]
  rfl

/-- The group of a name is found where it has a member, and no group is empty. -/
theorem find?_groupByName (elements : List Element) (tag : String) :
    (((groupByName elements).find? (·.1 = tag)).map (·.2)).getD [] =
      elements.filter (·.name = tag) := by
  rw [groupByName, List.find?_map]
  cases hf : (distinct (elements.map name)).find?
      ((fun group : String × List Element => decide (group.1 = tag)) ∘
        fun tag => (tag, elements.filter (·.name = tag))) with
  | some other =>
    have ho := List.find?_some hf
    obtain rfl : other = tag := of_decide_eq_true ho
    rfl
  | none =>
    have hn : ∀ element ∈ elements, ¬element.name = tag := by
      intro element he h
      have hm : tag ∈ distinct (elements.map name) :=
        mem_distinct.mpr (List.mem_map.mpr ⟨element, he, h⟩)
      exact List.find?_eq_none.mp hf tag hm (decide_eq_true rfl)
    symm
    simpa using hn

theorem field_ofDocument (document : Document) (name : String) :
    (ofDocument document).field name = (document.named name).map ofDocument := by
  rw [field, groups_ofDocument, find?_groupByName, List.filter_map]
  rfl

theorem first?_ofDocument (document : Document) (name : String) :
    (ofDocument document).first? name = (document.named name).head?.map ofDocument := by
  rw [first?, field_ofDocument, List.head?_map]

@[simp]
theorem text?_ofDocument (document : Document) : (ofDocument document).text? = document.text? := rfl

theorem textOf?_ofDocument (document : Document) (name : String) :
    (ofDocument document).textOf? name = document.firstText? name := by
  rw [textOf?, first?_ofDocument, Document.firstText?]
  cases (document.named name).head? <;> rfl

theorem textsOf_ofDocument (document : Document) (name : String) :
    (ofDocument document).textsOf name = document.texts name := by
  have ht : text? ∘ ofDocument = Document.text? := by
    funext child
    rw [Function.comp_apply, text?_ofDocument]
  rw [textsOf, field_ofDocument, List.filterMap_map, ht, Document.texts]

end Element

end CallFlow.Xml
