import CallFlow.FreshName
import CallFlow.Graph

namespace CallFlow.Diagram

/-- ASCII letters and digits stay, and any other character becomes an underscore. -/
def wordChar (c : Char) : Char :=
  if c.isAlphanum then c else '_'

/-- What a plain word consists of: ASCII letters, ASCII digits and underscores. -/
def isWordChar (c : Char) : Bool :=
  c.isAlphanum || c == '_'

theorem isWordChar_wordChar (c : Char) : isWordChar (wordChar c) = true := by
  unfold wordChar
  split
  · rename_i h
    simp [isWordChar, h]
  · rfl

theorem not_mem_of_all {word : String} {c : Char} (hw : word.toList.all isWordChar = true)
    (hc : isWordChar c = false) : c ∉ word.toList := by
  intro hm
  rw [List.all_eq_true.mp hw c hm] at hc
  cases hc

def plainWord (text : String) : String :=
  String.ofList (text.toList.map wordChar)

/-- The plain word of a text. An empty one gives way to the fallback, and one that is not fit to
stand alone gets a mark in front. -/
def fitWord (fallback mark : String) (unfit : String → Bool) (text : String) : String :=
  if plainWord text = "" then fallback
  else if unfit (plainWord text) then mark ++ plainWord text
  else plainWord text

/-- How a kind of diagram builds names: from the shown text, and on a collision with a fragment
of the identifier. -/
structure NameRule where
  base : String → String
  fragment : String → String

/-- The names given out so far, each with the identifier that it stands for. -/
abbrev Names := List (String × String)

namespace Names

def get? (names : Names) (id : String) : Option String :=
  (names.find? (·.1 = id)).map (·.2)

def taken (names : Names) : List String :=
  names.map (·.2)

/-- The name of an identifier, or the identifier itself if it has none. -/
def resolve (names : Names) (id : String) : String :=
  (names.get? id).getD id

end Names

namespace NameRule

/-- The base alone, then with the fragment, then with the fragment and a counter. -/
def candidate (rule : NameRule) (id shown : String) : Nat → String
  | 0 => rule.base shown
  | n + 1 => counted (rule.base shown ++ "_" ++ rule.fragment id) n

/-- Gives an identifier its name, unless it has one. -/
def assign (rule : NameRule) (names : Names) (id shown : String) : Names :=
  if (names.get? id).isSome then names
  else names ++ [(id, freshName names.taken (rule.candidate id shown))]

def assignAll (rule : NameRule) (names : Names) (subjects : List (String × String)) : Names :=
  subjects.foldl (fun names subject => rule.assign names subject.1 subject.2) names

@[simp]
theorem assignAll_nil (rule : NameRule) (names : Names) : rule.assignAll names [] = names := rfl

@[simp]
theorem assignAll_cons (rule : NameRule) (names : Names) (subject : String × String)
    (rest : List (String × String)) :
    rule.assignAll names (subject :: rest) =
      rule.assignAll (rule.assign names subject.1 subject.2) rest := rfl

/-- What is named in a graph: nodes by the last line of their labels, dangling ends by
themselves. -/
def subjects (graph : Graph) : List (String × String) :=
  graph.shown Node.labelTail

def names (rule : NameRule) (graph : Graph) : Names :=
  rule.assignAll [] (subjects graph)

end NameRule

end CallFlow.Diagram
