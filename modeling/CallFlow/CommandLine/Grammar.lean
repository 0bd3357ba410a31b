import CallFlow.Text

namespace CallFlow.CommandLine

/-- What an option takes: nothing, a text, the name of a file, or texts up to the next option. -/
inductive Takes where
  | nothing
  | text
  | path
  | texts
  deriving DecidableEq, Repr

structure OptionRule where
  long : String
  short : Option Char
  takes : Takes
  repeatable : Bool
  deriving DecidableEq, Repr

namespace OptionRule

def switch (long : String) : OptionRule :=
  { long, short := none, takes := .nothing, repeatable := false }

def single (long : String) (takes : Takes) : OptionRule :=
  { long, short := none, takes, repeatable := false }

def version : OptionRule :=
  { long := "version", short := some 'V', takes := .nothing, repeatable := false }

end OptionRule

inductive UsageFault where
  | unknownOption (name : String)
  | missingValue (name : String)
  | emptyValue (name : String)
  | needlessValue (name : String)
  | repeated (name : String)
  | strayArgument (argument : String)
  | missingInput
  | missingCommand
  deriving DecidableEq, Repr

def UsageFault.message : UsageFault → String
  | unknownOption name => "unknown option " ++ name
  | missingValue name => "no value for --" ++ name
  | emptyValue name => "empty value for --" ++ name
  | needlessValue name => "--" ++ name ++ " takes no value"
  | repeated name => "--" ++ name ++ " is given twice"
  | strayArgument argument => "unexpected argument " ++ argument
  | missingInput => "no documents are named"
  | missingCommand => "no command is named"

/-- Why the reading of a command line ended early. -/
inductive Halt where
  | version
  | fault (fault : UsageFault)
  deriving DecidableEq, Repr

/-- An option as it is written, with the value that is written together with it. -/
structure Mention where
  rule : OptionRule
  attached : Option String
  deriving DecidableEq, Repr

/-- An option that was given, with its values. -/
structure Given where
  long : String
  values : List String
  deriving DecidableEq, Repr

def byLong? (rules : List OptionRule) (name : String) : Option OptionRule :=
  rules.find? (·.long = name)

def byShort? (rules : List OptionRule) (letter : Char) : Option OptionRule :=
  rules.find? (·.short = some letter)

/-- The value in a long option, after an equals sign. -/
def longMention (rules : List OptionRule) (body : List Char) : Except UsageFault Mention :=
  let name := String.ofList (body.takeWhile (· ≠ '='))
  match byLong? rules name, body.dropWhile (· ≠ '=') with
  | none, _ => .error (.unknownOption ("--" ++ name))
  | some rule, [] => .ok { rule, attached := none }
  | some rule, _ :: value => .ok { rule, attached := some (String.ofList value) }

/-- The value in a short option. An equals sign before it may be left out. -/
def attachedValue : List Char → Option String
  | [] => none
  | '=' :: value => some (String.ofList value)
  | value => some (String.ofList value)

/-- Short options that take nothing may be written together. -/
def shortMentions (rules : List OptionRule) : List Char → List (Except UsageFault Mention)
  | [] => []
  | letter :: rest =>
    match byShort? rules letter with
    | none => [.error (.unknownOption ("-" ++ letter.toString))]
    | some rule =>
      if rule.takes = .nothing then .ok { rule, attached := none } :: shortMentions rules rest
      else [.ok { rule, attached := attachedValue rest }]

def mentions (rules : List OptionRule) (argument : String) : List (Except UsageFault Mention) :=
  match argument.toList with
  | '-' :: '-' :: body => [longMention rules body]
  | '-' :: body => shortMentions rules body
  | _ => []

def isPlain (argument : String) : Bool :=
  match argument.toList with
  | ['-'] => true
  | '-' :: _ => false
  | _ => true

/-- Records an option with its values, unless they do not fit. -/
def enter (seen : List Given) (rule : OptionRule) (values : List String) :
    Except Halt (List Given) :=
  if rule.takes ≠ .nothing && values = [] then .error (.fault (.missingValue rule.long))
  else if rule.takes = .path && values.contains "" then .error (.fault (.emptyValue rule.long))
  else if !rule.repeatable && seen.any (·.long = rule.long) then
    .error (.fault (.repeated rule.long))
  else if rule = .version then .error .version
  else .ok (seen ++ [{ long := rule.long, values }])

def valuesFor (rule : OptionRule) (arguments : List String) : List String :=
  match rule.takes with
  | .nothing => []
  | .text | .path => (arguments.takeWhile isPlain).take 1
  | .texts => arguments.takeWhile isPlain

/-- What a command line says: the options, and the arguments from the first plain one on that
belongs to no option. -/
structure Reading where
  given : List Given
  rest : List String
  deriving DecidableEq, Repr

def readOn (rules : List OptionRule) (seen : List Given) :
    List (Except UsageFault Mention) → List String → Except Halt Reading
  | .error fault :: _, _ => .error (.fault fault)
  | .ok mention :: pending, arguments =>
    match mention.attached with
    | some value =>
      if mention.rule.takes = .nothing then .error (.fault (.needlessValue mention.rule.long))
      else
        match enter seen mention.rule [value] with
        | .error halt => .error halt
        | .ok seen => readOn rules seen pending arguments
    | none =>
      let values := valuesFor mention.rule arguments
      match enter seen mention.rule values with
      | .error halt => .error halt
      | .ok seen => readOn rules seen pending (arguments.drop values.length)
  | [], [] => .ok { given := seen, rest := [] }
  | [], argument :: rest =>
    if argument = "--" then
      match rest with
      | [] => .ok { given := seen, rest := [] }
      | stray :: _ => .error (.fault (.strayArgument stray))
    else if isPlain argument then .ok { given := seen, rest := argument :: rest }
    else readOn rules seen (mentions rules argument) rest
termination_by pending arguments => (arguments.length, pending.length)
decreasing_by
  · exact Prod.Lex.right _ (Nat.lt_succ_self _)
  · simp only [List.length_drop, List.length_cons]
    rcases Nat.lt_or_eq_of_le (Nat.sub_le arguments.length values.length) with fewer | same
    · exact Prod.Lex.left _ _ fewer
    · rw [same]
      exact Prod.Lex.right _ (Nat.lt_succ_self _)
  · exact Prod.Lex.left _ _ (Nat.lt_succ_self _)

def read (rules : List OptionRule) (arguments : List String) : Except Halt Reading :=
  readOn rules [] [] arguments

namespace Reading

def values (reading : Reading) (long : String) : List String :=
  (reading.given.filter (·.long = long)).flatMap Given.values

def value? (reading : Reading) (long : String) : Option String :=
  (reading.values long).head?

def has (reading : Reading) (long : String) : Bool :=
  reading.given.any (·.long = long)

end Reading

end CallFlow.CommandLine
