import CallFlow.Failure
import CallFlow.FileTree
import CallFlow.Text.Quoted
import CallFlow.Toml.Document

namespace CallFlow

/-- The program that lays out DOT, with its arguments. -/
structure LayoutCommand where
  program : String
  args : List String
  deriving DecidableEq, Repr

namespace LayoutCommand

def default : LayoutCommand := { program := "dot", args := ["-Tsvg"] }

end LayoutCommand

structure FileConfig where
  formats : Option (List String)
  outputDir : Option String
  stamp : Option Bool
  parallel : Option Bool
  annotateSource : Option Bool
  render : LayoutCommand
  deriving DecidableEq, Repr

/-- Why a text is no configuration. -/
inductive ConfigFault where
  | badSyntax
  | unknownField (name : String) (known : List String)
  | wrongType (found : Toml.Value) (wanted : String)

namespace ConfigFault

def code (text : String) : String :=
  "\x60" ++ text ++ "\x60"

/-- How a value is named that has the wrong type. -/
def describe (value : Toml.Value) : String :=
  match value with
  | .string text => "string " ++ Text.quoted text
  | .integer n => "integer " ++ code (toString n)
  | .floating number => "floating point " ++ code number.text
  | .boolean b => "boolean " ++ code (toString b)
  | .array _ => "sequence"
  | .table _ | .datetime => "map"

def choices (known : List String) : String :=
  match known with
  | [first, second] => "expected " ++ code first ++ " or " ++ code second
  | _ => "expected one of " ++ Text.join ", " (known.map code)

def message : ConfigFault → String
  | badSyntax => "TOML parse error"
  | unknownField name known => "unknown field " ++ code name ++ ", " ++ choices known
  | wrongType found wanted => "invalid type: " ++ describe found ++ ", expected " ++ wanted

def toFailure (fault : ConfigFault) : Failure :=
  ((Failure.new .configInvalid fault.message).withOperation "config::parse").withSource fault.message

end ConfigFault

namespace FileConfig

def empty : FileConfig :=
  { formats := none, outputDir := none, stamp := none, parallel := none, annotateSource := none
    render := .default }

def booleanOf : Toml.Value → Except ConfigFault Bool
  | .boolean value => .ok value
  | found => .error (.wrongType found "a boolean")

def stringOf : Toml.Value → Except ConfigFault String
  | .string text => .ok text
  | found => .error (.wrongType found "a string")

def pathOf : Toml.Value → Except ConfigFault String
  | .string text => .ok text
  | found => .error (.wrongType found "path string")

def stringsOf : Toml.Value → Except ConfigFault (List String)
  | .array items => items.mapM stringOf
  | found => .error (.wrongType found "a sequence")

def layoutFields : List String := ["program", "args"]

def setLayoutField (command : LayoutCommand) (field : String × Toml.Value) :
    Except ConfigFault LayoutCommand :=
  match field with
  | ("program", value) => return { command with program := ← stringOf value }
  | ("args", value) => return { command with args := ← stringsOf value }
  | (name, _) => .error (.unknownField name layoutFields)

/-- The key under which a date or a time would keep its text. -/
def datetimeField : String := "$__toml_private_datetime"

/-- A layout command is a table, or a list of the values of its fields. -/
def layoutOf : Toml.Value → Except ConfigFault LayoutCommand
  | .table fields => fields.foldlM setLayoutField .default
  | .array items => (layoutFields.zip items).foldlM setLayoutField .default
  | .datetime => .error (.unknownField datetimeField layoutFields)
  | found => .error (.wrongType found "struct RenderConfig")

def knownFields : List String :=
  ["formats", "output_dir", "stamp", "parallel", "annotate_source", "render"]

def setField (config : FileConfig) (field : String × Toml.Value) : Except ConfigFault FileConfig :=
  match field with
  | ("formats", value) => return { config with formats := some (← stringsOf value) }
  | ("output_dir", value) => return { config with outputDir := some (← pathOf value) }
  | ("stamp", value) => return { config with stamp := some (← booleanOf value) }
  | ("parallel", value) => return { config with parallel := some (← booleanOf value) }
  | ("annotate_source", value) => return { config with annotateSource := some (← booleanOf value) }
  | ("render", value) => return { config with render := ← layoutOf value }
  | (name, _) => .error (.unknownField name knownFields)

def ofFields (fields : List (String × Toml.Value)) : Except ConfigFault FileConfig :=
  fields.foldlM setField empty

def parse (text : String) : Except Failure FileConfig :=
  match Toml.parse? text with
  | none => .error ConfigFault.badSyntax.toFailure
  | some fields => (ofFields fields).mapError ConfigFault.toFailure

def read (tree : FileTree) (path : String) : Except Failure FileConfig :=
  match tree.readText path with
  | .error fault =>
    .error ((fault.toFailure.withOperation "config::from_path").withContext "path" path)
  | .ok text => (parse text).mapError (·.withContext "path" path)

end FileConfig

end CallFlow
