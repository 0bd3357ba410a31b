namespace CallFlow

inductive Json where
  | null
  | bool (value : Bool)
  | num (value : Nat)
  | str (value : String)
  | arr (items : List Json)
  | obj (fields : List (String × Json))
  deriving Inhabited

namespace Json

def hexDigits (n : Nat) : List Char :=
  [Nat.digitChar (n / 0x1000 % 16), Nat.digitChar (n / 0x100 % 16), Nat.digitChar (n / 0x10 % 16),
    Nat.digitChar (n % 16)]

/-- Quotation marks, backslashes and the controls below a space are escaped. -/
def escapeChar (c : Char) : List Char :=
  if c = '"' then ['\\', '"']
  else if c = '\\' then ['\\', '\\']
  else if c = '\n' then ['\\', 'n']
  else if c = '\r' then ['\\', 'r']
  else if c = '\t' then ['\\', 't']
  else if c.toNat = 0x8 then ['\\', 'b']
  else if c.toNat = 0xC then ['\\', 'f']
  else if c.toNat < 0x20 then '\\' :: 'u' :: hexDigits c.toNat
  else [c]

def quote (text : String) : String :=
  "\"" ++ String.ofList (text.toList.flatMap escapeChar) ++ "\""

def margin (level : Nat) : String :=
  String.ofList (List.replicate (2 * level) ' ')

/-- Parts on lines of their own between two brackets. -/
def block (level : Nat) (opening closing : String) (parts : List String) : String :=
  if parts.isEmpty then opening ++ closing
  else
    opening ++ "\n" ++ String.intercalate ",\n" (parts.map (margin (level + 1) ++ ·)) ++ "\n" ++
    margin level ++ closing

mutual

/-- The text of a value with each item and field on a line of its own. -/
def pretty (level : Nat) : Json → String
  | null => "null"
  | bool value => if value then "true" else "false"
  | num value => toString value
  | str value => quote value
  | arr items => block level "[" "]" (prettyItems (level + 1) items)
  | obj fields => block level "\x7b" "\x7d" (prettyFields (level + 1) fields)

def prettyItems (level : Nat) : List Json → List String
  | [] => []
  | item :: rest => pretty level item :: prettyItems level rest

def prettyFields (level : Nat) : List (String × Json) → List String
  | [] => []
  | (key, value) :: rest => (quote key ++ ": " ++ pretty level value) :: prettyFields level rest

end

mutual

/-- Writes a value without spaces behind a text. -/
def compactOnto (text : String) : Json → String
  | null => text ++ "null"
  | bool value => text ++ if value then "true" else "false"
  | num value => text ++ toString value
  | str value => text ++ quote value
  | arr items => compactItems (text ++ "[") items ++ "]"
  | obj fields => compactFields (text ++ "\x7b") fields ++ "\x7d"

def compactItems (text : String) : List Json → String
  | [] => text
  | [item] => compactOnto text item
  | item :: rest => compactItems (compactOnto text item ++ ",") rest

def compactFields (text : String) : List (String × Json) → String
  | [] => text
  | [(key, value)] => compactOnto (text ++ quote key ++ ":") value
  | (key, value) :: rest => compactFields (compactOnto (text ++ quote key ++ ":") value ++ ",") rest

end

def compact (value : Json) : String :=
  compactOnto "" value

def ofOption : Option String → Json
  | none => null
  | some value => str value

def strings (values : List String) : Json :=
  arr (values.map str)

end Json

end CallFlow
