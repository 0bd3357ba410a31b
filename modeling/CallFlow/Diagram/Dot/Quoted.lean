import CallFlow.Text

namespace CallFlow.Diagram.Dot

/-- The text between the quotation marks. Backslashes are doubled first, so that those written for
the other two characters stay single. -/
def escape (text : String) : String :=
  Text.replace '\n' "\\n" (Text.replace '"' "\\\"" (Text.replace '\\' "\\\\" text))

def escapeChar : Char → List Char
  | '\\' => ['\\', '\\']
  | '"' => ['\\', '"']
  | '\n' => ['\\', 'n']
  | c => [c]

/-- No replacement touches what an earlier one has written. -/
theorem toList_escape (text : String) : (escape text).toList = text.toList.flatMap escapeChar := by
  simp only [escape, Text.replace, Text.mapChars, String.toList_ofList, List.flatMap_assoc]
  congr 1
  funext c
  by_cases hb : c = '\\'
  · subst hb
    rfl
  by_cases hm : c = '"'
  · subst hm
    rfl
  by_cases hl : c = '\n'
  · subst hl
    rfl
  · simp [escapeChar, hb, hm, hl]

def quote (text : String) : String :=
  "\"" ++ escape text ++ "\""

def escapedChar (c : Char) : Char :=
  if c = 'n' then '\n' else c

def prepend (c : Char) (read : List Char × List Char) : List Char × List Char :=
  (c :: read.1, read.2)

/-- Reads up to the closing quotation mark, and returns what follows it too. The character behind a
backslash belongs to it. -/
def readFrom (behindBackslash : Bool) : List Char → Option (List Char × List Char)
  | [] => none
  | c :: rest =>
    if behindBackslash then (readFrom false rest).map (prepend (escapedChar c))
    else if c = '"' then some ([], rest)
    else if c = '\\' then readFrom true rest
    else (readFrom false rest).map (prepend c)

def readQuoted (cs : List Char) : Option (List Char × List Char) :=
  readFrom false cs

/-- Passes over a text up to the closing quotation mark, and returns it as it stands. -/
def scanFrom (behindBackslash : Bool) : List Char → Option (List Char × List Char)
  | [] => none
  | c :: rest =>
    if behindBackslash then (scanFrom false rest).map (prepend c)
    else if c = '"' then some ([], rest)
    else (scanFrom (c = '\\') rest).map (prepend c)

def scanQuoted (cs : List Char) : Option (List Char × List Char) :=
  scanFrom false cs

/-- The character that an escape stands for, by what is written behind the backslash. -/
def escaped? : Char → Option Char
  | '\\' => some '\\'
  | '"' => some '"'
  | 'n' => some '\n'
  | _ => none

/-- Undoes the escapes in a scanned text. There are three of them, and no other character stands
behind a backslash. -/
def unescape? : List Char → Option (List Char)
  | [] => some []
  | '\\' :: rest =>
    match rest with
    | [] => none
    | c :: rest => (escaped? c).bind fun read => (unescape? rest).map (read :: ·)
  | c :: rest => (unescape? rest).map (c :: ·)

theorem scanQuoted_escapeChar (c : Char) (rest : List Char) :
    scanQuoted (escapeChar c ++ rest) =
      (scanQuoted rest).map fun scanned => (escapeChar c ++ scanned.1, scanned.2) := by
  have hp : ∀ a b : Char, prepend a ∘ prepend b =
      fun scanned => (a :: b :: scanned.1, scanned.2) := fun _ _ => rfl
  unfold escapeChar scanQuoted
  split
  · simp [scanFrom, hp]
  · simp [scanFrom, hp]
  · simp [scanFrom, hp]
  · rename_i noBackslash noMark _
    rw [List.singleton_append, scanFrom, if_neg Bool.false_ne_true, if_neg noMark,
      decide_eq_false noBackslash]
    rfl

theorem scanQuoted_escape (text rest : List Char) :
    scanQuoted (text.flatMap escapeChar ++ '"' :: rest) =
      some (text.flatMap escapeChar, rest) := by
  induction text with
  | nil => rfl
  | cons c text ih =>
    rw [List.flatMap_cons, List.append_assoc, scanQuoted_escapeChar, ih]
    rfl

theorem readQuoted_escapeChar (c : Char) (rest : List Char) :
    readQuoted (escapeChar c ++ rest) = (readQuoted rest).map (prepend c) := by
  unfold escapeChar readQuoted
  split
  · simp [readFrom, escapedChar]
  · simp [readFrom, escapedChar]
  · simp [readFrom, escapedChar]
  · rename_i noBackslash noMark _
    rw [List.singleton_append, readFrom, if_neg Bool.false_ne_true, if_neg noMark,
      if_neg noBackslash]

theorem unescape?_escapeChar (c : Char) (rest : List Char) :
    unescape? (escapeChar c ++ rest) = (unescape? rest).map (c :: ·) := by
  unfold escapeChar
  split
  · simp [unescape?, escaped?]
  · simp [unescape?, escaped?]
  · simp [unescape?, escaped?]
  · rename_i noBackslash _ _
    rw [List.singleton_append, unescape?]
    exact noBackslash

theorem unescape?_escape (text : List Char) :
    unescape? (text.flatMap escapeChar) = some text := by
  induction text with
  | nil => rfl
  | cons c text ih =>
    rw [List.flatMap_cons, unescape?_escapeChar, ih]
    rfl

/-- An escaped text ends at the first quotation mark after it, and nowhere before. -/
theorem readQuoted_escape (text rest : List Char) :
    readQuoted (text.flatMap escapeChar ++ '"' :: rest) = some (text, rest) := by
  induction text with
  | nil => rfl
  | cons c text ih =>
    rw [List.flatMap_cons, List.append_assoc, readQuoted_escapeChar, ih]
    rfl

end CallFlow.Diagram.Dot
