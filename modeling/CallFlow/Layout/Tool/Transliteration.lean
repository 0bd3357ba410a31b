import CallFlow.Layout.Tool.Flag

namespace CallFlow.Layout.Tool.Transliteration

def flags : List Flag :=
  [.switch 'c' (some "complement"), .switch 'C' none, .switch 'd' (some "delete"),
    .switch 's' (some "squeeze-repeats"), .switch 't' (some "truncate-set1")]

def escapes : List (Char × Nat) :=
  [('a', 7), ('b', 8), ('f', 12), ('n', 10), ('r', 13), ('t', 9), ('v', 11)]

def octal (chars : Chars) : Chars :=
  (chars.take 3).takeWhile fun c => '0' ≤ c && c ≤ '7'

def readChar : Chars → Option (Char × Chars)
  | [] => none
  | ['\\'] => some ('\\', [])
  | '\\' :: c :: rest =>
    match octal (c :: rest), escapes.lookup c with
    | [], some code => some (Char.ofNat code, rest)
    | [], none => some (c, rest)
    | digits, _ =>
      let code := digits.foldl (fun value d => value * 8 + (d.toNat - '0'.toNat)) 0
      some (Char.ofNat (code % 256), (c :: rest).drop digits.length)
  | c :: rest => some (c, rest)

def allChars : Chars :=
  (List.range 256).map Char.ofNat

def classes : List (String × (Char → Bool)) :=
  [("alnum", Char.isAlphanum), ("alpha", Char.isAlpha), ("digit", Char.isDigit),
    ("lower", Char.isLower), ("upper", Char.isUpper), ("blank", fun c => c = ' ' || c = '\t'),
    ("space", fun c => c = ' ' || (9 ≤ c.toNat && c.toNat ≤ 13)),
    ("cntrl", fun c => c.toNat < 32 || c.toNat = 127),
    ("graph", fun c => 33 ≤ c.toNat && c.toNat ≤ 126),
    ("print", fun c => 32 ≤ c.toNat && c.toNat ≤ 126),
    ("punct", fun c => 33 ≤ c.toNat && c.toNat ≤ 126 && !c.isAlphanum),
    ("xdigit", fun c => c.isDigit || ('a' ≤ c && c ≤ 'f') || ('A' ≤ c && c ≤ 'F'))]

/-- A part of a set: characters, or one that is repeated as often as is needed. -/
inductive Member where
  | chars (chars : Chars)
  | filler (c : Char)
  deriving DecidableEq, Repr

/-- A class, an equivalent or a repetition between brackets. -/
def readBracket? (chars : Chars) : Option (Except Chars Member × Chars) :=
  match chars with
  | '[' :: ':' :: rest =>
    let name := rest.takeWhile Char.isAlpha
    match rest.drop name.length with
    | ':' :: ']' :: rest =>
      match classes.lookup (String.ofList name) with
      | some p => some (.ok (.chars (allChars.filter p)), rest)
      | none => some (.error ("invalid character class '".toList ++ name ++ ['\'']), rest)
    | _ => none
  | ['[', '=', c, '=', ']'] => some (.ok (.chars [c]), [])
  | '[' :: '=' :: c :: '=' :: ']' :: rest => some (.ok (.chars [c]), rest)
  | '[' :: rest =>
    match readChar rest with
    | some (c, '*' :: rest) =>
      let digits := rest.takeWhile Char.isDigit
      match rest.drop digits.length with
      | ']' :: rest =>
        let base := if digits.head? = some '0' then 8 else 10
        let count := digits.foldl (fun value d => value * base + (d.toNat - '0'.toNat)) 0
        some (.ok (if count = 0 then .filler c else .chars (List.replicate count c)), rest)
      | _ => none
    | _ => none
  | _ => none

/-- The members of a set. The number bounds the characters that are left. -/
def membersWithin : Nat → Chars → Except Chars (List Member)
  | 0, _ => .ok []
  | bound + 1, chars => do
    match readBracket? chars with
    | some (member, rest) => return (← member) :: (← membersWithin bound rest)
    | none =>
      match readChar chars with
      | none => return []
      | some (first, '-' :: rest) =>
        match readChar rest with
        | none => return .chars [first] :: (← membersWithin bound ('-' :: rest))
        | some (last, rest) =>
          if last < first then
            throw ("range-endpoints of '".toList ++ [first, '-', last] ++
              "' are in reverse collating sequence order".toList)
          let range := allChars.filter fun c => first ≤ c && c ≤ last
          return .chars range :: (← membersWithin bound rest)
      | some (c, rest) => return .chars [c] :: (← membersWithin bound rest)

def members (chars : Chars) : Except Chars (List Member) :=
  membersWithin chars.length chars

/-- The characters of a set, made so long by its filler. -/
def expand (members : List Member) (length : Nat) : Chars :=
  let fixed := (members.map fun | .chars chars => chars.length | .filler _ => 0).foldl (· + ·) 0
  members.flatMap fun
    | .chars chars => chars
    | .filler c => List.replicate (length - fixed) c

/-- Keeps only the first of several equal characters in a row, of those that are meant. -/
def squeeze (p : Char → Bool) (text : Chars) : Chars :=
  (text.foldl (fun kept c => if p c && kept.head? = some c then kept else c :: kept) []).reverse

def replace (first second : Chars) (text : Chars) : Chars :=
  let padded := second ++ List.replicate (first.length - second.length) (second.getLastD ' ')
  let table := (first.zip padded).reverse
  text.map fun c => (table.lookup c).getD c

/-- What is wrong with the number of sets, if anything is. -/
def countFault? (told : Told) : Option Chars :=
  let needless (more : String) : Chars :=
    "extra operand '".toList ++ (told.operands.getLast?.getD []) ++ ['\''] ++ more.toList
  match told.has 'd', told.has 's', told.operands with
  | _, _, [] => some "missing operand".toList
  | false, false, [first] =>
    some ("missing operand after '".toList ++ first ++
      "'\nTwo strings must be given when translating.".toList)
  | true, true, [first] =>
    some ("missing operand after '".toList ++ first ++
      "'\nTwo strings must be given when both deleting and squeezing repeats.".toList)
  | true, false, [_, _] =>
    some (needless "\nOnly one string may be given when deleting without squeezing repeats.")
  | _, _, _ :: _ :: extra :: _ => some ("extra operand '".toList ++ extra ++ ['\''])
  | _, _, _ => none

def run : Program := fun call =>
  match tell flags call.args with
  | .error fault => call.refuse fault
  | .ok told =>
    match countFault? told with
    | some message => call.failWithHelp message 1
    | none =>
      let sets : Except Chars (List (List Member)) := told.operands.mapM members
      match sets with
      | .error message => call.fail message
      | .ok sets =>
        let complements := told.has 'c' || told.has 'C'
        let whole := expand (sets.headD []) 0
        let first := if complements then allChars.filter (!whole.contains ·) else whole
        let second := expand (sets.tail.headD []) first.length
        let replaces := !told.has 'd' && sets.length = 2
        if replaces && second = [] && !told.has 't' then
          call.fail "when not truncating set1, string2 must be non-empty".toList
        else
          match call.inputFault with
          | some reason => call.fail ("read error: ".toList ++ reason.toList)
          | none =>
          let text := call.input
          let text := if told.has 'd' then text.filter (!first.contains ·) else text
          let text :=
            if replaces then
              replace (if told.has 't' then first.take second.length else first) second text
            else text
          let squeezed := if sets.length = 2 then second else first
          .printing (if told.has 's' then squeeze squeezed.contains text else text)

end CallFlow.Layout.Tool.Transliteration
