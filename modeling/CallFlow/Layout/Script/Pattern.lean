import CallFlow.Layout.Program

namespace CallFlow.Layout.Script.Pattern

/-- A character with whether it is quoted. -/
abbrev Marked := Char × Bool

/-- What stands for one character, or for several. -/
inductive Atom where
  | literal (c : Char)
  | anyChar
  | anyText
  | oneOf (negated : Bool) (ranges : List (Char × Char)) (classes : List (Char → Bool))

def namedClasses : List (String × (Char → Bool)) :=
  [("alnum", Char.isAlphanum), ("alpha", Char.isAlpha), ("digit", Char.isDigit),
    ("lower", Char.isLower), ("upper", Char.isUpper), ("blank", fun c => c = ' ' || c = '\t'),
    ("space", fun c => c = ' ' || (0x9 ≤ c.toNat && c.toNat ≤ 0xD)),
    ("cntrl", fun c => c.toNat < 0x20 || c.toNat = 0x7F),
    ("graph", fun c => 0x21 ≤ c.toNat && c.toNat ≤ 0x7E),
    ("print", fun c => 0x20 ≤ c.toNat && c.toNat ≤ 0x7E),
    ("punct", fun c => 0x21 ≤ c.toNat && c.toNat ≤ 0x7E && !c.isAlphanum),
    ("xdigit", fun c => c.isDigit || ('a' ≤ c && c ≤ 'f') || ('A' ≤ c && c ≤ 'F'))]

def classHere? (chars : List Marked) : Option ((Char → Bool) × List Marked) :=
  namedClasses.findSome? fun (name, p) =>
    let written := ("[:" ++ name ++ ":]").toList
    if written.isPrefixOf (chars.map (·.1)) then some (p, chars.drop written.length) else none

structure Bracket where
  ranges : List (Char × Char)
  classes : List (Char → Bool)
  rest : List Marked

/-- Reads what stands between brackets. A closing bracket at the beginning stands for itself. The
number bounds the characters that are left. -/
def bracketWithin : Nat → (isFirst : Bool) → List Marked → Option Bracket
  | 0, _, _ => none
  | _, _, [] => none
  | bound + 1, isFirst, (c, isQuoted) :: rest =>
    if c = ']' && !isQuoted && !isFirst then some { ranges := [], classes := [], rest }
    else
      match if c = '[' && !isQuoted then classHere? ((c, isQuoted) :: rest) else none with
      | some (p, left) =>
        (bracketWithin bound false left).map fun bracket =>
          { bracket with classes := p :: bracket.classes }
      | none =>
        match rest with
        | ('-', false) :: (last, lastQuoted) :: more =>
          if last = ']' && !lastQuoted then single bound c rest
          else
            (bracketWithin bound false more).map fun bracket =>
              { bracket with ranges := (c, last) :: bracket.ranges }
        | _ => single bound c rest
where
  single (bound : Nat) (c : Char) (rest : List Marked) : Option Bracket :=
    (bracketWithin bound false rest).map fun bracket =>
      { bracket with ranges := (c, c) :: bracket.ranges }

/-- The atoms of a pattern. A bracket that is never closed stands for itself. The number bounds the
characters that are left. -/
def atomsWithin : Nat → List Marked → List Atom
  | 0, _ => []
  | _, [] => []
  | bound + 1, (c, true) :: rest => .literal c :: atomsWithin bound rest
  | bound + 1, ('*', false) :: rest => .anyText :: atomsWithin bound rest
  | bound + 1, ('?', false) :: rest => .anyChar :: atomsWithin bound rest
  | bound + 1, ('[', false) :: rest =>
    let (negated, body) : Bool × List Marked := match rest with
      | ('!', false) :: body => (true, body)
      | _ => (false, rest)
    match bracketWithin (body.length + 1) true body with
    | some bracket => .oneOf negated bracket.ranges bracket.classes :: atomsWithin bound bracket.rest
    | none => .literal '[' :: atomsWithin bound rest
  | bound + 1, (c, false) :: rest => .literal c :: atomsWithin bound rest

def ofMarked (chars : List Marked) : List Atom :=
  atomsWithin chars.length chars

def Atom.fits (c : Char) : Atom → Bool
  | literal d => c = d
  | anyChar => true
  | anyText => false
  | oneOf negated ranges classes =>
    (ranges.any (fun (first, last) => first ≤ c && c ≤ last) || classes.any (· c)) != negated

/-- The lengths of the beginnings of a text that a pattern stands for, the shortest first. -/
def beginnings : List Atom → Chars → List Nat
  | [], _ => [0]
  | .anyText :: atoms, [] => beginnings atoms []
  | .anyText :: atoms, c :: rest =>
    merge (beginnings atoms (c :: rest)) ((beginnings (.anyText :: atoms) rest).map (· + 1))
  | _ :: _, [] => []
  | atom :: atoms, c :: rest => if atom.fits c then (beginnings atoms rest).map (· + 1) else []
where
  /-- Puts two rising lists together. -/
  merge : List Nat → List Nat → List Nat
    | [], ns => ns
    | ms, [] => ms
    | m :: ms, n :: ns =>
      if m < n then m :: merge ms (n :: ns)
      else if n < m then n :: merge (m :: ms) ns
      else m :: merge ms ns

def matchesAll (atoms : List Atom) (text : Chars) : Bool :=
  (beginnings atoms text).getLast? = some text.length

/-- Cuts off the shortest or the longest beginning that a pattern stands for. -/
def cutStart (longest : Bool) (atoms : List Atom) (text : Chars) : Chars :=
  let lengths := beginnings atoms text
  match if longest then lengths.getLast? else lengths.head? with
  | some length => text.drop length
  | none => text

def cutEnd (longest : Bool) (atoms : List Atom) (text : Chars) : Chars :=
  let fits (kept : Nat) : Bool := matchesAll atoms (text.drop kept)
  let places := (List.range (text.length + 1)).filter fits
  match if longest then places.head? else places.getLast? with
  | some kept => text.take kept
  | none => text

end CallFlow.Layout.Script.Pattern
