import CallFlow.Layout.Script.Numeral

namespace CallFlow.Layout.Script.Mask

def full : Nat := 0o777

/-- The letters of those whose permissions a mask tells, with the places of their bits. -/
def holders : List (Char × Nat) :=
  [('u', 6), ('g', 3), ('o', 0)]

def permissions : List (Char × Nat) :=
  [('r', 4), ('w', 2), ('x', 1)]

def digits (mask : Nat) : Chars :=
  let digits := toDigits 8 mask
  List.replicate (4 - digits.length) '0' ++ digits

def letters (mask : Nat) : Chars :=
  ((holders.map fun (holder, place) =>
    let bits := ((full - mask) >>> place) % 8
    holder :: '=' :: (permissions.filter fun (_, bit) => bits &&& bit ≠ 0).map (·.1)).intersperse
      [',']).flatten

def bitsOf? (permitted : Nat) (letter : Char) : Option Nat :=
  match permissions.lookup letter, holders.lookup letter with
  | some bit, _ => some bit
  | none, some place => some ((permitted >>> place) % 8)
  | none, none =>
    if letter = 'X' then some (if permitted &&& 0o111 ≠ 0 then 1 else 0)
    else if letter = 's' then some 0
    else none

def change (holder : Nat) (sign : Char) (bits permitted : Nat) : Nat :=
  let bits := bits * holder
  let kept := permitted - (permitted &&& bits)
  match sign with
  | '+' => kept + bits
  | '-' => kept
  | _ => permitted - (permitted &&& (7 * holder)) + bits

def isSign (c : Char) : Bool :=
  c = '+' || c = '-' || c = '='

mutual

/-- Reads whom changes are about, which are all if none are named. The first number bounds the
characters that are left; the second has a bit for each holder that is named already. -/
def holdersWithin : Nat → (holder : Nat) → Chars → (permitted : Nat) → Option Nat
  | 0, _, _, _ => none
  | _, _, [], permitted => some permitted
  | bound + 1, holder, c :: rest, permitted =>
    match if c = 'a' then some 0o111 else (holders.lookup c).map (Nat.pow 2) with
    | some more => holdersWithin bound (holder ||| more) rest permitted
    | none => changesWithin bound (if holder = 0 then 0o111 else holder) (c :: rest) permitted

def changesWithin : Nat → (holder : Nat) → Chars → (permitted : Nat) → Option Nat
  | 0, _, _, _ => none
  | _, _, [], permitted => some permitted
  | bound + 1, holder, c :: rest, permitted =>
    if isSign c then
      let given := rest.takeWhile fun c => !isSign c && c ≠ ','
      match given.mapM (bitsOf? permitted), rest.drop given.length with
      | none, _ => none
      | some bits, left =>
        let permitted := change holder c (bits.foldl (· ||| ·) 0) permitted
        match left with
        | ',' :: rest => holdersWithin bound 0 rest permitted
        | left => changesWithin bound holder left permitted
    else none

end

def ofDigits? (text : Chars) : Option Nat :=
  if text.all (isDigitOf 8) then some (ofDigits 8 text % (full + 1)) else none

def ofChanges? (text : Chars) (mask : Nat) : Option Nat :=
  (holdersWithin (2 * text.length + 2) 0 text (full - mask)).map (full - ·)

end CallFlow.Layout.Script.Mask
