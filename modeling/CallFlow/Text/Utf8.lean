namespace CallFlow.Text.Utf8

def replacement : Char := Char.ofNat 0xFFFD

/-- The ranges in which the bytes after a first byte have to lie. -/
def followRanges (first : UInt8) : Option (List (UInt8 × UInt8)) :=
  let any : UInt8 × UInt8 := (0x80, 0xBF)
  if first < 0x80 then some []
  else if 0xC2 ≤ first && first ≤ 0xDF then some [any]
  else if first = 0xE0 then some [(0xA0, 0xBF), any]
  else if first = 0xED then some [(0x80, 0x9F), any]
  else if 0xE1 ≤ first && first ≤ 0xEF then some [any, any]
  else if first = 0xF0 then some [(0x90, 0xBF), any, any]
  else if first = 0xF4 then some [(0x80, 0x8F), any, any]
  else if 0xF1 ≤ first && first ≤ 0xF3 then some [any, any, any]
  else none

/-- How many bytes at the start of a text lie in the given ranges. -/
def fitting : List (UInt8 × UInt8) → List UInt8 → Nat
  | (low, high) :: ranges, b :: rest =>
    if low ≤ b && b ≤ high then fitting ranges rest + 1 else 0
  | _, _ => 0

/-- The bits of a first byte that belong to the character, if so many bytes follow. -/
def leadBits (first : UInt8) : Nat → Nat
  | 0 => first.toNat
  | 1 => first.toNat % 0x20
  | 2 => first.toNat % 0x10
  | _ => first.toNat % 0x8

def charOf (first : UInt8) (follow : List UInt8) : Char :=
  Char.ofNat
    (follow.foldl (fun value b => value * 0x40 + b.toNat % 0x40) (leadBits first follow.length))

def decodeChars : List UInt8 → List Char
  | [] => []
  | first :: rest =>
    match followRanges first with
    | none => replacement :: decodeChars rest
    | some ranges =>
      let taken := fitting ranges rest
      let c := if taken = ranges.length then charOf first (rest.take taken) else replacement
      c :: decodeChars (rest.drop taken)
termination_by bytes => bytes.length
decreasing_by all_goals simp only [List.length_cons, List.length_drop]; omega

def decode (bytes : List UInt8) : String :=
  String.ofList (decodeChars bytes)

end CallFlow.Text.Utf8
