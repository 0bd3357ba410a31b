import CallFlow.Layout.Script.Fraction

namespace CallFlow.Layout.Script

def escapes : List (Char × Nat) :=
  [('\\', 0x5C), ('a', 0x07), ('b', 0x08), ('e', 0x1B), ('f', 0x0C), ('n', 0x0A), ('r', 0x0D),
    ('t', 0x09), ('v', 0x0B)]

/-- What a backslash and what follows it stand for, and what is left. Up to three octal digits are
the number of a character. -/
def unescape (chars : Chars) : Char × Chars :=
  match chars with
  | [] => ('\\', [])
  | c :: rest =>
    match escapes.lookup c with
    | some code => (Char.ofNat code, rest)
    | none =>
      match (chars.take 3).takeWhile (isDigitOf 8) with
      | [] => ('\\', chars)
      | digits => (Char.ofNat (ofDigits 8 digits % 256), chars.drop digits.length)

/-- Writes a text with its escapes, and says whether it asks to stop. The number bounds the
characters that are left. -/
def unescapeWithin : Nat → Chars → Chars × Bool
  | 0, _ => ([], false)
  | _, [] => ([], false)
  | bound + 1, '\\' :: rest =>
    match rest with
    | 'c' :: _ => ([], true)
    | '0' :: d :: more =>
      let (c, left) := unescape (if isDigitOf 8 d then d :: more else rest)
      let (text, stops) := unescapeWithin bound left
      (c :: text, stops)
    | _ =>
      let (c, left) := unescape rest
      let (text, stops) := unescapeWithin bound left
      (c :: text, stops)
  | bound + 1, c :: rest =>
    let (text, stops) := unescapeWithin bound rest
    (c :: text, stops)

def unescapeAll (text : Chars) : Chars × Bool :=
  unescapeWithin text.length text

def echo (keepsEnd : Bool) : List Chars → Chars
  | [] => if keepsEnd then [] else ['\n']
  | word :: rest =>
    match unescapeAll word, rest with
    | (text, true), _ => text
    | (text, false), [] => text ++ echo keepsEnd []
    | (text, false), rest => text ++ ' ' :: echo keepsEnd rest

/-- A number in a directive: it stands there, or the next argument gives it. -/
inductive Amount where
  | fixed (count : Nat)
  | given
  deriving DecidableEq, Repr

/-- What stands in a format for an argument. -/
structure Directive where
  written : Chars
  marks : Chars
  width : Amount
  precision : Option Amount
  kind : Char
  deriving DecidableEq, Repr

inductive FormatPiece where
  | literal (c : Char)
  | directive (directive : Directive)
  | unfinished
  deriving DecidableEq, Repr

def amount (chars : Chars) : Amount × Chars :=
  match chars with
  | '*' :: rest => (.given, rest)
  | _ =>
    let digits := chars.takeWhile Char.isDigit
    (.fixed (ofDigits 10 digits), chars.drop digits.length)

def directive (chars : Chars) : FormatPiece × Chars :=
  let marks := chars.takeWhile fun c => "#-+ 0".toList.contains c
  let (width, afterWidth) := amount (chars.drop marks.length)
  let (precision, left) : Option Amount × Chars := match afterWidth with
    | '.' :: rest => ((amount rest).map some id)
    | _ => (none, afterWidth)
  match left with
  | [] => (.unfinished, [])
  | kind :: rest =>
    let written := '%' :: chars.take (chars.length - rest.length)
    (.directive { written, marks, width, precision, kind }, rest)

def formatPieces : Nat → Chars → List FormatPiece
  | 0, _ => []
  | _, [] => []
  | bound + 1, '\\' :: rest =>
    let (c, left) := unescape rest
    .literal c :: formatPieces bound left
  | bound + 1, '%' :: '%' :: rest => .literal '%' :: formatPieces bound rest
  | bound + 1, '%' :: rest =>
    let (piece, left) := directive rest
    piece :: formatPieces bound left
  | bound + 1, c :: rest => .literal c :: formatPieces bound rest

/-- How the text of an argument is set. -/
structure Setting where
  marks : Chars
  width : Nat
  precision : Option Nat

namespace Setting

def isLeft (setting : Setting) : Bool :=
  setting.marks.contains '-'

def pad (setting : Setting) (text : Chars) : Chars :=
  let blanks := List.replicate (setting.width - text.length) ' '
  if setting.isLeft then text ++ blanks else blanks ++ text

/-- A text, of which no more is taken than the precision says. -/
def text (setting : Setting) (text : Chars) : Chars :=
  setting.pad (match setting.precision with
    | some count => text.take count
    | none => text)

/-- A number with its sign. The precision is the least count of digits; zeros fill up to the width
if neither a precision nor the left is asked for. -/
def number (setting : Setting) (sign digits : Chars) : Chars :=
  let least := setting.precision.getD 1
  let digits := List.replicate (least - digits.length) '0' ++ digits
  if setting.marks.contains '0' && !setting.isLeft && setting.precision = none then
    sign ++ List.replicate (setting.width - sign.length - digits.length) '0' ++ digits
  else setting.pad (sign ++ digits)

/-- The digits of a number. A zero has none where the precision is zero. -/
def digits (setting : Setting) (base value : Nat) : Chars :=
  if value = 0 then if setting.precision = some 0 then [] else ['0'] else toDigits base value

def sign (setting : Setting) (isNegative : Bool) : Chars :=
  if isNegative then ['-'] else if setting.marks.contains '+' then ['+']
  else if setting.marks.contains ' ' then [' '] else []

def signed (setting : Setting) (value : Int) : Chars :=
  setting.number (setting.sign (value < 0)) (setting.digits 10 value.natAbs)

def natural (setting : Setting) (kind : Char) (value : Nat) : Chars :=
  let isMarked := setting.marks.contains '#'
  match kind with
  | 'o' =>
    let digits := setting.digits 8 value
    let filled := List.replicate (setting.precision.getD 1 - digits.length) '0' ++ digits
    setting.number [] (if isMarked && filled.head? ≠ some '0' then '0' :: filled else filled)
  | 'u' => setting.number [] (setting.digits 10 value)
  | 'x' => setting.number (if isMarked && value ≠ 0 then ['0', 'x'] else []) (setting.digits 16 value)
  | _ =>
    setting.number (if isMarked && value ≠ 0 then ['0', 'X'] else [])
      ((setting.digits 16 value).map Char.toUpper)

/-- A number with a fraction. Only finite numbers are filled up with zeros. -/
def fraction (setting : Setting) (kind : Char) (value : Fraction) : Chars :=
  let cased (text : Chars) : Chars := if kind.isUpper then text.map Char.toUpper else text
  let sign := setting.sign value.isNegative
  match value.size with
  | .finite number =>
    let lead := sign ++ if kind.toLower = 'a' then cased ['0', 'x'] else []
    let digits := cased
      (Fraction.text kind (setting.marks.contains '#') setting.precision number)
    if setting.marks.contains '0' && !setting.isLeft then
      lead ++ List.replicate (setting.width - lead.length - digits.length) '0' ++ digits
    else setting.pad (lead ++ digits)
  | .infinite => setting.pad (sign ++ cased "inf".toList)
  | .undefined => setting.pad (sign ++ cased "nan".toList)

end Setting

/-- How far a format is written: what is written, the complaints about arguments, and the arguments
that are left. -/
structure Progress where
  output : Chars
  complaints : List Chars
  args : List Chars
  failure : Option Chars
  isDone : Bool

namespace Progress

def write (progress : Progress) (text : Chars) : Progress :=
  { progress with output := progress.output ++ text }

def next (progress : Progress) : Chars × Progress :=
  (progress.args.headD [], { progress with args := progress.args.tail })

def complain (progress : Progress) (arg : Chars) (message : String) : Progress :=
  { progress with complaints := progress.complaints ++ [arg ++ ": ".toList ++ message.toList] }

def fail (progress : Progress) (message : Chars) : Progress :=
  { progress with failure := some message, isDone := true }

/-- What an argument means as a number, with a complaint if it is none as a whole. Reading tells the
number, whether it fits, and what is left of the text. A quotation mark asks for the number of the
character behind it. -/
def numeric {α : Type} (progress : Progress) (read? : Chars → Option (α × Bool × Chars))
    (ofNat : Nat → α) : α × Progress :=
  match progress.args with
  | [] => (ofNat 0, progress)
  | arg :: args =>
    let progress := { progress with args }
    if arg.head? = some '"' || arg.head? = some '\'' then
      (ofNat ((arg[1]?.map Char.toNat).getD 0), progress)
    else
      match read? arg with
      | none =>
        (ofNat 0, if arg = [] then progress else progress.complain arg "expected numeric value")
      | some (value, fits, rest) =>
        (value,
          if rest ≠ [] then progress.complain arg "not completely converted"
          else if !fits then progress.complain arg "Numerical result out of range"
          else progress)

def numeral {α : Type} (progress : Progress) (read : Numeral → α × Bool) (ofNat : Nat → α) :
    α × Progress :=
  progress.numeric (fun arg => (Numeral.read? false arg).map fun numeral =>
    let (value, fits) := read numeral
    (value, fits, numeral.rest)) ofNat

def fraction (progress : Progress) : Fraction × Progress :=
  progress.numeric (fun arg => (Fraction.read? arg).map fun found =>
    (found.fraction, found.fits, found.rest)) Fraction.ofNat

/-- What an amount is: a negative one that is given asks for the left instead. -/
def amountOf (progress : Progress) (amount : Amount) : Int × Progress :=
  match amount with
  | .fixed count => (count, progress)
  | .given => progress.numeral Numeral.signed Int.ofNat

def writeDirective (progress : Progress) (directive : Directive) : Progress :=
  let (width, progress) := progress.amountOf directive.width
  let (precision, progress) : Option Int × Progress := match directive.precision with
    | none => (none, progress)
    | some amount => (progress.amountOf amount).map some id
  let setting : Setting :=
    { marks := if width < 0 then '-' :: directive.marks else directive.marks
      width := width.natAbs
      precision := precision.bind fun count => if count < 0 then none else some count.toNat }
  match directive.kind with
  | 's' =>
    let (arg, progress) := progress.next
    progress.write (setting.text arg)
  | 'b' =>
    let (arg, progress) := progress.next
    let (text, stops) := unescapeAll arg
    let progress := progress.write (setting.text text)
    if stops then { progress with isDone := true } else progress
  | 'c' =>
    let (arg, progress) := progress.next
    progress.write (setting.pad [arg.headD '\x00'])
  | 'd' | 'i' =>
    let (value, progress) := progress.numeral Numeral.signed Int.ofNat
    progress.write (setting.signed value)
  | 'o' | 'u' | 'x' | 'X' =>
    let (value, progress) := progress.numeral Numeral.natural id
    progress.write (setting.natural directive.kind value)
  | 'a' | 'A' | 'e' | 'E' | 'f' | 'F' | 'g' | 'G' =>
    let (value, progress) := progress.fraction
    progress.write (setting.fraction directive.kind value)
  | _ => progress.fail (directive.written ++ ": invalid directive".toList)

def writePiece (progress : Progress) (piece : FormatPiece) : Progress :=
  if progress.isDone then progress
  else
    match piece with
    | .literal c => progress.write [c]
    | .directive directive => progress.writeDirective directive
    | .unfinished => progress.fail "missing format character".toList

/-- Writes the pieces again and again for as long as they take up arguments and some are left, at
most so many times. -/
def writeAgain (pieces : List FormatPiece) : Nat → Progress → Progress
  | 0, progress => progress
  | rounds + 1, progress =>
    let after := pieces.foldl writePiece progress
    if after.isDone || after.args = [] || after.args.length = progress.args.length then after
    else writeAgain pieces rounds after

end Progress

def format (text : Chars) (args : List Chars) : Progress :=
  Progress.writeAgain (formatPieces text.length text) (args.length + 1)
    { output := [], complaints := [], args, failure := none, isDone := false }

end CallFlow.Layout.Script
