import CallFlow.Layout.Script.Fraction
import CallFlow.Layout.Tool.Line

namespace CallFlow.Layout.Tool.Series

def integer? (text : Chars) : Option Int :=
  match text with
  | '-' :: digits => (natural? digits).map fun value => -(value : Int)
  | '+' :: digits => (natural? digits).map Int.ofNat
  | digits => (natural? digits).map Int.ofNat
where
  natural? (digits : Chars) : Option Nat :=
    if digits ≠ [] && digits.all Char.isDigit then
      some (digits.foldl (fun value d => value * 10 + (d.toNat - '0'.toNat)) 0)
    else none

def numbers (first step last : Int) : List Int :=
  let distance := if step > 0 then last - first else first - last
  if distance < 0 || step = 0 then []
  else (List.range (distance / step.natAbs + 1).toNat).map fun (n : Nat) => first + n * step

def isNegativeNumber (arg : Chars) : Bool :=
  arg.head? = some '-' && arg.tail.head?.any Char.isDigit

/-- A number with zeros that make it so wide. -/
def padded (width : Nat) (value : Int) : Chars :=
  let digits := (toString value.natAbs).toList
  let sign := if value < 0 then ['-'] else []
  sign ++ List.replicate (width - digits.length - sign.length) '0' ++ digits

def seq : Program := fun call =>
  let flags : List Flag :=
    [.setting 's' (some "separator"), .switch 'w' (some "equal-width"), .setting 'f' (some "format")]
  -- A negative number is no flag.
  let args := match call.args.findIdx? isNegativeNumber with
    | some place => call.args.take place ++ [['-', '-']] ++ call.args.drop place
    | none => call.args
  match tell flags (if call.args.contains ['-', '-'] then call.args else args) with
  | .error fault => call.refuse fault
  | .ok told =>
    match told.operands.find? (integer? · |>.isNone), told.operands.filterMap integer? with
    | some operand, _ =>
      call.failWithHelp ("invalid floating point argument: '".toList ++ operand ++ ['\'']) 1
    | none, [] => call.failWithHelp "missing operand".toList 1
    | none, [last] => printed told call (numbers 1 1 last)
    | none, [first, last] => printed told call (numbers first 1 last)
    | none, [first, step, last] =>
      if step = 0 then
        call.failWithHelp ("invalid Zero increment value: '".toList ++
          (told.operands[1]?.getD []) ++ ['\'']) 1
      else printed told call (numbers first step last)
    | none, _ :: _ :: _ :: _ =>
      call.failWithHelp ("extra operand '".toList ++ (told.operands[3]?.getD []) ++ ['\'']) 1
where
  printed (told : Told) (call : Call) (numbers : List Int) : Outcome :=
    let width := if told.has 'w' then ((numbers.map fun n => (toString n).length).foldl max 0) else 0
    let separator := (told.value? 's').getD ['\n']
    let cells := numbers.map (padded width)
    { Outcome.printing (if cells = [] then [] else (cells.intersperse separator).flatten ++ ['\n'])
      with left := call.input }

/-- Whether a text is a time to wait: a number that is not negative, with a unit or without. -/
def isInterval (text : Chars) : Bool :=
  match Script.Fraction.read? text with
  | some found =>
    !found.fraction.isNegative && (found.rest = [] || found.rest.length = 1 &&
      found.rest.all "smhd".toList.contains)
  | none => false

def sleep : Program := fun call =>
  match tell [] call.args with
  | .error fault => call.refuse fault
  | .ok told =>
    let wrong := told.operands.filter fun operand => !isInterval operand
    if told.operands = [] then call.failWithHelp "missing operand".toList 1
    else if wrong = [] then Outcome.refusing [] 0 call
    else
      let complaints := wrong.map fun operand =>
        "invalid time interval '".toList ++ operand ++ ['\'']
      let before := (complaints.dropLast.map call.complaint).flatten
      let outcome := call.failWithHelp (complaints.getLast?.getD []) 1
      { outcome with errors := before ++ outcome.errors }

def yes : Program := fun call =>
  let words := if call.args = [] then [['y']] else call.args
  let line := (words.intersperse [' ']).flatten ++ ['\n']
  { output := (List.replicate (131072 / line.length + 1) line).flatten
    errors := [], ending := .killed 13, left := call.input }

def echo : Program := fun call =>
  let (keepsEnd, words) : Bool × List Chars := match call.args with
    | ['-', 'n'] :: rest => (true, rest)
    | words => (false, words)
  { Outcome.printing ((words.intersperse [' ']).flatten ++ if keepsEnd then [] else ['\n'])
    with left := call.input }

def trimmed (path : Chars) : Chars :=
  match (path.reverse.dropWhile (· = '/')).reverse with
  | [] => path.take 1
  | trimmed => trimmed

def basename : Program := fun call =>
  match call.args with
  | [] => call.failWithHelp "missing operand".toList 1
  | path :: rest =>
    let path := trimmed path
    let name := if path = ['/'] then path else (path.reverse.takeWhile (· ≠ '/')).reverse
    let ending := rest.headD []
    let name :=
      if ending.isSuffixOf name && ending ≠ name then name.take (name.length - ending.length)
      else name
    { Outcome.printing (name ++ ['\n']) with left := call.input }

def dirname : Program := fun call =>
  match call.args with
  | [] => call.failWithHelp "missing operand".toList 1
  | paths =>
    let parentOf (path : Chars) : Chars :=
      match ((trimmed path).reverse.dropWhile (· ≠ '/')).reverse with
      | [] => ['.']
      | parent => if path.all (· = '/') then ['/'] else trimmed parent
    { Outcome.printing (unlines (paths.map parentOf)) with left := call.input }

end CallFlow.Layout.Tool.Series
