import CallFlow.Layout.Tool.Line

namespace CallFlow.Layout.Tool.Arrangement

/-- The contents of files together, or a complaint about the first that cannot be read. -/
def contents (call : Call) (told : Told) (wording : Call.Text → String → Chars) :
    Except Chars Chars :=
  (call.texts told.operands).foldlM (fun before text =>
    match text.content with
    | .ok content => .ok (before ++ content)
    | .error reason => .error (call.complaint (wording text reason))) []

def plainWording (text : Call.Text) (reason : String) : Chars :=
  Call.shown text.name ++ ": ".toList ++ reason.toList

def process (flags : List Flag) (failed : Nat) (wording : Call.Text → String → Chars)
    (work : Told → Chars → Chars) : Program := fun call =>
  match tell flags call.args with
  | .error fault => { call.refuse fault with ending := .exited failed }
  | .ok told =>
    match contents call told wording with
    | .error message => Outcome.refusing message failed call
    | .ok text =>
      { Outcome.printing (work told text) with left := call.leftBehind told.operands }

/-- The number at the start of a line, as a whole part and the digits behind its point. -/
structure Leading where
  isNegative : Bool
  whole : Nat
  part : Chars

namespace Leading

def ofLine (line : Chars) : Leading :=
  let line := line.dropWhile fun c => c = ' ' || c = '\t'
  let isNegative := line.head? = some '-'
  let line := if isNegative then line.tail else line
  let digits := line.takeWhile Char.isDigit
  let part := match line.drop digits.length with
    | '.' :: rest => (((rest.takeWhile Char.isDigit).reverse).dropWhile (· = '0')).reverse
    | _ => []
  { isNegative, part
    whole := digits.foldl (fun value d => value * 10 + (d.toNat - '0'.toNat)) 0 }

def isZero (number : Leading) : Bool :=
  number.whole = 0 && number.part = []

def compareSizes (a b : Leading) : Ordering :=
  (compare a.whole b.whole).then (compareOfLessAndEq a.part b.part)

def compare (a b : Leading) : Ordering :=
  match a.isNegative && !a.isZero, b.isNegative && !b.isZero with
  | false, false => compareSizes a b
  | true, true => compareSizes b a
  | true, false => .lt
  | false, true => .gt

end Leading

def sortFlags : List Flag :=
  [.switch 'r' (some "reverse"), .switch 'n' (some "numeric-sort"), .switch 'u' (some "unique"),
    .switch 'f' (some "ignore-case"), .switch 's' (some "stable"),
    .switch 'b' (some "ignore-leading-blanks"), .setting 'k' (some "key"),
    .setting 't' (some "field-separator")]

def fieldsOf (separator : Option Char) (line : Chars) : List Chars :=
  match separator with
  | some c => Text.pieces c line
  | none => blankFields line.length line
where
  blankFields : Nat → Chars → List Chars
    | 0, _ => []
    | _, [] => []
    | bound + 1, line =>
      let isBlank (c : Char) : Bool := c = ' ' || c = '\t'
      let blanks := line.takeWhile isBlank
      let word := (line.drop blanks.length).takeWhile (!isBlank ·)
      (blanks ++ word) :: blankFields bound (line.drop (blanks.length + word.length))

/-- The part of a line by which it is sorted: from one field on, and up to another. -/
def keyOf (separator : Option Char) (value : Chars) (line : Chars) : Chars :=
  let number (text : Chars) : Nat :=
    (text.takeWhile Char.isDigit).foldl (fun value d => value * 10 + (d.toNat - '0'.toNat)) 0
  let first := value.takeWhile (· ≠ ',')
  let last := value.drop (first.length + 1)
  let fields := (fieldsOf separator line).drop (number first - 1)
  let fields := if last = [] then fields else fields.take (number last + 1 - number first)
  match separator with
  | some c => (fields.intersperse [c]).flatten
  | none => fields.flatten

/-- The order of two lines, unless all of them is compared at last. -/
def sortOrder (told : Told) (a b : Chars) : Ordering :=
  let separator := (told.value? 't').bind List.head?
  let value := (told.value? 'k').getD []
  let isAsked (letter : Char) : Bool := told.has letter || value.contains letter
  let key (line : Chars) : Chars :=
    let key := if value = [] then line else keyOf separator value line
    let key := if isAsked 'b' then key.dropWhile fun c => c = ' ' || c = '\t' else key
    if isAsked 'f' then key.map Char.toUpper else key
  let order :=
    if isAsked 'n' then (Leading.ofLine (key a)).compare (Leading.ofLine (key b))
    else compareOfLessAndEq (key a) (key b)
  if isAsked 'r' then order.swap else order

def sort : Program :=
  process sortFlags 2 (fun text reason =>
      let step :=
        if reason = FileFault.reason .isDirectory then "read failed: "
        else if reason = Call.closed then "stat failed: "
        else "cannot read: "
      step.toList ++ Call.shown text.name ++ ": ".toList ++ reason.toList)
    fun told text =>
      let order (a b : Chars) : Ordering :=
        let order := sortOrder told a b
        if told.has 's' || told.has 'u' then order
        else
          let whole := compareOfLessAndEq a b
          order.then (if told.has 'r' then whole.swap else whole)
      let sorted := (bareLines text).mergeSort fun a b => order a b ≠ .gt
      unlines (if told.has 'u' then firsts (fun a b => sortOrder told a b = .eq) sorted else sorted)
where
  /-- Keeps the first of several lines in a row that count as equal. -/
  firsts (same : Chars → Chars → Bool) (lines : List Chars) : List Chars :=
    (lines.foldl (fun kept line =>
      match kept with
      | last :: _ => if same last line then kept else line :: kept
      | [] => [line]) []).reverse

/-- Lines with the number of times that they stand in a row. -/
def runsOf (same : Chars → Chars → Bool) (lines : List Chars) : List (Nat × Chars) :=
  (lines.foldl (fun runs line =>
    match runs with
    | (count, last) :: before =>
      if same last line then (count + 1, last) :: before else (1, line) :: runs
    | [] => [(1, line)]) []).reverse

def uniq : Program :=
  process [.switch 'c' (some "count"), .switch 'd' (some "repeated"), .switch 'u' (some "unique"),
      .switch 'i' (some "ignore-case")] 1
    (fun text reason =>
      if reason = FileFault.reason .isDirectory || reason = Call.closed then
        "error reading '".toList ++ text.name ++ "': ".toList ++ reason.toList
      else plainWording text reason)
    fun told text =>
      let same (a b : Chars) : Bool :=
        if told.has 'i' then a.map Char.toLower = b.map Char.toLower else a = b
      let runs := (runsOf same (bareLines text)).filter fun (count, _) =>
        (!told.has 'd' || count > 1) && (!told.has 'u' || count = 1)
      runs.flatMap fun (count, line) =>
        let digits := (toString count).toList
        (if told.has 'c' then List.replicate (7 - digits.length) ' ' ++ digits ++ [' '] else []) ++
          line ++ ['\n']

def tac : Program :=
  process [] 1 (fun text reason =>
      let name := Call.shown (Call.spelled text.name)
      if reason = FileFault.reason .isDirectory then name ++ ": read error: Invalid argument".toList
      else if reason = Call.closed then name ++ ": read error: ".toList ++ reason.toList
      else "failed to open '".toList ++ text.name ++ "' for reading: ".toList ++ reason.toList)
    fun _ text => (lines text).reverse.flatten

def rev : Program :=
  process [] 1 (fun text reason =>
      "cannot open ".toList ++ text.name ++ ": ".toList ++ reason.toList)
    fun _ text => (lines text).flatMap fun line =>
      (bare line).reverse ++ if line.getLast? = some '\n' then ['\n'] else []

def isListed (list : Chars) (number : Nat) : Bool :=
  (Text.pieces ',' list).any fun range =>
    let value (text : Chars) : Nat :=
      text.foldl (fun value d => value * 10 + (d.toNat - '0'.toNat)) 0
    let first := range.takeWhile (· ≠ '-')
    if first.length = range.length then value range = number
    else
      let last := range.drop (first.length + 1)
      value first ≤ number && (last = [] || number ≤ value last)

def listed {α : Type} (list : Chars) (parts : List α) : List α :=
  (parts.zip (List.range parts.length)).filterMap fun (part, n) =>
    if isListed list (n + 1) then some part else none

def cut : Program := fun call =>
  let flags : List Flag :=
    [.setting 'b' (some "bytes"), .setting 'c' (some "characters"), .setting 'f' (some "fields"),
      .setting 'd' (some "delimiter"), .switch 's' (some "only-delimited"), .switch 'n' none]
  match tell flags call.args with
  | .error fault => call.refuse fault
  | .ok told =>
    let chars := (told.value? 'c').or (told.value? 'b')
    match chars, told.value? 'f' with
    | none, none =>
      call.failWithHelp "you must specify a list of bytes, characters, or fields".toList 1
    | some _, some _ => call.failWithHelp "only one list may be specified".toList 1
    | chars, list =>
      let separator := ((told.value? 'd').bind List.head?).getD '\t'
      process flags 1 plainWording (fun told text =>
        unlines ((bareLines text).filterMap fun line =>
          match chars with
          | some list => some (listed list line)
          | none =>
            if !line.contains separator then if told.has 's' then none else some line
            else
              some ((listed (list.getD []) (Text.pieces separator line)).intersperse
                [separator]).flatten)) call

end CallFlow.Layout.Tool.Arrangement
