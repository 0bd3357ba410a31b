import CallFlow.Layout.Script.Wording

namespace CallFlow.Layout.Script.Reader

/-- The lines up to one that consists of the mark, and what follows that, with its line. -/
def documentWithin (doc : Awaited) : Nat → Chars → Nat → Chars × Chars × Nat
  | 0, rest, line => ([], rest, line)
  | bound + 1, rest, line =>
    if rest = [] then ([], [], line)
    else
      let whole := rest.takeWhile (· ≠ '\n')
      let after := rest.drop (whole.length + 1)
      let text := if doc.stripsTabs then whole.dropWhile (· = '\t') else whole
      if text = doc.mark then ([], after, line + 1)
      else
        let (more, left) := documentWithin doc bound after (line + 1)
        (text ++ (if whole.length < rest.length then ['\n'] else []) ++ more, left)

/-- Reads the texts that redirections on the line before feed. -/
def documents (nested : Nested) : Reader Unit := do
  let awaited := (← get).awaited
  modify fun source => { source with awaited := [] }
  awaited.forM fun doc => do
    let source ← get
    let (text, rest, line) := documentWithin doc (source.rest.length + 1) source.rest source.line
    let word ←
      if doc.isVerbatim then pure [Part.quoted text]
      else within text source.line (parts nested .document)
    modify fun source =>
      { source with rest, line, documents := source.documents ++ [(doc.number, word)] }

def redirect (descriptor : Option Nat) : Reader Token := do
  if ← accept '>' then
    let out := descriptor.getD 1
    if ← accept '>' then return .redirect out .append false
    else if ← accept '|' then return .redirect out .overwrite false
    else if ← accept '&' then return .redirect out .copy false
    else return .redirect out .write false
  else
    discard <| accept '<'
    let input := descriptor.getD 0
    if ← accept '<' then
      let stripsTabs ← accept '-'
      let source ← get
      return .redirect input (.document (source.documents.length + source.awaited.length)) stripsTabs
    else if ← accept '&' then return .redirect input .copy false
    else if ← accept '>' then return .redirect input .readWrite false
    else return .redirect input .read false

def wordOrArrow (nested : Nested) : Reader Token := do
  let word ← parts nested .bare
  let isArrow := (← peek).any fun c => c = '<' || c = '>'
  match word with
  | [] => redirect none
  | [.plain [c]] =>
    if isArrow && c.isDigit then redirect (some (c.toNat - '0'.toNat)) else return .word word
  | _ => return .word word

def rawToken (nested : Nested) : Reader Token := do
  let source ← get
  match source.pushed with
  | some token =>
    set { source with pushed := none }
    return token
  | none =>
    skipBlanks
    match ← peek with
    | none => return .ending
    | some '\n' =>
      discard takeRaw
      documents nested
      return .newline
    | some '&' =>
      discard takeRaw
      return if ← accept '&' then .both else .ampersand
    | some '|' =>
      discard takeRaw
      return if ← accept '|' then .either else .bar
    | some ';' =>
      discard takeRaw
      return if ← accept ';' then .endChoice else .semicolon
    | some '(' =>
      discard takeRaw
      return .openParen
    | some ')' =>
      discard takeRaw
      return .closeParen
    | some _ => wordOrArrow nested

/-- Where a token stands: whether newlines before it count for nothing, and whether it can be a
keyword or an alias. -/
structure Place where
  afterNewlines : Bool
  isKeyword : Bool
  isAlias : Bool

def afterNewlines (nested : Nested) : Nat → Token → Reader Token
  | 0, token => return token
  | bound + 1, .newline => do afterNewlines nested bound (← rawToken nested)
  | _, token => return token

/-- Reads the next token, at most so many times with what an alias stands for. -/
def tokenWithin (nested : Nested) : Nat → Place → Reader Token
  | 0, _ => rawToken nested
  | bound + 1, place => do
    let first ← rawToken nested
    let token ←
      if place.afterNewlines then afterNewlines nested (← get).rest.length.succ first
      else pure first
    match token with
    | .word [.plain text] => do
      match if place.isKeyword then Keyword.ofText? text else none with
      | some key => return .keyword key
      | none => do
        let source ← get
        let isAlias := place.isAlias || source.mayExpand
        match if isAlias then source.alias? text else none with
        | some value => do
          set (source.expand text value)
          tokenWithin nested bound { place with isAlias }
        | none => return token
    | _ => return token

/-- How many aliases can follow each other. -/
def aliasBound : Reader Nat := do
  let source ← get
  if source.aliases.isEmpty then return 1
  else
    let texts := (source.aliases.map (·.2.length)).foldl (· + ·) source.aliases.length
    return (source.rest.length + 2) * (texts + 1)

def tokenAt (nested : Nested) (place : Place) : Reader Token := do
  tokenWithin nested (← aliasBound) place

def token (nested : Nested) : Reader Token :=
  tokenAt nested { afterNewlines := false, isKeyword := false, isAlias := false }

def firstToken (nested : Nested) : Reader Token :=
  tokenAt nested { afterNewlines := false, isKeyword := false, isAlias := true }

def keyToken (nested : Nested) : Reader Token :=
  tokenAt nested { afterNewlines := false, isKeyword := true, isAlias := true }

def lineToken (nested : Nested) : Reader Token :=
  tokenAt nested { afterNewlines := true, isKeyword := true, isAlias := true }

def choiceToken (nested : Nested) : Reader Token :=
  tokenAt nested { afterNewlines := true, isKeyword := true, isAlias := false }

/-- The text of a word as far as it is known, and whether any of it is quoted. -/
def literalText (word : Word) : Chars × Bool :=
  let text := word.flatMap fun
    | .plain text => text
    | .quoted text => text
    | .value _ name .whole => '$' :: name
    | _ => []
  (text, word.any fun | .quoted _ => true | _ => false)

def redirectTarget (nested : Nested) (descriptor : Nat) (kind : RedirectKind) (stripsTabs : Bool) :
    Reader Redirect := do
  match ← token nested with
  | .word word =>
    let (text, isQuoted) := literalText word
    match kind with
    | .document number =>
      let awaited : Awaited := { number, mark := text, isVerbatim := isQuoted, stripsTabs }
      modify fun source => { source with awaited := source.awaited ++ [awaited] }
    | _ => pure ()
    return .mk descriptor kind word
  | found => unexpected found

def assignment? (word : Word) : Option (Chars × Word) :=
  match word with
  | .plain text :: rest =>
    let name := text.takeWhile (· ≠ '=')
    let value := text.drop (name.length + 1)
    if isName name && name.length < text.length then
      some (name, if value = [] then rest else .plain value :: rest)
    else none
  | _ => none

/-- The names that functions cannot have, because they mean something that cannot be replaced. -/
def reservedNames : List String :=
  [".", ":", "break", "continue", "eval", "exec", "exit", "export", "readonly", "return", "set",
    "shift", "times", "trap", "unset"]

def patternOf (found : Token) : Reader Word :=
  match found with
  | .word word => return word
  | .keyword key => return [.plain key.text.toList]
  | _ => unexpectedFor .closeParen found

mutual

/-- Reads commands up to the end of a list. A list on the top level ends with its line; elsewhere
it ends before a token that ends lists, once it has begun or if it may be empty. -/
def listWithin (nested : Nested) : Nat → (top mayEnd : Bool) → List Command → Reader (List Command)
  | 0, _, _, before => return before
  | bound + 1, top, mayEnd, before => do
    let next ← if top then keyToken nested else lineToken nested
    match next with
    | .newline => return before
    | .ending =>
      push .ending
      return before
    | next =>
      push next
      if mayEnd && !top && next.endsList then return before
      let command ← andOr nested bound
      let after ← token nested
      let command := match after with
        | .ampersand => Command.background command
        | _ => command
      let commands := before ++ [command]
      match after with
      | .ending =>
        push .ending
        return commands
      | .newline =>
        push .newline
        listWithin nested bound top true commands
      | .ampersand | .semicolon => listWithin nested bound top true commands
      | found =>
        if top then unexpected found
        push found
        return commands

def andOr (nested : Nested) : Nat → Reader Command
  | 0 => complain "too deep"
  | bound + 1 => do andOrRest nested bound (← pipeline nested bound)

def andOrRest (nested : Nested) : Nat → Command → Reader Command
  | 0, first => return first
  | bound + 1, first => do
    match ← token nested with
    | .both =>
      push (← lineToken nested)
      andOrRest nested bound (.both first (← pipeline nested bound))
    | .either =>
      push (← lineToken nested)
      andOrRest nested bound (.either first (← pipeline nested bound))
    | other =>
      push other
      return first

def pipeline (nested : Nested) : Nat → Reader Command
  | 0 => complain "too deep"
  | bound + 1 => do
    match ← token nested with
    | .keyword .not =>
      push (← keyToken nested)
      return .negate (← piped bound)
    | other =>
      push other
      piped bound
where
  piped : Nat → Reader Command
  | 0 => complain "too deep"
  | bound + 1 => do
    let first ← command nested bound
    match ← pipeRest nested bound [first] with
    | [only] => return only
    | commands => return .pipe commands

def pipeRest (nested : Nested) : Nat → List Command → Reader (List Command)
  | 0, before => return before
  | bound + 1, before => do
    match ← token nested with
    | .bar =>
      push (← lineToken nested)
      pipeRest nested bound (before ++ [← command nested bound])
    | other =>
      push other
      return before

def command (nested : Nested) : Nat → Reader Command
  | 0 => complain "too deep"
  | bound + 1 => do
    let line := (← get).line
    match ← token nested with
    | .keyword .ifBegin =>
      grouped bound line (← branches nested bound) (.keyword .ifEnd)
    | .keyword .whileTrue => loop bound line false
    | .keyword .untilTrue => loop bound line true
    | .keyword .forEach => each bound line
    | .keyword .caseOf =>
      let word ← match ← token nested with
        | .word word => pure word
        | found => unexpectedFor (.word []) found
      match ← lineToken nested with
      | .keyword .inList => pure ()
      | found => unexpectedFor (.keyword .inList) found
      let choices ← choices nested bound (← choiceToken nested) []
      redirected bound line (.choose line word choices)
    | .openParen =>
      let body ← listWithin nested bound false false []
      closed .closeParen
      return .subshell line body (← redirects nested bound [])
    | .keyword .braceBegin =>
      let body ← listWithin nested bound false false []
      closed (.keyword .braceEnd)
      return .group line body (← redirects nested bound [])
    | .word word =>
      push (.word word)
      simple nested bound (← get).line true [] [] []
    | .redirect descriptor kind stripsTabs =>
      push (.redirect descriptor kind stripsTabs)
      simple nested bound (← get).line true [] [] []
    | found => unexpected found
where
  /-- Reads the token that ends a command. -/
  closed (last : Token) : Reader Unit := do
    let found ← token nested
    if found.name ≠ last.name then unexpectedFor last found
  redirected (bound : Nat) (line : Nat) (body : Command) : Reader Command := do
    match ← redirects nested bound [] with
    | [] => return body
    | redirects => return .group line [body] redirects
  grouped (bound : Nat) (line : Nat) (body : Command) (last : Token) : Reader Command := do
    closed last
    redirected bound line body
  loop (bound : Nat) (line : Nat) (untilTrue : Bool) : Reader Command := do
    let test ← listWithin nested bound false false []
    closed (.keyword .doBegin)
    let body ← listWithin nested bound false false []
    grouped bound line (.loop untilTrue test body) (.keyword .doEnd)
  each (bound : Nat) (line : Nat) : Reader Command := do
    let name ← match ← token nested with
      | .word [.plain name] => if isName name then pure name else complain "Bad for loop variable"
      | _ => complain "Bad for loop variable"
    let words ← match ← lineToken nested with
      | .keyword .inList => listed nested bound []
      | .semicolon => pure [[Part.value true ['@'] .whole]]
      | other => do
        push other
        pure [[Part.value true ['@'] .whole]]
    match ← lineToken nested with
    | .keyword .doBegin => pure ()
    | found => unexpectedFor (.keyword .doBegin) found
    let body ← listWithin nested bound false false []
    grouped bound line (.each line name words body) (.keyword .doEnd)

def listed (nested : Nested) : Nat → List Word → Reader (List Word)
  | 0, before => return before
  | bound + 1, before => do
    match ← token nested with
    | .word word => listed nested bound (before ++ [word])
    | .newline | .semicolon => return before
    | found => unexpected found

def branches (nested : Nested) : Nat → Reader Command
  | 0 => complain "too deep"
  | bound + 1 => do
    let test ← listWithin nested bound false false []
    match ← token nested with
    | .keyword .thenBegin => pure ()
    | found => unexpectedFor (.keyword .thenBegin) found
    let thenPart ← listWithin nested bound false false []
    match ← token nested with
    | .keyword .elseIf => return .branch test thenPart [← branches nested bound]
    | .keyword .otherwise =>
      return .branch test thenPart (← listWithin nested bound false false [])
    | other =>
      push other
      return .branch test thenPart []

def choices (nested : Nested) : Nat → Token → List (List Word × List Command) →
    Reader (List (List Word × List Command))
  | 0, _, before => return before
  | bound + 1, next, before => do
    match next with
    | .keyword .caseEnd => return before
    | next =>
      let first ← match next with
        | .openParen => token nested
        | other => pure other
      let patterns ← patterns nested bound [← patternOf first]
      let body ← listWithin nested bound false true []
      let before := before ++ [(patterns, body)]
      match ← choiceToken nested with
      | .keyword .caseEnd => return before
      | .endChoice => choices nested bound (← choiceToken nested) before
      | found => unexpectedFor .endChoice found

def patterns (nested : Nested) : Nat → List Word → Reader (List Word)
  | 0, before => return before
  | bound + 1, before => do
    match ← token nested with
    | .bar => patterns nested bound (before ++ [← patternOf (← token nested)])
    | .closeParen => return before
    | found => unexpectedFor .closeParen found

def redirects (nested : Nested) : Nat → List Redirect → Reader (List Redirect)
  | 0, before => return before
  | bound + 1, before => do
    match ← keyToken nested with
    | .redirect descriptor kind stripsTabs =>
      let redirect ← redirectTarget nested descriptor kind stripsTabs
      redirects nested bound (before ++ [redirect])
    | other =>
      push other
      return before

def simple (nested : Nested) : Nat → Nat → (mayAssign : Bool) → List (Chars × Word) → List Word →
    List Redirect → Reader Command
  | 0, line, _, assignments, words, redirects =>
    return .simple line assignments words redirects
  | bound + 1, line, mayAssign, assignments, words, redirects => do
    match ← if mayAssign then firstToken nested else token nested with
    | .word word =>
      match (if mayAssign then assignment? word else none) with
      | some assignment =>
        simple nested bound line true (assignments ++ [assignment]) words redirects
      | none => simple nested bound line false assignments (words ++ [word]) redirects
    | .redirect descriptor kind stripsTabs =>
      let redirect ← redirectTarget nested descriptor kind stripsTabs
      simple nested bound line mayAssign assignments words (redirects ++ [redirect])
    | .openParen =>
      match assignments, words, redirects with
      | [], [word], [] => define bound word
      | _, _, _ =>
        push .openParen
        return .simple line assignments words redirects
    | other =>
      push other
      return .simple line assignments words redirects
where
  define (bound : Nat) (word : Word) : Reader Command := do
    match ← token nested with
    | .closeParen => pure ()
    | found => unexpectedFor .closeParen found
    match word with
    | [.plain name] =>
      if !isName name || reservedNames.contains (String.ofList name) then
        complain "Bad function name"
      push (← lineToken nested)
      return .define name (← command nested bound)
    | _ => complain "Bad function name"

end

/-- A bound for the steps in which the rest of the script is read. -/
def steps : Reader Nat :=
  return 16 * ((← get).rest.length + 2) * (← aliasBound)

/-- Reads commands inside a word, in which others are so deep at most. -/
def nestedWithin : Nat → Nested
  | 0, _ => complain "too deep"
  | depth + 1, closed => do
    let nested := nestedWithin depth
    let commands ← listWithin nested (← steps) false true []
    if closed then
      match ← token nested with
      | .closeParen => pure ()
      | found => unexpectedFor .closeParen found
    return commands

def line? : Reader (Option (List Command)) := do
  let nested := nestedWithin (← steps)
  let commands ← listWithin nested (← steps) true true []
  if commands.isEmpty && (← get).rest.isEmpty then return none else return some commands

end CallFlow.Layout.Script.Reader
