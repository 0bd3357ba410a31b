import CallFlow.Layout.Program

namespace CallFlow.Layout.Script

/-- What a redirection does: it opens a file, takes up what is open already, or feeds a text. A script
can ask that `write` spares files that are there. -/
inductive RedirectKind where
  | read
  | write
  | overwrite
  | append
  | readWrite
  | copy
  | document (number : Nat)
  deriving DecidableEq, Repr

mutual

/-- A part of a word. The flag says whether it stands between quotation marks. -/
inductive Part where
  | plain (text : Chars)
  | quoted (text : Chars)
  | value (inQuotes : Bool) (name : Chars) (use : Use)
  | output (inQuotes : Bool) (body : List Command)
  | sum (inQuotes : Bool) (expression : List Part)

/-- What is made of the value that belongs to a name. The flag of a replacement says whether it
also takes the place of an empty value; the flag of a cut says whether as much as possible is cut. -/
inductive Use where
  | whole
  | length
  | orElse (emptyToo : Bool) (word : List Part)
  | orAssign (emptyToo : Bool) (word : List Part)
  | orFail (emptyToo : Bool) (word : List Part)
  | andThen (emptyToo : Bool) (word : List Part)
  | cutStart (longest : Bool) (pattern : List Part)
  | cutEnd (longest : Bool) (pattern : List Part)
  | unknown

inductive Redirect where
  | mk (descriptor : Nat) (kind : RedirectKind) (target : List Part)

/-- A command. The number is that of the line on which it begins. -/
inductive Command where
  | simple (line : Nat) (assignments : List (Chars × List Part)) (words : List (List Part))
      (redirects : List Redirect)
  | pipe (commands : List Command)
  | negate (command : Command)
  | both (first second : Command)
  | either (first second : Command)
  | background (command : Command)
  | subshell (line : Nat) (body : List Command) (redirects : List Redirect)
  | group (line : Nat) (body : List Command) (redirects : List Redirect)
  | branch (test thenPart elsePart : List Command)
  | loop (untilTrue : Bool) (test body : List Command)
  | each (line : Nat) (name : Chars) (words : List (List Part)) (body : List Command)
  | choose (line : Nat) (word : List Part) (choices : List (List (List Part) × List Command))
  | define (name : Chars) (body : Command)

end

abbrev Word := List Part

/-- The words that have a meaning of their own where a command begins. -/
inductive Keyword where
  | not
  | caseOf
  | doBegin
  | doEnd
  | elseIf
  | otherwise
  | caseEnd
  | ifEnd
  | forEach
  | ifBegin
  | inList
  | thenBegin
  | untilTrue
  | whileTrue
  | braceBegin
  | braceEnd
  deriving DecidableEq, Repr

namespace Keyword

def all : List (String × Keyword) :=
  [("!", not), ("case", caseOf), ("do", doBegin), ("done", doEnd), ("elif", elseIf),
    ("else", otherwise), ("esac", caseEnd), ("fi", ifEnd), ("for", forEach), ("if", ifBegin),
    ("in", inList), ("then", thenBegin), ("until", untilTrue), ("while", whileTrue),
    ("\x7b", braceBegin), ("\x7d", braceEnd)]

def ofText? (text : Chars) : Option Keyword :=
  all.lookup (String.ofList text)

def text (keyword : Keyword) : String :=
  ((all.find? (·.2 = keyword)).map (·.1)).getD ""

def endsList : Keyword → Bool
  | doBegin | doEnd | elseIf | otherwise | caseEnd | ifEnd | thenBegin | braceEnd => true
  | _ => false

end Keyword

inductive Token where
  | ending
  | newline
  | semicolon
  | ampersand
  | both
  | either
  | bar
  | openParen
  | closeParen
  | endChoice
  | redirect (descriptor : Nat) (kind : RedirectKind) (stripsTabs : Bool)
  | word (parts : Word)
  | keyword (keyword : Keyword)

namespace Token

def endsList : Token → Bool
  | ending | closeParen | endChoice => true
  | keyword key => key.endsList
  | _ => false

def name : Token → String
  | ending => "end of file"
  | newline => "newline"
  | semicolon => "\";\""
  | ampersand => "\"&\""
  | both => "\"&&\""
  | either => "\"||\""
  | bar => "\"|\""
  | openParen => "\"(\""
  | closeParen => "\")\""
  | endChoice => "\";;\""
  | redirect .. => "redirection"
  | word _ => "word"
  | keyword key => "\"" ++ key.text ++ "\""

end Token

def isNameStart (c : Char) : Bool :=
  c.isAlpha || c == '_'

def isNameChar (c : Char) : Bool :=
  c.isAlphanum || c == '_'

def isName (text : Chars) : Bool :=
  text.head?.any isNameStart && text.all isNameChar

def isSpecial (c : Char) : Bool :=
  "!$*?@#-".toList.contains c || c.isDigit

end CallFlow.Layout.Script
