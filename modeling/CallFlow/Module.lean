namespace CallFlow

/-- The kind of a step. A tag that names none is kept, so new kinds of steps pass through as nodes. -/
inductive ModuleKind where
  | incomingCall
  | play
  | menu
  | caseOf
  | ifElse
  | input
  | getDigits
  | query
  | setVariables
  | skillTransfer
  | thirdPartyTransfer
  | voiceMail
  | hangup
  | unknown (tag : String)
  deriving DecidableEq, Repr

namespace ModuleKind

def known : List ModuleKind :=
  [incomingCall, play, menu, caseOf, ifElse, input, getDigits, query, setVariables, skillTransfer,
    thirdPartyTransfer, voiceMail, hangup]

/-- The element name under which modules of this kind are listed. -/
def tag : ModuleKind → String
  | incomingCall => "incomingCall"
  | play => "play"
  | menu => "menu"
  | caseOf => "case"
  | ifElse => "ifElse"
  | input => "input"
  | getDigits => "getDigits"
  | query => "query"
  | setVariables => "setVariables"
  | skillTransfer => "skillTransfer"
  | thirdPartyTransfer => "thirdPartyTransfer"
  | voiceMail => "voiceMail"
  | hangup => "hangup"
  | unknown tag => tag

/-- Tags are compared exactly; letter case counts. -/
def ofTag (tag : String) : ModuleKind :=
  (known.find? (·.tag = tag)).getD (unknown tag)

def isKnown : ModuleKind → Bool
  | unknown _ => false
  | _ => true

def isBranching : ModuleKind → Bool
  | menu | caseOf | ifElse => true
  | _ => false

def isEntry : ModuleKind → Bool
  | incomingCall => true
  | _ => false

def isTransfer : ModuleKind → Bool
  | skillTransfer | thirdPartyTransfer => true
  | _ => false

theorem tag_ofTag (t : String) : (ofTag t).tag = t := by
  unfold ofTag
  cases h : known.find? (·.tag = t) with
  | none => rfl
  | some kind =>
    have found := List.find?_some h
    simpa using found

end ModuleKind

/-- One row of a branch table. -/
structure BranchEntry where
  key : Option String
  names : List String
  targets : List String
  deriving DecidableEq, Repr

namespace BranchEntry

/-- The label of the transition to the target at a position. A lone target takes the key before
the first name; of several, each takes the name at its own position before the first name and the
key. -/
def labelAt (entry : BranchEntry) (position : Nat) : String :=
  let labels :=
    if entry.targets.length = 1 then [entry.key, entry.names.head?]
    else [entry.names[position]?, entry.names.head?, entry.key]
  (labels.findSome? id).getD ""

/-- Each target with its label. -/
def transitions (entry : BranchEntry) : List (String × String) :=
  entry.targets.zipIdx.map fun (target, position) => (entry.labelAt position, target)

end BranchEntry

structure Payload where
  singleNext : Option String
  exceptionNext : Option String
  branches : List BranchEntry
  ascendants : List String
  deriving DecidableEq, Repr

/-- One step. The display name is for presentation only; the identifier tells steps apart. -/
structure Module where
  id : String
  kind : ModuleKind
  displayName : String
  payload : Payload
  deriving DecidableEq, Repr

end CallFlow
