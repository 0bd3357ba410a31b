import CallFlow.Difference.Script

namespace CallFlow.Difference

variable {α : Type} [DecidableEq α]

namespace Edit

def block : Edit α → List α
  | keep block | remove block | add block => block

def isRemoved : Edit α → Bool
  | remove _ => true
  | _ => false

def isAdded : Edit α → Bool
  | add _ => true
  | _ => false

end Edit

/-- A script that is being tidied at one block. The blocks before it are listed backwards. -/
structure Focus (α : Type) where
  before : List (Edit α)
  here : Edit α
  after : List (Edit α)

def keepBefore (kept : List α) : List (Edit α) → List (Edit α)
  | .keep block :: rest => .keep (kept ++ block) :: rest
  | rest => .keep kept :: rest

def keepAfter (kept : List α) : List (Edit α) → List (Edit α)
  | .keep block :: rest => .keep (block ++ kept) :: rest
  | rest => .keep kept :: rest

def Focus.up? (focus : Focus α) : Option (Focus α) :=
  match focus.before, focus.here with
  | .keep block :: before, .add added =>
    let shared := commonEndLength block added
    if shared = 0 then none
    else
      let kept := block.take (block.length - shared)
      let ending := block.drop (block.length - shared)
      some
        { before := blockOf .keep kept ++ before
          here := .add (ending ++ added.take (added.length - shared))
          after := keepBefore ending focus.after }
  | .remove block :: before, .remove removed =>
    some { focus with before, here := .remove (block ++ removed) }
  | .add block :: before, .add added => some { focus with before, here := .add (block ++ added) }
  | .remove block :: before, .add _ => some { focus with before, after := .remove block :: focus.after }
  | .add block :: before, .remove _ => some { focus with before, after := .add block :: focus.after }
  | _, _ => none

def Focus.down? (focus : Focus α) : Option (Focus α) :=
  match focus.after, focus.here with
  | .keep block :: after, .add added =>
    let shared := commonLength block added
    if shared = 0 then none
    else
      some
        { before := keepAfter (block.take shared) focus.before
          here := .add (added.drop shared ++ block.take shared)
          after := blockOf .keep (block.drop shared) ++ after }
  | .remove block :: after, .remove removed =>
    some { focus with after, here := .remove (removed ++ block) }
  | .add block :: after, .add added => some { focus with after, here := .add (added ++ block) }
  | .remove block :: after, .add _ => some { focus with after, before := .remove block :: focus.before }
  | .add block :: after, .remove _ => some { focus with after, before := .add block :: focus.before }
  | _, _ => none

/-- Repeats a move for as long as it is possible, at most so many times. -/
def repeatMove (move : Focus α → Option (Focus α)) : Nat → Focus α → Focus α
  | 0, focus => focus
  | rounds + 1, focus =>
    match move focus with
    | none => focus
    | some moved => repeatMove move rounds moved

/-- The members and blocks of a script. No more moves are possible in one direction. -/
def extent (edits : List (Edit α)) : Nat :=
  edits.foldr (fun edit total => edit.block.length + 1 + total) 0

def Focus.settle (focus : Focus α) : Focus α :=
  let top := repeatMove Focus.up? (extent focus.before) focus
  repeatMove Focus.down? (extent top.after) top

/-- Settles the chosen blocks one after the other, at most so many blocks. -/
def settleAll (chosen : Edit α → Bool) :
    Nat → (before after : List (Edit α)) → List (Edit α)
  | 0, before, after => before.reverse ++ after
  | _, before, [] => before.reverse
  | rounds + 1, before, edit :: after =>
    if chosen edit then
      let focus := Focus.settle { before, here := edit, after }
      settleAll chosen rounds (focus.here :: focus.before) focus.after
    else settleAll chosen rounds (edit :: before) after

/-- Settles all chosen blocks. Every block is settled anew after blocks below it were joined. -/
def settleEach (chosen : Edit α → Bool) (edits : List (Edit α)) : List (Edit α) :=
  settleAll chosen (extent edits * extent edits) [] edits

/-- A script with its removed blocks settled, and then its added ones. -/
def tidy (edits : List (Edit α)) : List (Edit α) :=
  settleEach Edit.isAdded (settleEach Edit.isRemoved edits)

end CallFlow.Difference
