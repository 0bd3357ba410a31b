namespace CallFlow.Difference

variable {α : Type} [DecidableEq α]

inductive Edit (α : Type) where
  | keep (block : List α)
  | remove (block : List α)
  | add (block : List α)
  deriving DecidableEq, Repr

def commonLength : List α → List α → Nat
  | a :: as, b :: bs => if a = b then commonLength as bs + 1 else 0
  | _, _ => 0

def commonEndLength (as bs : List α) : Nat :=
  commonLength as.reverse bs.reverse

/-- A run of common members: on a diagonal, from `first` to `last`, both counted in the old list. -/
structure Snake where
  diagonal : Int
  first : Nat
  last : Nat
  deriving DecidableEq, Repr

/-- Where the runs start that one more edit leads to, if the last ones ended as listed, from the
highest diagonal to the lowest. -/
def nextStarts : List Nat → List Nat
  | [] => [0]
  | last :: rest => (last + 1) :: between last rest
where
  /-- Of two neighbours the one that has come further is followed. -/
  between (above : Nat) : List Nat → List Nat
    | [] => [above]
    | below :: rest => (if below < above then above else below + 1) :: between below rest

/-- Where the members from two positions on are no longer the same, counted in the old list. -/
def followFrom (old new : Array α) (i j : Nat) : Nat :=
  if h : i < old.size ∧ j < new.size then
    if old[i] = new[j] then followFrom old new (i + 1) (j + 1) else i
  else i
termination_by old.size - i

def follow (old new : Array α) (diagonal : Int) (start : Nat) : Nat :=
  followFrom old new start (start - diagonal).toNat

/-- The runs that so many edits lead to, from the highest diagonal to the lowest. -/
def snakes (old new : Array α) (edits : Nat) (ends : List Nat) : List Snake :=
  (nextStarts ends).mapIdx fun position first =>
    let diagonal : Int := edits - 2 * position
    { diagonal, first, last := follow old new diagonal first }

def reached? (edits : Nat) (ends : Array Nat) (diagonal : Int) : Option Nat :=
  if diagonal.natAbs ≤ edits then ends[((edits - diagonal) / 2).toNat]? else none

/-- The first run that meets the search from the other end. -/
def meeting? (size : Nat) (delta : Int) (edits : Nat) (ends : Array Nat) (runs : List Snake) :
    Option Snake :=
  runs.find? fun run =>
    (reached? edits ends (delta - run.diagonal)).any fun last => size ≤ run.last + last

/-- Two lists, forwards and backwards. -/
structure Sides (α : Type) where
  old : Array α
  new : Array α
  oldBack : Array α
  newBack : Array α

/-- Where to split two lists, which begin and end differently. The searches from both ends have come
as far as listed with one edit less. -/
def splitFrom (sides : Sides α) :
    (rounds edits : Nat) → (forward backward : List Nat) → Option (Nat × Nat)
  | 0, _, _, _ => none
  | rounds + 1, edits, forward, backward =>
    let size := sides.old.size
    let delta : Int := size - sides.new.size
    let runs := snakes sides.old sides.new edits forward
    let found :=
      if delta % 2 = 0 then none else meeting? size delta (edits - 1) backward.toArray runs
    match found with
    | some run => some (run.first, (run.first - run.diagonal).toNat)
    | none =>
      let forward := runs.map Snake.last
      let runs := snakes sides.oldBack sides.newBack edits backward
      match if delta % 2 = 0 then meeting? size delta edits forward.toArray runs else none with
      | some run => some (size - run.last, sides.new.size - (run.last - run.diagonal).toNat)
      | none => splitFrom sides rounds (edits + 1) forward (runs.map Snake.last)

def split? (old new : List α) : Option (Nat × Nat) :=
  splitFrom
    { old := old.toArray, new := new.toArray
      oldBack := old.reverse.toArray, newBack := new.reverse.toArray }
    ((old.length + new.length + 1) / 2 + 1) 0 [] []

def blockOf (edit : List α → Edit α) (block : List α) : List (Edit α) :=
  if block = [] then [] else [edit block]

/-- A script for two lists, which are split at most `depth` times on the way to any block. -/
def scriptWithin : (depth : Nat) → (old new : List α) → List (Edit α)
  | 0, old, new => blockOf .remove old ++ blockOf .add new
  | depth + 1, old, new =>
    let start := commonLength old new
    let oldRest := old.drop start
    let newRest := new.drop start
    let ending := commonEndLength oldRest newRest
    let oldCore := oldRest.take (oldRest.length - ending)
    let newCore := newRest.take (newRest.length - ending)
    let core :=
      if oldCore = [] || newCore = [] then blockOf .remove oldCore ++ blockOf .add newCore
      else
        match split? oldCore newCore with
        | none => blockOf .remove oldCore ++ blockOf .add newCore
        | some (i, j) =>
          scriptWithin depth (oldCore.take i) (newCore.take j) ++
          scriptWithin depth (oldCore.drop i) (newCore.drop j)
    blockOf .keep (old.take start) ++ core ++
    blockOf .keep (oldRest.drop (oldRest.length - ending))

def script (old new : List α) : List (Edit α) :=
  scriptWithin (old.length + new.length + 1) old new

end CallFlow.Difference
