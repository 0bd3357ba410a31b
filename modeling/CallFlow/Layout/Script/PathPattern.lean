import CallFlow.Layout.Script.Field
import CallFlow.Layout.System

namespace CallFlow.Layout.Script.PathPattern

abbrev Step := List Pattern.Marked

/-- Whether a step can stand for several names. -/
def isOpen (step : Step) : Bool :=
  (Pattern.ofMarked step).any fun
    | .literal _ => false
    | _ => true

def steps (chars : List Pattern.Marked) : List Step :=
  chars.foldr (fun (c, isQuoted) steps =>
    if c = '/' then [] :: steps
    else
      match steps with
      | step :: rest => ((c, isQuoted) :: step) :: rest
      | [] => [[(c, isQuoted)]]) [[]]

def names (tree : FileTree) (dir : Chars) (step : Step) : List Chars :=
  match tree.locate (System.pathOf (if dir = [] then ['.'] else dir)) with
  | .error _ => []
  | .ok place =>
    let asksForDot := step.head?.any (·.1 = '.')
    let all := (if asksForDot then [['.'], ['.', '.']] else []) ++
      (tree.names place).map charsOf
    let atoms := Pattern.ofMarked step
    all.filter fun name =>
      (asksForDot || name.head? ≠ some '.') && Pattern.matchesAll atoms name

/-- The paths that begin in a way and go on with the given steps. -/
def pathsFrom (tree : FileTree) : (start : Chars) → List Step → List Chars
  | start, [] => if tree.isPresent (System.pathOf start) then [start] else []
  | start, step :: rest =>
    let goOn (name : Chars) : List Chars :=
      pathsFrom tree (start ++ name ++ if rest.isEmpty then [] else ['/']) rest
    if isOpen step then (names tree start step).flatMap goOn else goOn (step.map (·.1))

def expand (tree : FileTree) (field : List Mark) : List Chars :=
  let chars := field.filterMap fun
    | .char c isQuoted _ => some (c, isQuoted)
    | _ => none
  let steps := steps chars
  let found := if steps.any isOpen then pathsFrom tree [] steps else []
  if found = [] then [Mark.text field] else found.mergeSort notAfter

end CallFlow.Layout.Script.PathPattern
