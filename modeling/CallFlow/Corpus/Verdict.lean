import CallFlow.Corpus.Case
import CallFlow.Corpus.Fault
import CallFlow.Corpus.Kind
import CallFlow.Difference.Listing

namespace CallFlow.Corpus

/-- What came of a case. -/
inductive Verdict where
  | passed
  | failed (listings : List String)
  | updated
  | nothingExpected
  deriving DecidableEq, Repr

namespace Verdict

def name : Verdict → String
  | passed => "passed"
  | failed _ => "failed"
  | updated => "updated"
  | nothingExpected => "none"

def message : Verdict → Option String
  | failed listings => some (Text.join "\n" listings)
  | nothingExpected => some "no expectation blocks declared"
  | _ => none

def listings : Verdict → List String
  | failed listings => listings
  | _ => []

end Verdict

def sourceIn : List String → Except CaseFault (Option String)
  | [] => .ok none
  | "--source" :: source :: rest => do return (← sourceIn rest).or (some source)
  | ["--source"] => .error .missingSource
  | other :: _ => .error (.unknownArgument other)

/-- Line ends are all alike, and those at the end of a text do not count. -/
def normal (text : String) : String :=
  unterminated (String.ofList (Text.unifyLineEnds text.toList))

/-- What one document yields. It is its own source unless another is named. -/
def yieldOfDocument (source : Option String) (kind : Kind) (document : Document) : String :=
  match Compilation.ofText document.contents with
  | .error failure => yieldOfFailure failure kind
  | .ok compilation => yieldOf compilation (source.getD document.path) kind

def yieldOfAll (source : Option String) (kind : Kind) (documents : List Document) : String :=
  String.join (documents.map fun document =>
    (if documents.length > 1 then "# " ++ document.path ++ "\n" else "") ++
    yieldOfDocument source kind document)

/-- An expectation with what there is in its place. -/
structure Comparison where
  expectation : Expectation
  actual : String
  deriving DecidableEq, Repr

namespace Comparison

def isMet (comparison : Comparison) : Bool :=
  normal comparison.expectation.value = normal comparison.actual

def updated (comparison : Comparison) : Expectation :=
  if comparison.isMet then comparison.expectation
  else { comparison.expectation with value := terminated comparison.actual }

def listing (comparison : Comparison) : String :=
  "Expectation '" ++ comparison.expectation.kind ++ "' mismatch:\n" ++
  Difference.listing (normal comparison.expectation.value) (normal comparison.actual)

end Comparison

namespace Case

def compare (c : Case) (source : Option String) (expectation : Expectation) :
    Except CaseFault Comparison :=
  match Kind.named? expectation.kind with
  | none => .error (.unknownKind expectation.kind)
  | some kind => .ok { expectation, actual := yieldOfAll source kind c.documents }

def comparisons (c : Case) : Except CaseFault (List Comparison) := do
  let source ← sourceIn c.args
  c.expectations.mapM (c.compare source)

end Case

/-- What an evaluation tells of a case, and whether it replaced anything. -/
structure Assessment where
  verdict : Verdict
  isMutated : Bool
  deriving DecidableEq, Repr

/-- The expectations of a case that were gone through, as they are now, and what came of them. -/
structure Review where
  expectations : List Expectation
  assessment : Assessment
  deriving DecidableEq, Repr

namespace Review

def start : Review :=
  { expectations := [], assessment := { verdict := .passed, isMutated := false } }

/-- Goes on to the next expectation. One that is not met is replaced in an update, and else it
fails. -/
def step (update : Bool) (review : Review) (comparison : Comparison) : Review :=
  if comparison.isMet then
    { review with expectations := review.expectations ++ [comparison.expectation] }
  else if update then
    { expectations := review.expectations ++ [comparison.updated]
      assessment := { verdict := .updated, isMutated := true } }
  else
    { expectations := review.expectations ++ [comparison.expectation]
      assessment := { review.assessment with
        verdict := .failed (review.assessment.verdict.listings ++ [comparison.listing]) } }

end Review

namespace Case

/-- Evaluates the case at hand. Its expectations change only once all of them have been compared. -/
def assess (update : Bool) : ExceptT CaseFault (StateM Case) Assessment := do
  let c ← get
  if c.expectations = [] then return { verdict := .nothingExpected, isMutated := false }
  let comparisons ← MonadExcept.ofExcept c.comparisons
  let review := comparisons.foldl (Review.step update) .start
  set { c with expectations := review.expectations }
  return review.assessment

def evaluate (c : Case) (update : Bool) : Except CaseFault Assessment × Case :=
  (assess update).run.run c

end Case

end CallFlow.Corpus
