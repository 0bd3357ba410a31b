import Mathlib.Data.List.DropRight
import Mathlib.Data.List.Induction
import CallFlow.Failure

namespace CallFlow.Failure

/-- What is said about a failure on its way. -/
inductive Addition where
  | operation (name : String)
  | context (key value : String)
  | status (status : Status)
  | source (text : String)
  | persist
  deriving DecidableEq

def named? (name : String) : Option String :=
  if name = "" then none else some name

namespace Addition

def operation? : Addition → Option String
  | operation name => named? name
  | _ => none

def key? : Addition → Option String
  | context key _ => some key
  | _ => none

def valueUnder? (key : String) : Addition → Option String
  | context other value => if other = key then some value else none
  | _ => none

def status? : Addition → Option Status
  | status given => some given
  | _ => none

def source? : Addition → Option String
  | source text => some text
  | _ => none

end Addition

def add (failure : Failure) : Addition → Failure
  | .operation name => failure.withOperation name
  | .context key value => failure.withContext key value
  | .status status => failure.withStatus status
  | .source text => failure.withSource text
  | .persist => failure.persist

def addAll (failure : Failure) (additions : List Addition) : Failure :=
  additions.foldl add failure

def recorded (failure : Failure) (key : String) : List String :=
  (failure.context.filter (·.1 = key)).map (·.2)

/-- The operations that have met a failure: those that moved to the context, and then the one that
it names. -/
def operations (failure : Failure) : List String :=
  failure.recorded calledKey ++ (named? failure.operation).toList

/-- The status that is set last, or the one there was if none is set. -/
def lastStatus (status : Status) (additions : List Addition) : Status :=
  (additions.filterMap Addition.status?).getLast?.getD status

/-- What is said after a status was set for the last time, which is all of it if none was. -/
def sinceStatus (additions : List Addition) : List Addition :=
  additions.rtakeWhile (·.status? = none)

/-- What additions leave of a failure, and what becomes of them. -/
structure Keeps (failure : Failure) (additions : List Addition) : Prop where
  kind : (failure.addAll additions).kind = failure.kind
  message : (failure.addAll additions).message = failure.message
  /-- At any moment the context is a beginning of what it comes to be. -/
  context : ∀ earlier, earlier <+: additions →
    (failure.addAll earlier).context <+: (failure.addAll additions).context
  /-- A key that has a value at any moment keeps it. -/
  contextValue : ∀ earlier, earlier <+: additions → ∀ key value,
    (failure.addAll earlier).contextValue key = some value →
      (failure.addAll additions).contextValue key = some value
  recorded : ∀ key, key ≠ calledKey →
    (failure.addAll additions).recorded key =
      failure.recorded key ++ additions.filterMap (Addition.valueUnder? key)
  operations : (failure.addAll additions).operations =
    failure.operations ++ additions.filterMap Addition.operation?
  /-- The source is the one given last, so one that is given once stays. -/
  source : (failure.addAll additions).source =
    (additions.filterMap Addition.source?).getLast?.or failure.source
  isRetryable : (failure.addAll additions).isRetryable = true ↔
    lastStatus failure.status additions = .temporary ∧ .persist ∉ sinceStatus additions

variable {failure later : Failure} {addition : Addition} {additions : List Addition} {key : String}

@[simp]
theorem addAll_nil : failure.addAll [] = failure := rfl

@[simp]
theorem addAll_cons :
    failure.addAll (addition :: additions) = (failure.add addition).addAll additions := rfl

theorem addAll_append (before after : List Addition) :
    failure.addAll (before ++ after) = (failure.addAll before).addAll after :=
  List.foldl_append

theorem addAll_concat :
    failure.addAll (additions ++ [addition]) = (failure.addAll additions).add addition :=
  addAll_append additions [addition]

theorem kind_add (failure : Failure) (addition : Addition) :
    (failure.add addition).kind = failure.kind := by
  cases addition <;> rfl

theorem message_add (failure : Failure) (addition : Addition) :
    (failure.add addition).message = failure.message := by
  cases addition <;> rfl

theorem context_add : failure.context <+: (failure.add addition).context := by
  cases addition with
  | operation | context => exact List.prefix_append _ _
  | status | source | persist => exact List.prefix_rfl

theorem recorded_withContext (other value : String) :
    (failure.withContext other value).recorded key =
      failure.recorded key ++ if other = key then [value] else [] := by
  by_cases same : other = key <;> simp [recorded, withContext, same]

theorem recorded_withOperation (name : String) :
    (failure.withOperation name).recorded key =
      failure.recorded key ++
        if calledKey = key then (named? failure.operation).toList else [] := by
  by_cases unnamed : failure.operation = ""
  · simp [recorded, withOperation, named?, unnamed]
  · by_cases same : calledKey = key <;> simp [recorded, withOperation, named?, unnamed, same]

theorem recorded_add (apart : key ≠ calledKey) :
    (failure.add addition).recorded key =
      failure.recorded key ++ (addition.valueUnder? key).toList := by
  cases addition with
  | operation name =>
    rw [add, recorded_withOperation, if_neg apart.symm]
    rfl
  | context other value =>
    rw [add, recorded_withContext]
    by_cases same : other = key <;> simp [Addition.valueUnder?, same]
  | status | source | persist => exact (List.append_nil _).symm

/-- What is said otherwise leaves the operations alone, unless context takes their key. -/
theorem operations_add (apart : addition.key? ≠ some calledKey) :
    (failure.add addition).operations = failure.operations ++ addition.operation?.toList := by
  cases addition with
  | operation name =>
    rw [operations, add, recorded_withOperation, if_pos rfl]
    rfl
  | context other value =>
    have other_key : other ≠ calledKey := fun same => apart (congrArg some same)
    rw [operations, add, recorded_withContext, if_neg other_key, List.append_nil]
    exact (List.append_nil _).symm
  | status | source | persist => exact (List.append_nil _).symm

theorem source_add :
    (failure.add addition).source = addition.source?.or failure.source := by
  cases addition <;> rfl

theorem unchanged_addAll {α : Type} (view : Failure → α)
    (unchanged : ∀ (failure : Failure) (addition : Addition),
      view (failure.add addition) = view failure) :
    view (failure.addAll additions) = view failure := by
  induction additions generalizing failure with
  | nil => rfl
  | cons addition additions ih => rw [addAll_cons, ih, unchanged]

theorem context_addAll : failure.context <+: (failure.addAll additions).context := by
  induction additions generalizing failure with
  | nil => exact List.prefix_rfl
  | cons addition additions ih => exact context_add.trans ih

theorem extended_addAll (view : Failure → List String) (given : Addition → Option String)
    (extends_view : ∀ addition ∈ additions, ∀ failure : Failure,
      view (failure.add addition) = view failure ++ (given addition).toList) :
    view (failure.addAll additions) = view failure ++ additions.filterMap given := by
  induction additions generalizing failure with
  | nil => simp
  | cons addition additions ih =>
    obtain ⟨first, rest⟩ := List.forall_mem_cons.mp extends_view
    rw [addAll_cons, ih rest, first, List.append_assoc]
    cases hg : given addition <;> simp [hg]

theorem recorded_addAll (apart : key ≠ calledKey) :
    (failure.addAll additions).recorded key =
      failure.recorded key ++ additions.filterMap (Addition.valueUnder? key) :=
  extended_addAll (·.recorded key) _ fun _ _ _ => recorded_add apart

theorem operations_addAll (apart : ∀ addition ∈ additions, addition.key? ≠ some calledKey) :
    (failure.addAll additions).operations =
      failure.operations ++ additions.filterMap Addition.operation? :=
  extended_addAll operations _ fun addition member _ => operations_add (apart addition member)

theorem source_addAll :
    (failure.addAll additions).source =
      (additions.filterMap Addition.source?).getLast?.or failure.source := by
  induction additions using List.reverseRecOn with
  | nil => rfl
  | append_singleton additions addition ih =>
    rw [addAll_concat, source_add, ih, List.filterMap_append]
    cases hs : addition.source? <;> simp [hs]

theorem contextValue_eq : failure.contextValue key = (failure.recorded key).head? := by
  rw [contextValue, recorded, List.head?_map, List.head?_filter]

theorem contextValue_of_context {value : String} (grown : failure.context <+: later.context)
    (known : failure.contextValue key = some value) : later.contextValue key = some value := by
  have values : failure.recorded key <+: later.recorded key := (grown.filter _).map _
  rw [contextValue_eq] at known ⊢
  obtain ⟨more, hm⟩ := values
  rw [← hm, List.head?_append, known, Option.some_or]

theorem Status.persist_persist (status : Status) : status.persist.persist = status.persist := by
  cases status <;> rfl

theorem Status.isRetryable_persist (status : Status) : status.persist.isRetryable = false := by
  cases status <;> rfl

theorem Status.isRetryable_iff {status : Status} :
    status.isRetryable = true ↔ status = .temporary := by
  cases status <;> decide

theorem sinceStatus_concat_status (status : Status) :
    sinceStatus (additions ++ [.status status]) = [] :=
  List.rtakeWhile_concat_neg _ _ _ (by simp [Addition.status?])

theorem sinceStatus_concat (unset : addition.status? = none) :
    sinceStatus (additions ++ [addition]) = sinceStatus additions ++ [addition] :=
  List.rtakeWhile_concat_pos _ _ _ (by simp [unset])

theorem lastStatus_concat_status (first status : Status) :
    lastStatus first (additions ++ [.status status]) = status := by
  simp [lastStatus, List.filterMap_append, Addition.status?]

theorem lastStatus_concat (unset : addition.status? = none) (first : Status) :
    lastStatus first (additions ++ [addition]) = lastStatus first additions := by
  simp [lastStatus, List.filterMap_append, unset]

/-- Giving up counts until a status is set again. -/
theorem status_addAll :
    (failure.addAll additions).status =
      if .persist ∈ sinceStatus additions then (lastStatus failure.status additions).persist
      else lastStatus failure.status additions := by
  -- From the end, since a further addition counts by what was set and given up on before it.
  induction additions using List.reverseRecOn with
  | nil => rfl
  | append_singleton additions addition ih =>
    rw [addAll_concat]
    cases addition with
    | status status =>
      rw [sinceStatus_concat_status, lastStatus_concat_status, if_neg List.not_mem_nil]
      rfl
    | persist =>
      have given_up : (failure.addAll additions).status.persist =
          (lastStatus failure.status additions).persist := by
        rw [ih]
        split
        · exact Status.persist_persist _
        · rfl
      rw [sinceStatus_concat rfl, lastStatus_concat rfl,
        if_pos (List.mem_append_right _ List.mem_cons_self)]
      exact given_up
    | operation | context | source =>
      rw [sinceStatus_concat rfl, lastStatus_concat rfl]
      simp only [List.mem_append, List.mem_singleton, reduceCtorEq, or_false]
      exact ih

theorem isRetryable_addAll :
    (failure.addAll additions).isRetryable = true ↔
      lastStatus failure.status additions = .temporary ∧ .persist ∉ sinceStatus additions := by
  rw [isRetryable, status_addAll]
  split
  · rename_i given_up
    simp [Status.isRetryable_persist, given_up]
  · rename_i kept
    simp [Status.isRetryable_iff, kept]

/-- Nothing of the history is lost. Of a failure that was just raised it is told whole: the operations
are all that were ever named, and the status begins with the one of its kind. -/
theorem history_kept (failure : Failure) (additions : List Addition)
    (apart : ∀ addition ∈ additions, addition.key? ≠ some calledKey) :
    failure.Keeps additions ∧
    ∀ kind message, failure = new kind message →
      (failure.addAll additions).operations = additions.filterMap Addition.operation? ∧
      ((failure.addAll additions).isRetryable = true ↔
        lastStatus (.ofKind kind) additions = .temporary ∧ .persist ∉ sinceStatus additions) := by
  refine ⟨?_, ?_⟩
  · refine ⟨unchanged_addAll kind kind_add, unchanged_addAll message message_add, ?_, ?_,
      fun _ => recorded_addAll, operations_addAll apart, source_addAll, isRetryable_addAll⟩
    · intro earlier said
      obtain ⟨since, rfl⟩ := said
      rw [addAll_append]
      exact context_addAll
    · intro earlier said key value known
      obtain ⟨since, rfl⟩ := said
      rw [addAll_append]
      exact contextValue_of_context context_addAll known
  · intro kind message raised
    subst raised
    exact ⟨operations_addAll apart, isRetryable_addAll⟩

def readDirectory : List Addition :=
  [.operation "io", .source "Is a directory (os error 21)", .operation "pipeline::read",
    .context "path" "out", .operation "", .persist, .status .temporary, .operation "report"]

theorem readDirectory_history :
    (∀ addition ∈ readDirectory, addition.key? ≠ some calledKey) ∧
    ((new .ioFailed "Is a directory").addAll readDirectory).operations =
      ["io", "pipeline::read", "report"] ∧
    ((new .ioFailed "Is a directory").addAll readDirectory).isRetryable = true ∧
    ((new .ioFailed "Is a directory").addAll readDirectory).contextValue "path" = some "out" := by
  have apart : ∀ addition ∈ readDirectory, addition.key? ≠ some calledKey := by decide
  obtain ⟨kept, raised⟩ := history_kept (new .ioFailed "Is a directory") readDirectory apart
  obtain ⟨operations, retryable⟩ := raised _ _ rfl
  refine ⟨apart, ?_, ?_, ?_⟩
  · rw [operations]
    decide
  · exact retryable.mpr (by decide)
  · exact kept.contextValue (readDirectory.take 4) (List.take_prefix 4 _) "path" "out" (by decide)

end CallFlow.Failure
