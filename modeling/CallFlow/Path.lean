import CallFlow.Text

namespace CallFlow.Path

inductive Part where
  | root
  | current
  | parent
  | normal (name : String)
  deriving DecidableEq, Repr

def isAbsolute (path : String) : Bool :=
  path.toList.head? = some '/'

/-- The stretches between slashes, without the empty ones. -/
def steps (path : String) : List String :=
  (Text.splitAt '/' path).filter (· ≠ "")

theorem steps_append_slash (before rest : String) :
    steps (before ++ "/" ++ rest) = steps before ++ steps rest := by
  have hl : (before ++ "/" ++ rest).toList = before.toList ++ '/' :: rest.toList := by simp
  rw [steps, Text.splitAt, hl, Text.pieces_append_cons, List.map_append, List.filter_append]
  rfl

theorem steps_of_not_mem {name : String} (hn : name ≠ "") (hs : '/' ∉ name.toList) :
    steps name = [name] := by
  rw [steps, Text.splitAt, Text.pieces_of_not_mem hs]
  simp [hn]

theorem slash_not_mem_steps {path step : String} (hs : step ∈ steps path) : '/' ∉ step.toList := by
  obtain ⟨piece, hp, rfl⟩ := List.mem_map.mp (List.mem_filter.mp hs).1
  rw [String.toList_ofList]
  exact Text.not_mem_of_mem_pieces hp

theorem exists_steps_append (path : String) :
    ∃ before last, ∀ rest : String, rest ≠ "" → '/' ∉ rest.toList →
      steps (path ++ rest) = before ++ [last ++ rest] := by
  obtain ⟨before, last, hp⟩ := Text.pieces_append '/' path.toList
  refine ⟨(before.map String.ofList).filter (· ≠ ""), String.ofList last, fun rest hr hs => ?_⟩
  rw [steps, Text.splitAt, String.toList_append, hp rest.toList hs, List.map_append,
    List.filter_append]
  simp [hr]

/-- The part that a stretch names. The current directory counts only at the start. -/
def partOf? (step : String) : Option Part :=
  if step = "." then none else if step = ".." then some .parent else some (.normal step)

def parts (path : String) : List Part :=
  let start :=
    if isAbsolute path then [Part.root]
    else if (steps path).head? = some "." then [Part.current]
    else []
  start ++ (steps path).filterMap partOf?

def same (p q : String) : Bool :=
  parts p = parts q

def fileName? (path : String) : Option String :=
  match (parts path).getLast? with
  | some (.normal name) => some name
  | _ => none

theorem mem_steps_of_fileName? {path name : String} (h : fileName? path = some name) :
    name ∈ steps path := by
  unfold fileName? at h
  split at h
  · rename_i name' hl
    obtain rfl := Option.some.inj h
    have hm := List.mem_of_getLast? hl
    unfold parts at hm
    rcases List.mem_append.mp hm with hm | hm
    · split at hm
      · simp at hm
      · split at hm <;> simp at hm
    · obtain ⟨step, hs, hp⟩ := List.mem_filterMap.mp hm
      unfold partOf? at hp
      split at hp
      · cases hp
      · split at hp
        · cases hp
        · cases hp
          exact hs
  · cases h

/-- The position of the dot before the extension. A dot at the start begins no extension. -/
def dotPosition? (name : List Char) : Option Nat :=
  let tail := name.reverse.takeWhile (· ≠ '.')
  let position := name.length - tail.length
  if position ≤ 1 then none else some (position - 1)

def stemOf (name : String) : String :=
  match dotPosition? name.toList with
  | some position => String.ofList (name.toList.take position)
  | none => name

def extensionOf? (name : String) : Option String :=
  (dotPosition? name.toList).map fun position => String.ofList (name.toList.drop (position + 1))

/-- The name at the end without its extension. -/
def fileStem? (path : String) : Option String :=
  (fileName? path).map stemOf

theorem slash_not_mem_fileStem? {path stem : String} (h : fileStem? path = some stem) :
    '/' ∉ stem.toList := by
  obtain ⟨name, hn, rfl⟩ := Option.map_eq_some_iff.mp h
  have hs := slash_not_mem_steps (mem_steps_of_fileName? hn)
  unfold stemOf
  split
  · rw [String.toList_ofList]
    exact fun hm => hs (List.mem_of_mem_take hm)
  · exact hs

def extension? (path : String) : Option String :=
  (fileName? path).bind extensionOf?

def join (dir path : String) : String :=
  if isAbsolute path then path
  else if dir = "" || dir.toList.getLast? = some '/' then dir ++ path
  else dir ++ "/" ++ path

theorem isAbsolute_of_not_mem {name : String} (hs : '/' ∉ name.toList) :
    isAbsolute name = false := by
  refine decide_eq_false fun h => hs ?_
  exact List.mem_of_mem_head? h

/-- A slash stands between a directory and a name, whoever wrote it. -/
theorem exists_join (dir : String) {name : String} (hs : '/' ∉ name.toList) :
    ∃ before, steps before = steps dir ∧
      (join dir name = before ++ "/" ++ name ∨ dir = "" ∧ join dir name = name) := by
  rw [join, isAbsolute_of_not_mem hs]
  by_cases hd : dir = ""
  · exact ⟨dir, rfl, .inr ⟨hd, by simp [hd]⟩⟩
  · by_cases he : dir.toList.getLast? = some '/'
    · obtain ⟨before, hb⟩ := List.getLast?_eq_some_iff.mp he
      have hk : dir = String.ofList before ++ "/" := by
        rw [← String.toList_inj, hb]
        simp
      refine ⟨String.ofList before, ?_, .inl ?_⟩
      · rw [hk, ← String.append_empty (s := String.ofList before ++ "/"), steps_append_slash]
        simp [steps, Text.splitAt, Text.pieces, Text.cut]
      · simp [hd, he, ← hk]
    · exact ⟨dir, rfl, .inl (by simp [hd, he])⟩

theorem isAbsolute_join (dir : String) {name : String} (hs : '/' ∉ name.toList) :
    isAbsolute (join dir name) = isAbsolute dir := by
  have hn := isAbsolute_of_not_mem hs
  cases hd : dir.toList with
  | nil =>
    have he : dir = "" := String.toList_eq_nil_iff.mp hd
    simp [join, hn, he]
    rfl
  | cons c cs =>
    have he : dir ≠ "" := fun he => by simp [he] at hd
    simp only [join, hn, he]
    split
    · contradiction
    · split <;> simp [isAbsolute, hd]

theorem steps_join (dir : String) {name : String} (hn : name ≠ "") (hs : '/' ∉ name.toList) :
    steps (join dir name) = steps dir ++ [name] := by
  obtain ⟨before, hb, hj | ⟨hd, hj⟩⟩ := exists_join dir hs
  · rw [hj, steps_append_slash, hb, steps_of_not_mem hn hs]
  · rw [hj, hd, steps_of_not_mem hn hs]
    rfl

def fromRoot (names : List String) : String :=
  "/" ++ Text.join "/" names

/-- The order of names, character by character. -/
def lessOrEqual : List String → List String → Bool
  | [], _ => true
  | _ :: _, [] => false
  | a :: as, b :: bs => if a = b then lessOrEqual as bs else a < b

end CallFlow.Path
