import CallFlow.Batch
import CallFlow.FileTree.Agreement

namespace CallFlow

/-- The path ends with a name that stands for itself. -/
structure Path.EndsIn (path : String) (before : List String) (name : String) : Prop where
  steps : Path.steps path = before ++ [name]
  last : path.toList.getLast? ≠ some '/'
  proper : name ≠ "." ∧ name ≠ ".."

namespace FileTree

variable {tree other : FileTree} {path name : String} {before : List String} {place : Place}

theorem steps_of_endsIn (h : Path.EndsIn path before name) : steps path = before ++ [name] := by
  rw [steps, if_neg h.last, h.steps, List.append_nil]

theorem locate_endsIn_ok (h : Path.EndsIn path before name) (hl : tree.locate path = .ok place) :
    ∃ dir, before.foldlM tree.follow (tree.start path) = .ok dir ∧
      tree.item? dir = some .directory ∧ place = dir ++ [name] := by
  rw [locate, steps_of_endsIn h] at hl
  have hw := walkTo_eq_ok hl
  rw [List.foldlM_append] at hw
  cases hb : before.foldlM tree.follow (tree.start path) with
  | error fault =>
    rw [hb] at hw
    cases hw
  | ok dir =>
    rw [hb] at hw
    have hf : (tree.follow dir name >>= pure) = .ok place := hw
    rw [bind_pure] at hf
    refine ⟨dir, rfl, follow_eq_ok hf, ?_⟩
    simp only [follow, follow_eq_ok hf, if_neg h.proper.1, if_neg h.proper.2] at hf
    split at hf
    · cases hf
    · exact (Except.ok.inj hf).symm

theorem target_endsIn (h : Path.EndsIn path before name) :
    tree.target path = (tree.locate path).bind fun place =>
      if tree.item? place = some .directory then .error .isDirectory else .ok place := by
  cases hl : tree.locate path with
  | error fault =>
    simp only [target, h.last, hl]
    rfl
  | ok place =>
    obtain ⟨dir, -, hd, rfl⟩ := locate_endsIn_ok h hl
    simp only [target, h.last, hl, bind, Except.bind]
    by_cases hi : tree.item? (dir ++ [name]) = some .directory
    · simp [hi]
      rfl
    · simp [hi, hd]
      rfl

theorem target_endsIn_ok (h : Path.EndsIn path before name) :
    tree.target path = .ok place ↔
      tree.locate path = .ok place ∧ tree.item? place ≠ some .directory := by
  rw [target_endsIn h]
  cases tree.locate path with
  | error fault => simp [Except.bind]
  | ok there =>
    simp only [Except.bind, Except.ok.injEq]
    constructor
    · intro ht
      split at ht
      · cases ht
      · rename_i hd
        obtain rfl := Except.ok.inj ht
        exact ⟨rfl, hd⟩
    · rintro ⟨rfl, hd⟩
      rw [if_neg hd]

theorem writeText_eq_ok {text : String} {after : FileTree} :
    tree.writeText path text = .ok after ↔
      ∃ place, tree.target path = .ok place ∧ after = tree.put place (.file (.text text)) := by
  unfold writeText write
  cases tree.target path with
  | error fault => simp [bind, Except.bind]
  | ok place => simp [bind, Except.bind, pure, Except.pure, eq_comm]

theorem readText_eq_ok {text : String} :
    tree.readText path = .ok text ↔
      ∃ place, tree.locate path = .ok place ∧ tree.item? place = some (.file (.text text)) := by
  unfold readText find
  cases tree.locate path with
  | error fault => simp [bind, Except.bind]
  | ok place =>
    simp only [bind, Except.bind, Except.ok.injEq, exists_eq_left']
    cases tree.item? place with
    | none => simp
    | some item =>
      cases item with
      | directory => simp
      | file content => cases content <;> simp

namespace SameOutside

variable {places : Set Place}

theorem locate_ok (h : SameOutside places tree other) (hl : tree.locate path = .ok place) :
    other.locate path = .ok place := by
  have hw := walkTo_eq_ok hl
  exact (h.walkTo_eq ((h.foldlM_ok hw).trans hw.symm)).trans hl

theorem target_eq (h : SameOutside places tree other) (he : Path.EndsIn path before name)
    (hl : other.locate path = tree.locate path) : other.target path = tree.target path := by
  simp only [target_endsIn he, hl, h.directory]

end SameOutside

theorem readText_write (he : Path.EndsIn path before name) {text : String} {after : FileTree}
    (hw : tree.writeText path text = .ok after) : after.readText path = .ok text := by
  obtain ⟨place, ht, rfl⟩ := writeText_eq_ok.mp hw
  obtain ⟨hl, hd⟩ := (target_endsIn_ok he).mp ht
  obtain ⟨dir, -, -, rfl⟩ := locate_endsIn_ok he hl
  have hn : dir ++ [name] ≠ [] := by simp
  have hs : SameOutside Set.univ tree (tree.put (dir ++ [name]) (.file (.text text))) :=
    .put hn hd trivial
  exact readText_eq_ok.mpr ⟨_, hs.locate_ok hl, by rw [item?_put hn, if_pos rfl]⟩

end FileTree

namespace OutputFormat

def ending (format : OutputFormat) : String :=
  "." ++ format.extension

theorem eq_of_getLast?_ending {format other : OutputFormat}
    (h : format.ending.toList.getLast? = other.ending.toList.getLast?) : format = other := by
  revert h
  rcases format with (_ | _ | _) | _ <;> rcases other with (_ | _ | _) | _ <;> decide

theorem ending_spec (format : OutputFormat) :
    format.ending ≠ "" ∧ '/' ∉ format.ending.toList ∧ 2 < format.ending.length := by
  rcases format with (_ | _ | _) | _ <;> decide

theorem append_ending_ne_empty (name : String) (format : OutputFormat) :
    name ++ format.ending ≠ "" := by
  simp [format.ending_spec.1]

theorem getLast?_append_ending (name : String) (format : OutputFormat) :
    (name ++ format.ending).toList.getLast? = format.ending.toList.getLast? := by
  have hn : format.ending.toList ≠ [] := by simpa using format.ending_spec.1
  rw [String.toList_append, List.getLast?_append, List.getLast?_eq_some_getLast hn]
  rfl

theorem append_ending_inj {name other : String} {format format' : OutputFormat}
    (h : name ++ format.ending = other ++ format'.ending) : name = other ∧ format = format' := by
  have hf : format = format' := by
    refine eq_of_getLast?_ending ?_
    rw [← getLast?_append_ending name, h, getLast?_append_ending]
  subst hf
  exact ⟨(String.append_left_inj _).mp h, rfl⟩

end OutputFormat

namespace Path

theorem join_append (dir stem : String) {rest : String} (hr : '/' ∉ rest.toList) :
    join dir (stem ++ rest) = join dir stem ++ rest := by
  have ha : isAbsolute (stem ++ rest) = isAbsolute stem := by
    cases hs : stem.toList with
    | nil =>
      have hn : stem = "" := String.toList_eq_nil_iff.mp hs
      simp [hn, isAbsolute_of_not_mem hr]
      rfl
    | cons c cs => simp [isAbsolute, hs]
  simp only [join, ha]
  split
  · rfl
  · split <;> simp [String.append_assoc]

end Path

namespace Order

variable {order : Order} {tree : FileTree} {stem other : String} {format format' : OutputFormat}
  {place place' : Place}

theorem artifactPath_eq (order : Order) (stem : String) (format : OutputFormat) :
    order.artifactPath stem format = Path.join order.dir stem ++ format.ending := by
  rw [artifactPath, String.append_assoc]
  exact Path.join_append order.dir stem format.ending_spec.2.1

theorem endsIn_of_steps {path name : String} {before : List String}
    (hs : Path.steps (path ++ format.ending) = before ++ [name ++ format.ending]) :
    Path.EndsIn (path ++ format.ending) before (name ++ format.ending) := by
  have hl : 2 < (name ++ format.ending).length := by
    have := format.ending_spec.2.2
    rw [String.length_append]
    omega
  refine ⟨hs, ?_, ?_, ?_⟩
  · rw [format.getLast?_append_ending]
    rcases format with (_ | _ | _) | _ <;> decide
  · intro he
    rw [he] at hl
    exact absurd hl (by decide)
  · intro he
    rw [he] at hl
    exact absurd hl (by decide)

theorem exists_endsIn (order : Order) (stem : String) :
    ∃ before last, ∀ format : OutputFormat,
      Path.EndsIn (order.artifactPath stem format) before (last ++ format.ending) := by
  obtain ⟨before, last, hp⟩ := Path.exists_steps_append (Path.join order.dir stem)
  refine ⟨before, last, fun format => ?_⟩
  rw [artifactPath_eq]
  exact endsIn_of_steps (hp _ format.ending_spec.1 format.ending_spec.2.1)

theorem slash_not_mem_append_ending (hs : '/' ∉ stem.toList) (format : OutputFormat) :
    '/' ∉ (stem ++ format.ending).toList := by
  simp [hs, format.ending_spec.2.1]

theorem endsIn_dir (order : Order) (hs : '/' ∉ stem.toList) (format : OutputFormat) :
    Path.EndsIn (order.artifactPath stem format) (Path.steps order.dir)
      (stem ++ format.ending) := by
  have hp := Path.steps_join order.dir (format.append_ending_ne_empty stem)
    (slash_not_mem_append_ending hs format)
  rw [Path.join_append order.dir stem format.ending_spec.2.1] at hp
  rw [artifactPath_eq]
  exact endsIn_of_steps hp

theorem artifactPath_inj (hs : '/' ∉ stem.toList) (ho : '/' ∉ other.toList)
    (h : order.artifactPath stem format = order.artifactPath other format') :
    stem = other ∧ format = format' := by
  have hp := (order.endsIn_dir hs format).steps
  rw [h, (order.endsIn_dir ho format').steps] at hp
  have he := List.append_cancel_left hp
  obtain ⟨rfl, rfl⟩ := OutputFormat.append_ending_inj (List.cons.inj he).1
  exact ⟨rfl, rfl⟩

theorem format_eq_of_place (hp : tree.locate (order.artifactPath stem format) = .ok place)
    (hp' : tree.locate (order.artifactPath other format') = .ok place) : format = format' := by
  obtain ⟨before, last, he⟩ := order.exists_endsIn stem
  obtain ⟨before', last', he'⟩ := order.exists_endsIn other
  obtain ⟨dir, -, -, hd⟩ := FileTree.locate_endsIn_ok (he format) hp
  obtain ⟨dir', -, -, hd'⟩ := FileTree.locate_endsIn_ok (he' format') hp'
  have hn := (List.append_inj' (hd.symm.trans hd') rfl).2
  exact (OutputFormat.append_ending_inj (List.cons.inj hn).1).2

theorem stem_eq_of_place (hs : '/' ∉ stem.toList) (ho : '/' ∉ other.toList)
    (hp : tree.locate (order.artifactPath stem format) = .ok place)
    (hp' : tree.locate (order.artifactPath other format') = .ok place) : stem = other := by
  obtain ⟨dir, -, -, hd⟩ := FileTree.locate_endsIn_ok (order.endsIn_dir hs format) hp
  obtain ⟨dir', -, -, hd'⟩ := FileTree.locate_endsIn_ok (order.endsIn_dir ho format') hp'
  have hn := (List.append_inj' (hd.symm.trans hd') rfl).2
  exact (OutputFormat.append_ending_inj (List.cons.inj hn).1).1

theorem isAbsolute_artifactPath (hs : '/' ∉ stem.toList) :
    Path.isAbsolute (order.artifactPath stem format) = Path.isAbsolute order.dir := by
  rw [artifactPath, String.append_assoc]
  exact Path.isAbsolute_join order.dir (slash_not_mem_append_ending hs format)

/-- The places where the artifacts of some stems are written. -/
def artifactPlaces (order : Order) (tree : FileTree) (stems : List String) : Set Place :=
  {place | ∃ stem ∈ stems, ∃ format ∈ order.formats,
    tree.target (order.artifactPath stem format) = .ok place}

/-- If the directory of the artifacts is there, only its files can be missing on the way to one. -/
theorem locate_artifact_eq {places : Set Place} {after : FileTree} {dir : Place}
    (h : FileTree.SameOutside places tree after) (hs : '/' ∉ stem.toList)
    (hw : (Path.steps order.dir).foldlM tree.follow (tree.start order.dir) = .ok dir)
    (hd : tree.item? dir = some .directory) (format : OutputFormat) :
    after.locate (order.artifactPath stem format) =
      tree.locate (order.artifactPath stem format) := by
  have ht : tree.start (order.artifactPath stem format) = tree.start order.dir := by
    rw [FileTree.start, isAbsolute_artifactPath hs, FileTree.start]
  rw [FileTree.locate, FileTree.locate, FileTree.steps_of_endsIn (order.endsIn_dir hs format)]
  refine h.walkTo_eq ?_
  rw [ht, List.foldlM_append, List.foldlM_append, hw, h.foldlM_ok hw]
  exact congrArg (· >>= pure) (h.follow_directory hd _)

/-- One artifact can be written before another just as well as after it. If none could be written,
nothing has changed. If one could, its directory is that of all others. -/
theorem target_artifact_eq {stems : List String} {after : FileTree}
    (hss : ∀ stem ∈ stems, '/' ∉ stem.toList)
    (h : FileTree.SameOutside (order.artifactPlaces tree stems) tree after) (hs : stem ∈ stems)
    (format : OutputFormat) :
    after.target (order.artifactPath stem format) =
      tree.target (order.artifactPath stem format) := by
  refine h.target_eq (order.endsIn_dir (hss stem hs) format) ?_
  by_cases hp : ∃ place, place ∈ order.artifactPlaces tree stems
  · obtain ⟨place, other, ho, format', -, ht⟩ := hp
    have he := order.endsIn_dir (hss other ho) format'
    obtain ⟨hl, -⟩ := (FileTree.target_endsIn_ok he).mp ht
    obtain ⟨dir, hw, hd, -⟩ := FileTree.locate_endsIn_ok he hl
    rw [FileTree.start, isAbsolute_artifactPath (hss other ho), ← FileTree.start] at hw
    exact locate_artifact_eq h (hss stem hs) hw hd format
  · exact h.locate_eq fun hm => hp ⟨_, hm⟩

end Order

end CallFlow
