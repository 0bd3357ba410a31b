import CallFlow.FileTree.Soundness
import CallFlow.Walk

namespace CallFlow.Walk

/-- Whether a walk goes on at an entry: at files, at the start, and in directories that are not
passed over. -/
def Enters (entry : WalkEntry) : Prop :=
  entry.isFile = true ∨ ∀ name, entry.names.getLast? = some name → isPassedOver name = false

/-- A walk comes upon each entry once, and upon those files that are shown and have it go on in all
directories on the way. -/
structure IsWalk (shown : WalkEntry → Prop) (entries : List WalkEntry) : Prop where
  once : (entries.map WalkEntry.names).Nodup
  proper : ∀ entry ∈ entries, ∀ name ∈ entry.names, Path.IsName name
  files : ∀ entry, entry.isFile = true →
    (entry ∈ entries ↔
      shown entry ∧ ∀ n < entry.names.length, Enters ⟨entry.names.take n, false⟩)

/-- The order of the entries does not matter. -/
theorem IsWalk.of_perm {shown : WalkEntry → Prop} {entries entries' : List WalkEntry}
    (h : IsWalk shown entries) (hp : entries.Perm entries') : IsWalk shown entries' where
  once := (hp.map _).nodup_iff.mp h.once
  proper := fun entry hm => h.proper entry (hp.mem_iff.mpr hm)
  files := fun entry hf => hp.mem_iff.symm.trans (h.files entry hf)

/-- No directory on the way is passed over. -/
theorem forall_enters_iff {names : List String} :
    (∀ n < names.length, Enters ⟨names.take n, false⟩) ↔
      ∀ name ∈ names.dropLast, isPassedOver name = false := by
  constructor
  · intro h name hm
    obtain ⟨i, hi, rfl⟩ := List.getElem_of_mem hm
    rw [List.length_dropLast] at hi
    refine (h (i + 1) (by omega)).resolve_left Bool.false_ne_true _ ?_
    rw [List.getLast?_take, if_neg (Nat.succ_ne_zero i), List.getElem_dropLast,
      Nat.add_sub_cancel, List.getElem?_eq_getElem (by omega)]
    rfl
  · intro h n hn
    refine .inr fun name hl => h name ?_
    have hm : name ∈ names.take n := List.mem_of_getLast? hl
    have hs : names.take n <+: names.dropLast := by
      rw [List.dropLast_eq_take]
      exact List.take_prefix_take_left (by omega)
    exact hs.subset hm

section Tree

variable {tree : FileTree} {start : Place} {dir : String} {names : List String}
  {isDirectory : Bool} {entry : WalkEntry}

/-- Rules have the first word on a name, and where they are silent it must not be hidden. -/
def isShown (tree : FileTree) (start : Place) (dir : String) (names : List String)
    (isDirectory : Bool) : Bool :=
  match names.getLast? with
  | none => true
  | some name =>
    match verdict tree isDirectory (outlooks start dir names) with
    | .ignored => false
    | .kept => true
    | .silent => !isHidden name

theorem admits_iff :
    admits tree start dir names isDirectory = true ↔
      isShown tree start dir names isDirectory = true ∧ Enters ⟨names, !isDirectory⟩ := by
  unfold admits isShown Enters
  cases names.getLast? with
  | none => simp
  | some name =>
    rw [Bool.and_eq_true]
    refine and_congr_right fun _ => ?_
    cases isDirectory <;> simp

def IsShownAlong (tree : FileTree) (start : Place) (dir : String) (names : List String)
    (isDirectory : Bool) : Prop :=
  ∀ n < names.length,
    isShown tree start dir (names.take (n + 1)) (n + 1 < names.length || isDirectory) = true

theorem reaches_file_iff :
    reaches tree start dir names false = true ↔
      IsShownAlong tree start dir names false ∧
        ∀ n < names.length, Enters ⟨names.take n, false⟩ := by
  unfold reaches IsShownAlong
  simp only [List.all_eq_true, List.mem_range, admits_iff, Bool.or_false]
  rw [forall₂_and]
  refine and_congr_right fun _ => ⟨fun h n hn => ?_, fun h n hn => ?_⟩
  · cases n with
    | zero => exact .inr nofun
    | succ n =>
      have := h n (by omega)
      simpa [hn] using this
  · by_cases hl : n + 1 < names.length
    · simpa [hl] using h (n + 1) hl
    · exact .inl (by simp [hl])

/-- The start of a walk, and what is below it and shown at each step. -/
inductive Shows (tree : FileTree) (dir : String) : WalkEntry → Prop where
  | start {start : Place} {item : Item} (named : ¬Path.same dir standardInput)
      (located : tree.locate dir = .ok start) (present : tree.item? start = some item) :
      Shows tree dir ⟨[], item ≠ .directory⟩
  | below {start : Place} {names : List String} {item : Item}
      (named : ¬Path.same dir standardInput) (located : tree.locate dir = .ok start)
      (directory : tree.item? start = some .directory) (some_names : names ≠ [])
      (present : tree.item? (start ++ names) = some item)
      (shown : IsShownAlong tree start dir names (item = .directory)) :
      Shows tree dir ⟨names, item ≠ .directory⟩

theorem mem_below (ht : tree.IsSound) :
    entry ∈ below tree start dir ↔ entry.names ≠ [] ∧ ∃ item,
      tree.item? (start ++ entry.names) = some item ∧
      entry.isFile = decide (item ≠ .directory) ∧
      reaches tree start dir entry.names (item = .directory) = true := by
  unfold below
  rw [List.mem_filterMap]
  constructor
  · rintro ⟨⟨place, item⟩, hm, he⟩
    simp only [Option.ite_none_right_eq_some, Bool.and_eq_true, decide_eq_true_eq,
      List.isPrefixOf_iff_prefix] at he
    obtain ⟨⟨⟨⟨names, rfl⟩, hn⟩, hr⟩, he⟩ := he
    rw [List.drop_left] at hn hr he
    obtain rfl := Option.some.inj he
    have hp : start ++ names ≠ [] := fun h => hn (List.append_eq_nil_iff.mp h).2
    exact ⟨hn, item, (ht.mem_items_iff hp).mp hm, by simp, hr⟩
  · rintro ⟨hn, item, hi, hf, hr⟩
    have hp : start ++ entry.names ≠ [] := fun h => hn (List.append_eq_nil_iff.mp h).2
    refine ⟨(start ++ entry.names, item), (ht.mem_items_iff hp).mpr hi, ?_⟩
    have hs : start.isPrefixOf (start ++ entry.names) = true :=
      List.isPrefixOf_iff_prefix.mpr (List.prefix_append _ _)
    simp only [List.drop_left, hs, hn, hr, Bool.true_and, ne_eq, not_false_eq_true, decide_true]
    cases entry
    simp_all

theorem nodup_names_below (ht : tree.IsSound) :
    ((below tree start dir).map WalkEntry.names).Nodup := by
  have hs : ((below tree start dir).map fun entry => start ++ entry.names).Sublist
      (tree.items.map Prod.fst) := by
    refine FileTree.map_filterMap_sublist ?_ tree.items
    rintro ⟨place, item⟩ entry he
    simp only [Option.ite_none_right_eq_some, Bool.and_eq_true, List.isPrefixOf_iff_prefix] at he
    obtain ⟨⟨⟨⟨names, rfl⟩, -⟩, -⟩, he⟩ := he
    rw [← Option.some.inj he, List.drop_left]
  refine List.Nodup.of_map (start ++ ·) ?_
  rw [List.map_map]
  exact ht.once.sublist hs

theorem entries_cases {found : List WalkEntry} (h : entries tree dir = .ok found) :
    Path.same dir standardInput ∧ found = [] ∨
    ¬Path.same dir standardInput ∧ ∃ start, tree.locate dir = .ok start ∧
      ((∃ content, tree.item? start = some (.file content)) ∧ found = [⟨[], true⟩] ∨
        tree.item? start = some .directory ∧ found = ⟨[], false⟩ :: below tree start dir) := by
  unfold entries at h
  by_cases hs : Path.same dir standardInput
  · rw [if_pos hs] at h
    exact .inl ⟨hs, (Except.ok.inj h).symm⟩
  · rw [if_neg hs] at h
    refine .inr ⟨hs, ?_⟩
    unfold FileTree.find at h
    cases hl : tree.locate dir with
    | error fault =>
      rw [hl] at h
      cases h
    | ok start =>
      refine ⟨start, rfl, ?_⟩
      rw [hl] at h
      cases hi : tree.item? start with
      | none =>
        simp only [bind, Except.bind, hi] at h
        cases h
      | some item =>
        simp only [bind, Except.bind, hi, Except.mapError] at h
        cases item with
        | file content => exact .inl ⟨⟨content, rfl⟩, (Except.ok.inj h).symm⟩
        | directory =>
          simp only at h
          split at h
          · cases h
          · exact .inr ⟨rfl, (Except.ok.inj h).symm⟩

theorem exists_content {item : Item} (h : decide (item ≠ .directory) = true) :
    ∃ content, item = .file content := by
  cases item with
  | directory => exact absurd rfl (of_decide_eq_true h)
  | file content => exact ⟨content, rfl⟩

theorem shows_file_iff (hs : ¬Path.same dir standardInput) (hl : tree.locate dir = .ok start)
    (hf : entry.isFile = true) :
    Shows tree dir entry ↔
      entry.names = [] ∧ (∃ content, tree.item? start = some (.file content)) ∨
      tree.item? start = some .directory ∧ entry.names ≠ [] ∧
        (∃ content, tree.item? (start ++ entry.names) = some (.file content)) ∧
        IsShownAlong tree start dir entry.names false := by
  constructor
  · intro h
    cases h with
    | start named located present =>
      obtain rfl := Except.ok.inj (hl.symm.trans located)
      obtain ⟨content, rfl⟩ := exists_content hf
      exact .inl ⟨rfl, content, present⟩
    | below named located directory some_names present shown =>
      obtain rfl := Except.ok.inj (hl.symm.trans located)
      obtain ⟨content, rfl⟩ := exists_content hf
      exact .inr ⟨directory, some_names, ⟨content, present⟩, shown⟩
  · obtain ⟨names, isFile⟩ := entry
    obtain rfl : isFile = true := hf
    rintro (⟨rfl, content, present⟩ | ⟨directory, some_names, ⟨content, present⟩, shown⟩)
    · exact .start hs hl present
    · exact .below hs hl directory some_names present shown

theorem mem_below_file (ht : tree.IsSound) (hf : entry.isFile = true) :
    entry ∈ below tree start dir ↔
      (entry.names ≠ [] ∧ (∃ content, tree.item? (start ++ entry.names) = some (.file content)) ∧
        IsShownAlong tree start dir entry.names false) ∧
      ∀ n < entry.names.length, Enters ⟨entry.names.take n, false⟩ := by
  rw [mem_below ht, hf]
  constructor
  · rintro ⟨hn, item, hi, hc, hr⟩
    obtain ⟨content, rfl⟩ := exists_content hc.symm
    obtain ⟨shown, enters⟩ := reaches_file_iff.mp hr
    exact ⟨⟨hn, ⟨content, hi⟩, shown⟩, enters⟩
  · rintro ⟨⟨hn, ⟨content, hi⟩, shown⟩, enters⟩
    exact ⟨hn, .file content, hi, rfl, reaches_file_iff.mpr ⟨shown, enters⟩⟩

theorem isWalk_entries (ht : tree.IsSound) {found : List WalkEntry}
    (h : entries tree dir = .ok found) : IsWalk (Shows tree dir) found := by
  rcases entries_cases h with ⟨hs, rfl⟩ | ⟨hs, start, hl, ⟨⟨content, hi⟩, rfl⟩ | ⟨hd, rfl⟩⟩
  · refine ⟨List.nodup_nil, nofun, fun entry _ => iff_of_false nofun ?_⟩
    rintro ⟨⟨named, -, -⟩ | ⟨named, -, -, -, -, -⟩, -⟩
    · exact named hs
    · exact named hs
  · refine ⟨List.nodup_singleton _, ?_, fun entry hf => ?_⟩
    · intro entry hm name hn
      rw [List.mem_singleton.mp hm] at hn
      cases hn
    · obtain ⟨names, isFile⟩ := entry
      obtain rfl : isFile = true := hf
      rw [shows_file_iff hs hl rfl, hi, List.mem_singleton]
      constructor
      · intro he
        cases he
        exact ⟨.inl ⟨rfl, content, rfl⟩, nofun⟩
      · rintro ⟨⟨rfl, -⟩ | ⟨hd, -⟩, -⟩
        · rfl
        · cases hd
  · refine ⟨List.nodup_cons.mpr ⟨?_, nodup_names_below ht⟩, ?_, fun entry hf => ?_⟩
    · intro hm
      obtain ⟨entry, hb, he⟩ := List.mem_map.mp hm
      exact ((mem_below ht).mp hb).1 he
    · intro entry hm name hn
      rcases List.mem_cons.mp hm with rfl | hb
      · cases hn
      · obtain ⟨some_names, item, hi, -⟩ := (mem_below ht).mp hb
        have hp : start ++ entry.names ≠ [] := fun h => some_names (List.append_eq_nil_iff.mp h).2
        have place : start ++ entry.names ∈ tree.items.map Prod.fst :=
          List.mem_map_of_mem ((ht.mem_items_iff hp).mpr hi)
        exact ht.names _ place name (List.mem_append_right _ hn)
    · have hr : entry ≠ ⟨[], false⟩ := by
        rintro rfl
        cases hf
      rw [List.mem_cons, or_iff_right hr, mem_below_file ht hf, shows_file_iff hs hl hf, hd]
      simp

end Tree

end CallFlow.Walk
