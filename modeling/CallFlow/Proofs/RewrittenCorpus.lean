import CallFlow.Corpus
import CallFlow.FileTree.Soundness
import CallFlow.Proofs.ArtifactFiles
import CallFlow.Proofs.RewrittenCases

namespace CallFlow.Corpus

section Paths

variable {before : List String} {name : String}

theorem exists_fromRoot_append (before : List String) (name : String) :
    ∃ front, Path.fromRoot (before ++ [name]) = front ++ name := by
  cases before with
  | nil => exact ⟨"/", by rw [Path.fromRoot, List.nil_append, Text.join_singleton]⟩
  | cons first rest =>
    refine ⟨"/" ++ Text.join "/" (first :: rest) ++ "/", ?_⟩
    rw [Path.fromRoot, Text.join_append (List.cons_ne_nil _ _) (List.cons_ne_nil _ _),
      Text.join_singleton]
    simp only [String.append_assoc]

theorem endsIn_fromRoot (h : ∀ step ∈ before ++ [name], Path.IsName step) :
    Path.EndsIn (Path.fromRoot (before ++ [name])) before name := by
  have hn := h name (List.mem_append_right _ (List.mem_singleton_self name))
  refine ⟨FileTree.steps_fromRoot (by simp) h, fun hl => ?_, hn.not_current, hn.not_parent⟩
  obtain ⟨front, hf⟩ := exists_fromRoot_append before name
  have he : name.toList ≠ [] := fun he => hn.not_empty (String.toList_eq_nil_iff.mp he)
  rw [hf, String.toList_append, List.getLast?_append, List.getLast?_eq_some_getLast he,
    Option.some_or] at hl
  exact hn.no_slash (Option.some.inj hl ▸ List.getLast_mem he)

theorem writeText_fromRoot {tree after : FileTree} {place : Place} {text : String}
    (hn : place ≠ []) (h : ∀ step ∈ place, Path.IsName step)
    (hw : tree.writeText (Path.fromRoot place) text = .ok after) :
    after = tree.put place (.file (.text text)) ∧ tree.item? place ≠ some .directory := by
  obtain ⟨there, ht, rfl⟩ := FileTree.writeText_eq_ok.mp hw
  have hp : place.dropLast ++ [place.getLast hn] = place := List.dropLast_append_getLast hn
  have he : Path.EndsIn (Path.fromRoot place) place.dropLast (place.getLast hn) := by
    have hends : Path.EndsIn (Path.fromRoot (place.dropLast ++ [place.getLast hn])) place.dropLast
        (place.getLast hn) := endsIn_fromRoot (hp.symm ▸ h)
    rwa [hp] at hends
  obtain ⟨hl, hd⟩ := (FileTree.target_endsIn_ok he).mp ht
  have hs := FileTree.walkTo_eq_ok hl
  have hstart : tree.start (Path.fromRoot place) = [] := by
    have ha : Path.isAbsolute (Path.fromRoot place) = true := by
      simp [Path.isAbsolute, Path.fromRoot]
    rw [FileTree.start, if_pos ha]
  rw [FileTree.steps_of_endsIn he, hp, hstart] at hs
  obtain rfl : there = place := FileTree.foldlM_follow_names h hs
  exact ⟨rfl, hd⟩

end Paths

def CaseFile.rewritten (file : CaseFile) (suite : Suite) : CaseFile :=
  if file.place = suite.place then { file with content := .text (casesText suite.cases) } else file

def HasFile (tree : FileTree) (suite : Suite) : Prop :=
  suite.place ≠ [] ∧ ∃ content, (suite.place, .file content) ∈ tree.items

section Files

variable {tree after : FileTree} {root : Place} {suite : Suite} {file : CaseFile}

/-- What an entry of a tree is to a corpus. -/
def caseFile? (root : Place) : Place × Item → Option CaseFile
  | (_, .directory) => none
  | (place, .file content) =>
    if root.isPrefixOf place && place.getLast?.bind Path.extensionOf? = some caseExtension then
      some { place, names := place.drop root.length, content }
    else none

theorem caseFiles_eq (tree : FileTree) (root : Place) :
    caseFiles tree root =
      (tree.items.filterMap (caseFile? root)).mergeSort
        fun a b => Path.lessOrEqual a.names b.names := by
  rw [caseFiles]
  congr 2
  funext ⟨place, item⟩
  cases item <;> rfl

theorem mem_caseFiles (h : file ∈ caseFiles tree root) :
    file.place ≠ [] ∧ (file.place, .file file.content) ∈ tree.items := by
  rw [caseFiles_eq, List.mem_mergeSort] at h
  obtain ⟨⟨place, item⟩, hm, hf⟩ := List.mem_filterMap.mp h
  cases item with
  | directory => cases hf
  | file content =>
    simp only [caseFile?] at hf
    split at hf
    · rename_i hc
      obtain rfl := Option.some.inj hf
      refine ⟨?_, hm⟩
      rintro rfl
      simp at hc
    · cases hf

theorem place_of_caseFile? {place : Place} {item : Item}
    (h : caseFile? root (place, item) = some file) : file.place = place := by
  cases item with
  | directory => cases h
  | file content =>
    simp only [caseFile?] at h
    split at h
    · obtain rfl := Option.some.inj h
      rfl
    · cases h

theorem names_rewritten (file : CaseFile) (suite : Suite) :
    (file.rewritten suite).names = file.names := by
  unfold CaseFile.rewritten
  split <;> rfl

/-- The entry of the suite becomes its new text, and every other one stays. -/
theorem caseFile?_exchange (ht : tree.IsSound) (hf : HasFile tree suite) {place : Place} {item : Item}
    (hm : (place, item) ∈ tree.items) :
    caseFile? root (if place = suite.place then
        (suite.place, .file (.text (casesText suite.cases))) else (place, item)) =
      (caseFile? root (place, item)).map fun file => file.rewritten suite := by
  obtain ⟨hn, content, hc⟩ := hf
  by_cases hp : place = suite.place
  · subst hp
    obtain rfl : item = .file content :=
      Option.some.inj ((ht.item?_of_mem hn hm).symm.trans (ht.item?_of_mem hn hc))
    rw [if_pos rfl]
    simp only [caseFile?]
    split
    · rw [Option.map_some, CaseFile.rewritten, if_pos rfl]
    · rfl
  · rw [if_neg hp]
    cases hf : caseFile? root (place, item) with
    | none => rfl
    | some file =>
      have hne : file.place ≠ suite.place := place_of_caseFile? hf ▸ hp
      rw [Option.map_some, CaseFile.rewritten, if_neg hne]

theorem items_put (ht : tree.IsSound) (hf : HasFile tree suite) :
    (tree.put suite.place (.file (.text (casesText suite.cases)))).items = tree.items.map
      fun entry => if entry.1 = suite.place then
        (suite.place, .file (.text (casesText suite.cases))) else entry := by
  obtain ⟨-, content, hm⟩ := hf
  exact FileTree.replaceEntry_eq_map ht.once (List.mem_map_of_mem (f := Prod.fst) hm)

theorem caseFiles_put (ht : tree.IsSound) (hf : HasFile tree suite) (root : Place) :
    caseFiles (tree.put suite.place (.file (.text (casesText suite.cases)))) root =
      (caseFiles tree root).map fun file => file.rewritten suite := by
  have he : ∀ entry ∈ tree.items, (caseFile? root ∘ fun entry => if entry.1 = suite.place then
        (suite.place, .file (.text (casesText suite.cases))) else entry) entry =
      (caseFile? root entry).map fun file => file.rewritten suite :=
    fun entry hm => caseFile?_exchange ht hf hm
  rw [caseFiles_eq, caseFiles_eq, items_put ht hf, List.filterMap_map, List.filterMap_congr he,
    ← List.map_filterMap]
  refine (List.map_mergeSort fun a _ b _ => ?_).symm
  rw [names_rewritten, names_rewritten]

theorem HasFile.put {other : Suite} (ht : tree.IsSound) (hf : HasFile tree suite)
    (ho : HasFile tree other) :
    HasFile (tree.put suite.place (.file (.text (casesText suite.cases)))) other := by
  obtain ⟨hn, content, hm⟩ := ho
  refine ⟨hn, ?_⟩
  rw [items_put ht hf]
  by_cases hp : other.place = suite.place
  · exact ⟨_, List.mem_map.mpr ⟨_, hm, by rw [if_pos hp, hp]⟩⟩
  · exact ⟨content, List.mem_map.mpr ⟨_, hm, if_neg hp⟩⟩

/-- What the writing of suites does to a tree. -/
structure Wrote (suites : List Suite) (tree after : FileTree) : Prop where
  sound : after.IsSound
  same : FileTree.SameOutside Set.univ tree after
  files : ∀ suite, HasFile tree suite → HasFile after suite
  present : ∀ place, tree.item? place ≠ none → after.item? place ≠ none
  caseFiles : ∀ root, caseFiles after root =
    (caseFiles tree root).map fun file => suites.foldl CaseFile.rewritten file

theorem writeText_of_writeSuite (hw : writeSuite tree suite = .ok after) :
    tree.writeText (Path.fromRoot suite.place) (casesText suite.cases) = .ok after := by
  unfold writeSuite at hw
  cases ht : tree.writeText (Path.fromRoot suite.place) (casesText suite.cases) with
  | error fault =>
    rw [ht] at hw
    cases hw
  | ok written =>
    rw [ht] at hw
    cases hw
    rfl

theorem wrote_writeSuite (ht : tree.IsSound) (hf : HasFile tree suite)
    (hw : writeSuite tree suite = .ok after) : Wrote [suite] tree after := by
  have hnames : ∀ step ∈ suite.place, Path.IsName step := by
    obtain ⟨-, content, hm⟩ := hf
    exact ht.names suite.place (List.mem_map_of_mem (f := Prod.fst) hm)
  obtain ⟨rfl, hd⟩ := writeText_fromRoot hf.1 hnames (writeText_of_writeSuite hw)
  refine ⟨ht.put hnames, .put hf.1 hd trivial, fun _ ho => hf.put ht ho, fun place hp => ?_,
    caseFiles_put ht hf⟩
  rw [FileTree.item?_put hf.1]
  split
  · exact Option.some_ne_none _
  · exact hp

theorem wrote_foldlM {suites : List Suite} (ht : tree.IsSound)
    (hf : ∀ suite ∈ suites, HasFile tree suite) (hw : suites.foldlM writeSuite tree = .ok after) :
    Wrote suites tree after := by
  induction suites generalizing tree with
  | nil =>
    cases hw
    exact ⟨ht, .refl _ _, fun _ hs => hs, fun _ hp => hp, fun root => (List.map_id' _).symm⟩
  | cons suite rest ih =>
    obtain ⟨hs, hr⟩ := List.forall_mem_cons.mp hf
    rw [List.foldlM_cons] at hw
    obtain ⟨next, hnext, hw⟩ := bind_eq_ok.mp hw
    have h := wrote_writeSuite ht hs hnext
    have h' := ih h.sound (fun other ho => h.files other (hr other ho)) hw
    refine ⟨h'.sound, h.same.trans h'.same, fun other ho => h'.files other (h.files other ho),
      fun place hp => h'.present place (h.present place hp), fun root => ?_⟩
    rw [h'.caseFiles, h.caseFiles, List.map_map]
    rfl

end Files

section Loading

variable {tree : FileTree} {root : String} {file : CaseFile} {suite : Suite} {suites : List Suite}

theorem places_sublist (root : Place) (items : List (Place × Item)) :
    ((items.filterMap (caseFile? root)).map CaseFile.place).Sublist (items.map Prod.fst) :=
  FileTree.map_filterMap_sublist (fun _ _ hf => place_of_caseFile? hf) items

theorem nodup_places (ht : tree.IsSound) (root : Place) :
    ((caseFiles tree root).map CaseFile.place).Nodup := by
  rw [caseFiles_eq]
  exact ((List.mergeSort_perm _ _).map _).nodup_iff.mpr (ht.once.sublist (places_sublist root _))

theorem foldl_rewritten_of_ne (h : ∀ suite ∈ suites, suite.place ≠ file.place) :
    suites.foldl CaseFile.rewritten file = file := by
  induction suites with
  | nil => rfl
  | cons suite rest ih =>
    obtain ⟨hs, hr⟩ := List.forall_mem_cons.mp h
    rw [List.foldl_cons, CaseFile.rewritten, if_neg (Ne.symm hs), ih hr]

theorem foldl_rewritten_of_mem (hn : (suites.map Suite.place).Nodup) (hm : suite ∈ suites)
    (hp : suite.place = file.place) :
    suites.foldl CaseFile.rewritten file =
      { file with content := .text (casesText suite.cases) } := by
  induction suites with
  | nil => cases hm
  | cons first rest ih =>
    obtain ⟨hf, hr⟩ := List.nodup_cons.mp hn
    rw [List.foldl_cons]
    rcases List.mem_cons.mp hm with rfl | hm
    · rw [CaseFile.rewritten, if_pos hp.symm]
      refine foldl_rewritten_of_ne fun other ho he => hf ?_
      rw [hp, ← he]
      exact List.mem_map_of_mem ho
    · have hne : file.place ≠ first.place := by
        intro he
        refine hf ?_
        rw [← he, ← hp]
        exact List.mem_map_of_mem hm
      rw [CaseFile.rewritten, if_neg hne, ih hr hm]

theorem loadFile_eq_ok :
    loadFile file = .ok suite ↔ ∃ text cases, file.content = .text text ∧
      parseCases (suiteName file.names) text = .ok cases ∧
      suite = { place := file.place, name := suiteName file.names, cases } := by
  unfold loadFile
  cases hc : file.content with
  | binary bytes => simp
  | text text =>
    cases hp : parseCases (suiteName file.names) text with
    | error fault => simp [hp]
    | ok cases => simp [hp, eq_comm]

theorem load_eq_ok :
    load tree root = .ok suites ↔ ∃ place, tree.locate root = .ok place ∧
      tree.item? place ≠ none ∧
      List.Forall₂ (fun file suite => loadFile file = .ok suite) (caseFiles tree place) suites := by
  unfold load
  cases hl : tree.locate root with
  | error fault => simp
  | ok place =>
    cases hi : tree.item? place with
    | none => simp [hi]
    | some item => simp [hi, mapM_eq_ok]

end Loading

end CallFlow.Corpus
