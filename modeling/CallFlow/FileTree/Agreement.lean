import Mathlib.Data.Set.Defs
import CallFlow.FileTree

namespace CallFlow.FileTree

/-- Where steps lead, or where they break off. -/
def reachFrom (tree : FileTree) (place : Place) : List String → Place
  | [] => place
  | step :: rest =>
    match tree.follow place step with
    | .ok next => tree.reachFrom next rest
    | .error _ => place

/-- The place that a path leads to, or the one at which it breaks off. -/
def reach (tree : FileTree) (path : String) : Place :=
  tree.reachFrom (tree.start path) (steps path)

/-- Trees with the same directories that hold the same files outside of some places. -/
structure SameOutside (places : Set Place) (tree other : FileTree) : Prop where
  home : other.home = tree.home
  directory : ∀ place, other.item? place = some .directory ↔ tree.item? place = some .directory
  item : ∀ place, place ∉ places → other.item? place = tree.item? place

section Put

variable {tree : FileTree} {place : Place} {item : Item}

theorem lookup_entry (other place : Place) (item : Item) (rest : List (Place × Item)) :
    ((place, item) :: rest).lookup other = if other = place then some item else rest.lookup other := by
  rw [List.lookup_cons]
  split <;> rename_i h
  · rw [if_pos (beq_iff_eq.mp h)]
  · rw [if_neg (beq_eq_false_iff_ne.mp h)]

theorem lookup_replaceEntry (place other : Place) (item : Item) (items : List (Place × Item)) :
    (replaceEntry place item items).lookup other =
      if other = place then some item else items.lookup other := by
  induction items with
  | nil => rw [replaceEntry, lookup_entry]
  | cons entry rest ih =>
    obtain ⟨there, old⟩ := entry
    rw [replaceEntry]
    split
    · rename_i hp
      rw [lookup_entry, lookup_entry, hp]
      by_cases ho : other = place <;> simp [ho]
    · rename_i hp
      rw [lookup_entry, lookup_entry, ih]
      by_cases ho : other = there
      · simp [ho, hp]
      · simp [ho]

theorem item?_put (hp : place ≠ []) (other : Place) :
    (tree.put place item).item? other = if other = place then some item else tree.item? other := by
  by_cases ho : other = []
  · subst ho
    simp [item?, Ne.symm hp]
  · simp [item?, put, ho, lookup_replaceEntry]

end Put

theorem follow_eq_ok {tree : FileTree} {place next : Place} {step : String}
    (h : tree.follow place step = .ok next) : tree.item? place = some .directory := by
  unfold follow at h
  split at h
  · cases h
  · cases h
  · assumption

theorem reachFrom_of_foldlM {tree : FileTree} {place last : Place} {steps : List String}
    (h : steps.foldlM tree.follow place = .ok last) : tree.reachFrom place steps = last := by
  induction steps generalizing place with
  | nil => exact Except.ok.inj h
  | cons step rest ih =>
    rw [List.foldlM_cons] at h
    cases hf : tree.follow place step with
    | error fault =>
      rw [hf] at h
      cases h
    | ok next =>
      rw [hf] at h
      simp only [reachFrom, hf]
      exact ih h

theorem foldlM_follow_ok {tree other : FileTree}
    (hd : ∀ place, tree.item? place = some .directory → other.item? place = some .directory)
    {place last : Place} {steps : List String} (hw : steps.foldlM tree.follow place = .ok last) :
    steps.foldlM other.follow place = .ok last := by
  induction steps generalizing place with
  | nil => exact hw
  | cons step rest ih =>
    rw [List.foldlM_cons] at hw ⊢
    cases hf : tree.follow place step with
    | error fault =>
      rw [hf] at hw
      cases hw
    | ok next =>
      rw [hf] at hw
      have hi := follow_eq_ok hf
      have ho : other.follow place step = .ok next := by
        rw [← hf]
        simp only [follow, hi, hd place hi]
      rw [ho]
      exact ih hw

namespace SameOutside

variable {places : Set Place} {tree other third : FileTree} {place last : Place}

theorem refl (places : Set Place) (tree : FileTree) : SameOutside places tree tree :=
  ⟨rfl, fun _ => Iff.rfl, fun _ _ => rfl⟩

theorem symm (h : SameOutside places tree other) : SameOutside places other tree :=
  ⟨h.home.symm, fun place => (h.directory place).symm, fun place hp => (h.item place hp).symm⟩

theorem trans (h : SameOutside places tree other) (h' : SameOutside places other third) :
    SameOutside places tree third :=
  ⟨h'.home.trans h.home, fun place => (h'.directory place).trans (h.directory place),
    fun place hp => (h'.item place hp).trans (h.item place hp)⟩

theorem start (h : SameOutside places tree other) (path : String) :
    other.start path = tree.start path := by
  simp only [FileTree.start, h.home]

theorem put {file : Content} (hn : place ≠ []) (hd : tree.item? place ≠ some .directory)
    (hp : place ∈ places) : SameOutside places tree (tree.put place (.file file)) := by
  refine ⟨rfl, fun there => ?_, fun there ht => ?_⟩
  · rw [item?_put hn]
    by_cases h : there = place
    · simp [h, hd]
    · rw [if_neg h]
  · have h : there ≠ place := by
      rintro rfl
      exact ht hp
    rw [item?_put hn, if_neg h]

theorem follow_directory (h : SameOutside places tree other)
    (hd : tree.item? place = some .directory) (step : String) :
    other.follow place step = tree.follow place step := by
  simp only [follow, hd, (h.directory place).mpr hd]

theorem follow_outside (h : SameOutside places tree other) (hp : place ∉ places) (step : String) :
    other.follow place step = tree.follow place step := by
  simp only [follow, h.item place hp]

theorem follow_error (h : SameOutside places tree other) (hd : tree.item? place ≠ some .directory)
    (step : String) : ∃ fault, other.follow place step = .error fault := by
  cases hf : other.follow place step with
  | error fault => exact ⟨fault, rfl⟩
  | ok next => exact absurd ((h.directory place).mp (follow_eq_ok hf)) hd

theorem reachFrom (h : SameOutside places tree other) (place : Place) (steps : List String) :
    other.reachFrom place steps = tree.reachFrom place steps := by
  induction steps generalizing place with
  | nil => rfl
  | cons step rest ih =>
    by_cases hd : tree.item? place = some .directory
    · simp only [FileTree.reachFrom, h.follow_directory hd]
      cases tree.follow place step with
      | error fault => rfl
      | ok next => exact ih next
    · obtain ⟨fault, ho⟩ := h.follow_error hd step
      obtain ⟨fault', ht⟩ := (refl places tree).follow_error hd step
      simp only [FileTree.reachFrom, ho, ht]

/-- Where a path leads depends on no file. -/
theorem reach (h : SameOutside places tree other) (path : String) :
    other.reach path = tree.reach path := by
  rw [FileTree.reach, FileTree.reach, h.start, h.reachFrom]

theorem foldlM_ok (h : SameOutside places tree other) {steps : List String}
    (hw : steps.foldlM tree.follow place = .ok last) :
    steps.foldlM other.follow place = .ok last :=
  foldlM_follow_ok (fun place => (h.directory place).mpr) hw

/-- Steps that break off, if at all, where both trees hold the same end alike in both. -/
theorem foldlM_eq (h : SameOutside places tree other) {steps : List String}
    (hr : tree.reachFrom place steps ∉ places) :
    steps.foldlM other.follow place = steps.foldlM tree.follow place := by
  induction steps generalizing place with
  | nil => rfl
  | cons step rest ih =>
    rw [List.foldlM_cons, List.foldlM_cons]
    cases hf : tree.follow place step with
    | error fault =>
      simp only [FileTree.reachFrom, hf] at hr
      rw [h.follow_outside hr, hf]
      rfl
    | ok next =>
      simp only [FileTree.reachFrom, hf] at hr
      rw [h.follow_directory (follow_eq_ok hf), hf]
      exact ih hr

theorem walkTo_eq (h : SameOutside places tree other) {path : String} {steps : List String}
    (hw : steps.foldlM other.follow (tree.start path) = steps.foldlM tree.follow (tree.start path)) :
    other.walkTo path steps = tree.walkTo path steps := by
  simp only [walkTo, h.start, hw]

theorem locate_eq (h : SameOutside places tree other) {path : String}
    (hr : tree.reach path ∉ places) : other.locate path = tree.locate path :=
  h.walkTo_eq (h.foldlM_eq hr)

end SameOutside

theorem walkTo_eq_ok {tree : FileTree} {path : String} {steps : List String} {place : Place}
    (h : tree.walkTo path steps = .ok place) :
    steps.foldlM tree.follow (tree.start path) = .ok place := by
  unfold walkTo at h
  split at h
  · cases h
  · split at h
    · cases h
    · split at h
      · cases h
      · exact h

theorem reach_of_locate {tree : FileTree} {path : String} {place : Place}
    (h : tree.locate path = .ok place) : tree.reach path = place :=
  reachFrom_of_foldlM (walkTo_eq_ok h)

theorem SameOutside.readText_eq {places : Set Place} {tree other : FileTree}
    (h : SameOutside places tree other) {path : String} (hr : tree.reach path ∉ places) :
    other.readText path = tree.readText path := by
  simp only [readText, find, h.locate_eq hr]
  cases hl : tree.locate path with
  | error fault => rfl
  | ok place =>
    rw [reach_of_locate hl] at hr
    simp only [bind, Except.bind, h.item place hr]

end CallFlow.FileTree
