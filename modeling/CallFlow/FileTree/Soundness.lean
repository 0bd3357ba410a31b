import CallFlow.FileTree.Agreement
import CallFlow.Success
import Mathlib.Data.List.Nodup

namespace CallFlow

/-- A name that leads one step down, and is one step of a path. -/
structure Path.IsName (name : String) : Prop where
  not_empty : name ≠ ""
  no_slash : '/' ∉ name.toList
  not_current : name ≠ "."
  not_parent : name ≠ ".."

theorem Path.isName_iff {name : String} :
    IsName name ↔ name ≠ "" ∧ '/' ∉ name.toList ∧ name ≠ "." ∧ name ≠ ".." :=
  ⟨fun ⟨he, hs, hc, hp⟩ => ⟨he, hs, hc, hp⟩, fun ⟨he, hs, hc, hp⟩ => ⟨he, hs, hc, hp⟩⟩

instance (name : String) : Decidable (Path.IsName name) :=
  decidable_of_iff _ Path.isName_iff.symm

namespace FileTree

/-- Each place is taken once, and its names lead to it. -/
structure IsSound (tree : FileTree) : Prop where
  once : (tree.items.map Prod.fst).Nodup
  names : ∀ place ∈ tree.items.map Prod.fst, ∀ name ∈ place, Path.IsName name
  home : ∀ name ∈ tree.home, Path.IsName name

theorem isSound_iff {tree : FileTree} :
    tree.IsSound ↔ (tree.items.map Prod.fst).Nodup ∧
      (∀ place ∈ tree.items.map Prod.fst, ∀ name ∈ place, Path.IsName name) ∧
      ∀ name ∈ tree.home, Path.IsName name :=
  ⟨fun ⟨ho, hn, hh⟩ => ⟨ho, hn, hh⟩, fun ⟨ho, hn, hh⟩ => ⟨ho, hn, hh⟩⟩

instance (tree : FileTree) : Decidable tree.IsSound :=
  decidable_of_iff _ isSound_iff.symm

section Items

variable {place other : Place} {item : Item} {items : List (Place × Item)}

theorem mem_map_fst_replaceEntry :
    other ∈ (replaceEntry place item items).map Prod.fst ↔
      other = place ∨ other ∈ items.map Prod.fst := by
  induction items with
  | nil => simp [replaceEntry]
  | cons entry rest ih =>
    obtain ⟨there, old⟩ := entry
    rw [replaceEntry]
    split
    · rename_i h
      simp [h]
    · rw [List.map_cons, List.mem_cons, ih, List.map_cons, List.mem_cons]
      exact or_left_comm

theorem nodup_map_fst_replaceEntry (h : (items.map Prod.fst).Nodup) :
    ((replaceEntry place item items).map Prod.fst).Nodup := by
  induction items with
  | nil => simp [replaceEntry]
  | cons entry rest ih =>
    obtain ⟨there, old⟩ := entry
    obtain ⟨hn, hr⟩ := List.nodup_cons.mp h
    rw [replaceEntry]
    split
    · rename_i hp
      subst hp
      exact h
    · rename_i hp
      refine List.nodup_cons.mpr ⟨?_, ih hr⟩
      rw [mem_map_fst_replaceEntry]
      exact not_or.mpr ⟨hp, hn⟩

theorem replaceEntry_eq_map (h : (items.map Prod.fst).Nodup) (hp : place ∈ items.map Prod.fst) :
    replaceEntry place item items =
      items.map fun entry => if entry.1 = place then (place, item) else entry := by
  induction items with
  | nil => cases hp
  | cons entry rest ih =>
    obtain ⟨there, old⟩ := entry
    obtain ⟨hn, hr⟩ := List.nodup_cons.mp h
    rw [replaceEntry, List.map_cons]
    by_cases ht : there = place
    · subst ht
      have hrest : ∀ entry ∈ rest,
          (if entry.1 = there then (there, item) else entry) = entry := by
        intro entry hm
        exact if_neg fun he => hn (List.mem_map.mpr ⟨entry, hm, he⟩)
      rw [if_pos rfl, if_pos rfl, List.map_congr_left hrest, List.map_id']
    · have hm : place ∈ rest.map Prod.fst :=
        (List.mem_cons.mp hp).resolve_left (Ne.symm ht)
      rw [if_neg ht, if_neg ht, ih hr hm]

theorem lookup_of_mem (h : (items.map Prod.fst).Nodup) (hm : (place, item) ∈ items) :
    items.lookup place = some item := by
  induction items with
  | nil => cases hm
  | cons entry rest ih =>
    obtain ⟨there, old⟩ := entry
    obtain ⟨hn, hr⟩ := List.nodup_cons.mp h
    rw [lookup_entry]
    rcases List.mem_cons.mp hm with he | hrest
    · obtain ⟨rfl, rfl⟩ := Prod.mk.inj he
      exact if_pos rfl
    · have hp : place ≠ there := fun he => hn (List.mem_map.mpr ⟨_, hrest, he⟩)
      rw [if_neg hp, ih hr hrest]

/-- What some entries become is told apart by what it takes from them. -/
theorem map_filterMap_sublist {α β γ : Type} {f : α → Option β} {g : β → γ} {h : α → γ}
    (hf : ∀ a b, f a = some b → g b = h a) (as : List α) :
    ((as.filterMap f).map g).Sublist (as.map h) := by
  induction as with
  | nil => exact .slnil
  | cons a rest ih =>
    rw [List.filterMap_cons, List.map_cons]
    cases hb : f a with
    | none => exact ih.cons _
    | some b =>
      rw [List.map_cons, hf a b hb]
      exact ih.cons_cons _

end Items

section Soundness

variable {tree : FileTree} {place : Place} {item : Item}

theorem IsSound.item?_of_mem (h : tree.IsSound) (hn : place ≠ []) (hm : (place, item) ∈ tree.items) :
    tree.item? place = some item := by
  rw [item?, if_neg hn, lookup_of_mem h.once hm]

theorem IsSound.mem_items_iff (h : tree.IsSound) (hn : place ≠ []) :
    (place, item) ∈ tree.items ↔ tree.item? place = some item := by
  refine ⟨h.item?_of_mem hn, fun hi => ?_⟩
  rw [item?, if_neg hn, List.lookup_eq_some_iff] at hi
  obtain ⟨before, after, split, -⟩ := hi
  rw [split]
  exact List.mem_append_right _ List.mem_cons_self

theorem IsSound.put (h : tree.IsSound) (hp : ∀ name ∈ place, Path.IsName name) :
    (tree.put place item).IsSound where
  once := nodup_map_fst_replaceEntry h.once
  names := by
    intro there hm
    rcases mem_map_fst_replaceEntry.mp hm with rfl | hm
    · exact hp
    · exact h.names there hm
  home := h.home

end Soundness

section Steps

variable {tree : FileTree} {place last : Place} {steps : List String}

/-- Names lead down, one after the other. -/
theorem foldlM_follow_names (hn : ∀ name ∈ steps, Path.IsName name)
    (h : steps.foldlM tree.follow place = .ok last) : last = place ++ steps := by
  induction steps generalizing place with
  | nil =>
    cases h
    rw [List.append_nil]
  | cons step rest ih =>
    obtain ⟨hs, hr⟩ := List.forall_mem_cons.mp hn
    rw [List.foldlM_cons] at h
    obtain ⟨next, hf, h⟩ := bind_eq_ok.mp h
    simp only [follow, follow_eq_ok hf, if_neg hs.not_current, if_neg hs.not_parent] at hf
    split at hf
    · cases hf
    · cases hf
      rw [ih hr h, List.append_assoc, List.singleton_append]

theorem steps_fromRoot {names : List String} (hn : names ≠ [])
    (h : ∀ name ∈ names, Path.IsName name) : Path.steps (Path.fromRoot names) = names := by
  have hl : (Path.fromRoot names).toList = '/' :: (Text.join "/" names).toList := by
    simp [Path.fromRoot]
  have hs : Text.splitAt '/' (Text.join "/" names) = names :=
    Text.splitAt_intercalate hn fun name hm => (h name hm).no_slash
  have hf : names.filter (· ≠ "") = names :=
    List.filter_eq_self.mpr fun name hm => decide_eq_true (h name hm).not_empty
  rw [Path.steps, Text.splitAt, hl, Text.pieces_cons_sep, List.map_cons]
  change (("" :: Text.splitAt '/' (Text.join "/" names)).filter (· ≠ "")) = names
  rw [hs, List.filter_cons_of_neg (by simp), hf]

end Steps

end FileTree

end CallFlow
