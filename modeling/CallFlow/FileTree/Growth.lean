import CallFlow.FileTree.Agreement
import CallFlow.Success

namespace CallFlow.FileTree

variable {tree after other : FileTree} {place : Place} {path : String}

theorem makeDirectory_eq_ok (h : tree.makeDirectory path = .ok after) :
    ∃ place, tree.walkTo path (Path.steps path) = .ok place ∧ tree.item? place = none ∧
      after = tree.put place .directory := by
  obtain ⟨place, hw, h⟩ := bind_eq_ok.mp h
  split at h
  · cases h
  · rename_i hi
    exact ⟨place, hw, hi, (Except.ok.inj h).symm⟩

/-- How directories are made: there is nothing to do, or only the last one is missing, or those
above it are made first. -/
theorem makeDirectoriesWithin_eq_ok {depth : Nat}
    (h : makeDirectoriesWithin (depth + 1) tree path = .ok after) :
    path = "" ∧ after = tree ∨ ∃ before,
      (before = tree ∨ ∃ parent, makeDirectoriesWithin depth tree parent = .ok before) ∧
      (before.makeDirectory path = .ok after ∨
        before.isDirectory path = true ∧ after = before) := by
  rw [makeDirectoriesWithin] at h
  split at h
  · exact .inl ⟨‹_›, (Except.ok.inj h).symm⟩
  · right
    split at h
    · rename_i made hm
      exact ⟨tree, .inl rfl, .inl (hm.trans h)⟩
    · split at h
      · cases h
      · rename_i parent hp
        obtain ⟨before, hb, h⟩ := bind_eq_ok.mp h
        refine ⟨before, .inr ⟨parent, hb⟩, ?_⟩
        split at h
        · rename_i made hm
          exact .inl (hm.trans h)
        · split at h
          · exact .inr ⟨‹_›, (Except.ok.inj h).symm⟩
          · cases h
    · split at h
      · exact ⟨tree, .inl rfl, .inr ⟨‹_›, (Except.ok.inj h).symm⟩⟩
      · cases h

/-- The same result, unless nothing was found the first time. -/
def FoundAgain {α : Type} (x y : Except FileFault α) : Prop :=
  x = .error .notFound ∨ y = x

theorem FoundAgain.bind {α β : Type} {x y : Except FileFault α} {f g : α → Except FileFault β}
    (h : FoundAgain x y) (hf : ∀ a, FoundAgain (f a) (g a)) : FoundAgain (x >>= f) (y >>= g) := by
  rcases h with rfl | rfl
  · exact .inl rfl
  · cases y with
    | error fault => exact .inr rfl
    | ok a => exact hf a

/-- A tree in which all is still there. -/
structure Grows (tree after : FileTree) : Prop where
  home : after.home = tree.home
  item : ∀ place item, tree.item? place = some item → after.item? place = some item

namespace Grows

theorem refl (tree : FileTree) : Grows tree tree :=
  ⟨rfl, fun _ _ h => h⟩

theorem trans (h : Grows tree after) (h' : Grows after other) : Grows tree other :=
  ⟨h'.home.trans h.home, fun place item hi => h'.item place item (h.item place item hi)⟩

theorem put (hi : tree.item? place = none) (item : Item) : Grows tree (tree.put place item) := by
  have hp : place ≠ [] := by
    rintro rfl
    cases hi
  refine ⟨rfl, fun there held hh => ?_⟩
  have hn : there ≠ place := by
    rintro rfl
    cases hi.symm.trans hh
  rw [item?_put hp, if_neg hn, hh]

theorem makeDirectory (h : tree.makeDirectory path = .ok after) : Grows tree after := by
  obtain ⟨place, -, hi, rfl⟩ := makeDirectory_eq_ok h
  exact put hi .directory

theorem makeDirectoriesWithin {depth : Nat}
    (h : FileTree.makeDirectoriesWithin depth tree path = .ok after) : Grows tree after := by
  induction depth generalizing path after with
  | zero => cases h
  | succ depth ih =>
    rcases makeDirectoriesWithin_eq_ok h with ⟨-, rfl⟩ | ⟨before, hb, hm⟩
    · exact refl after
    · have grown : Grows tree before := by
        rcases hb with rfl | ⟨parent, hp⟩
        · exact refl before
        · exact ih hp
      rcases hm with hm | ⟨-, rfl⟩
      · exact grown.trans (makeDirectory hm)
      · exact grown

theorem follow (h : Grows tree after) (place : Place) (step : String) :
    FoundAgain (tree.follow place step) (after.follow place step) := by
  unfold FileTree.follow
  cases hi : tree.item? place with
  | none => exact .inl rfl
  | some item =>
    rw [h.item place item hi]
    exact .inr rfl

theorem foldlM (h : Grows tree after) (place : Place) (steps : List String) :
    FoundAgain (steps.foldlM tree.follow place) (steps.foldlM after.follow place) := by
  induction steps generalizing place with
  | nil => exact .inr rfl
  | cons step rest ih =>
    rw [List.foldlM_cons, List.foldlM_cons]
    exact (h.follow place step).bind ih

theorem locate (h : Grows tree after) (path : String) :
    FoundAgain (tree.locate path) (after.locate path) := by
  have hs : after.start path = tree.start path := by simp only [start, h.home]
  unfold FileTree.locate walkTo
  split
  · exact .inr rfl
  · split
    · exact .inr rfl
    · split
      · exact .inr rfl
      · rw [hs]
        exact h.foldlM _ _

theorem find (h : Grows tree after) (path : String) :
    FoundAgain (tree.find path) (after.find path) := by
  refine (h.locate path).bind fun place => ?_
  cases hi : tree.item? place with
  | none => exact .inl rfl
  | some item =>
    rw [h.item place item hi]
    exact .inr rfl

theorem readText (h : Grows tree after) (path : String) :
    FoundAgain (tree.readText path) (after.readText path) :=
  (h.find path).bind fun _ => .inr rfl

end Grows

end CallFlow.FileTree
