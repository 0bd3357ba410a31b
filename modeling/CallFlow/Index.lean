namespace CallFlow

/-- Recorded positions, the latest first. -/
structure Index (κ : Type) where
  entries : List (κ × Nat)
  deriving DecidableEq, Repr

namespace Index

variable {κ : Type} [DecidableEq κ] {index : Index κ} {keys : List κ} {key : κ} {position : Nat}

def empty : Index κ := ⟨[]⟩

def get? (index : Index κ) (key : κ) : Option Nat :=
  index.entries.lookup key

def insert (index : Index κ) (key : κ) (position : Nat) : Index κ :=
  ⟨(key, position) :: index.entries⟩

/-- The positions of all keys of a list, recorded one after the other. -/
def ofKeys (keys : List κ) : Index κ :=
  ⟨keys.zipIdx.reverse⟩

omit [DecidableEq κ] in
theorem ofKeys_concat (keys : List κ) (key : κ) :
    ofKeys (keys ++ [key]) = (ofKeys keys).insert key keys.length := by
  simp [ofKeys, insert, List.zipIdx_append]

@[simp]
theorem get?_empty (key : κ) : (empty : Index κ).get? key = none := rfl

theorem get?_insert (index : Index κ) (key k : κ) (position : Nat) :
    (index.insert key position).get? k = if k = key then some position else index.get? k := by
  by_cases h : k = key
  · simp [get?, insert, h]
  · have hb : (k == key) = false := by simpa using h
    simp [get?, insert, List.lookup_cons, hb, h]

def find? {α : Type} (index : Index κ) (as : List α) (key : κ) : Option α :=
  (index.get? key).bind (as[·]?)

/-- Each key of a list is found at its own position, and nothing else is found. -/
def Locates (index : Index κ) (keys : List κ) : Prop :=
  ∀ key position, index.get? key = some position ↔ keys[position]? = some key

theorem Locates.empty : (empty : Index κ).Locates [] := by
  intro key position
  simp

/-- A key is missing from the index exactly when the list lacks it. -/
theorem Locates.get?_eq_none (h : index.Locates keys) : index.get? key = none ↔ key ∉ keys := by
  constructor
  · intro hn hm
    obtain ⟨position, hp⟩ := List.mem_iff_getElem?.mp hm
    rw [(h key position).mpr hp] at hn
    cases hn
  · intro hm
    cases hf : index.get? key with
    | none => rfl
    | some position => exact absurd (List.mem_of_getElem? ((h key position).mp hf)) hm

/-- Storing a new key at the end keeps every older position. -/
theorem Locates.push (h : index.Locates keys) (hn : index.get? key = none) :
    (index.insert key keys.length).Locates (keys ++ [key]) := by
  intro k i
  rw [get?_insert, List.getElem?_append]
  by_cases hk : k = key
  · subst k
    have hm : keys[i]? ≠ some key := by
      intro he
      rw [(h key i).mpr he] at hn
      cases hn
    by_cases hi : i < keys.length
    · simp only [↓reduceIte, hi, hm, iff_false, Option.some.injEq]
      omega
    · simp only [↓reduceIte, hi, Option.some.injEq, List.getElem?_singleton]
      split <;> simp <;> omega
  · by_cases hi : i < keys.length
    · simpa only [hk, hi, ↓reduceIte] using h k i
    · have hm : index.get? k ≠ some i := by
        intro he
        rw [h k i, List.getElem?_eq_none (by omega)] at he
        cases he
      simp only [hk, hi, ↓reduceIte, hm, false_iff, List.getElem?_singleton]
      split <;> simp [Ne.symm hk]

section Lookup

variable {α : Type} {as : List α} {keyOf : α → κ}

theorem Locates.get?_eq_some (h : index.Locates (as.map keyOf)) :
    index.get? key = some position ↔ ∃ hp : position < as.length, keyOf as[position] = key := by
  rw [h key position, List.getElem?_map, Option.map_eq_some_iff]
  constructor
  · rintro ⟨a, ha, rfl⟩
    obtain ⟨hp, rfl⟩ := List.getElem?_eq_some_iff.mp ha
    exact ⟨hp, rfl⟩
  · rintro ⟨hp, rfl⟩
    exact ⟨as[position], List.getElem?_eq_getElem hp, rfl⟩

theorem Locates.find?_eq_some (h : index.Locates (as.map keyOf)) {a : α} :
    index.find? as key = some a ↔ a ∈ as ∧ keyOf a = key := by
  unfold find?
  rw [Option.bind_eq_some_iff]
  constructor
  · rintro ⟨i, hi, ha⟩
    obtain ⟨_, hk⟩ := h.get?_eq_some.mp hi
    obtain ⟨_, rfl⟩ := List.getElem?_eq_some_iff.mp ha
    exact ⟨List.mem_of_getElem? ha, hk⟩
  · rintro ⟨ha, rfl⟩
    obtain ⟨i, hi, rfl⟩ := List.mem_iff_getElem.mp ha
    exact ⟨i, h.get?_eq_some.mpr ⟨hi, rfl⟩, List.getElem?_eq_getElem hi⟩

theorem Locates.find?_eq_none (h : index.Locates (as.map keyOf)) :
    index.find? as key = none ↔ key ∉ as.map keyOf := by
  rw [Option.eq_none_iff_forall_ne_some]
  constructor
  · intro hn hm
    obtain ⟨a, ha, hk⟩ := List.mem_map.mp hm
    exact hn a (h.find?_eq_some.mpr ⟨ha, hk⟩)
  · intro hm a hf
    obtain ⟨ha, rfl⟩ := h.find?_eq_some.mp hf
    exact hm (List.mem_map.mpr ⟨a, ha, rfl⟩)

end Lookup

end Index

end CallFlow
