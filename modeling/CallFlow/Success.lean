import Mathlib.Data.List.Forall2

namespace CallFlow

variable {ε α β : Type}

theorem eq_ok_of_toOption {x : Except ε α} {a : α} (h : x.toOption = some a) : x = .ok a := by
  cases x with
  | error fault => cases h
  | ok a' =>
    cases h
    rfl

theorem exists_eq_ok {x : Except ε α} {f : α → β} {b : β} (h : x.toOption.map f = some b) :
    ∃ a, x = .ok a ∧ f a = b := by
  obtain ⟨a, ha, hf⟩ := Option.map_eq_some_iff.mp h
  exact ⟨a, eq_ok_of_toOption ha, hf⟩

theorem bind_eq_ok {x : Except ε α} {f : α → Except ε β} {b : β} :
    x >>= f = .ok b ↔ ∃ a, x = .ok a ∧ f a = .ok b := by
  cases x with
  | error fault =>
    constructor
    · intro h
      cases h
    · rintro ⟨a, h, -⟩
      cases h
  | ok a =>
    constructor
    · intro h
      exact ⟨a, rfl, h⟩
    · rintro ⟨a', h, hf⟩
      cases h
      exact hf

theorem bind_eq_error {x : Except ε α} {f : α → Except ε β} {fault : ε} :
    x >>= f = .error fault ↔ x = .error fault ∨ ∃ a, x = .ok a ∧ f a = .error fault := by
  cases x with
  | error fault' =>
    constructor
    · intro h
      cases h
      exact .inl rfl
    · rintro (h | ⟨a, h, -⟩)
      · cases h
        rfl
      · cases h
  | ok a =>
    constructor
    · intro h
      exact .inr ⟨a, rfl, h⟩
    · rintro (h | ⟨a', h, hf⟩)
      · cases h
      · cases h
        exact hf

/-- Every member was taken, and each gave its result. -/
theorem mapM_eq_ok {f : α → Except ε β} {as : List α} {bs : List β} :
    as.mapM f = .ok bs ↔ List.Forall₂ (fun a b => f a = .ok b) as bs := by
  induction as generalizing bs with
  | nil =>
    rw [List.mapM_nil, List.forall₂_nil_left_iff]
    constructor
    · intro h
      cases h
      rfl
    · rintro rfl
      rfl
  | cons a rest ih =>
    rw [List.mapM_cons, bind_eq_ok]
    constructor
    · rintro ⟨b, hb, h⟩
      obtain ⟨bs', hr, h⟩ := bind_eq_ok.mp h
      cases h
      exact .cons hb (ih.mp hr)
    · intro h
      cases h with
      | cons hb hr => exact ⟨_, hb, bind_eq_ok.mpr ⟨_, ih.mpr hr, rfl⟩⟩

/-- The first member that gives no result decides the fault. -/
theorem mapM_eq_error {f : α → Except ε β} {as : List α} {fault : ε} :
    as.mapM f = .error fault ↔ ∃ before a after, as = before ++ a :: after ∧
      (∀ b ∈ before, ∃ c, f b = .ok c) ∧ f a = .error fault := by
  induction as with
  | nil =>
    rw [List.mapM_nil]
    refine iff_of_false nofun ?_
    rintro ⟨before, a, after, h, -⟩
    exact absurd h.symm (by simp)
  | cons first rest ih =>
    rw [List.mapM_cons, bind_eq_error]
    constructor
    · rintro (h | ⟨b, hb, h⟩)
      · exact ⟨[], first, rest, rfl, fun b hm => absurd hm List.not_mem_nil, h⟩
      · rcases bind_eq_error.mp h with h | ⟨bs, -, h⟩
        · obtain ⟨before, a, after, rfl, known, ha⟩ := ih.mp h
          exact ⟨first :: before, a, after, rfl, List.forall_mem_cons.mpr ⟨⟨b, hb⟩, known⟩, ha⟩
        · cases h
    · rintro ⟨before, a, after, split, known, ha⟩
      cases before with
      | nil =>
        obtain ⟨rfl, -⟩ := List.cons.inj split
        exact .inl ha
      | cons b before =>
        obtain ⟨rfl, rfl⟩ := List.cons.inj split
        obtain ⟨⟨c, hc⟩, known⟩ := List.forall_mem_cons.mp known
        exact .inr ⟨c, hc, bind_eq_error.mpr (.inl (ih.mpr ⟨before, a, after, rfl, known, ha⟩))⟩

theorem exists_mapM_eq_ok {f : α → Except ε β} {p : β → Prop} {as : List α}
    (h : ∀ a ∈ as, ∃ b, f a = .ok b ∧ p b) : ∃ bs, as.mapM f = .ok bs ∧ ∀ b ∈ bs, p b := by
  induction as with
  | nil => exact ⟨[], rfl, fun b hb => absurd hb List.not_mem_nil⟩
  | cons a rest ih =>
    obtain ⟨⟨b, hf, hp⟩, hr⟩ := List.forall_mem_cons.mp h
    obtain ⟨bs, hm, hbs⟩ := ih hr
    refine ⟨b :: bs, ?_, List.forall_mem_cons.mpr ⟨hp, hbs⟩⟩
    rw [List.mapM_cons]
    exact bind_eq_ok.mpr ⟨b, hf, bind_eq_ok.mpr ⟨bs, hm, rfl⟩⟩

/-- What each step keeps holds at the end. -/
theorem foldlM_keeps {f : β → α → Except ε β} {p : β → Prop} {as : List α}
    (hf : ∀ a ∈ as, ∀ b b', p b → f b a = .ok b' → p b') {b last : β} (hb : p b)
    (h : as.foldlM f b = .ok last) : p last := by
  induction as generalizing b with
  | nil =>
    cases h
    exact hb
  | cons a rest ih =>
    obtain ⟨ha, hr⟩ := List.forall_mem_cons.mp hf
    rw [List.foldlM_cons] at h
    obtain ⟨next, hn, h⟩ := bind_eq_ok.mp h
    exact ih hr (ha b next hb hn) h

end CallFlow
