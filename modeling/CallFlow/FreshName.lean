namespace CallFlow

def freshIndex (taken : List String) (candidate : Nat → String) : Nat :=
  ((List.range (taken.length + 1)).find? (candidate · ∉ taken)).getD taken.length

def freshName (taken : List String) (candidate : Nat → String) : String :=
  candidate (freshIndex taken candidate)

/-- No candidate before the chosen one is free. -/
theorem mem_of_lt_freshIndex {taken : List String} {candidate : Nat → String} {i : Nat}
    (h : i < freshIndex taken candidate) : candidate i ∈ taken := by
  unfold freshIndex at h
  cases hf : (List.range (taken.length + 1)).find? (candidate · ∉ taken) with
  | none =>
    have all := List.find?_eq_none.mp hf i
    simp only [hf, Option.getD_none] at h
    simpa using all (List.mem_range.mpr (by omega))
  | some j =>
    simp only [hf, Option.getD_some] at h
    obtain ⟨-, before, after, split, earlier⟩ := List.find?_eq_some_iff_append.mp hf
    have first : (List.range (taken.length + 1))[i]? = (before ++ j :: after)[i]? := by rw [split]
    have place : j = before.length := by
      have here : (List.range (taken.length + 1))[before.length]? = some j := by simp [split]
      obtain ⟨_, rfl⟩ := List.getElem?_eq_some_iff.mp here
      simp
    have short : i < before.length := by omega
    have long : before.length < taken.length + 1 := by
      have := congrArg List.length split
      simp only [List.length_range, List.length_append, List.length_cons] at this
      omega
    rw [List.getElem?_append_left short, List.getElem?_range (by omega)] at first
    simpa using earlier i (List.mem_of_getElem? first.symm)

theorem find?_isSome_of_injective (taken : List String) {candidate : Nat → String}
    (hc : Function.Injective candidate) :
    ((List.range (taken.length + 1)).find? (candidate · ∉ taken)).isSome := by
  cases hf : (List.range (taken.length + 1)).find? (candidate · ∉ taken) with
  | some i => rfl
  | none =>
    have hs : (List.range (taken.length + 1)).map candidate ⊆ taken := by
      intro name hn
      obtain ⟨i, hi, rfl⟩ := List.mem_map.mp hn
      simpa using List.find?_eq_none.mp hf i hi
    have hn : ((List.range (taken.length + 1)).map candidate).Nodup :=
      List.Pairwise.map candidate (fun _ _ hij he => hij (hc he)) List.nodup_range
    have hl := hn.length_le_of_subset hs
    simp only [List.length_map, List.length_range] at hl
    omega

theorem freshIndex_le (taken : List String) (candidate : Nat → String) :
    freshIndex taken candidate ≤ taken.length := by
  unfold freshIndex
  cases hf : (List.range (taken.length + 1)).find? (candidate · ∉ taken) with
  | none => simp
  | some i =>
    have := List.mem_range.mp (List.mem_of_find?_eq_some hf)
    simp only [Option.getD_some]
    omega

theorem freshName_not_mem (taken : List String) {candidate : Nat → String}
    (hc : Function.Injective candidate) : freshName taken candidate ∉ taken := by
  obtain ⟨i, hf⟩ := Option.isSome_iff_exists.mp (find?_isSome_of_injective taken hc)
  have hi : candidate i ∉ taken := by simpa using List.find?_some hf
  rwa [freshName, freshIndex, hf]

theorem freshIndex_eq {taken : List String} {candidate : Nat → String} {n : Nat}
    (hc : Function.Injective candidate) (free : candidate n ∉ taken)
    (known : ∀ i < n, candidate i ∈ taken) : freshIndex taken candidate = n := by
  rcases Nat.lt_trichotomy (freshIndex taken candidate) n with hl | he | hg
  · exact absurd (known _ hl) (freshName_not_mem taken hc)
  · exact he
  · exact absurd (mem_of_lt_freshIndex hg) free

/-- Each suffix of a counted name: none at first, then `_2`, `_3` and so on. -/
def counted (name : String) : Nat → String
  | 0 => name
  | n + 1 => name ++ "_" ++ toString (n + 2)

theorem toList_counted_succ (name : String) (n : Nat) :
    (counted name (n + 1)).toList = name.toList ++ '_' :: Nat.toDigits 10 (n + 2) := by
  simp [counted]

/-- Decimal digits determine their number. -/
theorem toDigits_injective : Function.Injective (Nat.toDigits 10) := by
  intro m n h
  rw [← Nat.ofDigitChars_ten_toDigits (n := m), h, Nat.ofDigitChars_ten_toDigits]

theorem counted_injective (name : String) : Function.Injective (counted name) := by
  intro i j h
  have hl := congrArg String.toList h
  cases i with
  | zero =>
    cases j with
    | zero => rfl
    | succ j =>
      rw [toList_counted_succ] at hl
      simpa [counted] using congrArg List.length hl
  | succ i =>
    cases j with
    | zero =>
      rw [toList_counted_succ] at hl
      simpa [counted] using congrArg List.length hl
    | succ j =>
      rw [toList_counted_succ, toList_counted_succ] at hl
      have hd := (List.cons.inj (List.append_cancel_left hl)).2
      have := toDigits_injective hd
      omega

end CallFlow
