import CallFlow.Proofs.ArtifactFiles

namespace CallFlow.Stem

/-- How a stem is chosen when others are claimed: the base itself, or the base with the least
counter that leads to a free one. -/
inductive Chosen (claimed : List String) (base : String) : String → Prop where
  | plain (free : base ∉ claimed) : Chosen claimed base base
  | counted {n : Nat} (known : base ∈ claimed) (from_two : 2 ≤ n)
      (free : base ++ "_" ++ toString n ∉ claimed)
      (least : ∀ k, 2 ≤ k → k < n → base ++ "_" ++ toString k ∈ claimed) :
      Chosen claimed base (base ++ "_" ++ toString n)

theorem chosen_freshName (claimed : List String) (base : String) :
    Chosen claimed base (freshName claimed (counted base)) := by
  have free := freshName_not_mem claimed (counted_injective base)
  have taken : ∀ i, i < freshIndex claimed (counted base) → counted base i ∈ claimed :=
    fun i hi => mem_of_lt_freshIndex hi
  revert free
  unfold freshName
  cases hn : freshIndex claimed (counted base) with
  | zero => exact fun free => .plain free
  | succ n =>
    rw [hn] at taken
    refine fun free => .counted (taken 0 (Nat.succ_pos n)) (Nat.le_add_left 2 n) free ?_
    intro k two hk
    obtain ⟨i, rfl⟩ := Nat.exists_eq_add_of_le' two
    exact taken (i + 1) (by omega)

theorem chosen_assignFrom (claimed : List String) {bases : List String} {position : Nat}
    {base : String} (hb : bases[position]? = some base) :
    ∃ stem, (assignFrom claimed bases)[position]? = some stem ∧
      Chosen (claimed ++ (assignFrom claimed bases).take position) base stem := by
  induction bases generalizing claimed position with
  | nil => cases hb
  | cons first rest ih =>
    rw [assignFrom]
    cases position with
    | zero =>
      obtain rfl : first = base := Option.some.inj hb
      rw [List.take_zero, List.append_nil]
      exact ⟨_, rfl, chosen_freshName claimed first⟩
    | succ position =>
      obtain ⟨stem, hs, chosen⟩ := ih (claimed ++ [freshName claimed (counted first)]) hb
      rw [List.append_assoc, List.singleton_append] at chosen
      exact ⟨stem, hs, chosen⟩

theorem take_assignFrom (claimed bases : List String) (count : Nat) :
    assignFrom claimed (bases.take count) = (assignFrom claimed bases).take count := by
  induction bases generalizing claimed count with
  | nil => rw [List.take_nil, assignFrom, List.take_nil]
  | cons base rest ih =>
    cases count with
    | zero => rfl
    | succ count => rw [List.take_succ_cons, assignFrom, assignFrom, ih, List.take_succ_cons]

/-- Every source has a stem of its own, chosen beside those of the sources before it and whatever
comes after. So the names of the files, and the paths to them in any directory, tell the source and
the format. -/
theorem stems_apart_and_stable (sources : List String) (stamp : Option Nat) :
    let stems := assign sources stamp
    stems.length = sources.length ∧ stems.Nodup ∧
    (∀ (position : Nat) (source : String), sources[position]? = some source →
      ∃ stem, stems[position]? = some stem ∧
        Chosen (stems.take position) (ofSource source stamp) stem) ∧
    (∀ count, assign (sources.take count) stamp = stems.take count) ∧
    (∀ format : OutputFormat, '.' ∉ format.extension.toList) ∧
    (∀ (i j : Nat) (stem other : String) (format format' : OutputFormat),
      stems[i]? = some stem → stems[j]? = some other →
      (stem ++ "." ++ format.extension = other ++ "." ++ format'.extension →
        i = j ∧ format = format') ∧
      ∀ order : Order, order.artifactPath stem format = order.artifactPath other format' →
        i = j ∧ format = format') := by
  intro stems
  have once : stems.Nodup := nodup_assign sources stamp
  refine ⟨length_assign sources stamp, once, ?_, ?_, ?_, ?_⟩
  · intro position source hs
    have hb : (sources.map (ofSource · stamp))[position]? = some (ofSource source stamp) := by
      rw [List.getElem?_map, hs]
      rfl
    exact chosen_assignFrom [] hb
  · intro count
    rw [assign, List.map_take]
    exact take_assignFrom [] _ count
  · intro format
    rcases format with (_ | _ | _) | _ <;> decide
  · intro i j stem other format format' hi hj
    have same : stem = other → i = j := by
      rintro rfl
      have hl := (List.getElem?_eq_some_iff.mp hi).1
      exact (List.getElem?_inj hl once).mp (hi.trans hj.symm)
    constructor
    · intro h
      rw [String.append_assoc, String.append_assoc] at h
      obtain ⟨hs, hf⟩ := OutputFormat.append_ending_inj h
      exact ⟨same hs, hf⟩
    · intro order h
      have no_slash : ∀ {k : Nat} {name : String}, stems[k]? = some name → '/' ∉ name.toList :=
        fun hk => slash_not_mem_assign (List.mem_of_getElem? hk)
      obtain ⟨hs, hf⟩ := Order.artifactPath_inj (no_slash hi) (no_slash hj) h
      exact ⟨same hs, hf⟩

/-- A file may bear the very name that a source before it has counted on to. -/
example : assign ["a/main.xml", "b/main.xml", "main_2.xml", "c/main.xml"] none =
    ["main", "main_2", "main_2_2", "main_3"] := by
  decide +kernel

end CallFlow.Stem
