import CallFlow.FreshName
import CallFlow.Path

namespace CallFlow.Stem

def nameless : String := "document"

/-- The name of the source without its extension, followed by the stamp of the run. -/
def ofSource (source : String) (stamp : Option Nat) : String :=
  let stem := (Path.fileStem? source).getD nameless
  match stamp with
  | none => stem
  | some millis => stem ++ "_" ++ toString millis

/-- Gives out each stem, or the first free one that counts on from it. -/
def assignFrom (claimed : List String) : List String → List String
  | [] => []
  | base :: rest =>
    let stem := freshName claimed (counted base)
    stem :: assignFrom (claimed ++ [stem]) rest

def assign (sources : List String) (stamp : Option Nat) : List String :=
  assignFrom [] (sources.map (ofSource · stamp))

theorem length_assignFrom (claimed bases : List String) :
    (assignFrom claimed bases).length = bases.length := by
  induction bases generalizing claimed with
  | nil => rfl
  | cons base rest ih => rw [assignFrom, List.length_cons, ih, List.length_cons]

theorem length_assign (sources : List String) (stamp : Option Nat) :
    (assign sources stamp).length = sources.length := by
  rw [assign, length_assignFrom, List.length_map]

theorem assignFrom_apart (claimed bases : List String) :
    (assignFrom claimed bases).Nodup ∧ ∀ stem ∈ assignFrom claimed bases, stem ∉ claimed := by
  induction bases generalizing claimed with
  | nil => exact ⟨List.nodup_nil, fun stem hs => absurd hs List.not_mem_nil⟩
  | cons base rest ih =>
    obtain ⟨once, new⟩ := ih (claimed ++ [freshName claimed (counted base)])
    have fresh := freshName_not_mem claimed (counted_injective base)
    rw [assignFrom]
    refine ⟨List.nodup_cons.mpr ⟨fun hm => new _ hm (by simp), once⟩, fun stem hs => ?_⟩
    rcases List.mem_cons.mp hs with rfl | hs
    · exact fresh
    · exact fun hc => new stem hs (List.mem_append_left _ hc)

theorem nodup_assign (sources : List String) (stamp : Option Nat) :
    (assign sources stamp).Nodup :=
  (assignFrom_apart [] _).1

theorem exists_counted {claimed bases : List String} {stem : String}
    (hs : stem ∈ assignFrom claimed bases) : ∃ base ∈ bases, ∃ n, stem = counted base n := by
  induction bases generalizing claimed with
  | nil => cases hs
  | cons base rest ih =>
    rcases List.mem_cons.mp hs with rfl | hs
    · exact ⟨base, List.mem_cons_self, _, rfl⟩
    · obtain ⟨other, ho, n, hn⟩ := ih hs
      exact ⟨other, List.mem_cons_of_mem _ ho, n, hn⟩

theorem slash_not_mem_toDigits (n : Nat) : '/' ∉ Nat.toDigits 10 n := fun h =>
  absurd (Nat.isDigit_of_mem_toDigits (by decide) (by decide) h) (by decide)

theorem slash_not_mem_counted {name : String} (h : '/' ∉ name.toList) (n : Nat) :
    '/' ∉ (counted name n).toList := by
  cases n with
  | zero => exact h
  | succ n =>
    rw [toList_counted_succ]
    simp [h, slash_not_mem_toDigits]

theorem slash_not_mem_ofSource (source : String) (stamp : Option Nat) :
    '/' ∉ (ofSource source stamp).toList := by
  have hs : '/' ∉ ((Path.fileStem? source).getD nameless).toList := by
    cases h : Path.fileStem? source with
    | none => decide
    | some stem => exact Path.slash_not_mem_fileStem? h
  cases stamp with
  | none => exact hs
  | some millis =>
    have hd := slash_not_mem_toDigits millis
    simp [ofSource, hs, hd]

theorem slash_not_mem_assign {sources : List String} {stamp : Option Nat} {stem : String}
    (hs : stem ∈ assign sources stamp) : '/' ∉ stem.toList := by
  obtain ⟨base, hb, n, rfl⟩ := exists_counted hs
  obtain ⟨source, -, rfl⟩ := List.mem_map.mp hb
  exact slash_not_mem_counted (slash_not_mem_ofSource source stamp) n

end CallFlow.Stem
