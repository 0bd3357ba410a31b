import Mathlib.Data.Finset.Card
import CallFlow.Diagram.Mermaid
import CallFlow.Proofs.NamesApart
import CallFlow.Stem

namespace CallFlow

/-- What a counting loop comes to: how many names it has tried, which of them it has chosen, and the
counter that it has reached. -/
structure CountEnd where
  tried : Nat
  chosen : String
  counter : Nat

/-- The loop that counts on from a root. A name that is taken gives way to the root with the counter
behind it. -/
inductive CountsOn (taken : List String) (root : String) : String → Nat → CountEnd → Prop where
  | free {name : String} {counter : Nat} (new : name ∉ taken) :
      CountsOn taken root name counter ⟨1, name, counter⟩
  | taken {name chosen : String} {counter tried last : Nat} (known : name ∈ taken)
      (rest : CountsOn taken root (root ++ "_" ++ toString counter) (counter + 1)
        ⟨tried, chosen, last⟩) :
      CountsOn taken root name counter ⟨tried + 1, chosen, last⟩

/-- The loop from a root passes over `n` names and chooses the next. It tries at most one name more
than are taken. -/
structure EndsAfter (taken : List String) (root : String) (n : Nat) : Prop where
  outcome : ∀ ending, CountsOn taken root root 2 ending ↔ ending = ⟨n + 1, counted root n, n + 2⟩
  free : counted root n ∉ taken
  earlier : ∀ i < n, counted root i ∈ taken
  tried_le : n + 1 ≤ taken.toFinset.card + 1
  counter_le : n + 2 ≤ taken.toFinset.card + 2

variable {taken : List String} {root : String} {candidate : Nat → String} {n : Nat}

/-- Each turn is forced, so the loop has one outcome. -/
theorem CountsOn.unique {name : String} {counter : Nat} {ending other : CountEnd}
    (h : CountsOn taken root name counter ending) (ho : CountsOn taken root name counter other) :
    ending = other := by
  induction h generalizing other with
  | free new =>
    cases ho with
    | free => rfl
    | taken known => exact absurd known new
  | taken known rest ih =>
    cases ho with
    | free new => exact absurd known new
    | taken _ more =>
      obtain ⟨rfl, rfl, rfl⟩ := CountEnd.mk.inj (ih more)
      rfl

/-- From a candidate on, the loop passes over the taken ones and ends with the first that is free. -/
theorem countsOn_counted (free : counted root n ∉ taken) (left : Nat) (hl : left ≤ n)
    (known : ∀ i < n, counted root i ∈ taken) :
    CountsOn taken root (counted root (n - left)) (n - left + 2)
      ⟨left + 1, counted root n, n + 2⟩ := by
  -- By the distance from the end, since the loop is told from its last turn backwards.
  induction left with
  | zero => exact .free free
  | succ left ih =>
    have next : n - left = n - (left + 1) + 1 := by omega
    have rest := ih (by omega)
    rw [next] at rest
    exact .taken (known _ (by omega)) rest

theorem le_card_of_taken (hc : Function.Injective candidate)
    (known : ∀ i < n, candidate i ∈ taken) : n ≤ taken.toFinset.card := by
  have hs : (Finset.range n).image candidate ⊆ taken.toFinset := by
    intro name hm
    obtain ⟨i, hi, rfl⟩ := Finset.mem_image.mp hm
    exact List.mem_toFinset.mpr (known i (Finset.mem_range.mp hi))
  calc
    n = ((Finset.range n).image candidate).card := by
      rw [Finset.card_image_of_injective _ hc, Finset.card_range]
    _ ≤ taken.toFinset.card := Finset.card_le_card hs

/-- The loop from a root comes to the fresh name among those that count on from it. -/
theorem endsAfter_freshIndex (taken : List String) (root : String) :
    EndsAfter taken root (freshIndex taken (counted root)) := by
  have free : counted root (freshIndex taken (counted root)) ∉ taken :=
    freshName_not_mem taken (counted_injective root)
  have known : ∀ i < freshIndex taken (counted root), counted root i ∈ taken :=
    fun i hi => mem_of_lt_freshIndex hi
  have run := countsOn_counted free _ (Nat.le_refl _) known
  rw [Nat.sub_self] at run
  have few := le_card_of_taken (counted_injective root) known
  refine ⟨fun ending => ⟨fun h => h.unique run, ?_⟩, free, known, by omega, by omega⟩
  rintro rfl
  exact run

namespace Diagram.NameRule

variable {rule : NameRule} {id shown : String}

theorem freshName_of_free (free : rule.base shown ∉ taken) :
    freshName taken (rule.candidate id shown) = rule.base shown := by
  rw [freshName, freshIndex_eq (n := 0) (rule.candidate_injective id shown) free]
  · rfl
  · exact fun i hi => absurd hi (Nat.not_lt_zero i)

theorem freshIndex_of_taken (known : rule.base shown ∈ taken) :
    freshIndex taken (rule.candidate id shown) =
      freshIndex taken (counted (rule.base shown ++ "_" ++ rule.fragment id)) + 1 := by
  refine freshIndex_eq (rule.candidate_injective id shown) ?_ ?_
  · exact freshName_not_mem taken (counted_injective _)
  · intro i hi
    cases i with
    | zero => exact known
    | succ i =>
      have before : counted (rule.base shown ++ "_" ++ rule.fragment id) i ∈ taken :=
        mem_of_lt_freshIndex (by omega)
      exact before

theorem freshIndex_lt_card (id : String) (known : rule.base shown ∈ taken) :
    freshIndex taken (counted (rule.base shown ++ "_" ++ rule.fragment id)) <
      taken.toFinset.card := by
  have few : freshIndex taken (rule.candidate id shown) ≤ taken.toFinset.card :=
    le_card_of_taken (rule.candidate_injective id shown) fun i hi => mem_of_lt_freshIndex hi
  rwa [freshIndex_of_taken known] at few

end Diagram.NameRule

open Diagram

/-- Every counting loop ends with the first free name and tries at most one name more than are taken,
whatever the taken names, the base and the fragment are. In a diagram it begins with the fragment
behind a base that is taken, and the base counts as tried as well; in a batch it begins with the
plain stem. -/
theorem counting_ends_least :
    (∀ (taken : List String) (root : String), ∃ n, EndsAfter taken root n) ∧
    (∀ (rule : NameRule) (names : Names) (id shown : String), names.get? id = none →
      (rule.base shown ∉ names.taken →
        rule.assign names id shown = names ++ [(id, rule.base shown)]) ∧
      (rule.base shown ∈ names.taken →
        ∃ n, EndsAfter names.taken (rule.base shown ++ "_" ++ rule.fragment id) n ∧
          n + 2 ≤ names.taken.toFinset.card + 1 ∧
          rule.assign names id shown =
            names ++ [(id, counted (rule.base shown ++ "_" ++ rule.fragment id) n)])) ∧
    ∀ (claimed : List String) (base : String) (rest : List String),
      ∃ n, EndsAfter claimed base n ∧
        Stem.assignFrom claimed (base :: rest) =
          counted base n :: Stem.assignFrom (claimed ++ [counted base n]) rest := by
  refine ⟨fun taken root => ⟨_, endsAfter_freshIndex taken root⟩, ?_, ?_⟩
  · intro rule names id shown unnamed
    have given : rule.assign names id shown =
        names ++ [(id, freshName names.taken (rule.candidate id shown))] := by
      simp [NameRule.assign, unnamed]
    refine ⟨fun free => ?_, fun known => ?_⟩
    · rw [given, NameRule.freshName_of_free free]
    · have few := NameRule.freshIndex_lt_card id known
      refine ⟨_, endsAfter_freshIndex _ _, by omega, ?_⟩
      rw [given, freshName, NameRule.freshIndex_of_taken known]
      rfl
  · intro claimed base rest
    exact ⟨_, endsAfter_freshIndex claimed base, rfl⟩

/-- Two names of which the second is what the first would be extended to for `b1`. -/
def menuNames : Names :=
  [("a1", "menu"), ("b2", "menu_b1")]

theorem menu_counted :
    menuNames.get? "b1" = none ∧ Mermaid.nameRule.base "menu" ∈ menuNames.taken ∧
      ∃ n, EndsAfter menuNames.taken "menu_b1" n ∧
        Mermaid.nameRule.assign menuNames "b1" "menu" = menuNames ++ [("b1", counted "menu_b1" n)] ∧
        counted "menu_b1" n = "menu_b1_2" := by
  have unnamed : menuNames.get? "b1" = none := by decide
  have known : Mermaid.nameRule.base "menu" ∈ menuNames.taken := by decide +kernel
  obtain ⟨-, named, -⟩ := counting_ends_least
  obtain ⟨n, ends, -, given⟩ := (named Mermaid.nameRule menuNames "b1" "menu" unnamed).2 known
  have root : Mermaid.nameRule.base "menu" ++ "_" ++ Mermaid.nameRule.fragment "b1" = "menu_b1" := by
    decide +kernel
  rw [root] at ends given
  have chosen : Mermaid.nameRule.assign menuNames "b1" "menu" =
      menuNames ++ [("b1", "menu_b1_2")] := by
    decide +kernel
  have same := List.append_cancel_left (given.symm.trans chosen)
  exact ⟨unnamed, known, n, ends, given, by simpa using same⟩

end CallFlow
