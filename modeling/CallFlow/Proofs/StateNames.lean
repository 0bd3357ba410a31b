import CallFlow.Diagram.PlantUml
import CallFlow.Proofs.NamesApart

namespace CallFlow.Diagram.PlantUml

variable {word : String}

def IsStateName (name : String) : Prop :=
  name ≠ "" ∧ name.toList.all isWordChar = true ∧
    ∀ c, name.toList.head? = some c → c.isDigit = false

theorem startsWithDigit_eq_false_iff :
    startsWithDigit word = false ↔ ∀ c, word.toList.head? = some c → c.isDigit = false := by
  unfold startsWithDigit
  cases word.toList.head? <;> simp

/-- What follows a word that is not empty does not change how it begins. -/
theorem startsWithDigit_of_isPrefix {longer : String} (hp : word.toList <+: longer.toList)
    (hn : word ≠ "") : startsWithDigit longer = startsWithDigit word := by
  obtain ⟨rest, hr⟩ := hp
  have hl : word.toList ≠ [] := fun hl => hn (String.toList_eq_nil_iff.mp hl)
  rw [startsWithDigit, startsWithDigit, ← hr, List.head?_append_of_ne_nil _ hl]

theorem startsWithDigit_base (shown : String) : startsWithDigit (base shown) = false := by
  refine fitWord_cases (p := fun word => startsWithDigit word = false) (by decide) ?_
    (fun _ hu => hu)
  have hp : "S_".toList <+: ("S_" ++ plainWord shown).toList := by simp
  exact startsWithDigit_of_isPrefix hp (by decide)

theorem base_ne_empty (shown : String) : base shown ≠ "" :=
  fitWord_ne_empty (by decide) (by decide)

theorem base_all (shown : String) : (base shown).toList.all isWordChar = true :=
  fitWord_all (by decide) (by decide)

/-- Nothing has to be replaced in a fragment, and nothing may be left of it. -/
theorem fragment_all (id : String) : (fragment id).toList.all isWordChar = true := by
  rw [fragment, String.toList_ofList]
  refine List.all_eq_true.mpr fun c hc => ?_
  have ha : c.isAlphanum = true := (List.mem_filter.mp (List.mem_of_mem_take hc)).2
  simp [isWordChar, ha]

theorem isStateName_candidate (id shown : String) (i : Nat) :
    IsStateName (nameRule.candidate id shown i) := by
  refine ⟨nameRule.candidate_ne_empty id (base_ne_empty shown) i,
    nameRule.candidate_all id shown i (base_all shown) (fragment_all id), ?_⟩
  rw [← startsWithDigit_eq_false_iff,
    startsWithDigit_of_isPrefix (nameRule.base_isPrefix_candidate id shown i) (base_ne_empty shown)]
  exact startsWithDigit_base shown

/-- In a state diagram each shown identifier has a name, no two have the same, and every name is a
plain word that does not begin with a digit. -/
theorem state_names_safe (modules : List Module) (edges : List Edge) :
    let graph := Graph.build modules edges
    (∀ id, id ∈ graph.nodeIds ∨ id ∈ graph.endpoints →
      (names graph).get? id = some ((names graph).resolve id)) ∧
    (∀ a b name, (names graph).get? a = some name → (names graph).get? b = some name → a = b) ∧
    ∀ id name, (names graph).get? id = some name → IsStateName name :=
  ⟨fun _ => nameRule.get?_names_build modules edges,
    fun _ _ _ => (nameRule.names_apart _).get?_inj,
    fun _ _ => nameRule.forall_names isStateName_candidate⟩

def blankSteps : List Module :=
  [⟨"!!", .play, "", ⟨none, none, [], []⟩⟩, ⟨"??", .play, "state", ⟨none, none, [], []⟩⟩,
    ⟨"éé", .play, "", ⟨none, none, [], []⟩⟩]

theorem state_of_blank_step :
    let graph := Graph.build blankSteps [.plain "éé" "1st"]
    (names graph).get? "éé" = some "state__2" ∧ IsStateName "state__2" ∧
      (names graph).get? "1st" = some ((names graph).resolve "1st") := by
  intro graph
  obtain ⟨hr, -, hs⟩ := state_names_safe blankSteps [.plain "éé" "1st"]
  have hn : (names graph).get? "éé" = some "state__2" := by decide +kernel
  exact ⟨hn, hs "éé" "state__2" hn, hr "1st" (by decide)⟩

end CallFlow.Diagram.PlantUml
