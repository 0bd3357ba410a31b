import CallFlow.Diagram.Mermaid
import CallFlow.Proofs.NamesApart

namespace CallFlow.Diagram.Mermaid

variable {word id shown : String} {i : Nat}

/-- A word that a flowchart reads as the name of a node, whatever the case of its letters. -/
def IsNodeName (name : String) : Prop :=
  name ≠ "" ∧ name.toList.all isWordChar = true ∧
    ∀ word ∈ reserved, Text.asciiLower name ≠ Text.asciiLower word

theorem isReserved_eq_false_iff :
    isReserved word = false ↔ ∀ r ∈ reserved, Text.asciiLower word ≠ Text.asciiLower r := by
  simp only [isReserved, List.any_eq_false, Text.sameWord, beq_iff_eq, Text.asciiLower, ne_eq,
    String.ofList_inj]
  exact forall₂_congr fun r _ => not_congr eq_comm

theorem isReserved_of_underscore (hu : '_' ∈ word.toList) : isReserved word = false := by
  have hr : ∀ r ∈ reserved, '_' ∉ r.toList.map Char.toLower := by decide
  simp only [isReserved, List.any_eq_false, Text.sameWord, beq_iff_eq]
  intro r hm he
  exact hr r hm (he ▸ List.mem_map.mpr ⟨'_', hu, rfl⟩)

theorem isReserved_base (shown : String) : isReserved (base shown) = false :=
  fitWord_cases (p := fun word => isReserved word = false) (by decide)
    (isReserved_of_underscore (by simp)) (fun _ hu => hu)

theorem isReserved_candidate : isReserved (nameRule.candidate id shown i) = false := by
  cases i with
  | zero => exact isReserved_base shown
  | succ i =>
    apply isReserved_of_underscore
    rw [NameRule.toList_candidate_succ]
    simp

theorem base_ne_empty (shown : String) : base shown ≠ "" :=
  fitWord_ne_empty (by decide) (by decide)

theorem base_all (shown : String) : (base shown).toList.all isWordChar = true :=
  fitWord_all (by decide) (by decide)

theorem fragment_all (id : String) : (fragment id).toList.all isWordChar = true := by
  rw [fragment, String.toList_ofList]
  refine List.all_eq_true.mpr fun c hc => ?_
  obtain ⟨d, -, rfl⟩ := List.mem_map.mp (List.mem_of_mem_take hc)
  exact isWordChar_wordChar d

theorem isNodeName_candidate (id shown : String) (i : Nat) :
    IsNodeName (nameRule.candidate id shown i) :=
  ⟨nameRule.candidate_ne_empty id (base_ne_empty shown) i,
    nameRule.candidate_all id shown i (base_all shown) (fragment_all id),
    isReserved_eq_false_iff.mp isReserved_candidate⟩

/-- In a flowchart each shown identifier has a name, no two have the same, and every name is a
plain word that is not reserved. -/
theorem flowchart_names_safe (modules : List Module) (edges : List Edge) :
    let graph := Graph.build modules edges
    (∀ id, id ∈ graph.nodeIds ∨ id ∈ graph.endpoints →
      (names graph).get? id = some ((names graph).resolve id)) ∧
    (∀ a b name, (names graph).get? a = some name → (names graph).get? b = some name → a = b) ∧
    ∀ id name, (names graph).get? id = some name → IsNodeName name :=
  ⟨fun _ => nameRule.get?_names_build modules edges,
    fun _ _ _ => (nameRule.names_apart _).get?_inj,
    fun _ _ => nameRule.forall_names isNodeName_candidate⟩

def reservedSteps : List Module :=
  [⟨"a1", .play, "end", ⟨none, none, [], []⟩⟩, ⟨"b2", .play, "End", ⟨none, none, [], []⟩⟩,
    ⟨"c3", .play, "n_end", ⟨none, none, [], []⟩⟩]

theorem name_of_reserved_step :
    let graph := Graph.build reservedSteps [.plain "c3" "END"]
    (names graph).get? "c3" = some "n_end_c3" ∧ IsNodeName "n_end_c3" ∧
      (names graph).get? "END" = some ((names graph).resolve "END") := by
  intro graph
  obtain ⟨hr, -, hs⟩ := flowchart_names_safe reservedSteps [.plain "c3" "END"]
  have hn : (names graph).get? "c3" = some "n_end_c3" := by decide +kernel
  exact ⟨hn, hs "c3" "n_end_c3" hn, hr "END" (by decide)⟩

end CallFlow.Diagram.Mermaid
