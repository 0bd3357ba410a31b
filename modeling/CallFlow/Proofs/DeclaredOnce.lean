import Mathlib.Data.List.Forall2
import CallFlow.Proofs.NamesApart

namespace CallFlow.Diagram

/-- Exactly one of the lines has the property. -/
def OneLine (property : String → Prop) (lines : List String) : Prop :=
  ∃! i : Nat, ∃ line, lines[i]? = some line ∧ property line

section Aligned

variable {ids lines : List String} {declares : String → String → Prop} {i : Nat}

theorem exists_line (h : List.Forall₂ declares ids lines) {id : String} (hi : ids[i]? = some id) :
    ∃ line, lines[i]? = some line ∧ declares id line := by
  induction h generalizing i with
  | nil => simp at hi
  | @cons id' line ids lines hd _ ih =>
    cases i with
    | zero =>
      obtain rfl : id' = id := by simpa using hi
      exact ⟨line, rfl, hd⟩
    | succ i => exact ih hi

theorem exists_id (h : List.Forall₂ declares ids lines) {line : String}
    (hl : lines[i]? = some line) : ∃ id, ids[i]? = some id ∧ declares id line := by
  induction h generalizing i with
  | nil => simp at hl
  | @cons id line' ids lines hd _ ih =>
    cases i with
    | zero =>
      obtain rfl : line' = line := by simpa using hl
      exact ⟨id, rfl, hd⟩
    | succ i => exact ih hl

theorem oneLine_of_mem (h : List.Forall₂ declares ids lines) (hn : ids.Nodup)
    (hd : ∀ a ∈ ids, ∀ b ∈ ids, ∀ line, declares a line → declares b line → a = b) {id : String}
    (hi : id ∈ ids) : OneLine (declares id) lines := by
  obtain ⟨i, hg⟩ := List.mem_iff_getElem?.mp hi
  refine ⟨i, exists_line h hg, ?_⟩
  rintro j ⟨line, hl, hp⟩
  obtain ⟨other, ho, hq⟩ := exists_id h hl
  obtain rfl : id = other := hd id hi other (List.mem_of_getElem? ho) line hp hq
  obtain ⟨hbi, hei⟩ := List.getElem?_eq_some_iff.mp hg
  obtain ⟨hbj, hej⟩ := List.getElem?_eq_some_iff.mp ho
  exact hn.getElem_inj_iff.mp (hej.trans hei.symm)

end Aligned

theorem forall₂_shown {graph : Graph} {text : Node → String} {declares : String → String → Prop}
    {line : String × String → String}
    (hd : ∀ pair ∈ graph.shown text, declares pair.1 (line pair)) :
    List.Forall₂ declares graph.shownIds ((graph.shown text).map line) := by
  rw [← graph.map_fst_shown text, List.forall₂_map_left_iff, List.forall₂_map_right_iff,
    List.forall₂_same]
  exact hd

/-- A shown identifier is declared on one line when its name can be told from the line. -/
theorem NameRule.oneLine_of_shown (rule : NameRule) {p : String → Prop}
    (hp : ∀ id shown i, p (rule.candidate id shown i)) (declares : String → String → Prop)
    (hd : ∀ {a b line}, p a → p b → declares a line → declares b line → a = b)
    {graph : Graph} (hn : graph.shownIds.Nodup) {lines : List String}
    (hl : List.Forall₂ (fun id line => declares ((rule.names graph).resolve id) line)
      graph.shownIds lines)
    {id : String} (hi : id ∈ graph.shownIds) :
    OneLine (declares ((rule.names graph).resolve id)) lines := by
  refine oneLine_of_mem hl hn ?_ hi
  intro a ha b hb line hla hlb
  exact (rule.resolve_inj ha hb).mp
    (hd (rule.resolve_of_shown hp ha) (rule.resolve_of_shown hp hb) hla hlb)

end CallFlow.Diagram
