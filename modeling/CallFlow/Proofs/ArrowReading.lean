import Mathlib.Data.List.Basic
import CallFlow.Diagram.Arrow

namespace CallFlow.Diagram.Arrow

variable {word : String} {rest : List Char}

theorem readWord_append (hn : word ≠ "") (hw : word.toList.all isWordChar = true)
    (hr : ∀ c ∈ rest.head?, isWordChar c = false) :
    readWord (word.toList ++ rest) = some (word, rest) := by
  have hc : ∀ c ∈ word.toList, isWordChar c = true := List.all_eq_true.mp hw
  have ht : rest.takeWhile isWordChar = [] := by
    cases rest with
    | nil => rfl
    | cons c cs => simp [hr c rfl]
  have hd : rest.dropWhile isWordChar = rest := by
    cases rest with
    | nil => rfl
    | cons c cs => simp [hr c rfl]
  have hl : word.toList ≠ [] := fun h => hn (String.toList_eq_nil_iff.mp h)
  rw [readWord, List.takeWhile_append_of_pos hc, List.dropWhile_append_of_pos hc, ht, hd,
    List.append_nil, if_neg hl, String.ofList_toList]

theorem readWord_append_of_head {c : Char} (hn : word ≠ "")
    (hw : word.toList.all isWordChar = true) (hr : rest.head? = some c)
    (hc : isWordChar c = false) : readWord (word.toList ++ rest) = some (word, rest) := by
  refine readWord_append hn hw fun d hd => ?_
  obtain rfl : c = d := Option.some.inj (hr.symm.trans hd)
  exact hc

theorem readStroke_append {plain exception : String}
    (hp : Text.after? plain.toList (exception.toList ++ rest) = none) (isException : Bool) :
    readStroke plain exception ((if isException then exception else plain).toList ++ rest) =
      some (isException, rest) := by
  cases isException with
  | false => simp [readStroke]
  | true => simp [readStroke, hp]

theorem readStroke_eq_none {plain exception : String} {cs : List Char}
    (hp : Text.after? plain.toList cs = none) (he : Text.after? exception.toList cs = none) :
    readStroke plain exception cs = none := by
  rw [readStroke, hp, he]
  rfl

section Lines

variable {before after : List String} {edges : List MergedEdge} {line : MergedEdge → String}

theorem forall_lines {p : String → Prop} (ho : ∀ other ∈ before ++ after, p other)
    (he : ∀ edge ∈ edges, p (line edge)) : ∀ l ∈ before ++ edges.map line ++ after, p l := by
  intro l hm
  rcases List.mem_append.mp hm with hm | hm
  · rcases List.mem_append.mp hm with hm | hm
    · exact ho l (List.mem_append_left _ hm)
    · obtain ⟨edge, hd, rfl⟩ := List.mem_map.mp hm
      exact he edge hd
  · exact ho l (List.mem_append_right _ hm)

theorem onLines_join {ofLine? : List Char → Option Arrow} {written : String → String}
    (hn : ofLine? [] = none)
    (ho : ∀ other ∈ before ++ after, '\n' ∉ other.toList ∧ ofLine? other.toList = none)
    (he : ∀ edge ∈ edges, '\n' ∉ (line edge).toList ∧
      ofLine? (line edge).toList = some (ofEdge written edge)) :
    onLines ofLine? (String.join ((before ++ edges.map line ++ after).map (· ++ "\n"))) =
      edges.map (ofEdge written) := by
  have hl : ∀ l ∈ before ++ edges.map line ++ after, '\n' ∉ l.toList :=
    forall_lines (fun other hm => (ho other hm).1) fun edge hm => (he edge hm).1
  have hnone : ∀ others ⊆ before ++ after,
      (others.map String.toList).filterMap ofLine? = [] := by
    intro others hs
    apply List.filterMap_eq_nil_iff.mpr
    intro cs hm
    obtain ⟨other, hb, rfl⟩ := List.mem_map.mp hm
    exact (ho other (hs hb)).2
  have hsome : ((edges.map line).map String.toList).filterMap ofLine? =
      edges.map (ofEdge written) := by
    rw [List.map_map, List.filterMap_map]
    exact List.filterMap_eq_map_iff_forall_eq_some.mpr fun edge hm => (he edge hm).2
  rw [onLines, Text.pieces_join hl]
  simp only [List.map_append, List.filterMap_append, hsome,
    hnone before (List.subset_append_left _ _), hnone after (List.subset_append_right _ _)]
  simp [hn]

end Lines

end CallFlow.Diagram.Arrow
