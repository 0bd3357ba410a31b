import Mathlib.Data.List.Nodup
import CallFlow.Diagram.Naming
import CallFlow.Proofs.MergedGraph

namespace CallFlow

theorem counted_append (a b : String) (n : Nat) : counted (a ++ b) n = a ++ counted b n := by
  cases n with
  | zero => rfl
  | succ n => simp only [counted, String.append_assoc]

namespace Diagram

theorem plainWord_all (text : String) : (plainWord text).toList.all isWordChar = true := by
  simp [plainWord, isWordChar_wordChar]

theorem counted_all {name : String} (hn : name.toList.all isWordChar = true) (n : Nat) :
    (counted name n).toList.all isWordChar = true := by
  cases n with
  | zero => exact hn
  | succ n =>
    have hd : (Nat.toDigits 10 (n + 2)).all isWordChar = true := by
      refine List.all_eq_true.mpr fun c hc => ?_
      have := Nat.isDigit_of_mem_toDigits (by decide) (by decide) hc
      simp [isWordChar, Char.isAlphanum, this]
    rw [toList_counted_succ, List.all_append, hn, List.all_cons, hd]
    rfl

section FitWord

variable {fallback mark text : String} {unfit : String → Bool}

theorem fitWord_cases {p : String → Prop} (hf : p fallback) (hm : p (mark ++ plainWord text))
    (hw : plainWord text ≠ "" → unfit (plainWord text) = false → p (plainWord text)) :
    p (fitWord fallback mark unfit text) := by
  unfold fitWord
  split
  · exact hf
  · rename_i hn
    split
    · exact hm
    · rename_i hu
      exact hw hn (by simpa using hu)

theorem fitWord_ne_empty (hf : fallback ≠ "") (hm : mark ≠ "") :
    fitWord fallback mark unfit text ≠ "" :=
  fitWord_cases (p := fun word => word ≠ "") hf (by simp [hm]) (fun hn _ => hn)

theorem fitWord_all (hf : fallback.toList.all isWordChar = true)
    (hm : mark.toList.all isWordChar = true) :
    (fitWord fallback mark unfit text).toList.all isWordChar = true := by
  refine fitWord_cases (p := fun word => word.toList.all isWordChar = true) hf ?_
    (fun _ _ => plainWord_all text)
  rw [String.toList_append, List.all_append, hm, plainWord_all]
  rfl

end FitWord

namespace NameRule

variable {shown : String}

theorem toList_candidate_succ (rule : NameRule) (id shown : String) (n : Nat) :
    (rule.candidate id shown (n + 1)).toList =
      (rule.base shown).toList ++ '_' :: (counted (rule.fragment id) n).toList := by
  simp only [candidate, counted_append, String.toList_append, List.append_assoc]
  rfl

theorem candidate_injective (rule : NameRule) (id shown : String) :
    Function.Injective (rule.candidate id shown) := by
  intro i j h
  -- The bare base is shorter than every other candidate, and those are told apart by the counter.
  have hl := congrArg (fun name => name.toList.length) h
  cases i with
  | zero =>
    cases j with
    | zero => rfl
    | succ j =>
      simp only [toList_candidate_succ] at hl
      simp [candidate] at hl
  | succ i =>
    cases j with
    | zero =>
      simp only [toList_candidate_succ] at hl
      simp [candidate] at hl
    | succ j => exact congrArg Nat.succ (counted_injective _ h)

theorem base_isPrefix_candidate (rule : NameRule) (id shown : String) (i : Nat) :
    (rule.base shown).toList <+: (rule.candidate id shown i).toList := by
  cases i with
  | zero => exact List.prefix_rfl
  | succ i =>
    rw [toList_candidate_succ]
    exact List.prefix_append _ _

theorem candidate_ne_empty (rule : NameRule) (id : String) (hb : rule.base shown ≠ "") (i : Nat) :
    rule.candidate id shown i ≠ "" := by
  intro he
  have hp := base_isPrefix_candidate rule id shown i
  rw [he] at hp
  exact hb (String.toList_eq_nil_iff.mp (List.prefix_nil.mp hp))

theorem candidate_all (rule : NameRule) (id shown : String) (i : Nat)
    (hb : (rule.base shown).toList.all isWordChar = true)
    (hf : (rule.fragment id).toList.all isWordChar = true) :
    (rule.candidate id shown i).toList.all isWordChar = true := by
  cases i with
  | zero => exact hb
  | succ i =>
    rw [toList_candidate_succ, List.all_append, hb, List.all_cons, counted_all hf]
    rfl

end NameRule

/-- Each identifier has one name and each name one identifier, and all names come from the rule. -/
structure Names.Apart (names : Names) (rule : NameRule) : Prop where
  ids_once : (names.map Prod.fst).Nodup
  names_once : names.taken.Nodup
  candidates : ∀ p ∈ names, ∃ shown i, p.2 = rule.candidate p.1 shown i

namespace Names

variable {names : Names} {rule : NameRule} {id name : String}

theorem Apart.nil : Apart [] rule := ⟨List.nodup_nil, List.nodup_nil, by simp⟩

theorem get?_eq_none : names.get? id = none ↔ id ∉ names.map Prod.fst := by
  rw [get?, Option.map_eq_none_iff, List.find?_eq_none, List.mem_map]
  simp only [decide_eq_true_eq, not_exists, not_and]

theorem mem_of_get? (hg : names.get? id = some name) : (id, name) ∈ names := by
  obtain ⟨p, hp, rfl⟩ := Option.map_eq_some_iff.mp hg
  have hi : p.1 = id := by simpa using List.find?_some hp
  exact hi ▸ List.mem_of_find?_eq_some hp

/-- No two identifiers go by the same name. -/
theorem Apart.get?_inj (h : names.Apart rule) {a b : String} (ha : names.get? a = some name)
    (hb : names.get? b = some name) : a = b :=
  congrArg Prod.fst
    (List.inj_on_of_nodup_map h.names_once (mem_of_get? ha) (mem_of_get? hb) rfl)

theorem Apart.concat (h : names.Apart rule) (hn : names.get? id = none) (shown : String) :
    Apart (names ++ [(id, freshName names.taken (rule.candidate id shown))]) rule := by
  refine ⟨?_, ?_, ?_⟩
  · have hi := List.Nodup.concat (get?_eq_none.mp hn) h.ids_once
    simpa using hi
  · have hf := freshName_not_mem names.taken (rule.candidate_injective id shown)
    simpa [taken] using List.Nodup.concat hf h.names_once
  · intro p hp
    rcases List.mem_append.mp hp with hp | hp
    · exact h.candidates p hp
    · rw [List.mem_singleton.mp hp]
      exact ⟨shown, _, rfl⟩

end Names

namespace NameRule

variable {rule : NameRule} {names : Names}

theorem assign_apart (h : names.Apart rule) (id shown : String) :
    (rule.assign names id shown).Apart rule := by
  unfold assign
  cases hn : names.get? id with
  | some name => exact h
  | none => exact h.concat hn shown

theorem mem_ids_assign {id other shown : String} :
    other ∈ (rule.assign names id shown).map Prod.fst ↔
      other ∈ names.map Prod.fst ∨ other = id := by
  unfold assign
  cases hn : names.get? id with
  | some name =>
    have hm := List.mem_map_of_mem (Names.mem_of_get? hn) (f := Prod.fst)
    simp only [Option.isSome_some, ↓reduceIte]
    exact ⟨Or.inl, fun h => h.elim (fun ho => ho) (fun he => he ▸ hm)⟩
  | none => simp

theorem assignAll_apart (h : names.Apart rule) (subjects : List (String × String)) :
    (rule.assignAll names subjects).Apart rule := by
  induction subjects generalizing names with
  | nil => exact h
  | cons subject rest ih => exact ih (assign_apart h subject.1 subject.2)

theorem mem_ids_assignAll {subjects : List (String × String)} {id : String} :
    id ∈ (rule.assignAll names subjects).map Prod.fst ↔
      id ∈ names.map Prod.fst ∨ id ∈ subjects.map Prod.fst := by
  induction subjects generalizing names with
  | nil => simp
  | cons subject rest ih =>
    rw [assignAll_cons, ih, mem_ids_assign, List.map_cons, List.mem_cons, or_assoc]

theorem names_apart (rule : NameRule) (graph : Graph) : (rule.names graph).Apart rule :=
  assignAll_apart Names.Apart.nil (subjects graph)

theorem mem_ids_names (rule : NameRule) {graph : Graph} {id : String} :
    id ∈ (rule.names graph).map Prod.fst ↔ id ∈ graph.shownIds := by
  rw [names, mem_ids_assignAll, subjects, Graph.map_fst_shown]
  simp

/-- A shown identifier has a name and never stands for itself by default. -/
theorem get?_names_of_shown (rule : NameRule) {graph : Graph} {id : String}
    (hs : id ∈ graph.shownIds) :
    (rule.names graph).get? id = some ((rule.names graph).resolve id) := by
  cases hn : (rule.names graph).get? id with
  | none => exact absurd ((rule.mem_ids_names).mpr hs) (Names.get?_eq_none.mp hn)
  | some name => simp [Names.resolve, hn]

theorem forall_names (rule : NameRule) {p : String → Prop}
    (hp : ∀ id shown i, p (rule.candidate id shown i)) {graph : Graph} {id name : String}
    (hn : (rule.names graph).get? id = some name) : p name := by
  obtain ⟨shown, i, hi⟩ := (rule.names_apart graph).candidates _ (Names.mem_of_get? hn)
  exact (show name = rule.candidate id shown i from hi) ▸ hp id shown i

theorem resolve_of_shown (rule : NameRule) {p : String → Prop}
    (hp : ∀ id shown i, p (rule.candidate id shown i)) {graph : Graph} {id : String}
    (hs : id ∈ graph.shownIds) : p ((rule.names graph).resolve id) :=
  rule.forall_names hp (rule.get?_names_of_shown hs)

theorem resolve_inj (rule : NameRule) {graph : Graph} {a b : String} (ha : a ∈ graph.shownIds)
    (hb : b ∈ graph.shownIds) :
    (rule.names graph).resolve a = (rule.names graph).resolve b ↔ a = b := by
  constructor
  · intro he
    have hn := rule.get?_names_of_shown ha
    rw [he] at hn
    exact (rule.names_apart graph).get?_inj hn (rule.get?_names_of_shown hb)
  · rintro rfl
    rfl

theorem get?_names_build (rule : NameRule) (modules : List Module) (edges : List Edge) {id : String}
    (hs : id ∈ (Graph.build modules edges).nodeIds ∨ id ∈ (Graph.build modules edges).endpoints) :
    (rule.names (Graph.build modules edges)).get? id =
      some ((rule.names (Graph.build modules edges)).resolve id) :=
  rule.get?_names_of_shown ((Graph.build_represents modules edges).mem_shownIds.mpr hs)

end NameRule

end Diagram

end CallFlow
