import CallFlow.FileTree.Soundness
import Mathlib.Data.List.Lex

namespace CallFlow.Path

def Part.rank : Part → Nat
  | root => 0
  | current => 1
  | parent => 2
  | normal _ => 3

/-- Names are compared character by character, and follow all other parts. -/
def Part.Before : Part → Part → Prop
  | normal a, normal b => a < b
  | p, q => p.rank < q.rank

/-- Paths are compared at the first part in which they differ. One that ends there comes first. -/
def Before (p q : String) : Prop :=
  List.Lex Part.Before (parts p) (parts q)

instance : Std.Asymm Part.Before where
  asymm p q h := by
    cases p <;> cases q
    case normal.normal => exact String.lt_asymm h
    all_goals exact Nat.lt_asymm h

theorem Before.asymm {p q : String} (h : Before p q) : ¬Before q p :=
  Std.Asymm.asymm (r := List.Lex Part.Before) _ _ h

theorem Before.ne {p q : String} (h : Before p q) : p ≠ q := by
  rintro rfl
  exact h.asymm h

section Names

variable {as bs cs : List String}

theorem lessOrEqual_trans (hab : lessOrEqual as bs = true) (hbc : lessOrEqual bs cs = true) :
    lessOrEqual as cs = true := by
  induction as generalizing bs cs with
  | nil => rfl
  | cons a as ih =>
    cases bs with
    | nil => cases hab
    | cons b bs =>
      cases cs with
      | nil => cases hbc
      | cons c cs =>
        simp only [lessOrEqual] at hab hbc ⊢
        by_cases he : a = b
        · subst he
          rw [if_pos rfl] at hab
          by_cases hc : a = c
          · rw [if_pos hc] at hbc ⊢
            exact ih hab hbc
          · rwa [if_neg hc] at hbc ⊢
        · rw [if_neg he, decide_eq_true_eq] at hab
          by_cases hc : b = c
          · subst hc
            rw [if_neg he, decide_eq_true_eq]
            exact hab
          · rw [if_neg hc, decide_eq_true_eq] at hbc
            have hac := String.lt_trans hab hbc
            have hn : a ≠ c := by
              rintro rfl
              exact String.lt_irrefl a hac
            rw [if_neg hn, decide_eq_true_eq]
            exact hac

theorem lessOrEqual_total (as bs : List String) :
    (lessOrEqual as bs || lessOrEqual bs as) = true := by
  induction as generalizing bs with
  | nil => rfl
  | cons a as ih =>
    cases bs with
    | nil => rfl
    | cons b bs =>
      simp only [lessOrEqual]
      by_cases he : a = b
      · subst he
        rw [if_pos rfl, if_pos rfl]
        exact ih bs
      · rw [if_neg he, if_neg (Ne.symm he), Bool.or_eq_true, decide_eq_true_eq, decide_eq_true_eq]
        exact (Std.lt_trichotomy a b).imp_right fun h => h.resolve_left he

theorem lex_of_lessOrEqual (h : lessOrEqual as bs = true) (hn : as ≠ bs) :
    List.Lex Part.Before (as.map .normal) (bs.map .normal) := by
  induction as generalizing bs with
  | nil =>
    cases bs with
    | nil => exact absurd rfl hn
    | cons b bs => exact .nil
  | cons a as ih =>
    cases bs with
    | nil => cases h
    | cons b bs =>
      simp only [lessOrEqual] at h
      by_cases he : a = b
      · subst he
        rw [if_pos rfl] at h
        exact .cons (ih h fun hs => hn (congrArg (a :: ·) hs))
      · rw [if_neg he, decide_eq_true_eq] at h
        exact .rel h

end Names

theorem parts_join (dir : String) {name : String} (hn : IsName name) :
    parts (join dir name) = parts dir ++ [.normal name] := by
  have hs : steps (join dir name) = steps dir ++ [name] := steps_join dir hn.not_empty hn.no_slash
  have ha := isAbsolute_join dir hn.no_slash
  have hc : (steps dir ++ [name]).head? = some "." ↔ (steps dir).head? = some "." := by
    cases steps dir with
    | nil => simp [hn.not_current]
    | cons step rest => rfl
  have hp : partOf? name = some (.normal name) := by
    rw [partOf?, if_neg hn.not_current, if_neg hn.not_parent]
  simp only [parts, hs, ha, hc, List.filterMap_append, List.filterMap_cons, List.filterMap_nil, hp,
    List.append_assoc]

theorem parts_foldl_join (dir : String) {names : List String} (hn : ∀ name ∈ names, IsName name) :
    parts (names.foldl join dir) = parts dir ++ names.map .normal := by
  induction names generalizing dir with
  | nil => rw [List.foldl_nil, List.map_nil, List.append_nil]
  | cons name rest ih =>
    obtain ⟨hname, hr⟩ := List.forall_mem_cons.mp hn
    rw [List.foldl_cons, ih _ hr, parts_join dir hname, List.map_cons, List.append_assoc,
      List.singleton_append]

/-- Below a directory the order of names is that of paths. -/
theorem before_of_lessOrEqual (dir : String) {as bs : List String} (ha : ∀ name ∈ as, IsName name)
    (hb : ∀ name ∈ bs, IsName name) (h : lessOrEqual as bs = true) (hn : as ≠ bs) :
    Before (as.foldl join dir) (bs.foldl join dir) := by
  rw [Before, parts_foldl_join dir ha, parts_foldl_join dir hb]
  exact (lex_of_lessOrEqual h hn).append_left _ _

end CallFlow.Path
