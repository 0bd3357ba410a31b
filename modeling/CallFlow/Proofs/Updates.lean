import CallFlow.Proofs.Blessing

namespace CallFlow.Corpus

section Arguments

variable {args : List String} {source : Option String}

/-- The arguments that are known: any number of sources, of which the last one counts. -/
theorem sourceIn_eq_ok :
    sourceIn args = .ok source ↔
      ∃ sources : List String, args = sources.flatMap (["--source", ·]) ∧
        source = sources.getLast? := by
  constructor
  · intro h
    fun_induction sourceIn args generalizing source with
    | case1 =>
      cases h
      exact ⟨[], rfl, rfl⟩
    | case2 first rest ih =>
      obtain ⟨last, hl, h⟩ := bind_eq_ok.mp h
      cases h
      obtain ⟨sources, rfl, rfl⟩ := ih hl
      exact ⟨first :: sources, rfl, List.getLast?_cons.symm ▸ by cases sources.getLast? <;> rfl⟩
    | case3 => cases h
    | case4 => cases h
  · rintro ⟨sources, rfl, rfl⟩
    induction sources with
    | nil => rfl
    | cons first rest ih =>
      change (do return (← sourceIn (rest.flatMap _)).or (some first)) = _
      rw [ih, List.getLast?_cons]
      cases rest.getLast? <;> rfl

theorem named?_isSome_iff {name : String} :
    (∃ kind, Kind.named? name = some kind) ↔ name ∈ Kind.all.map Kind.name := by
  rw [← Option.isSome_iff_exists, Kind.named?, List.find?_isSome, List.mem_map]
  simp

end Arguments

namespace Case

variable {c result : Case} {update : Bool} {verdict : Verdict}

/-- A case with nothing expected, or one whose arguments name sources and whose expectations are all
of known kinds. -/
def IsEvaluable (c : Case) : Prop :=
  c.expectations = [] ∨
    (∃ sources : List String, c.args = sources.flatMap (["--source", ·])) ∧
      ∀ expectation ∈ c.expectations, expectation.kind ∈ Kind.all.map Kind.name

/-- Exactly the values that differ from what the documents yield are replaced by it. -/
structure UpdatesTo (c result : Case) : Prop where
  frame : result = { c with expectations := result.expectations }
  values : List.Forall₂ (fun before after => ∃ source kind, sourceIn c.args = .ok source ∧
      Kind.named? before.kind = some kind ∧
      after = if normal before.value = normal (yieldOfAll source kind c.documents) then before
        else { before with value := terminated (yieldOfAll source kind c.documents) })
    c.expectations result.expectations

theorem exists_comparisons_iff :
    (∃ found, c.comparisons = .ok found) ↔
      (∃ sources : List String, c.args = sources.flatMap (["--source", ·])) ∧
        ∀ expectation ∈ c.expectations, expectation.kind ∈ Kind.all.map Kind.name := by
  constructor
  · rintro ⟨found, hc⟩
    obtain ⟨source, hs, hf⟩ := comparisons_eq_ok.mp hc
    obtain ⟨sources, ha, -⟩ := sourceIn_eq_ok.mp hs
    refine ⟨⟨sources, ha⟩, fun expectation hm => ?_⟩
    obtain ⟨comparison, -, kind, hk, -⟩ := exists_left_of_forall₂ hf.flip hm
    exact named?_isSome_iff.mp ⟨kind, hk⟩
  · rintro ⟨⟨sources, ha⟩, hk⟩
    have hs := sourceIn_eq_ok.mpr ⟨sources, ha, rfl⟩
    obtain ⟨found, hf, -⟩ := exists_mapM_eq_ok (f := c.compare sources.getLast?) (p := fun _ => True)
      fun expectation hm => by
        obtain ⟨kind, hn⟩ := named?_isSome_iff.mpr (hk expectation hm)
        exact ⟨_, compare_eq_ok.mpr ⟨kind, hn, rfl⟩, trivial⟩
    exact ⟨found, bind_eq_ok.mpr ⟨_, hs, hf⟩⟩

theorem exists_comesTo_iff (update : Bool) :
    (∃ verdict result, c.ComesTo update verdict result) ↔ c.IsEvaluable := by
  rw [IsEvaluable, ← exists_comparisons_iff]
  constructor
  · rintro ⟨verdict, result, h⟩
    cases h with
    | nothingExpected bare => exact .inl bare
    | passed _ compared | updated _ compared | failed _ compared => exact .inr ⟨_, compared⟩
  · intro h
    by_cases hd : c.expectations = []
    · exact ⟨_, _, .nothingExpected hd⟩
    · obtain ⟨found, hc⟩ := h.resolve_left hd
      exact exists_comesTo hd hc update

theorem ComesTo.updatesTo (h : c.ComesTo true verdict result) : c.UpdatesTo result := by
  by_cases hn : c.expectations = []
  · have hr : result = c := by
      cases h with
      | nothingExpected | passed => rfl
      | updated declared => exact absurd hn declared
    rw [hr]
    exact ⟨rfl, by rw [hn]; exact .nil⟩
  · obtain ⟨found, compared, he, hr⟩ := h.expectations_eq hn
    obtain ⟨source, hs, hf⟩ := comparisons_eq_ok.mp compared
    refine ⟨by rw [he]; exact hr, ?_⟩
    rw [he, List.forall₂_map_right_iff]
    refine hf.imp fun before comparison hof => ?_
    obtain ⟨kind, hk, rfl⟩ := hof
    refine ⟨source, kind, hs, hk, ?_⟩
    simp only [Comparison.updated, Comparison.isMet, decide_eq_true_eq]

theorem ComesTo.settles (h : c.ComesTo true verdict result) (again : Bool) :
    result.ComesTo again (if c.expectations = [] then .nothingExpected else .passed) result := by
  have hk := congrArg List.length h.revises.kinds
  rw [List.length_map, List.length_map] at hk
  obtain ⟨told, ht, hn⟩ := h.settled (.refl result)
  cases ht with
  | nothingExpected bare =>
    have hc : c.expectations = [] := List.eq_nil_of_length_eq_zero (by rw [← hk, bare]; rfl)
    rw [if_pos hc]
    exact .nothingExpected bare
  | passed declared compared met =>
    have hc : c.expectations ≠ [] := by
      intro hc
      exact declared (List.eq_nil_of_length_eq_zero (by rw [hk, hc]; rfl))
    rw [if_neg hc]
    exact .passed declared compared met
  | failed => exact absurd ⟨_, rfl⟩ hn

end Case

section Corpora

variable {filter : Option String} {update : Bool} {suite : Suite} {suites : List Suite}
  {cases : List Case} {results : List Evaluated} {evaluated : List EvaluatedSuite}

theorem hasInfix_iff {inner cs : List Char} : Text.hasInfix inner cs = true ↔ inner <:+: cs := by
  induction cs with
  | nil => simp [Text.hasInfix]
  | cons c cs ih =>
    rw [Text.hasInfix, Bool.or_eq_true, ih, List.isPrefixOf_iff_prefix, List.infix_cons_iff]

theorem isChosen_iff {c : Case} :
    isChosen filter c = true ↔ ∀ term ∈ filter, term.toList <:+: c.id.toList := by
  cases filter with
  | none => simp [isChosen]
  | some term => simp [isChosen, Text.contains, hasInfix_iff]

def Outcome.IsOf (update : Bool) (c : Case) (outcome : Outcome) : Prop :=
  outcome.id = c.id ∧ ∃ assessment, (c.evaluate update).1 = .ok assessment ∧
    outcome.verdict = assessment.verdict

/-- What an evaluation leaves of a suite: the chosen cases as their own evaluations leave them, and
all others as they were. -/
structure Suite.EvaluatesTo (filter : Option String) (update : Bool) (suite : Suite)
    (result : EvaluatedSuite) : Prop where
  place_eq : result.suite.place = suite.place
  name_eq : result.suite.name = suite.name
  cases_eq : result.suite.cases = suite.cases.map fun c =>
    if isChosen filter c then (c.evaluate update).2 else c
  outcomes : List.Forall₂ (Outcome.IsOf update) (suite.cases.filter (isChosen filter))
    result.outcomes
  dirty : result.suite.isDirty = true ↔
    suite.isDirty = true ∨ ∃ outcome ∈ result.outcomes, outcome.verdict = .updated

/-- A case that was chosen has its outcome, and it is the only one that can have changed. -/
theorem evaluated_cases
    (h : List.Forall₂ (fun c result => evaluateCase filter update c = .ok result) cases results) :
    results.map Evaluated.result =
        cases.map (fun c => if isChosen filter c then (c.evaluate update).2 else c) ∧
      List.Forall₂ (Outcome.IsOf update) (cases.filter (isChosen filter))
        (results.filterMap Evaluated.outcome) ∧
      (results.any Evaluated.isMutated = true ↔
        ∃ outcome ∈ results.filterMap Evaluated.outcome, outcome.verdict = .updated) := by
  induction h with
  | nil => simp
  | @cons c result cases results h _ ih =>
    obtain ⟨hr, ho, hm⟩ := ih
    obtain ⟨after, mutated, outcome⟩ := result
    rcases evaluateCase_eq_ok.mp h with ⟨hc, verdict, hv, hu, rfl⟩ | ⟨hc, he⟩
    · have he := hv.evaluate_eq
      obtain rfl : mutated = decide (verdict = .updated) := hu
      rw [List.filter_cons_of_pos hc, List.filterMap_cons_some (f := Evaluated.outcome) rfl]
      refine ⟨by simp [hr, hc, he], .cons ⟨rfl, _, by rw [he], rfl⟩ ho, ?_⟩
      simp [hm]
    · cases he
      rw [List.filter_cons_of_neg (by simp [hc]), List.filterMap_cons_none (f := Evaluated.outcome) rfl]
      exact ⟨by simp [hr, hc], ho, by simpa using hm⟩

theorem evaluatesTo_of_evaluateSuite {result : EvaluatedSuite}
    (h : evaluateSuite filter update suite = .ok result) :
    suite.EvaluatesTo filter update result := by
  obtain ⟨results, hf, rfl⟩ := evaluateSuite_eq_ok.mp h
  obtain ⟨hr, ho, hm⟩ := evaluated_cases hf
  exact ⟨rfl, rfl, hr, ho, by rw [← hm]; exact Bool.or_eq_true_iff⟩

theorem outcomes_of_evaluatesTo
    (h : List.Forall₂ (Suite.EvaluatesTo filter update) suites evaluated) :
    List.Forall₂ (Outcome.IsOf update) ((suites.flatMap Suite.cases).filter (isChosen filter))
      (evaluated.flatMap EvaluatedSuite.outcomes) := by
  induction h with
  | nil => exact .nil
  | cons hs _ ih =>
    rw [List.flatMap_cons, List.filter_append, List.flatMap_cons]
    exact List.rel_append hs.outcomes ih

end Corpora

/-- An evaluation changes a case only in an update, and then only the values that are not met; it
says so, and once is enough. In a corpus each chosen case has one outcome, and a clean suite becomes
dirty exactly when one of its cases was updated. -/
theorem updates_only_unmet :
    (∀ (c : Case) (update : Bool),
      match c.evaluate update with
      | (.error _, result) => ¬c.IsEvaluable ∧ result = c
      | (.ok assessment, result) => c.IsEvaluable ∧
        (assessment.isMutated = true ↔ assessment.verdict = .updated) ∧
        (update = false → result = c ∧ assessment.isMutated = false) ∧
        (update = true → ¬assessment.verdict.IsFailed ∧ c.UpdatesTo result ∧
          ∀ again, result.evaluate again =
            (.ok ⟨if c.expectations = [] then .nothingExpected else .passed, false⟩, result))) ∧
    ∀ (filter : Option String) (update : Bool) (suites : List Suite)
      (evaluated : List EvaluatedSuite), evaluate filter update suites = .ok evaluated →
      (∀ c, isChosen filter c = true ↔ ∀ term ∈ filter, term.toList <:+: c.id.toList) ∧
      List.Forall₂ (Outcome.IsOf update) ((suites.flatMap Suite.cases).filter (isChosen filter))
        (evaluated.flatMap EvaluatedSuite.outcomes) ∧
      List.Forall₂ (Suite.EvaluatesTo filter update) suites evaluated := by
  refine ⟨fun c update => ?_, fun filter update suites evaluated h => ?_⟩
  · obtain ⟨told, result, he⟩ : ∃ told result, c.evaluate update = (told, result) := ⟨_, _, rfl⟩
    rw [he]
    cases told with
    | error fault =>
      obtain ⟨hd, hc, rfl⟩ := Case.evaluate_eq_error.mp he
      refine ⟨fun h => ?_, rfl⟩
      obtain ⟨found, hf⟩ := Case.exists_comparisons_iff.mpr (h.resolve_left hd)
      rw [hc] at hf
      cases hf
    | ok assessment =>
      obtain ⟨hc, hm⟩ := Case.evaluate_eq_ok.mp he
      have hu : assessment.isMutated = true ↔ assessment.verdict = .updated := by simp [hm]
      refine ⟨(Case.exists_comesTo_iff update).mp ⟨_, _, hc⟩, hu, ?_, ?_⟩
      · rintro rfl
        refine ⟨hc.eq_of_no_update, Bool.eq_false_iff.mpr fun h => ?_⟩
        have hv := hu.mp h
        rw [hv] at hc
        cases hc
      · rintro rfl
        refine ⟨hc.not_failed, hc.updatesTo, fun again => ?_⟩
        rw [(hc.settles again).evaluate_eq]
        split <;> rfl
  · obtain ⟨hs, -⟩ := evaluate_eq_ok.mp h
    have hf := hs.imp fun suite result => evaluatesTo_of_evaluateSuite
    exact ⟨fun c => isChosen_iff, outcomes_of_evaluatesTo hf, hf⟩

theorem stepSuite_updated_once :
    let c := stepCase "A" ""
    let result := stepCase "A" "A play \"play\"\n"
    let suites := [stepSuite "A" ""]
    let evaluated := [stepUpdated "A" "A play \"play\"\n"]
    c.evaluate true = (.ok ⟨.updated, true⟩, result) ∧ c.UpdatesTo result ∧
      (∀ again, result.evaluate again = (.ok ⟨.passed, false⟩, result)) ∧
      evaluate none true suites = .ok evaluated ∧
      List.Forall₂ (Suite.EvaluatesTo none true) suites evaluated := by
  intro c result suites evaluated
  have hd : normal "" ≠ normal "A play \"play\"\n" := by decide +kernel
  have ht : terminated "A play \"play\"\n" = "A play \"play\"\n" := by decide +kernel
  have hc : c.evaluate true = (.ok ⟨.updated, true⟩, result) :=
    (comesTo_stepUpdated yieldOfAll_plain hd ht).evaluate_eq
  have he : evaluate none true suites = .ok evaluated := evaluate_stepUpdated yieldOfAll_plain hd ht
  have h := updates_only_unmet.1 c true
  rw [hc] at h
  obtain ⟨-, hu, hagain⟩ := h.2.2.2 rfl
  exact ⟨hc, hu, hagain, he, (updates_only_unmet.2 none true suites evaluated he).2.2⟩

end CallFlow.Corpus
