import CallFlow.Proofs.RewrittenCases

namespace CallFlow.Corpus

def Comparison.IsOf (source : Option String) (documents : List Document) (expectation : Expectation)
    (comparison : Comparison) : Prop :=
  ∃ kind, Kind.named? expectation.kind = some kind ∧
    comparison = { expectation, actual := yieldOfAll source kind documents }

def Verdict.IsFailed (verdict : Verdict) : Prop :=
  ∃ listings, verdict = failed listings

namespace Review

variable {found : List Comparison}

/-- An update replaces what is not met, and tells of it. -/
theorem foldl_update (found : List Comparison) (review : Review) :
    found.foldl (step true) review =
      { expectations := review.expectations ++ found.map Comparison.updated
        assessment := if found.all (·.isMet) then review.assessment else ⟨.updated, true⟩ } := by
  induction found generalizing review with
  | nil => simp
  | cons comparison rest ih =>
    rw [List.foldl_cons, ih]
    cases hm : comparison.isMet with
    | true => simp [step, hm, Comparison.updated]
    | false => simp [step, hm, Comparison.updated]

theorem foldl_keep (found : List Comparison) (review : Review) :
    found.foldl (step false) review =
      { expectations := review.expectations ++ found.map Comparison.expectation
        assessment := if found.all (·.isMet) then review.assessment else
          { review.assessment with
            verdict := .failed (review.assessment.verdict.listings ++
              (found.filter (!·.isMet)).map Comparison.listing) } } := by
  induction found generalizing review with
  | nil => simp
  | cons comparison rest ih =>
    rw [List.foldl_cons, ih]
    cases hm : comparison.isMet with
    | true => simp [step, hm]
    | false =>
      have hr : rest.all (·.isMet) = true → rest.filter (!·.isMet) = [] := by
        intro h
        simpa using h
      cases ha : rest.all (·.isMet) with
      | true => simp [step, hm, hr ha, Verdict.listings]
      | false => simp [step, hm, Verdict.listings]

end Review

namespace Case

/-- What an evaluation of a case comes to, and what it leaves of the case. -/
inductive ComesTo (c : Case) : Bool → Verdict → Case → Prop where
  | nothingExpected (bare : c.expectations = []) : ComesTo c update .nothingExpected c
  | passed (declared : c.expectations ≠ []) (compared : c.comparisons = .ok found)
      (met : ∀ comparison ∈ found, comparison.isMet = true) : ComesTo c update .passed c
  | updated (declared : c.expectations ≠ []) (compared : c.comparisons = .ok found)
      (unmet : comparison ∈ found) (differs : comparison.isMet = false) :
      ComesTo c true .updated { c with expectations := found.map Comparison.updated }
  | failed (declared : c.expectations ≠ []) (compared : c.comparisons = .ok found)
      (unmet : comparison ∈ found) (differs : comparison.isMet = false) :
      ComesTo c false
        (.failed ((found.filter (!·.isMet)).map Comparison.listing)) c

variable {c result other : Case} {update : Bool} {verdict : Verdict} {found : List Comparison}
  {source : Option String} {expectation : Expectation} {comparison : Comparison}

theorem compare_eq_ok :
    c.compare source expectation = .ok comparison ↔
      comparison.IsOf source c.documents expectation := by
  unfold compare Comparison.IsOf
  cases Kind.named? expectation.kind with
  | none => simp
  | some kind => simp [eq_comm]

theorem comparisons_eq_ok :
    c.comparisons = .ok found ↔ ∃ source, sourceIn c.args = .ok source ∧
      List.Forall₂ (Comparison.IsOf source c.documents) c.expectations found := by
  unfold Case.comparisons
  rw [bind_eq_ok]
  simp only [mapM_eq_ok, compare_eq_ok]

theorem updated_of_isMet (h : comparison.isMet = true) :
    comparison.updated = comparison.expectation :=
  if_pos h

theorem map_expectation_found {documents : List Document} {expectations : List Expectation}
    (hf : List.Forall₂ (Comparison.IsOf source documents) expectations found) :
    found.map Comparison.expectation = expectations := by
  induction hf with
  | nil => rfl
  | cons h _ ih =>
    obtain ⟨kind, -, rfl⟩ := h
    rw [List.map_cons, ih]

theorem all_isMet_eq_false (hm : comparison ∈ found) (hd : comparison.isMet = false) :
    found.all (·.isMet) = false :=
  List.all_eq_false.mpr ⟨comparison, hm, by simp [hd]⟩

theorem evaluate_eq (c : Case) (update : Bool) :
    c.evaluate update =
      if c.expectations = [] then (.ok ⟨.nothingExpected, false⟩, c)
      else
        match c.comparisons with
        | .error fault => (.error fault, c)
        | .ok found =>
          (.ok (found.foldl (Review.step update) .start).assessment,
            { c with expectations := (found.foldl (Review.step update) .start).expectations }) := by
  change (if c.expectations = [] then _ else _ :
    ExceptT CaseFault (StateM Case) Assessment).run.run c = _
  split
  · rfl
  · cases c.comparisons <;> rfl

/-- Where nothing is replaced, the expectations that were gone through are those of the case. -/
theorem eq_of_comparisons (hc : c.comparisons = .ok found) :
    { c with expectations := found.map Comparison.expectation } = c := by
  obtain ⟨source, -, hf⟩ := comparisons_eq_ok.mp hc
  rw [map_expectation_found hf]

theorem eq_of_met (hc : c.comparisons = .ok found)
    (hm : ∀ comparison ∈ found, comparison.isMet = true) :
    { c with expectations := found.map Comparison.updated } = c := by
  have hu : found.map Comparison.updated = found.map Comparison.expectation :=
    List.map_congr_left fun comparison h => updated_of_isMet (hm comparison h)
  rw [hu, eq_of_comparisons hc]

theorem ComesTo.evaluate_eq (h : c.ComesTo update verdict result) :
    c.evaluate update = (.ok ⟨verdict, verdict = .updated⟩, result) := by
  rw [Case.evaluate_eq]
  cases h with
  | nothingExpected bare => exact if_pos bare
  | passed declared compared met =>
    have ha : _ = true := List.all_eq_true.mpr met
    rw [if_neg declared, compared]
    cases update with
    | true => simp [Review.foldl_update, Review.start, ha, eq_of_met compared met]
    | false => simp [Review.foldl_keep, Review.start, ha, eq_of_comparisons compared]
  | updated declared compared unmet differs =>
    rw [if_neg declared, compared]
    simp [Review.foldl_update, Review.start, all_isMet_eq_false unmet differs]
  | failed declared compared unmet differs =>
    rw [if_neg declared, compared]
    simp [Review.foldl_keep, Review.start, all_isMet_eq_false unmet differs,
      eq_of_comparisons compared, Verdict.listings]

theorem exists_comesTo (hd : c.expectations ≠ []) (hc : c.comparisons = .ok found) (update : Bool) :
    ∃ verdict result, c.ComesTo update verdict result := by
  cases ha : found.all (·.isMet) with
  | true => exact ⟨_, _, .passed hd hc (List.all_eq_true.mp ha)⟩
  | false =>
    obtain ⟨comparison, hm, hu⟩ := List.all_eq_false.mp ha
    have hu : comparison.isMet = false := eq_false_of_ne_true hu
    cases update with
    | true => exact ⟨_, _, .updated hd hc hm hu⟩
    | false => exact ⟨_, _, .failed hd hc hm hu⟩

/-- An evaluation tells that the case was changed exactly when it was updated. -/
theorem evaluate_eq_ok {assessment : Assessment} :
    c.evaluate update = (.ok assessment, result) ↔
      c.ComesTo update assessment.verdict result ∧
        assessment.isMutated = decide (assessment.verdict = .updated) := by
  constructor
  · intro h
    obtain ⟨verdict, result', hc⟩ : ∃ verdict result', c.ComesTo update verdict result' := by
      by_cases hd : c.expectations = []
      · exact ⟨_, _, .nothingExpected hd⟩
      · cases hc : c.comparisons with
        | error fault =>
          rw [Case.evaluate_eq, if_neg hd, hc] at h
          cases h
        | ok found => exact exists_comesTo hd hc update
    rw [hc.evaluate_eq] at h
    obtain ⟨hv, rfl⟩ := Prod.mk.inj h
    obtain rfl := Except.ok.inj hv
    exact ⟨hc, rfl⟩
  · rintro ⟨hc, hm⟩
    rw [hc.evaluate_eq, ← hm]

theorem evaluate_eq_error {fault : CaseFault} :
    c.evaluate update = (.error fault, result) ↔
      c.expectations ≠ [] ∧ c.comparisons = .error fault ∧ result = c := by
  rw [Case.evaluate_eq]
  split
  · rename_i hn
    simp [hn]
  · rename_i hn
    cases hc : c.comparisons with
    | error other => simp [hn, eq_comm]
    | ok found => simp

/-- Nothing is left of a case but what it was, unless it was updated. -/
theorem ComesTo.eq_of_ne_updated (h : c.ComesTo update verdict result) (hv : verdict ≠ .updated) :
    result = c := by
  cases h with
  | nothingExpected | passed | failed => rfl
  | updated => exact absurd rfl hv

/-- In an update no case fails. -/
theorem ComesTo.not_failed (h : c.ComesTo true verdict result) : ¬verdict.IsFailed := by
  rintro ⟨listings, rfl⟩
  cases h

/-- Without an update a case stays as it is. -/
theorem ComesTo.eq_of_no_update (h : c.ComesTo false verdict result) : result = c := by
  cases h <;> rfl

theorem normal_updated {documents : List Document} (h : comparison.IsOf source documents expectation) :
    comparison.updated.kind = expectation.kind ∧
      normal comparison.updated.value = normal comparison.actual := by
  obtain ⟨kind, -, rfl⟩ := h
  unfold Comparison.updated
  split
  · rename_i hm
    exact ⟨rfl, of_decide_eq_true hm⟩
  · exact ⟨rfl, normal_terminated (isEnded_yieldOfAll source kind documents)⟩

theorem ComesTo.expectations_eq (h : c.ComesTo true verdict result) (hn : c.expectations ≠ []) :
    ∃ found, c.comparisons = .ok found ∧ result.expectations = found.map Comparison.updated ∧
      result = { c with expectations := found.map Comparison.updated } := by
  cases h with
  | nothingExpected bare => exact absurd bare hn
  | passed declared compared met =>
    rename_i found
    obtain ⟨source, -, hf⟩ := comparisons_eq_ok.mp compared
    have hu : found.map Comparison.updated = c.expectations := by
      rw [← map_expectation_found hf]
      exact List.map_congr_left fun comparison hm => updated_of_isMet (met comparison hm)
    refine ⟨found, compared, hu.symm, ?_⟩
    rw [hu]
  | updated declared compared unmet differs => exact ⟨_, compared, rfl, rfl⟩

/-- The case with some of its expected values replaced by what documents yield. -/
structure Revises (c result : Case) : Prop where
  frame : result = { c with expectations := result.expectations }
  kinds : result.expectations.map Expectation.kind = c.expectations.map Expectation.kind
  values : ∀ expectation ∈ result.expectations,
    expectation ∈ c.expectations ∨ ∃ actual, expectation.value = terminated actual

theorem Revises.refl (c : Case) : c.Revises c :=
  ⟨rfl, rfl, fun _ hm => .inl hm⟩

theorem Revises.id_eq (h : c.Revises result) : result.id = c.id := by
  rw [h.frame]
  rfl

/-- The values that an update replaces stand in the places of the old ones. -/
theorem revises_updated {documents : List Document}
    (hf : List.Forall₂ (Comparison.IsOf source documents) c.expectations found) :
    c.Revises { c with expectations := found.map Comparison.updated } where
  frame := rfl
  kinds := by
    have hk : ∀ comparison : Comparison,
        comparison.updated.kind = comparison.expectation.kind := by
      intro comparison
      unfold Comparison.updated
      split <;> rfl
    rw [← map_expectation_found hf, List.map_map, List.map_map]
    exact List.map_congr_left fun comparison _ => hk comparison
  values := by
    intro expectation hm
    obtain ⟨comparison, hc, rfl⟩ := List.mem_map.mp hm
    unfold Comparison.updated
    split
    · refine .inl ?_
      rw [← map_expectation_found hf]
      exact List.mem_map_of_mem hc
    · exact .inr ⟨comparison.actual, rfl⟩

theorem ComesTo.revises (h : c.ComesTo update verdict result) : c.Revises result := by
  cases h with
  | nothingExpected | passed | failed => exact .refl c
  | updated _ compared =>
    obtain ⟨source, -, hf⟩ := comparisons_eq_ok.mp compared
    exact revises_updated hf

theorem ComesTo.settled (h : c.ComesTo true verdict result) (hr : result.ReadsAs other) :
    ∃ again, other.ComesTo false again other ∧ ¬again.IsFailed := by
  by_cases hn : c.expectations = []
  · have hc : result = c := by
      cases h with
      | updated declared => exact absurd hn declared
      | nothingExpected | passed => rfl
    have ho : other.expectations = [] := by
      have hl := hr.expectations.length_eq
      rw [hc, hn] at hl
      exact List.eq_nil_of_length_eq_zero hl.symm
    refine ⟨.nothingExpected, .nothingExpected ho, ?_⟩
    rintro ⟨listings, he⟩
    cases he
  · obtain ⟨found, compared, he, rfl⟩ := h.expectations_eq hn
    obtain ⟨source, hs, hf⟩ := comparisons_eq_ok.mp compared
    have hm : ∀ kept ∈ other.expectations, ∃ comparison,
        other.compare source kept = .ok comparison ∧ comparison.isMet = true := by
      intro kept hk
      obtain ⟨expectation, hu, hkind, hvalue⟩ := exists_left_of_forall₂ hr.expectations hk
      obtain ⟨comparison, hc, rfl⟩ := List.mem_map.mp hu
      obtain ⟨before, -, hof⟩ := exists_left_of_forall₂ hf hc
      obtain ⟨hsame, hnormal⟩ := normal_updated hof
      obtain ⟨kind, hknown, rfl⟩ := hof
      have hy := hr.yields (by rw [he]; exact List.ne_nil_of_mem hu) source kind
      refine ⟨{ expectation := kept, actual := yieldOfAll source kind other.documents }, ?_, ?_⟩
      · exact compare_eq_ok.mpr ⟨kind, by rw [hkind, hsame, hknown], rfl⟩
      · refine decide_eq_true ?_
        change normal kept.value = normal (yieldOfAll source kind other.documents)
        rw [hvalue, hnormal, hy]
    obtain ⟨again, hagain, hmet⟩ := exists_mapM_eq_ok hm
    have hdeclared : other.expectations ≠ [] := by
      intro ho
      have hl := hr.expectations.length_eq
      rw [ho, List.length_map, ← hf.length_eq] at hl
      exact hn (List.eq_nil_of_length_eq_zero hl)
    have hcompared : other.comparisons = .ok again := by
      unfold Case.comparisons
      exact bind_eq_ok.mpr ⟨source, by rw [hr.args_eq]; exact hs, hagain⟩
    refine ⟨.passed, .passed hdeclared hcompared hmet, ?_⟩
    rintro ⟨listings, he⟩
    cases he

end Case

end CallFlow.Corpus
