import CallFlow.Corpus
import CallFlow.Proofs.Verdicts

namespace CallFlow.Corpus

section Cases

variable {filter : Option String} {update : Bool} {c : Case} {evaluated : Evaluated}

theorem evaluateCase_eq_ok :
    evaluateCase filter update c = .ok evaluated ↔
      isChosen filter c = true ∧ (∃ verdict, c.ComesTo update verdict evaluated.result ∧
        evaluated.isMutated = decide (verdict = .updated) ∧
        evaluated.outcome = some { id := c.id, verdict }) ∨
      isChosen filter c = false ∧
        evaluated = { result := c, isMutated := false, outcome := none } := by
  unfold evaluateCase
  cases hc : isChosen filter c with
  | false => simp [eq_comm]
  | true =>
    simp only [if_true, true_and, Bool.true_eq_false, false_and, or_false]
    constructor
    · intro h
      obtain ⟨told, result, he⟩ : ∃ told result, c.evaluate update = (told, result) := ⟨_, _, rfl⟩
      rw [he] at h
      cases told with
      | error fault => cases h
      | ok assessment =>
        cases h
        obtain ⟨hv, hm⟩ := Case.evaluate_eq_ok.mp he
        exact ⟨assessment.verdict, hv, hm, rfl⟩
    · rintro ⟨verdict, hv, hm, ho⟩
      rw [hv.evaluate_eq]
      cases evaluated
      cases hm
      cases ho
      rfl

theorem revises_of_evaluateCase (h : evaluateCase filter update c = .ok evaluated) :
    c.Revises evaluated.result := by
  rcases evaluateCase_eq_ok.mp h with ⟨-, verdict, hv, -, -⟩ | ⟨-, rfl⟩
  · exact hv.revises
  · exact .refl c

end Cases

section Suites

variable {filter : Option String} {update : Bool} {suite : Suite} {evaluated : EvaluatedSuite}

theorem evaluateSuite_eq_ok :
    evaluateSuite filter update suite = .ok evaluated ↔
      ∃ cases, List.Forall₂ (fun c result => evaluateCase filter update c = .ok result)
          suite.cases cases ∧
        evaluated = {
          suite := { suite with
            cases := cases.map Evaluated.result
            isDirty := suite.isDirty || cases.any Evaluated.isMutated }
          outcomes := cases.filterMap Evaluated.outcome } := by
  unfold evaluateSuite
  rw [bind_eq_ok]
  simp only [mapM_eq_ok]
  refine exists_congr fun cases => and_congr_right fun _ => ?_
  exact ⟨fun h => (Except.ok.inj h).symm, fun h => congrArg Except.ok h.symm⟩

theorem suite_eq_of_not_changed (h : evaluateSuite filter update suite = .ok evaluated)
    (hn : evaluated.isChanged = false) : evaluated.suite = suite := by
  obtain ⟨cases, hc, rfl⟩ := evaluateSuite_eq_ok.mp h
  obtain ⟨hs, hm⟩ := Bool.or_eq_false_iff.mp hn
  have hr : List.Forall₂ Eq suite.cases (cases.map Evaluated.result) := by
    refine List.forall₂_map_right_iff.mpr (forall₂_imp_of_mem hc fun c _ result hresult he => ?_)
    rcases evaluateCase_eq_ok.mp he with ⟨-, verdict, hv, hu, -⟩ | ⟨-, rfl⟩
    · refine (hv.eq_of_ne_updated ?_).symm
      rintro rfl
      exact List.any_eq_false.mp hm result hresult hu
    · rfl
  rw [List.forall₂_eq_eq_eq] at hr
  rw [← hr, hs, hm]
  exact congrArg (fun isDirty => { suite with isDirty }) hs.symm

end Suites

section Corpora

variable {filter : Option String} {update : Bool} {suites : List Suite}
  {evaluated : List EvaluatedSuite}

theorem evaluate_eq_ok :
    evaluate filter update suites = .ok evaluated ↔
      List.Forall₂ (fun suite result => evaluateSuite filter update suite = .ok result)
        suites evaluated ∧ ∃ result ∈ evaluated, result.outcomes ≠ [] := by
  unfold evaluate
  rw [bind_eq_ok]
  simp only [mapM_eq_ok]
  constructor
  · rintro ⟨results, hf, h⟩
    split at h
    · cases h
    · rename_i hn
      cases h
      refine ⟨hf, ?_⟩
      simpa using hn
  · rintro ⟨hf, result, hm, hn⟩
    refine ⟨evaluated, hf, ?_⟩
    have hall : evaluated.all (·.outcomes = []) = false := by
      refine List.all_eq_false.mpr ⟨result, hm, ?_⟩
      simpa using hn
    rw [hall]
    rfl

end Corpora

end CallFlow.Corpus
