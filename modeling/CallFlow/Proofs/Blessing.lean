import CallFlow.Proofs.Outcomes
import CallFlow.Proofs.RewrittenCorpus

namespace CallFlow.Corpus

namespace Case

/-- A case that is taken for what it is when it is written: its arguments come out of their line
again, and no line of a value is a comment, a banner or a header, or ends in more than one carriage
return. -/
structure IsStorable (c : Case) : Prop where
  args : Text.Words.split? (Text.trim (Text.Words.join c.args)) = some c.args
  values : ∀ expectation ∈ c.expectations,
    ∀ line ∈ Text.splitAt '\n' expectation.value, IsKeptLine line

theorem isStorable_iff {c : Case} :
    c.IsStorable ↔ Text.Words.split? (Text.trim (Text.Words.join c.args)) = some c.args ∧
      ∀ expectation ∈ c.expectations,
        ∀ line ∈ Text.splitAt '\n' expectation.value, IsKeptLine line :=
  ⟨fun ⟨ha, hv⟩ => ⟨ha, hv⟩, fun ⟨ha, hv⟩ => ⟨ha, hv⟩⟩

instance (c : Case) : Decidable c.IsStorable :=
  decidable_of_iff _ isStorable_iff.symm

variable {c result : Case} {suite : String}

theorem WasRead.isWritable (hc : c.WasRead suite) (hd : c.documents ≠ []) (h : c.Revises result)
    (hs : result.IsStorable) : result.IsWritable := by
  have hdocuments : ∀ document ∈ c.documents, IsBody document.contents := by
    intro document hm
    have hp := List.mem_map_of_mem (f := fun document : Document =>
      (Section.document document.path, document.contents)) hm
    exact (hc.sections _ (List.mem_append_left _ hp)).2
  have hexpectations : ∀ expectation ∈ c.expectations,
      IsLabel expectation.kind ∧ IsBody expectation.value := by
    intro expectation hm
    have hp := List.mem_map_of_mem (f := fun expectation : Expectation =>
      (Section.expectation expectation.kind, expectation.value)) hm
    exact hc.sections _ (List.mem_append_right _ hp)
  have hlabels : ∀ expectation ∈ result.expectations, IsLabel expectation.kind := by
    intro expectation hm
    have hk : expectation.kind ∈ c.expectations.map Expectation.kind := by
      rw [← h.kinds]
      exact List.mem_map_of_mem hm
    obtain ⟨before, hb, he⟩ := List.mem_map.mp hk
    exact he ▸ (hexpectations before hb).1
  have hended : ∀ expectation ∈ result.expectations, IsEnded expectation.value := by
    intro expectation hm
    rcases h.values expectation hm with hb | ⟨actual, ha⟩
    · exact (hexpectations expectation hb).2.ended
    · rw [ha]
      exact isEnded_terminated actual
  rw [h.frame] at hs ⊢
  refine ⟨hc.name, hd, hc.comments, ?_, hc.args, hs.args, hdocuments, hended, hs.values⟩
  intro part hm
  rcases List.mem_append.mp hm with hm | hm
  · exact (hc.sections part (List.mem_append_left _ hm)).1
  · obtain ⟨expectation, he, rfl⟩ := List.mem_map.mp hm
    exact hlabels expectation he

end Case

section Cases

variable {filter : Option String} {update : Bool} {c other : Case} {evaluated : Evaluated}

/-- The same case was chosen in two evaluations, or in neither. In the second it does not fail. -/
inductive Settled : Option Outcome → Option Outcome → Prop where
  | skipped : Settled none none
  | chosen (name : String) (before : Verdict) (holds : ¬again.IsFailed) :
      Settled (some { id := name, verdict := before }) (some { id := name, verdict := again })

theorem exists_settled (h : evaluateCase filter true c = .ok evaluated)
    (hr : evaluated.result.ReadsAs other) :
    ∃ again, evaluateCase filter false other = .ok again ∧
      Settled evaluated.outcome again.outcome := by
  have hid : other.id = c.id := hr.id_eq.trans (revises_of_evaluateCase h).id_eq
  have hchosen : isChosen filter other = isChosen filter c := by rw [isChosen, isChosen, hid]
  rcases evaluateCase_eq_ok.mp h with ⟨hc, verdict, hv, -, ho⟩ | ⟨hc, he⟩
  · obtain ⟨again, hagain, hnot⟩ := hv.settled hr
    refine ⟨⟨other, again = .updated, some ⟨other.id, again⟩⟩, ?_, ?_⟩
    · exact evaluateCase_eq_ok.mpr (.inl ⟨hchosen.trans hc, again, hagain, rfl, rfl⟩)
    · rw [ho, hid]
      exact .chosen c.id verdict hnot
  · refine ⟨⟨other, false, none⟩, ?_, ?_⟩
    · exact evaluateCase_eq_ok.mpr (.inr ⟨hchosen.trans hc, rfl⟩)
    · rw [he]
      exact .skipped

end Cases

section Suites

variable {filter : Option String} {update : Bool} {suite other : Suite} {evaluated : EvaluatedSuite}

/-- The same cases were chosen in both evaluations, and in the second none fails. -/
structure AllSettled (first second : List Outcome) : Prop where
  ids_eq : second.map Outcome.id = first.map Outcome.id
  none_failed : ∀ outcome ∈ second, ¬outcome.verdict.IsFailed

theorem allSettled_filterMap {cases others : List Evaluated}
    (h : List.Forall₂ (fun first second => Settled first.outcome second.outcome) cases others) :
    AllSettled (cases.filterMap Evaluated.outcome) (others.filterMap Evaluated.outcome) := by
  induction h with
  | nil => exact ⟨rfl, fun outcome hm => absurd hm List.not_mem_nil⟩
  | @cons first second _ _ h _ ih =>
    obtain ⟨_, _, before⟩ := first
    obtain ⟨_, _, after⟩ := second
    cases h with
    | skipped => exact ih
    | chosen name before holds =>
      refine ⟨?_, List.forall_mem_cons.mpr ⟨holds, ih.none_failed⟩⟩
      exact congrArg (List.cons _) ih.ids_eq

theorem exists_allSettled (h : evaluateSuite filter true suite = .ok evaluated)
    (hr : List.Forall₂ Case.ReadsAs evaluated.suite.cases other.cases) :
    ∃ again, evaluateSuite filter false other = .ok again ∧
      AllSettled evaluated.outcomes again.outcomes := by
  obtain ⟨cases, hc, rfl⟩ := evaluateSuite_eq_ok.mp h
  obtain ⟨others, ho, hs⟩ := exists_forall₂_of_forall₂ (T := fun first second : Evaluated =>
      Settled first.outcome second.outcome)
    (S := fun c result => evaluateCase filter false c = .ok result)
    ((List.forall₂_map_left_iff.mp hr).flip) fun other _ first hf hread => by
      obtain ⟨c, -, he⟩ := exists_left_of_forall₂ hc hf
      exact exists_settled he hread
  exact ⟨_, evaluateSuite_eq_ok.mpr ⟨others, ho, rfl⟩, allSettled_filterMap hs⟩

end Suites

section Corpora

variable {tree after : FileTree} {root : String} {filter : Option String} {update : Bool}
  {suites : List Suite} {evaluated again : List EvaluatedSuite}

def changed (evaluated : List EvaluatedSuite) : List Suite :=
  (evaluated.filter EvaluatedSuite.isChanged).map EvaluatedSuite.suite

theorem allSettled_flatMap
    (h : List.Forall₂ (fun first second : EvaluatedSuite =>
      AllSettled first.outcomes second.outcomes) evaluated again) :
    AllSettled (evaluated.flatMap EvaluatedSuite.outcomes)
      (again.flatMap EvaluatedSuite.outcomes) := by
  induction h with
  | nil => exact ⟨rfl, fun outcome hm => absurd hm List.not_mem_nil⟩
  | cons h _ ih =>
    rw [List.flatMap_cons, List.flatMap_cons]
    refine ⟨by rw [List.map_append, List.map_append, h.ids_eq, ih.ids_eq], fun outcome hm => ?_⟩
    rcases List.mem_append.mp hm with hm | hm
    · exact h.none_failed outcome hm
    · exact ih.none_failed outcome hm

/-- The suite of a file that was loaded and evaluated in an update. -/
def IsUpdated (filter : Option String) (file : CaseFile) (result : EvaluatedSuite) : Prop :=
  ∃ suite, loadFile file = .ok suite ∧ evaluateSuite filter true suite = .ok result

theorem IsUpdated.place_eq {file : CaseFile} {result : EvaluatedSuite}
    (h : IsUpdated filter file result) : result.suite.place = file.place := by
  obtain ⟨suite, hl, he⟩ := h
  obtain ⟨text, cases, -, -, rfl⟩ := loadFile_eq_ok.mp hl
  obtain ⟨results, -, rfl⟩ := evaluateSuite_eq_ok.mp he
  rfl

theorem IsUpdated.exists_unchanged {file : CaseFile} {result : EvaluatedSuite}
    (h : IsUpdated filter file result) (hc : result.isChanged = false) :
    ∃ other, loadFile file = .ok other ∧
      List.Forall₂ Case.ReadsAs result.suite.cases other.cases := by
  obtain ⟨suite, hl, he⟩ := h
  refine ⟨suite, hl, ?_⟩
  rw [suite_eq_of_not_changed he hc]
  exact List.forall₂_same.mpr fun c _ => .refl c

theorem IsUpdated.exists_rewritten {file : CaseFile} {result : EvaluatedSuite}
    (h : IsUpdated filter file result) (hs : ∀ c ∈ result.suite.cases, c.IsStorable) :
    ∃ other, loadFile { file with content := .text (casesText result.suite.cases) } = .ok other ∧
      List.Forall₂ Case.ReadsAs result.suite.cases other.cases := by
  obtain ⟨suite, hl, he⟩ := h
  obtain ⟨text, cases, -, hp, rfl⟩ := loadFile_eq_ok.mp hl
  obtain ⟨results, hf, rfl⟩ := evaluateSuite_eq_ok.mp he
  obtain ⟨hn, hread⟩ := wasRead_of_parseCases hp
  have hw : ∀ c ∈ results.map Evaluated.result,
      c.IsWritable ∧ c.suite = suiteName file.names := by
    intro c hm
    obtain ⟨result, hr, rfl⟩ := List.mem_map.mp hm
    obtain ⟨before, hb, hcase⟩ := exists_left_of_forall₂ hf hr
    obtain ⟨hwas, hd⟩ := hread before hb
    have hrev := revises_of_evaluateCase hcase
    refine ⟨hwas.isWritable hd hrev (hs _ hm), ?_⟩
    rw [hrev.frame]
    exact hwas.suite_eq
  have hne : results.map Evaluated.result ≠ [] := by
    intro he
    have hl := hf.length_eq
    rw [List.map_eq_nil_iff.mp he] at hl
    exact hn (List.eq_nil_of_length_eq_zero hl)
  obtain ⟨reread, hparse, hreads⟩ := Case.parseCases_written hne hw
  exact ⟨_, loadFile_eq_ok.mpr ⟨_, reread, rfl, hparse, rfl⟩, hreads⟩

theorem mem_changed {suite : Suite} :
    suite ∈ changed evaluated ↔
      ∃ result ∈ evaluated, result.isChanged = true ∧ result.suite = suite := by
  simp [changed, and_assoc]

theorem map_place_of_isUpdated {files : List CaseFile}
    (h : List.Forall₂ (IsUpdated filter) files evaluated) :
    evaluated.map (fun result => result.suite.place) = files.map CaseFile.place := by
  induction h with
  | nil => rfl
  | cons h _ ih => rw [List.map_cons, List.map_cons, h.place_eq, ih]

theorem exists_reloaded {files : List CaseFile}
    (h : List.Forall₂ (IsUpdated filter) files evaluated)
    (hn : (files.map CaseFile.place).Nodup)
    (hs : ∀ result ∈ evaluated, result.isChanged = true →
      ∀ c ∈ result.suite.cases, c.IsStorable) :
    ∃ reloaded, List.Forall₂ (fun file suite =>
        loadFile ((changed evaluated).foldl CaseFile.rewritten file) = .ok suite) files reloaded ∧
      List.Forall₂ (fun result suite =>
        List.Forall₂ Case.ReadsAs result.suite.cases suite.cases) evaluated reloaded := by
  have hplaces : (evaluated.map fun result => result.suite.place).Nodup := by
    rw [map_place_of_isUpdated h]
    exact hn
  refine exists_forall₂_of_forall₂ h fun file _ result hm hu => ?_
  cases hc : result.isChanged with
  | true =>
    have hw : result.suite ∈ changed evaluated := mem_changed.mpr ⟨result, hm, hc, rfl⟩
    have hd : ((changed evaluated).map Suite.place).Nodup := by
      rw [changed, List.map_map]
      exact hplaces.sublist (List.filter_sublist.map _)
    rw [foldl_rewritten_of_mem hd hw hu.place_eq]
    exact hu.exists_rewritten (hs result hm hc)
  | false =>
    have hw : ∀ suite ∈ changed evaluated, suite.place ≠ file.place := by
      intro suite hsuite he
      obtain ⟨other, ho, hchanged, rfl⟩ := mem_changed.mp hsuite
      rw [← hu.place_eq] at he
      rw [List.inj_on_of_nodup_map hplaces ho hm he, hc] at hchanged
      cases hchanged
    rw [foldl_rewritten_of_ne hw]
    exact hu.exists_unchanged hc

/-- An update that was written is an update that holds: what is loaded from the written tree comes to
the same cases, and none of them fails. -/
theorem reload_settled (ht : tree.IsSound) (hl : load tree root = .ok suites)
    (he : evaluate filter true suites = .ok evaluated)
    (hw : writeUpdates evaluated tree = .ok after)
    (hs : ∀ result ∈ evaluated, result.isChanged = true →
      ∀ c ∈ result.suite.cases, c.IsStorable) :
    ∃ reloaded again, load after root = .ok reloaded ∧
      evaluate filter false reloaded = .ok again ∧
      AllSettled (evaluated.flatMap EvaluatedSuite.outcomes)
        (again.flatMap EvaluatedSuite.outcomes) := by
  obtain ⟨place, hlocate, hitem, hfiles⟩ := load_eq_ok.mp hl
  obtain ⟨hresults, chosen, hchosen, hsome⟩ := evaluate_eq_ok.mp he
  have hupdated : List.Forall₂ (IsUpdated filter) (caseFiles tree place) evaluated :=
    forall₂_through hfiles hresults
  have hown : ∀ suite ∈ changed evaluated, HasFile tree suite := by
    intro suite hm
    obtain ⟨result, hr, -, rfl⟩ := mem_changed.mp hm
    obtain ⟨file, hf, hu⟩ := exists_left_of_forall₂ hupdated hr
    obtain ⟨hn, hentry⟩ := mem_caseFiles hf
    rw [HasFile, hu.place_eq]
    exact ⟨hn, _, hentry⟩
  have hwrote : Wrote (changed evaluated) tree after := wrote_foldlM ht hown hw
  obtain ⟨reloaded, hload, hreads⟩ := exists_reloaded hupdated (nodup_places ht place) hs
  obtain ⟨again, hagain, hsettled⟩ := exists_forall₂_of_forall₂
    (S := fun suite result => evaluateSuite filter false suite = .ok result)
    (T := fun first second : EvaluatedSuite => AllSettled first.outcomes second.outcomes)
    hreads.flip fun suite _ result hr hread => by
      obtain ⟨before, -, hbefore⟩ := exists_left_of_forall₂ hresults hr
      exact exists_allSettled hbefore hread
  refine ⟨reloaded, again, ?_, ?_, allSettled_flatMap hsettled⟩
  · refine load_eq_ok.mpr ⟨place, hwrote.same.locate_ok hlocate, hwrote.present place hitem, ?_⟩
    rw [hwrote.caseFiles, List.forall₂_map_left_iff]
    exact hload
  · refine evaluate_eq_ok.mpr ⟨hagain, ?_⟩
    obtain ⟨second, hm, hids⟩ := exists_left_of_forall₂ hsettled.flip hchosen
    refine ⟨second, hm, fun hn => hsome ?_⟩
    have hi := hids.ids_eq
    rw [hn] at hi
    exact List.map_eq_nil_iff.mp hi.symm

end Corpora

section OneStep

/-- What stands before the identifier in the text of a document with one step. -/
def stepOpening : List Char :=
  ['<', 's', '>', '<', 'm', 'o', 'd', 'u', 'l', 'e', 's', '>', '<', 'p', 'l', 'a', 'y', '>', '<',
    'm', 'o', 'd', 'u', 'l', 'e', 'I', 'd', '>']

/-- What stands behind it. -/
def stepClosing : List Char :=
  ['<', '/', 'm', 'o', 'd', 'u', 'l', 'e', 'I', 'd', '>', '<', '/', 'p', 'l', 'a', 'y', '>', '<',
    '/', 'm', 'o', 'd', 'u', 'l', 'e', 's', '>', '<', '/', 's', '>', '\n']

def stepText (id : String) : String :=
  String.ofList (stepOpening ++ id.toList ++ stepClosing)

def stepDocument (id : String) : Xml.Document :=
  ⟨"s", [.element "modules" [.element "play" [.element "moduleId" [.text id]]]]⟩

def stepCase (id value : String) : Case :=
  { suite := "a", name := "x", args := [], documents := [⟨"m.xml", stepText id⟩]
    expectations := [⟨"modules", value⟩], comments := [] }

def stepSuite (id value : String) : Suite :=
  { place := ["c", "a.ivrflow"], name := "a", cases := [stepCase id value] }

def stepUpdated (id value : String) : EvaluatedSuite :=
  { suite := { stepSuite id value with isDirty := true }, outcomes := [⟨"a::x", .updated⟩] }

def treeOf (text : String) : FileTree :=
  { home := [], items := [(["c"], .directory), (["c", "a.ivrflow"], .file (.text text))] }

def stepTree (id value : String) : FileTree :=
  treeOf (casesText [stepCase id value])

/-- The suite is loaded with nothing expected, updated to a value, and written. -/
structure IsBlessed (id value : String) : Prop where
  sound : (stepTree id "").IsSound
  loaded : load (stepTree id "") "c" = .ok [stepSuite id ""]
  evaluated : evaluate none true [stepSuite id ""] = .ok [stepUpdated id value]
  written : writeUpdates [stepUpdated id value] (stepTree id "") = .ok (stepTree id value)

variable {id inner value after text : String} {update : Bool} {verdict : Verdict}
  {modules : List Module}

theorem isSound_treeOf (text : String) : (treeOf text).IsSound where
  once := by
    change [["c"], ["c", "a.ivrflow"]].Nodup
    decide
  names := by
    change ∀ place ∈ [["c"], ["c", "a.ivrflow"]], ∀ name ∈ place, Path.IsName name
    decide
  home := by
    change ∀ name ∈ [], Path.IsName name
    decide

theorem load_treeOf (text : String) :
    load (treeOf text) "c" =
      (loadFile ⟨["c", "a.ivrflow"], ["a.ivrflow"], .text text⟩).map fun suite => [suite] := by
  have hl : (treeOf text).locate "c" = .ok ["c"] := rfl
  have hi : (treeOf text).item? ["c"] = some .directory := rfl
  have hf : caseFiles (treeOf text) ["c"] =
      [⟨["c", "a.ivrflow"], ["a.ivrflow"], .text text⟩] := List.mergeSort_singleton _
  rw [load, hl]
  dsimp only
  rw [hi, hf]
  dsimp only
  rw [List.mapM_cons, List.mapM_nil]
  cases loadFile ⟨["c", "a.ivrflow"], ["a.ivrflow"], .text text⟩ <;> rfl

theorem load_treeOf_of_parsed {cases : List Case} (hp : parseCases "a" text = .ok cases) :
    load (treeOf text) "c" = .ok [⟨["c", "a.ivrflow"], "a", cases, false⟩] := by
  have hn : suiteName ["a.ivrflow"] = "a" := by decide
  rw [load_treeOf, loadFile, hn]
  dsimp only
  rw [hp]
  rfl

theorem load_treeOf_of_refused {fault : TextFault} (hp : parseCases "a" text = .error fault) :
    load (treeOf text) "c" = .error (.badText "/c/a.ivrflow" fault) := by
  have hn : suiteName ["a.ivrflow"] = "a" := by decide
  have hf : Path.fromRoot ["c", "a.ivrflow"] = "/c/a.ivrflow" := by decide
  rw [load_treeOf, loadFile, hn, hf]
  dsimp only
  rw [hp]
  rfl

theorem map_bareLine_stepCase (id value : String) :
    (Text.lines (casesText [stepCase id value])).map bareLine =
      ((stepCase id value).lines 0).map bareLine := by
  have hlabels : ∀ part ∈ (stepCase id value).sections, '\n' ∉ part.1.label.toList := by
    refine List.forall_mem_cons.mpr ⟨?_, List.forall_mem_singleton.mpr ?_⟩
    · change '\n' ∉ "m.xml".toList
      decide
    · change '\n' ∉ "modules".toList
      decide
  have hname : "x" = slug "x" := by decide
  have hl := (stepCase id value).newline_not_mem_lines ⟨"x", hname⟩
    (fun comment hm => absurd hm List.not_mem_nil) hlabels (fun arg hm => absurd hm List.not_mem_nil)
  exact map_bareLine_casesText (List.cons_ne_nil _ _)
    (List.forall_mem_singleton.mpr (List.cons_ne_nil _ _)) (List.forall_mem_singleton.mpr hl)

theorem parseCases_stepCase (hr : (stepCase id value).Readable)
    (he : (stepCase id value).restored "a" 0 = stepCase id value) :
    parseCases "a" (casesText [stepCase id value]) = .ok [stepCase id value] := by
  have hp : parseCases "a" (casesText [stepCase id value]) =
      .ok ([(stepCase id value, 0)].map fun entry => entry.1.restored "a" entry.2) := by
    refine parseCases_of_lines "a" (List.cons_ne_nil _ _) (List.forall_mem_singleton.mpr hr) ?_
    rw [map_bareLine_stepCase, List.flatMap_singleton]
  rw [hp, List.map_singleton, he]

theorem yieldOfAll_stepCase
    (hp : Xml.Document.ofChars (stepOpening ++ id.toList ++ stepClosing) =
      .ok (stepDocument inner))
    (hm : Extraction.modules (.ofDocument (stepDocument inner)) = .ok modules) :
    yieldOfAll none .modules (stepCase id value).documents =
      allLines (modules.flatMap moduleLines) := by
  have ht : (Text.dropMarks (stepText id)).toList = stepOpening ++ id.toList ++ stepClosing := by
    rw [Text.dropMarks, stepText, String.toList_ofList, String.toList_ofList]
    rfl
  have hc : Compilation.ofText (stepText id) = .ok (.ofModules modules) := by
    unfold Compilation.ofText Xml.Document.parse
    dsimp only
    rw [ht, hp]
    change Compilation.ofDocument (stepDocument inner) = _
    rw [Compilation.ofDocument, hm]
    rfl
  have hy : yieldOfDocument none .modules ⟨"m.xml", stepText id⟩ =
      allLines (modules.flatMap moduleLines) := by
    unfold yieldOfDocument
    rw [hc]
    rfl
  change String.join ["" ++ yieldOfDocument none .modules ⟨"m.xml", stepText id⟩] = _
  rw [hy]
  simp

theorem comparisons_stepCase
    (hy : yieldOfAll none .modules (stepCase id value).documents = after) :
    (stepCase id value).comparisons = .ok [⟨⟨"modules", value⟩, after⟩] := by
  refine Case.comparisons_eq_ok.mpr ⟨none, rfl, .cons ⟨.modules, rfl, ?_⟩ .nil⟩
  rw [hy]

theorem evaluate_stepSuite (h : (stepCase id value).ComesTo update verdict (stepCase id after)) :
    evaluate none update [stepSuite id value] =
      .ok [⟨{ stepSuite id after with isDirty := verdict = .updated }, [⟨"a::x", verdict⟩]⟩] := by
  refine evaluate_eq_ok.mpr ⟨.cons ?_ .nil, _, List.mem_cons_self, List.cons_ne_nil _ _⟩
  refine evaluateSuite_eq_ok.mpr
    ⟨[⟨stepCase id after, verdict = .updated, some ⟨"a::x", verdict⟩⟩],
      .cons (evaluateCase_eq_ok.mpr (.inl ⟨rfl, verdict, h, rfl, rfl⟩)) .nil, ?_⟩
  simp [stepSuite]

theorem comesTo_stepUpdated (hy : yieldOfAll none .modules (stepCase id "").documents = value)
    (hd : normal "" ≠ normal value) (ht : terminated value = value) :
    (stepCase id "").ComesTo true .updated (stepCase id value) := by
  have hm : Comparison.isMet ⟨⟨"modules", ""⟩, value⟩ = false := decide_eq_false hd
  have hu : (stepCase id "").ComesTo true .updated _ :=
    .updated (List.cons_ne_nil _ _) (comparisons_stepCase hy) List.mem_cons_self hm
  simp only [List.map_cons, List.map_nil, Comparison.updated, hm, ht] at hu
  exact hu

theorem evaluate_stepUpdated (hy : yieldOfAll none .modules (stepCase id "").documents = value)
    (hd : normal "" ≠ normal value) (ht : terminated value = value) :
    evaluate none true [stepSuite id ""] = .ok [stepUpdated id value] :=
  evaluate_stepSuite (comesTo_stepUpdated hy hd ht)

theorem writeUpdates_stepUpdated (id value text : String) :
    writeUpdates [stepUpdated id value] (treeOf text) = .ok (stepTree id value) := by
  have hp : Path.fromRoot ["c", "a.ivrflow"] = "/c/a.ivrflow" := by decide
  have hw : (treeOf text).writeText "/c/a.ivrflow" (casesText [stepCase id value]) =
      .ok (stepTree id value) := rfl
  have hs : writeSuite (treeOf text) (stepSuite id value) = .ok (stepTree id value) := by
    rw [writeSuite, stepSuite, hp, hw]
    rfl
  have hc : (stepUpdated id value).isChanged = true := rfl
  rw [writeUpdates, List.filter_cons_of_pos hc]
  change [stepSuite id value].foldlM writeSuite (treeOf text) = _
  rw [List.foldlM_cons, hs]
  rfl

theorem isBlessed_of_yield (hr : (stepCase id "").Readable)
    (he : (stepCase id "").restored "a" 0 = stepCase id "")
    (hy : yieldOfAll none .modules (stepCase id "").documents = value)
    (hd : normal "" ≠ normal value) (ht : terminated value = value) : IsBlessed id value where
  sound := isSound_treeOf _
  loaded := load_treeOf_of_parsed (parseCases_stepCase hr he)
  evaluated := evaluate_stepUpdated hy hd ht
  written := writeUpdates_stepUpdated id value _

theorem yieldOfAll_plain :
    yieldOfAll none .modules (stepCase "A" "").documents = "A play \"play\"\n" := by
  have hp : Xml.Document.ofChars (stepOpening ++ "A".toList ++ stepClosing) =
      .ok (stepDocument "A") :=
    eq_ok_of_toOption (by decide +kernel)
  have hm : Extraction.modules (.ofDocument (stepDocument "A")) =
      .ok [⟨"A", .play, "play", ⟨none, none, [], []⟩⟩] := rfl
  rw [yieldOfAll_stepCase hp hm]
  decide +kernel

theorem reload_settled_step :
    let tree := stepTree "A" ""
    let suites := [stepSuite "A" ""]
    let evaluated := [stepUpdated "A" "A play \"play\"\n"]
    let after := stepTree "A" "A play \"play\"\n"
    tree.IsSound ∧ load tree "c" = .ok suites ∧ evaluate none true suites = .ok evaluated ∧
      writeUpdates evaluated tree = .ok after ∧
      (∀ result ∈ evaluated, result.isChanged = true → ∀ c ∈ result.suite.cases, c.IsStorable) ∧
      ∃ reloaded again, load after "c" = .ok reloaded ∧
        evaluate none false reloaded = .ok again ∧
        AllSettled (evaluated.flatMap EvaluatedSuite.outcomes)
          (again.flatMap EvaluatedSuite.outcomes) := by
  intro tree suites evaluated after
  obtain ⟨ht, hl, he, hw⟩ : IsBlessed "A" "A play \"play\"\n" :=
    isBlessed_of_yield (by decide +kernel) (by decide +kernel) yieldOfAll_plain (by decide +kernel)
      (by decide +kernel)
  have hs : ∀ result ∈ evaluated, result.isChanged = true →
      ∀ c ∈ result.suite.cases, c.IsStorable := by
    decide +kernel
  exact ⟨ht, hl, he, hw, hs, reload_settled ht hl he hw hs⟩

theorem yieldOfAll_comment :
    yieldOfAll none .modules (stepCase "$//A" "").documents = "$//A play \"play\"\n" := by
  have hp : Xml.Document.ofChars (stepOpening ++ "$//A".toList ++ stepClosing) =
      .ok (stepDocument "$//A") :=
    eq_ok_of_toOption (by decide +kernel)
  have hm : Extraction.modules (.ofDocument (stepDocument "$//A")) =
      .ok [⟨"$//A", .play, "play", ⟨none, none, [], []⟩⟩] := rfl
  rw [yieldOfAll_stepCase hp hm]
  decide +kernel

theorem parseCases_comment :
    parseCases "a" (casesText [stepCase "$//A" "$//A play \"play\"\n"]) =
      .ok [stepCase "$//A" ""] := by
  have hmark : ∀ comment ∈ ["$//A play \"play\""], isComment comment = true := by decide +kernel
  have hlines : (stepCase "$//A" "$//A play \"play\"\n").lines 0 =
      (stepCase "$//A" "").lines 0 ++ ["$//A play \"play\""] := by
    decide +kernel
  rw [← parseCases_stepCase (by decide +kernel) (by decide +kernel)]
  refine parseCases_of_comments "a" hmark (by decide +kernel) (map_bareLine_stepCase _ _) ?_
  rw [map_bareLine_stepCase, hlines]

theorem yieldOfAll_banner :
    yieldOfAll none .modules (stepCase "A&#10;=====&#10;B" "").documents =
      "A\n=====\nB play \"play\"\n" := by
  have hp : Xml.Document.ofChars (stepOpening ++ "A&#10;=====&#10;B".toList ++ stepClosing) =
      .ok (stepDocument "A\n=====\nB") :=
    eq_ok_of_toOption (by decide +kernel)
  have hm : Extraction.modules (.ofDocument (stepDocument "A\n=====\nB")) =
      .ok [⟨"A\n=====\nB", .play, "play", ⟨none, none, [], []⟩⟩] := rfl
  rw [yieldOfAll_stepCase hp hm]
  decide +kernel

theorem parseCases_banner :
    parseCases "a" (casesText [stepCase "A&#10;=====&#10;B" "A\n=====\nB play \"play\"\n"]) =
      .error .unclosedBanner := by
  have hname : Reader.reads "a" .start [banner, slug "x", banner, ""] = _ :=
    Reader.reads_name rfl "x"
  have hlines : (stepCase "A&#10;=====&#10;B" "A\n=====\nB play \"play\"\n").lines 0 =
      [banner, slug "x", banner, ""] ++
        ["--- file: m.xml ---", opened (stepText "A&#10;=====&#10;B"), "",
          "--- expect:modules ---", "A", "=====", "B play \"play\""] := by
    decide +kernel
  rw [parseCases, map_bareLine_stepCase, hlines]
  change (do checkCases (← (← Reader.reads "a" .start _).finish)) = _
  rw [Reader.reads_append hname]
  decide +kernel

/-- What is written as a comment is no part of the value, and the case fails as if it had not been
updated. What is written as a banner makes the file unreadable. -/
theorem reload_unsettled :
    (IsBlessed "$//A" "$//A play \"play\"\n" ∧
      load (stepTree "$//A" "$//A play \"play\"\n") "c" = .ok [stepSuite "$//A" ""] ∧
      ∃ again listings, evaluate none false [stepSuite "$//A" ""] = .ok again ∧
        again.flatMap EvaluatedSuite.outcomes = [⟨"a::x", .failed listings⟩]) ∧
    IsBlessed "A&#10;=====&#10;B" "A\n=====\nB play \"play\"\n" ∧
      load (stepTree "A&#10;=====&#10;B" "A\n=====\nB play \"play\"\n") "c" =
        .error (.badText "/c/a.ivrflow" .unclosedBanner) := by
  have hd : normal "" ≠ normal "$//A play \"play\"\n" := by decide +kernel
  have hm : Comparison.isMet ⟨⟨"modules", ""⟩, "$//A play \"play\"\n"⟩ = false :=
    decide_eq_false hd
  have hf : (stepCase "$//A" "").ComesTo false (.failed _) (stepCase "$//A" "") :=
    .failed (List.cons_ne_nil _ _) (comparisons_stepCase yieldOfAll_comment) List.mem_cons_self hm
  refine ⟨⟨?_, load_treeOf_of_parsed parseCases_comment, _, _, evaluate_stepSuite hf, rfl⟩, ?_,
    load_treeOf_of_refused parseCases_banner⟩
  · exact isBlessed_of_yield (by decide +kernel) (by decide +kernel) yieldOfAll_comment hd
      (by decide +kernel)
  · exact isBlessed_of_yield (by decide +kernel) (by decide +kernel) yieldOfAll_banner
      (by decide +kernel) (by decide +kernel)

end OneStep

end CallFlow.Corpus
