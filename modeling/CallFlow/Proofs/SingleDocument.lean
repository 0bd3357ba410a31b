import CallFlow.Proofs.Isolation

namespace CallFlow

namespace Job

variable {order : Order} {job : Job} {graph : Graph} {pending : List OutputFormat} {layout : Layout}

/-- Once a document is loaded, a layout is asked for its drawing and for nothing else. -/
theorem run_congr_of_drawing (hd : job.progress = .drawing graph pending)
    (hl : layout (graph.draw .dot order.annotate) = order.layout (graph.draw .dot order.annotate))
    (count : Nat) (tree : FileTree) :
    run { order with layout } count job tree = run order count job tree := by
  have produced : ∀ tree format, ({ order with layout } : Order).produce graph tree format =
      order.produce graph tree format := by
    intro tree format
    cases format with
    | text format => rfl
    | svg => exact congrFun hl tree
  induction count generalizing job pending tree with
  | zero => rfl
  | succ count ih =>
    cases pending with
    | nil =>
      rw [run, run, step_completed hd, step_completed hd, run_finished rfl, run_finished rfl]
    | cons format pending =>
      rcases hp : order.produce graph tree format with ⟨result, made⟩
      have hp' := (produced tree format).trans hp
      cases result with
      | error failure =>
        rw [run, run, step_unmade hd hp, step_unmade hd hp', run_finished rfl, run_finished rfl]
      | ok content =>
        cases hw : order.write made job.stem format content with
        | error failure =>
          rw [run, run, step_unwritten hd hp hw, step_unwritten hd hp' hw, run_finished rfl,
            run_finished rfl]
        | ok result =>
          obtain ⟨artifact, written⟩ := result
          obtain ⟨rfl, -⟩ := Order.write_eq_ok hw
          rw [run, run, step_written hd hp hw, step_written hd hp' hw]
          exact ih rfl written

theorem run_congr_of_start {source stem : String} {tree : FileTree}
    (hl : ∀ graph, Source.load tree source = .ok graph →
      layout (graph.draw .dot order.annotate) = order.layout (graph.draw .dot order.annotate))
    (count : Nat) :
    run { order with layout } count (.start source stem) tree =
      run order count (.start source stem) tree := by
  have hw : (Job.start source stem).progress = .waiting := rfl
  cases count with
  | zero => rfl
  | succ count =>
    cases hg : Source.load tree source with
    | error staged =>
      rw [run, run, step_unread hw hg, step_unread hw hg, run_finished rfl, run_finished rfl]
    | ok graph =>
      rw [run, run, step_opened hw hg, step_opened hw hg]
      exact run_congr_of_drawing rfl (hl graph hg) count tree

end Job

namespace Batch

/-- One document is processed alike in either way. -/
theorem schedule_one (order : Order) (parallel : Bool) :
    schedule order parallel 1 = List.replicate (Job.stepsOf order) 0 := by
  cases parallel with
  | false => simp [schedule, sequential]
  | true => simp [schedule, alternating]

end Batch

namespace Source

variable {tree prepared : FileTree} {source : String} {graph : Graph} {staged : StagedFailure}

theorem readText_ne_notFound (h : load tree source = .ok graph) :
    tree.readText source ≠ .error .notFound := by
  intro hn
  simp only [load, read, hn] at h
  cases h

/-- A document loads alike when there are more directories, unless these are what makes its path
lead somewhere. -/
theorem load_of_grows (hg : FileTree.Grows tree prepared)
    (h : tree.readText source = .error .notFound → prepared.readText source = .error .notFound) :
    load prepared source = load tree source := by
  refine load_congr ?_
  rcases hg.readText source with hn | he
  · rw [h hn, hn]
  · exact he

end Source

namespace Order

namespace Course

variable {order : Order} {source stem : String} {tree after : FileTree} {graph : Graph}
  {made rest : List OutputFormat} {failure : Option DocumentFailure} {format : OutputFormat}
  {draw : String → Except Failure String}

theorem of_unloaded (h : order.Course source stem tree made rest failure after)
    {staged : StagedFailure} (hl : Source.load tree source = .error staged) :
    failure = some (.of staged.stage staged.failure) := by
  cases h with
  | unread read =>
    obtain rfl := Except.error.inj ((Source.load_unread read).symm.trans hl)
    rfl
  | uncompiled read compile =>
    obtain rfl := Except.error.inj ((Source.load_uncompiled read compile).symm.trans hl)
    rfl
  | drawn read compile plan writes stops => cases (Source.load_compiled read compile).symm.trans hl

/-- Where every file can be written, what can be made is in its file at the end: texts come first,
and if one picture can be made all of them can. -/
theorem written_of_produced (h : order.Course source stem tree made rest failure after)
    (hd : order.layout = Layout.ofFunction draw)
    (hw : ∀ stopped, failure = some stopped → stopped.stage ≠ .write)
    (hl : Source.load tree source = .ok graph) (hf : format ∈ order.formats) {other : FileTree}
    {text : String} (hm : (order.produce graph other format).1 = .ok text) :
    format ∈ made ∧ after.readText (order.artifactPath stem format) = .ok text := by
  have hmade : format ∈ made := by
    obtain ⟨produced, hp⟩ := order.exists_produce hd graph format
    obtain rfl : produced = .ok text := by rw [← hm, hp]
    obtain ⟨between, -, stops⟩ := h.of_loaded hl
    have hplan := mem_plan.mpr hf
    rw [h.plan_eq, List.mem_append] at hplan
    rcases hplan with hmade | hrest
    · exact hmade
    · cases stops with
      | complete tree => cases hrest
      | unwritten make write => exact absurd rfl (hw _ rfl)
      | unmade make =>
        cases format with
        | svg => cases (hp _).symm.trans make
        | text format =>
          obtain ⟨pictures, rfl⟩ := exists_pictures h.plan_eq rfl
          exact List.mem_append_left _ (List.mem_filter.mpr ⟨hf, rfl⟩)
  obtain ⟨graph', content, hg, hp, ht⟩ := h.exists_content hd hmade
  obtain rfl := Except.ok.inj (hl.symm.trans hg)
  rw [hp] at hm
  obtain rfl : content = text := Except.ok.inj hm
  exact ⟨hmade, ht⟩

theorem stopped_of_unproduced (h : order.Course source stem tree made rest failure after)
    (hd : order.layout = Layout.ofFunction draw)
    (hw : ∀ stopped, failure = some stopped → stopped.stage ≠ .write)
    (hl : Source.load tree source = .ok graph) (hf : format ∈ order.formats) {other : FileTree}
    {fault : Failure} (hm : (order.produce graph other format).1 = .error fault) :
    ∃ stopped, failure = some stopped ∧ stopped.kind = fault.kind.name := by
  obtain ⟨produced, hp⟩ := order.exists_produce hd graph format
  obtain rfl : produced = .error fault := by rw [← hm, hp]
  obtain rfl := eq_svg_of_produce (hp tree)
  obtain ⟨between, writes, stops⟩ := h.of_loaded hl
  cases stops with
  | complete tree =>
    have hmade : .svg ∈ made := by
      rw [← List.append_nil made, ← h.plan_eq]
      exact mem_plan.mpr hf
    obtain ⟨graph', content, hg, hp', -⟩ := h.exists_content hd hmade
    obtain rfl := Except.ok.inj (hl.symm.trans hg)
    cases (hp other).symm.trans (hp' other)
  | unwritten make write => exact absurd rfl (hw _ rfl)
  | @unmade pending fault' tree after make =>
    have same := congrArg Prod.fst ((hp between).symm.trans make)
    obtain rfl : fault = fault' := Except.error.inj same
    exact ⟨_, rfl, rfl⟩

end Course

end Order

namespace Options

variable {options : Options} {layout : Layout} {clock : Nat} {tree prepared : FileTree}
  {source : String} {graph : Graph} {format : OutputFormat}

theorem runSingle_of_loaded
    (hd : Discovery.sources tree options.files options.dirs = .ok [source])
    (hl : Source.load tree source = .ok graph) :
    options.runSingle layout format tree =
      (options.order layout).produce graph tree format := by
  simp only [runSingle, hd, drawOne, hl]

theorem runSingle_of_unloaded {staged : StagedFailure}
    (hd : Discovery.sources tree options.files options.dirs = .ok [source])
    (hl : Source.load tree source = .error staged) :
    options.runSingle layout format tree = (.error staged.failure, tree) := by
  simp only [runSingle, hd, drawOne, hl]

def stemOf (options : Options) (clock : Nat) (source : String) : String :=
  Stem.ofSource source (if options.stamp then some clock else none)

theorem process_one (hp : Batch.prepare tree options.outputDir = .ok prepared) :
    options.process layout clock [source] tree =
      let done := Job.run (options.order layout) (Job.stepsOf (options.order layout))
        (.start source (options.stemOf clock source)) prepared
      .ok { jobs := [done.1], tree := done.2 } := by
  rw [process_of_prepare hp, List.length_singleton, Batch.schedule_one]
  exact congrArg Except.ok (Batch.follow_replicate _ _ _ _)

/-- A text that is asked for alone is what the batch writes to the file of that format, and what
fails alone fails in the batch for the same kind of reason, as long as every file can be written.
That a document is not found has to be true also when the directory of the artifacts is there. In
both ways a picture is made of the very text that is drawn as DOT. -/
theorem single_agrees (options : Options) (draw : String → Except Failure String) (clock : Nat)
    (hd : Discovery.sources tree options.files options.dirs = .ok [source])
    (hp : Batch.prepare tree options.outputDir = .ok prepared) :
    let layout := Layout.ofFunction draw
    let order := options.order layout
    let stem := options.stemOf clock source
    let single := fun format => (options.runSingle layout format tree).1
    ∃ batch outcome,
      options.process layout clock [source] tree = .ok batch ∧
      batch.report.documents = [outcome] ∧
      ((∀ stopped, outcome.failure = some stopped → stopped.stage ≠ .write) →
        ∀ format ∈ options.formats,
          (∀ text, single format = .ok text →
            order.artifact stem format ∈ outcome.artifacts ∧
            batch.tree.readText (order.artifactPath stem format) = .ok text) ∧
          (∀ failure, single format = .error failure →
            (tree.readText source = .error .notFound →
              prepared.readText source = .error .notFound) →
            ∃ stopped, outcome.failure = some stopped ∧ stopped.kind = failure.kind.name)) ∧
      ∀ graph, Source.load tree source = .ok graph →
        let dot := graph.draw .dot options.annotateSource
        single (.text .dot) = .ok dot ∧ single .svg = draw dot ∧
        ∀ other, other dot = draw dot →
          options.process (.ofFunction other) clock [source] tree = .ok batch := by
  intro layout order stem single
  have hlayout : order.layout = .ofFunction draw := rfl
  have grown := FileTree.Grows.makeDirectoriesWithin (Batch.makeDirectories_of_prepare hp)
  have loaded : ∀ graph, Source.load tree source = .ok graph →
      Source.load prepared source = .ok graph := by
    intro graph hl
    rw [Source.load_of_grows grown fun hn => absurd hn (Source.readText_ne_notFound hl), hl]
  obtain ⟨made, rest, failure, course, hj⟩ :=
    Job.run_start order source stem prepared (Nat.le_refl (Job.stepsOf order))
  refine ⟨_, { source, artifacts := made.map (order.artifact stem), failure }, process_one hp, ?_,
    fun unhindered format hf => ⟨fun text hs => ?made, fun fault hs found => ?failed⟩, ?drawn⟩
  · rw [Batch.report, List.map_singleton, hj]
    rfl
  case made =>
    cases hl : Source.load tree source with
    | error staged =>
      simp only [single, runSingle_of_unloaded hd hl] at hs
      cases hs
    | ok graph =>
      simp only [single, runSingle_of_loaded hd hl] at hs
      obtain ⟨hmade, ht⟩ :=
        course.written_of_produced hlayout unhindered (loaded graph hl) hf hs
      exact ⟨List.mem_map_of_mem hmade, ht⟩
  case failed =>
    cases hl : Source.load tree source with
    | error staged =>
      simp only [single, runSingle_of_unloaded hd hl, Except.error.injEq] at hs
      have hl' := (Source.load_of_grows grown found).trans hl
      refine ⟨_, course.of_unloaded hl', ?_⟩
      rw [← hs]
      rfl
    | ok graph =>
      simp only [single, runSingle_of_loaded hd hl] at hs
      exact course.stopped_of_unproduced hlayout unhindered (loaded graph hl) hf hs
  case drawn =>
    intro graph hl dot
    refine ⟨?_, ?_, fun other ho => ?_⟩
    · simp only [single, runSingle_of_loaded hd hl]
      rfl
    · simp only [single, runSingle_of_loaded hd hl]
      rfl
    · have alike : ∀ graph', Source.load prepared source = .ok graph' →
          Layout.ofFunction other (graph'.draw .dot order.annotate) =
            order.layout (graph'.draw .dot order.annotate) := by
        intro graph' hl'
        obtain rfl := Except.ok.inj ((loaded graph hl).symm.trans hl')
        funext tree
        exact congrArg (·, tree) ho
      have same : Job.run (options.order (.ofFunction other)) (Job.stepsOf order)
          (.start source stem) prepared = Job.run order (Job.stepsOf order) (.start source stem)
            prepared := Job.run_congr_of_start alike _
      rw [process_one hp]
      exact congrArg (fun done : Job × FileTree => Except.ok (Batch.mk [done.1] done.2)) same

def oneScript (text : String) : FileTree :=
  { items := [(["w"], .directory), (["w", "a.xml"], .file (.text text))], home := ["w"] }

def drawScript : Options :=
  { files := ["a.xml"], dirs := [], formats := [.svg], outputDir := "out", stamp := false
    parallel := true, annotateSource := true, render := .default }

/-- A call flow without steps. -/
def emptyScript : String := "<s><modules/></s>"

theorem load_emptyScript :
    ∃ graph, Source.load (oneScript emptyScript) "a.xml" = .ok graph := by
  have compiled : (compile emptyScript).toOption.map (fun _ => ()) = some () := by decide +kernel
  obtain ⟨graph, hc, -⟩ := exists_eq_ok compiled
  exact ⟨_, Source.load_compiled rfl hc⟩

/-- The directory of the artifacts is made on the way, and the picture in it is the one that is
drawn alone. -/
theorem script_agrees :
    ∃ (batch : Batch) (dot : String),
      drawScript.process (.ofFunction framed) 0 ["a.xml"] (oneScript "<s><modules/></s>") =
        .ok batch ∧
      (drawScript.runSingle (.ofFunction framed) (.text .dot) (oneScript "<s><modules/></s>")).1 =
        .ok dot ∧
      batch.tree.readText ((drawScript.order (.ofFunction framed)).artifactPath "a" .svg) =
        .ok ("<svg>" ++ dot ++ "</svg>") := by
  have hp : Batch.prepare (oneScript emptyScript) drawScript.outputDir =
      .ok ((oneScript emptyScript).put ["w", "out"] .directory) := rfl
  obtain ⟨graph, hl⟩ := load_emptyScript
  obtain ⟨batch, outcome, hb, ho, agrees, drawn⟩ := single_agrees drawScript framed 0 rfl hp
  obtain ⟨dot_alone, svg_alone, -⟩ := drawn graph hl
  have unhindered : (drawScript.process (.ofFunction framed) 0 ["a.xml"]
      (oneScript emptyScript)).toOption.map (·.report.failureKinds) = some [none] := by
    decide +kernel
  rw [hb] at unhindered
  have free : ∀ stopped, outcome.failure = some stopped → stopped.stage ≠ .write := by
    intro stopped hs
    have hk : batch.report.failureKinds = [none] := Option.some.inj unhindered
    rw [Report.failureKinds, ho, List.map_singleton, hs] at hk
    cases hk
  obtain ⟨made, -⟩ := agrees free .svg List.mem_cons_self
  exact ⟨batch, _, hb, dot_alone, (made _ svg_alone).2⟩

def drawOut : Options :=
  { files := ["out"], dirs := [], formats := [.text .dot], outputDir := "out", stamp := false
    parallel := false, annotateSource := false, render := .default }

/-- A document that is not there is found as the directory that the batch has made, and where that
directory cannot be made there is no batch for a text that can be drawn alone. -/
theorem made_directory_disagrees :
    (let layout := Layout.ofFunction framed
      let tree := FileTree.empty ["w"]
      Discovery.sources tree drawOut.files drawOut.dirs = .ok ["out"] ∧
      ∃ (failure : Failure) (batch : Batch) (stopped : DocumentFailure),
        (drawOut.runSingle layout (.text .dot) tree).1 = .error failure ∧
        drawOut.process layout 0 ["out"] tree = .ok batch ∧
        batch.report.documents = [{ source := "out", artifacts := [], failure := some stopped }] ∧
        stopped.stage = .read ∧ stopped.kind ≠ failure.kind.name) ∧
    (let options := { drawScript with outputDir := "a.xml" }
      let tree := oneScript "<s><modules/></s>"
      ∃ text failure,
        (options.runSingle (.ofFunction framed) .svg tree).1 = .ok text ∧
        options.process (.ofFunction framed) 0 ["a.xml"] tree = .error failure) := by
  refine ⟨⟨rfl, _, _, _, rfl, rfl, rfl, rfl, by decide +kernel⟩, ?_⟩
  intro options tree
  obtain ⟨graph, hl⟩ := load_emptyScript
  have hp : Batch.prepare tree "a.xml" = .error _ := rfl
  have alone : (options.runSingle (.ofFunction framed) .svg tree).1 =
      framed (graph.draw .dot true) :=
    congrArg Prod.fst (runSingle_of_loaded rfl hl)
  exact ⟨_, _, alone, process_eq_error.mpr hp⟩

end Options

end CallFlow
