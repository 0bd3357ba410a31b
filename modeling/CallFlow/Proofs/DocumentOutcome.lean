import CallFlow.Proofs.ArtifactFiles

namespace CallFlow

theorem kind_of_compile {text : String} {failure : Failure} (h : compile text = .error failure) :
    failure.kind = .malformedInput ∨ failure.kind = .schemaError := by
  unfold compile Compilation.ofText Xml.Document.parse at h
  cases hp : Xml.Document.ofChars (Text.dropMarks text).toList with
  | error fault =>
    simp only [hp] at h
    obtain rfl := Except.error.inj h
    exact .inl rfl
  | ok document =>
    simp only [hp, bind, Except.bind, Compilation.ofDocument] at h
    unfold Extraction.modules at h
    split at h
    · cases h
    · obtain rfl := Except.error.inj h
      exact .inr rfl

namespace Order

def artifact (order : Order) (stem : String) (format : OutputFormat) : Artifact :=
  { format := format.name, path := order.artifactPath stem format }

/-- Only pictures can fail to be made. -/
theorem eq_svg_of_produce {order : Order} {graph : Graph} {tree after : FileTree}
    {format : OutputFormat} {failure : Failure}
    (h : order.produce graph tree format = (.error failure, after)) : format = .svg := by
  cases format with
  | text format => cases h
  | svg => rfl

theorem write_eq_ok {order : Order} {tree after : FileTree} {stem content : String}
    {format : OutputFormat} {artifact : Artifact}
    (h : order.write tree stem format content = .ok (artifact, after)) :
    artifact = order.artifact stem format ∧
      tree.writeText (order.artifactPath stem format) content = .ok after := by
  unfold write at h
  cases hw : tree.writeText (order.artifactPath stem format) content with
  | error fault =>
    simp only [hw] at h
    cases h
  | ok tree =>
    simp only [hw] at h
    cases h
    exact ⟨rfl, rfl⟩

/-- Artifacts are made and written in turn. -/
inductive Writes (order : Order) (graph : Graph) (stem : String) :
    List OutputFormat → FileTree → FileTree → Prop where
  | nil (tree : FileTree) : Writes order graph stem [] tree tree
  | cons {format : OutputFormat} {formats : List OutputFormat} {content : String}
      {artifact : Artifact} {tree made written after : FileTree}
      (make : order.produce graph tree format = (.ok content, made))
      (write : order.write made stem format content = .ok (artifact, written))
      (rest : Writes order graph stem formats written after) :
      Writes order graph stem (format :: formats) tree after

/-- The work on pending artifacts ends: because there are none, or because the first of them cannot
be made or cannot be written. -/
inductive Stops (order : Order) (graph : Graph) (source stem : String) :
    List OutputFormat → FileTree → Option DocumentFailure → FileTree → Prop where
  | complete (tree : FileTree) : Stops order graph source stem [] tree none tree
  | unmade {pending : List OutputFormat} {failure : Failure} {tree after : FileTree}
      (make : order.produce graph tree .svg = (.error failure, after)) :
      Stops order graph source stem (.svg :: pending) tree
        (some (.of .render (failure.withContext "document" source))) after
  | unwritten {format : OutputFormat} {pending : List OutputFormat} {content : String}
      {failure : Failure} {tree after : FileTree}
      (make : order.produce graph tree format = (.ok content, after))
      (write : order.write after stem format content = .error failure) :
      Stops order graph source stem (format :: pending) tree (some (.of .write failure)) after

end Order

namespace Job

variable {order : Order} {job : Job} {graph : Graph} {tree after written : FileTree}
  {format : OutputFormat} {pending : List OutputFormat} {content : String} {failure : Failure}

section Step

theorem step_unread {staged : StagedFailure} (h : job.progress = .waiting)
    (hl : Source.load tree job.source = .error staged) :
    job.step order tree = (job.stop staged, tree) := by
  simp only [step, h, hl]

theorem step_opened (h : job.progress = .waiting) (hl : Source.load tree job.source = .ok graph) :
    job.step order tree = ({ job with progress := .drawing graph order.plan }, tree) := by
  simp only [step, h, hl]

theorem step_completed (h : job.progress = .drawing graph []) :
    job.step order tree = ({ job with progress := .finished none }, tree) := by
  simp only [step, h]

/-- Only a picture can fail to be made, and this is the failure of the layout. -/
theorem step_unmade (h : job.progress = .drawing graph (format :: pending))
    (hp : order.produce graph tree format = (.error failure, after)) :
    job.step order tree = (job.stop ⟨.render, failure.withContext "document" job.source⟩, after) := by
  obtain rfl := Order.eq_svg_of_produce hp
  simp only [step, h, makeArtifact, hp]
  rfl

theorem step_unwritten (h : job.progress = .drawing graph (format :: pending))
    (hp : order.produce graph tree format = (.ok content, after))
    (hw : order.write after job.stem format content = .error failure) :
    job.step order tree = (job.stop ⟨.write, failure⟩, after) := by
  simp only [step, h, makeArtifact, hp, hw]

theorem step_written (h : job.progress = .drawing graph (format :: pending))
    (hp : order.produce graph tree format = (.ok content, after))
    (hw : order.write after job.stem format content =
      .ok (order.artifact job.stem format, written)) :
    job.step order tree =
      ({ job with
          written := job.written ++ [order.artifact job.stem format]
          progress := .drawing graph pending }, written) := by
  simp only [step, h, makeArtifact, hp, hw]

theorem step_finished {failure : Option DocumentFailure} (h : job.progress = .finished failure) :
    job.step order tree = (job, tree) := by
  simp only [step, h]

end Step

/-- Takes some steps. -/
def run (order : Order) : Nat → Job → FileTree → Job × FileTree
  | 0, job, tree => (job, tree)
  | count + 1, job, tree => run order count (job.step order tree).1 (job.step order tree).2

theorem run_finished {failure : Option DocumentFailure} (h : job.progress = .finished failure)
    (count : Nat) (tree : FileTree) : run order count job tree = (job, tree) := by
  induction count with
  | zero => rfl
  | succ count ih => rw [run, step_finished h, ih]

/-- From the first pending artifact on, the rest of the plan is carried out as far as it goes. -/
theorem run_drawing (order : Order) (tree : FileTree) (h : job.progress = .drawing graph pending)
    {count : Nat} (hc : pending.length < count) :
    ∃ made rest between failure, pending = made ++ rest ∧
      order.Writes graph job.stem made tree between ∧
      order.Stops graph job.source job.stem rest between failure (run order count job tree).2 ∧
      (run order count job tree).1 =
        { job with
          written := job.written ++ made.map (order.artifact job.stem)
          progress := .finished failure } := by
  induction pending generalizing count job tree with
  | nil =>
    cases count with
    | zero => cases hc
    | succ count =>
      refine ⟨[], [], tree, none, rfl, .nil tree, ?_⟩
      rw [run, step_completed h, run_finished rfl, List.map_nil, List.append_nil]
      exact ⟨.complete tree, rfl⟩
  | cons format pending ih =>
    cases count with
    | zero => cases hc
    | succ count =>
      rcases hp : order.produce graph tree format with ⟨produced, made⟩
      cases produced with
      | error failure =>
        obtain rfl := Order.eq_svg_of_produce hp
        rw [run, step_unmade h hp, run_finished rfl]
        exact ⟨[], .svg :: pending, tree, _, rfl, .nil tree, .unmade hp, by simp [stop]⟩
      | ok content =>
        cases hw : order.write made job.stem format content with
        | error failure =>
          rw [run, step_unwritten h hp hw, run_finished rfl]
          exact ⟨[], format :: pending, tree, _, rfl, .nil tree, .unwritten hp hw, by simp [stop]⟩
        | ok result =>
          obtain ⟨artifact, written⟩ := result
          obtain ⟨rfl, -⟩ := Order.write_eq_ok hw
          rw [run, step_written h hp hw]
          have hd : ({ job with
              written := job.written ++ [order.artifact job.stem format]
              progress := .drawing graph pending } : Job).progress = .drawing graph pending := rfl
          obtain ⟨done, rest, between, failure, rfl, hs, he, hj⟩ :=
            ih written hd (Nat.lt_of_succ_lt_succ hc)
          refine ⟨format :: done, rest, between, failure, rfl, .cons hp hw hs, he, ?_⟩
          rw [hj, List.map_cons, List.append_assoc, List.singleton_append]

end Job

namespace Source

variable {tree : FileTree} {source text : String} {failure : Failure} {graph : Graph}

theorem load_congr {other : FileTree} (h : other.readText source = tree.readText source) :
    load other source = load tree source := by
  simp only [load, read, h]

theorem load_unread (h : read tree source = .error failure) :
    load tree source = .error ⟨.read, failure⟩ := by
  rw [load, h]
  rfl

theorem load_uncompiled (h : read tree source = .ok text) (hc : compile text = .error failure) :
    load tree source = .error ⟨.compile, failure.withContext "document" source⟩ := by
  have hr : (read tree source).mapError (StagedFailure.mk .read) = .ok text := by rw [h]; rfl
  have hm : (compile text).mapError (fun failure =>
      StagedFailure.mk .compile (failure.withContext "document" source)) =
      .error ⟨.compile, failure.withContext "document" source⟩ := by rw [hc]; rfl
  simp only [load, hr, hm, bind, Except.bind]

theorem load_compiled (h : read tree source = .ok text) (hc : compile text = .ok graph) :
    load tree source = .ok (graph.withSource (name source)) := by
  have hr : (read tree source).mapError (StagedFailure.mk .read) = .ok text := by rw [h]; rfl
  have hm : (compile text).mapError (fun failure =>
      StagedFailure.mk .compile (failure.withContext "document" source)) = .ok graph := by
    rw [hc]
    rfl
  simp only [load, hr, hm, bind, Except.bind]
  rfl

end Source

namespace Order

/-- The course of the work on a document: the artifacts that are made and written, those that are
left, and why they are left. -/
inductive Course (order : Order) (source stem : String) (tree : FileTree) :
    List OutputFormat → List OutputFormat → Option DocumentFailure → FileTree → Prop where
  | unread {failure : Failure} (read : Source.read tree source = .error failure) :
      Course order source stem tree [] order.plan (some (.of .read failure)) tree
  | uncompiled {text : String} {failure : Failure} (read : Source.read tree source = .ok text)
      (compile : compile text = .error failure) :
      Course order source stem tree [] order.plan
        (some (.of .compile (failure.withContext "document" source))) tree
  | drawn {text : String} {graph : Graph} {made rest : List OutputFormat}
      {failure : Option DocumentFailure} {between after : FileTree}
      (read : Source.read tree source = .ok text) (compile : compile text = .ok graph)
      (plan : order.plan = made ++ rest)
      (writes : order.Writes (graph.withSource (Source.name source)) stem made tree between)
      (stops : order.Stops (graph.withSource (Source.name source)) source stem rest between failure
        after) :
      Course order source stem tree made rest failure after

theorem length_plan (order : Order) : order.plan.length = order.formats.length :=
  (List.filter_append_perm OutputFormat.isText order.formats).length_eq

theorem mem_plan {order : Order} {format : OutputFormat} :
    format ∈ order.plan ↔ format ∈ order.formats :=
  (List.filter_append_perm OutputFormat.isText order.formats).mem_iff

end Order

theorem Job.run_start (order : Order) (source stem : String) (tree : FileTree) {count : Nat}
    (hc : Job.stepsOf order ≤ count) :
    ∃ made rest failure,
      order.Course source stem tree made rest failure
        (Job.run order count (.start source stem) tree).2 ∧
      (Job.run order count (.start source stem) tree).1 =
        { source, stem, written := made.map (order.artifact stem), progress := .finished failure } := by
  have hp := order.length_plan
  obtain ⟨count, rfl⟩ : ∃ n, count = n + 1 := ⟨count - 1, by unfold stepsOf at hc; omega⟩
  have hw : (Job.start source stem).progress = .waiting := rfl
  rw [Job.run]
  cases hr : Source.read tree source with
  | error failure =>
    rw [step_unread hw (Source.load_unread hr), run_finished rfl]
    exact ⟨[], order.plan, some (.of .read failure), .unread hr, rfl⟩
  | ok text =>
    cases hg : compile text with
    | error failure =>
      rw [step_unread hw (Source.load_uncompiled hr hg), run_finished rfl]
      exact ⟨[], order.plan, some (.of .compile (failure.withContext "document" source)),
        .uncompiled hr hg, rfl⟩
    | ok graph =>
      have hd : ({ Job.start source stem with
          progress := .drawing (graph.withSource (Source.name source)) order.plan } : Job).progress =
          .drawing (graph.withSource (Source.name source)) order.plan := rfl
      have hlt : order.plan.length < count := by unfold stepsOf at hc; omega
      rw [step_opened hw (Source.load_compiled hr hg)]
      obtain ⟨made, rest, between, failure, plan, writes, stops, hj⟩ :=
        run_drawing order tree hd hlt
      exact ⟨made, rest, failure, .drawn hr hg plan writes stops, hj⟩

namespace Order

variable {order : Order} {graph : Graph} {source stem : String} {tree after : FileTree}
  {formats made rest : List OutputFormat} {format : OutputFormat} {content : String}
  {failure : Option DocumentFailure} {stopped : DocumentFailure}

theorem Stops.failure_eq_none (h : order.Stops graph source stem rest tree failure after) :
    failure = none ↔ rest = [] := by
  cases h <;> simp

theorem Stops.stage_ne_compile (h : order.Stops graph source stem rest tree (some stopped) after) :
    stopped.stage ≠ .compile := by
  cases h with
  | unmade make => exact Stage.noConfusion
  | unwritten make write => exact Stage.noConfusion

/-- A failure of the layout stops the work at a picture, and its kind is reported. -/
theorem Stops.of_render (h : order.Stops graph source stem rest tree (some stopped) after)
    (hs : stopped.stage = .render) :
    rest.head? = some .svg ∧ ∃ fault,
      order.layout (graph.draw .dot order.annotate) tree = (.error fault, after) ∧
      stopped.kind = fault.kind.name := by
  cases h with
  | @unmade pending fault tree after make => exact ⟨rfl, fault, make, rfl⟩
  | unwritten make write => cases hs

theorem exists_pictures (hp : order.plan = made ++ rest) (hr : rest.head? = some .svg) :
    ∃ pictures, made = order.formats.filter (·.isText) ++ pictures := by
  obtain ⟨pending, rfl⟩ := List.head?_eq_some_iff.mp hr
  rcases List.append_eq_append_iff.mp hp with ⟨pictures, rfl, -⟩ | ⟨texts, he, hn⟩
  · exact ⟨pictures, rfl⟩
  · cases texts with
    | nil => exact ⟨[], by rw [he, List.append_nil, List.append_nil]⟩
    | cons first texts =>
      obtain ⟨rfl, -⟩ := List.cons.inj hn
      have hs : OutputFormat.svg ∈ order.formats.filter (·.isText) := by simp [he]
      exact absurd (List.mem_filter.mp hs).2 Bool.false_ne_true

/-- To make these artifacts changes no file. -/
def Quiet (order : Order) (graph : Graph) (formats : List OutputFormat) : Prop :=
  ∀ format ∈ formats, ∀ tree, (order.produce graph tree format).2 = tree

theorem quiet_texts (order : Order) (graph : Graph) :
    order.Quiet graph (order.formats.filter (·.isText)) := by
  intro format hf tree
  cases format with
  | text format => rfl
  | svg => exact absurd (List.mem_filter.mp hf).2 Bool.false_ne_true

/-- The layout leaves all files as they are. -/
def Spares (order : Order) : Prop :=
  ∀ dot tree, (order.layout dot tree).2 = tree

theorem Spares.quiet (h : order.Spares) (graph : Graph) (formats : List OutputFormat) :
    order.Quiet graph formats := by
  intro format _ tree
  cases format with
  | text format => rfl
  | svg => exact h _ tree

theorem readText_write_of_ne {format' : OutputFormat} {content' : String} (hn : format ≠ format')
    (hr : tree.readText (order.artifactPath stem format) = .ok content)
    (hw : tree.writeText (order.artifactPath stem format') content' = .ok after) :
    after.readText (order.artifactPath stem format) = .ok content := by
  obtain ⟨before, last, he⟩ := order.exists_endsIn stem
  obtain ⟨place, ht, rfl⟩ := FileTree.writeText_eq_ok.mp hw
  obtain ⟨hl', hd⟩ := (FileTree.target_endsIn_ok (he format')).mp ht
  obtain ⟨there, hl, hi⟩ := FileTree.readText_eq_ok.mp hr
  obtain ⟨dir, -, -, rfl⟩ := FileTree.locate_endsIn_ok (he format') hl'
  have hp : dir ++ [last ++ format'.ending] ≠ [] := by simp
  have ho : there ≠ dir ++ [last ++ format'.ending] := by
    rintro rfl
    exact hn (order.format_eq_of_place hl hl')
  have hs : FileTree.SameOutside Set.univ tree
      (tree.put (dir ++ [last ++ format'.ending]) (.file (.text content'))) := .put hp hd trivial
  refine FileTree.readText_eq_ok.mpr ⟨there, hs.locate_ok hl, ?_⟩
  rw [FileTree.item?_put hp, if_neg ho, hi]

namespace Writes

theorem readText_of_not_mem (hq : order.Quiet graph formats)
    (h : order.Writes graph stem formats tree after) (hf : format ∉ formats)
    (hr : tree.readText (order.artifactPath stem format) = .ok content) :
    after.readText (order.artifactPath stem format) = .ok content := by
  induction h with
  | nil tree => exact hr
  | @cons format' formats content' artifact tree made written after make write rest ih =>
    have ht := hq format' List.mem_cons_self tree
    rw [make] at ht
    obtain rfl : made = tree := ht
    obtain ⟨-, hw⟩ := write_eq_ok write
    obtain ⟨hn, hf⟩ := List.ne_and_not_mem_of_not_mem_cons hf
    exact ih (fun format hm => hq format (List.mem_cons_of_mem _ hm)) hf
      (readText_write_of_ne hn hr hw)

/-- Every artifact is in its file at the end, as it was made. -/
theorem exists_readText (hq : order.Quiet graph formats)
    (h : order.Writes graph stem formats tree after) (hf : format ∈ formats) :
    ∃ before content, (order.produce graph before format).1 = .ok content ∧
      after.readText (order.artifactPath stem format) = .ok content := by
  induction h with
  | nil tree => cases hf
  | @cons format' formats content' artifact tree made written after make write rest ih =>
    have hr : order.Quiet graph formats := fun format hm => hq format (List.mem_cons_of_mem _ hm)
    by_cases hm : format ∈ formats
    · exact ih hr hm
    · obtain rfl : format = format' := (List.mem_cons.mp hf).resolve_right hm
      obtain ⟨before, last, he⟩ := order.exists_endsIn stem
      obtain ⟨-, hw⟩ := write_eq_ok write
      exact ⟨tree, content', by rw [make],
        rest.readText_of_not_mem hr hm (FileTree.readText_write (he format) hw)⟩

theorem of_append {others : List OutputFormat}
    (h : order.Writes graph stem (formats ++ others) tree after) :
    ∃ between, order.Writes graph stem formats tree between ∧
      order.Writes graph stem others between after := by
  induction formats generalizing tree with
  | nil => exact ⟨tree, .nil tree, h⟩
  | cons format formats ih =>
    cases h with
    | cons make write rest =>
      obtain ⟨between, first, second⟩ := ih rest
      exact ⟨between, .cons make write first, second⟩

end Writes

/-- The artifacts made hold all texts, and these stood in their files before a layout was tried. -/
def HoldsTexts (order : Order) (graph : Graph) (stem : String) (tree : FileTree)
    (made : List OutputFormat) : Prop :=
  ∃ pictures between, made = order.formats.filter (·.isText) ++ pictures ∧
    order.Writes graph stem (order.formats.filter (·.isText)) tree between ∧
    ∀ format, .text format ∈ order.formats →
      between.readText (order.artifactPath stem (.text format)) =
        .ok (graph.draw format order.annotate)

theorem Writes.holdsTexts (h : order.Writes graph stem made tree after)
    (hp : order.plan = made ++ rest) (hr : rest.head? = some .svg) :
    order.HoldsTexts graph stem tree made := by
  obtain ⟨pictures, rfl⟩ := exists_pictures hp hr
  obtain ⟨between, texts, -⟩ := h.of_append
  refine ⟨pictures, between, rfl, texts, fun format hf => ?_⟩
  obtain ⟨before, content, hc, ht⟩ :=
    texts.exists_readText (order.quiet_texts graph) (List.mem_filter.mpr ⟨hf, rfl⟩)
  obtain rfl : graph.draw format order.annotate = content := Except.ok.inj hc
  exact ht

theorem Stops.tree_eq (hs : order.Spares)
    (h : order.Stops graph source stem rest tree failure after) : after = tree := by
  cases h with
  | complete tree => rfl
  | unmade make =>
    have ht := hs.quiet graph [.svg] .svg List.mem_cons_self tree
    rw [make] at ht
    exact ht
  | @unwritten format pending content failure tree after make write =>
    have ht := hs.quiet graph [format] format List.mem_cons_self tree
    rw [make] at ht
    exact ht

namespace Course

theorem plan_eq (h : order.Course source stem tree made rest failure after) :
    order.plan = made ++ rest := by
  cases h with
  | unread read => rfl
  | uncompiled read compile => rfl
  | drawn read compile plan writes stops => exact plan

theorem failure_eq_none (h : order.Course source stem tree made rest failure after)
    (hf : order.formats ≠ []) : failure = none ↔ rest = [] := by
  have hp : order.plan ≠ [] := by
    rw [← List.length_pos_iff, length_plan]
    exact List.length_pos_iff.mpr hf
  cases h with
  | unread read => simp [hp]
  | uncompiled read compile => simp [hp]
  | drawn read compile plan writes stops => exact stops.failure_eq_none

theorem failure_eq_none_iff (h : order.Course source stem tree made rest failure after) :
    failure = none ↔ (∃ graph, Source.load tree source = .ok graph) ∧ rest = [] := by
  cases h with
  | unread read => simp [Source.load_unread read]
  | uncompiled read compile => simp [Source.load_uncompiled read compile]
  | drawn read compile plan writes stops =>
    simp [Source.load_compiled read compile, stops.failure_eq_none]

theorem made_eq_nil (h : order.Course source stem tree made rest (some stopped) after)
    (hs : stopped.stage = .compile) : made = [] := by
  cases h with
  | unread read => rfl
  | uncompiled read compile => rfl
  | drawn read compile plan writes stops => exact absurd hs stops.stage_ne_compile

theorem of_unread (h : order.Course source stem tree made rest failure after) {fault : Failure}
    (hr : Source.read tree source = .error fault) :
    made = [] ∧ failure = some (.of .read fault) := by
  cases h with
  | unread read =>
    obtain rfl := Except.error.inj (hr.symm.trans read)
    exact ⟨rfl, rfl⟩
  | uncompiled read compile => cases hr.symm.trans read
  | drawn read compile plan writes stops => cases hr.symm.trans read

theorem of_uncompiled (h : order.Course source stem tree made rest failure after) {text : String}
    {fault : Failure} (hr : Source.read tree source = .ok text)
    (hc : compile text = .error fault) :
    made = [] ∧ failure = some (.of .compile (fault.withContext "document" source)) := by
  cases h with
  | unread read => cases hr.symm.trans read
  | uncompiled read compile =>
    obtain rfl := Except.ok.inj (hr.symm.trans read)
    obtain rfl := Except.error.inj (hc.symm.trans compile)
    exact ⟨rfl, rfl⟩
  | drawn read compile plan writes stops =>
    obtain rfl := Except.ok.inj (hr.symm.trans read)
    cases hc.symm.trans compile

theorem of_loaded (h : order.Course source stem tree made rest failure after)
    (hl : Source.load tree source = .ok graph) :
    ∃ between, order.Writes graph stem made tree between ∧
      order.Stops graph source stem rest between failure after := by
  cases h with
  | unread read => cases hl.symm.trans (Source.load_unread read)
  | uncompiled read compile => cases hl.symm.trans (Source.load_uncompiled read compile)
  | @drawn text built made rest failure between after read compile plan writes stops =>
    obtain rfl := Except.ok.inj (hl.symm.trans (Source.load_compiled read compile))
    exact ⟨between, writes, stops⟩

theorem of_render (h : order.Course source stem tree made rest (some stopped) after)
    (hs : stopped.stage = .render) :
    ∃ graph between fault, Source.load tree source = .ok graph ∧
      order.layout (graph.draw .dot order.annotate) between = (.error fault, after) ∧
      stopped.kind = fault.kind.name ∧ order.HoldsTexts graph stem tree made := by
  cases h with
  | unread read => cases hs
  | uncompiled read compile => cases hs
  | @drawn text graph made rest failure between after read compile plan writes stops =>
    obtain ⟨hr, fault, hf, hk⟩ := stops.of_render hs
    exact ⟨_, between, fault, Source.load_compiled read compile, hf, hk, writes.holdsTexts plan hr⟩

/-- If the layout changes no file, every artifact is in its file at the end. -/
theorem exists_readText (h : order.Course source stem tree made rest failure after)
    (hs : order.Spares) (hf : format ∈ made) :
    ∃ graph before content, Source.load tree source = .ok graph ∧
      (order.produce graph before format).1 = .ok content ∧
      after.readText (order.artifactPath stem format) = .ok content := by
  cases h with
  | unread read => cases hf
  | uncompiled read compile => cases hf
  | drawn read compile plan writes stops =>
    obtain ⟨before, content, hc, ht⟩ := writes.exists_readText (hs.quiet _ made) hf
    obtain rfl := stops.tree_eq hs
    exact ⟨_, before, content, Source.load_compiled read compile, hc, ht⟩

end Course

end Order

namespace Batch

theorem follow_replicate (order : Order) (job : Job) (tree : FileTree) (count : Nat) :
    follow order { jobs := [job], tree } (List.replicate count 0) =
      { jobs := [(Job.run order count job tree).1], tree := (Job.run order count job tree).2 } := by
  induction count generalizing job tree with
  | zero => rfl
  | succ count ih => exact ih _ _

/-- What is reported of a document. Its artifacts are a beginning of the plan, all of them written,
and unless they are the whole plan the failure tells what stopped the work: the document could not
be read, it is at fault itself, the layout failed, or a file could not be written. Only in the last
two cases are there artifacts, and a failure of the layout leaves all texts. If no format is asked
for, only reading and compiling can fail. -/
theorem document_outcome (order : Order) (source stem : String) (tree : FileTree) :
    let batch := follow order { jobs := [.start source stem], tree } (sequential order 1)
    ∃ made rest failure,
      batch.report.documents =
        [{ source, artifacts := made.map (order.artifact stem), failure }] ∧
      order.plan = made ++ rest ∧
      (order.formats ≠ [] → (failure = none ↔ rest = [])) ∧
      (failure = none ↔ (∃ graph, Source.load tree source = .ok graph) ∧ rest = []) ∧
      (∀ fault, Source.read tree source = .error fault →
        made = [] ∧ failure = some (.of .read fault)) ∧
      (∀ text fault, Source.read tree source = .ok text → compile text = .error fault →
        made = [] ∧ failure = some (.of .compile (fault.withContext "document" source)) ∧
        (fault.kind = .malformedInput ∨ fault.kind = .schemaError)) ∧
      (∀ graph, Source.load tree source = .ok graph →
        ∃ between, order.Writes graph stem made tree between ∧
          order.Stops graph source stem rest between failure batch.tree) ∧
      (∀ stopped, failure = some stopped →
        (stopped.stage = .compile → made = []) ∧
        (stopped.stage = .render → ∃ graph between fault,
          Source.load tree source = .ok graph ∧
          order.layout (graph.draw .dot order.annotate) between = (.error fault, batch.tree) ∧
          stopped.kind = fault.kind.name ∧ order.HoldsTexts graph stem tree made)) ∧
      (order.Spares → ∀ format ∈ made, ∃ graph before content,
        Source.load tree source = .ok graph ∧
        (order.produce graph before format).1 = .ok content ∧
        batch.tree.readText (order.artifactPath stem format) = .ok content) := by
  intro batch
  have hb : batch = follow order { jobs := [.start source stem], tree }
      (List.replicate (Job.stepsOf order) 0) := by simp [batch, sequential]
  rw [follow_replicate] at hb
  obtain ⟨made, rest, failure, course, hj⟩ :=
    Job.run_start order source stem tree (Nat.le_refl (Job.stepsOf order))
  rw [hj] at hb
  have ht : batch.tree = (Job.run order (Job.stepsOf order) (.start source stem) tree).2 := by
    rw [hb]
  rw [← ht] at course
  refine ⟨made, rest, failure, ?_, course.plan_eq, course.failure_eq_none,
    course.failure_eq_none_iff, ?_, ?_, ?_, ?_, ?_⟩
  · rw [hb]
    rfl
  · exact fun fault hr => course.of_unread hr
  · intro text fault hr hc
    obtain ⟨hm, hf⟩ := course.of_uncompiled hr hc
    exact ⟨hm, hf, kind_of_compile hc⟩
  · exact fun graph hl => course.of_loaded hl
  · rintro stopped rfl
    exact ⟨course.made_eq_nil, course.of_render⟩
  · exact fun hs format hf => course.exists_readText hs hf

/-- Where no format is asked for, nothing of the plan is missing, and still a source that cannot be
read is a failure. -/
theorem unread_unplanned :
    let order : Order :=
      { formats := [], annotate := false, dir := "out", layout := Layout.ofFunction Except.ok }
    let batch := follow order { jobs := [.start "missing.xml" "missing"], tree := .empty ["w"] }
      (sequential order 1)
    ∃ failure : DocumentFailure, batch.report.documents =
      [{ source := "missing.xml", artifacts := order.plan.map (order.artifact "missing")
         failure := some failure }] :=
  ⟨_, rfl⟩

end Batch

end CallFlow
