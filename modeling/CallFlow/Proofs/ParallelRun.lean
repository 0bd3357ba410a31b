import CallFlow.Proofs.Interleaving

namespace CallFlow

namespace Path

theorem exists_steps_of_fileName? {path name : String} (h : fileName? path = some name) :
    ∃ before dots, steps path = before ++ name :: dots ∧ (∀ dot ∈ dots, dot = ".") ∧
      name ≠ "." ∧ name ≠ ".." := by
  have hl : ((steps path).filterMap partOf?).getLast? = some (.normal name) := by
    unfold fileName? at h
    split at h
    · rename_i last hp
      obtain rfl := Option.some.inj h
      rw [parts, List.getLast?_append] at hp
      cases hm : ((steps path).filterMap partOf?).getLast? with
      | some part => rwa [hm, Option.some_or] at hp
      | none =>
        rw [hm, Option.none_or] at hp
        split at hp
        · cases hp
        · split at hp <;> cases hp
    · cases h
  obtain ⟨front, hf⟩ := List.getLast?_eq_some_iff.mp hl
  obtain ⟨before, rest, hs, -, hr⟩ := List.filterMap_eq_append_iff.mp hf
  obtain ⟨skipped, step, dots, rfl, -, hp, hd⟩ := List.filterMap_eq_cons_iff.mp hr
  have hn : step = name ∧ name ≠ "." ∧ name ≠ ".." := by
    unfold partOf? at hp
    split at hp
    · cases hp
    · rename_i hc
      split at hp
      · cases hp
      · rename_i hu
        cases hp
        exact ⟨rfl, hc, hu⟩
  obtain ⟨rfl, hn⟩ := hn
  refine ⟨before ++ skipped, dots, by simp [hs], fun dot hm => ?_, hn⟩
  have hp := List.filterMap_eq_nil_iff.mp hd dot hm
  unfold partOf? at hp
  split at hp
  · assumption
  · split at hp <;> cases hp

/-- The extension is what follows the last dot. -/
theorem toList_of_extensionOf? {name extension : String} (h : extensionOf? name = some extension) :
    extension.toList = (name.toList.reverse.takeWhile (· ≠ '.')).reverse := by
  obtain ⟨position, hp, rfl⟩ := Option.map_eq_some_iff.mp h
  have hd : name.toList = (name.toList.reverse.dropWhile (· ≠ '.')).reverse ++
      (name.toList.reverse.takeWhile (· ≠ '.')).reverse := by
    rw [← List.reverse_append, List.takeWhile_append_dropWhile, List.reverse_reverse]
  have hl := congrArg List.length hd
  rw [List.length_append, List.length_reverse, List.length_reverse] at hl
  unfold dotPosition? at hp
  simp only at hp
  split at hp
  · cases hp
  · have hk : position + 1 = (name.toList.reverse.dropWhile (· ≠ '.')).reverse.length := by
      have := Option.some.inj hp
      rw [List.length_reverse]
      omega
    rw [String.toList_ofList, hk]
    exact (congrArg (List.drop _) hd).trans List.drop_left

end Path

namespace FileTree

/-- Steps in place lead nowhere, and they can be taken only inside a directory. -/
theorem foldlM_dots {tree : FileTree} {place last : Place} {dots : List String}
    (hd : ∀ dot ∈ dots, dot = ".") (h : dots.foldlM tree.follow place = .ok last) :
    last = place ∧ (dots = [] ∨ tree.item? place = some .directory) := by
  induction dots with
  | nil => exact ⟨(Except.ok.inj h).symm, .inl rfl⟩
  | cons dot dots ih =>
    obtain rfl := hd dot List.mem_cons_self
    rw [List.foldlM_cons] at h
    cases hf : tree.follow place "." with
    | error fault =>
      rw [hf] at h
      cases h
    | ok next =>
      have hi := follow_eq_ok hf
      simp only [follow, hi, if_pos] at hf
      obtain rfl := Except.ok.inj hf
      simp only [follow, hi, if_pos] at h
      exact ⟨(ih (fun dot hm => hd dot (List.mem_cons_of_mem _ hm)) h).1, .inr hi⟩

theorem locate_fileName? {tree : FileTree} {path name : String} {place : Place}
    (hn : Path.fileName? path = some name) (hl : tree.locate path = .ok place) :
    tree.item? place = some .directory ∨ ∃ dir, place = dir ++ [name] := by
  obtain ⟨before, dots, hs, hd, hne⟩ := Path.exists_steps_of_fileName? hn
  have hw := walkTo_eq_ok hl
  -- A slash at the end asks for one more step in place.
  have hst : ∃ dots', steps path = before ++ name :: dots' ∧ ∀ dot ∈ dots', dot = "." := by
    rw [steps, hs]
    split
    · refine ⟨dots ++ ["."], by simp, fun dot hm => ?_⟩
      rcases List.mem_append.mp hm with hm | hm
      · exact hd dot hm
      · exact List.mem_singleton.mp hm
    · exact ⟨dots, by simp, hd⟩
  obtain ⟨dots', hst, hd'⟩ := hst
  rw [hst, List.foldlM_append] at hw
  cases hb : before.foldlM tree.follow (tree.start path) with
  | error fault =>
    rw [hb] at hw
    cases hw
  | ok dir =>
    rw [hb] at hw
    have hw : (name :: dots').foldlM tree.follow dir = .ok place := hw
    rw [List.foldlM_cons] at hw
    cases hf : tree.follow dir name with
    | error fault =>
      rw [hf] at hw
      cases hw
    | ok next =>
      rw [hf] at hw
      obtain ⟨rfl, hi⟩ := foldlM_dots hd' hw
      rcases hi with rfl | hi
      · right
        refine ⟨dir, ?_⟩
        simp only [follow, follow_eq_ok hf, if_neg hne.1, if_neg hne.2] at hf
        split at hf
        · cases hf
        · exact (Except.ok.inj hf).symm
      · exact .inl hi

end FileTree

namespace OutputFormat

/-- No artifact is taken for a document. -/
theorem extensionOf?_append_ending (stem : String) (format : OutputFormat) :
    Path.extensionOf? (stem ++ format.ending) ≠ some "xml" := by
  intro h
  have hl := Path.toList_of_extensionOf? h
  revert hl
  rw [String.toList_append, List.reverse_append]
  rcases format with (_ | _ | _) | _ <;> simp [ending, extension, TextFormat.extension]

end OutputFormat

theorem Order.artifactPath_ne_of_extension {order : Order} {stem source : String}
    {format : OutputFormat} (hs : '/' ∉ stem.toList)
    (hx : Path.extension? source = some "xml") : order.artifactPath stem format ≠ source := by
  rintro rfl
  obtain ⟨name, hn, hx⟩ := Option.bind_eq_some_iff.mp hx
  obtain ⟨before, dots, hsteps, hd, -⟩ := Path.exists_steps_of_fileName? hn
  have he := order.endsIn_dir hs format
  rw [he.steps] at hsteps
  -- The name of an artifact is its last step, so no step in place can follow it.
  rcases List.eq_nil_or_concat dots with rfl | ⟨dots, dot, rfl⟩
  · obtain rfl := List.head_eq_of_cons_eq (List.append_inj' hsteps rfl).2
    exact format.extensionOf?_append_ending stem hx
  · rw [List.concat_eq_append, ← List.cons_append, ← List.append_assoc] at hsteps
    have hlast := List.head_eq_of_cons_eq (List.append_inj' hsteps rfl).2
    exact he.proper.1 (hlast.trans (hd dot (by simp)))

namespace Batch

variable {order : Order} {tree : FileTree} {sources : List String} {stamp : Option Nat}

theorem artifact_not_located {source : String} {place : Place}
    (hx : Path.extension? source = some "xml") (hl : tree.locate source = .ok place) :
    place ∉ order.artifactPlaces tree (Stem.assign sources stamp) := by
  rintro ⟨stem, ht, format, -, hp⟩
  have he := order.endsIn_dir (Stem.slash_not_mem_assign ht) format
  obtain ⟨hl', hd⟩ := (FileTree.target_endsIn_ok he).mp hp
  obtain ⟨dir, -, -, rfl⟩ := FileTree.locate_endsIn_ok he hl'
  -- The last name of the place is that of the source, and that of an artifact ends otherwise.
  obtain ⟨name, hn, hx⟩ := Option.bind_eq_some_iff.mp hx
  rcases FileTree.locate_fileName? hn hl with hi | ⟨dir', hdir⟩
  · exact hd hi
  · have hname := (List.append_inj' hdir rfl).2
    rw [← (List.cons.inj hname).1] at hx
    exact format.extensionOf?_append_ending stem hx

theorem apart_of_extension
    (h : ∀ source ∈ sources, Path.extension? source = some "xml" ∧
      ∀ fault, tree.locate source = .error fault →
        tree.reach source ∉ order.artifactPlaces tree (Stem.assign sources stamp)) :
    Apart order tree sources stamp := by
  intro source hs
  obtain ⟨hx, broken⟩ := h source hs
  cases hl : tree.locate source with
  | error fault => exact broken fault hl
  | ok place =>
    rw [FileTree.reach_of_locate hl]
    exact artifact_not_located hx hl

/-- A document is reported with artifacts of its own, and each of them holds what is made of the
document. -/
def Delivers (order : Order) (tree : FileTree) (batch : Batch) (i : Nat) (source stem : String) :
    Prop :=
  ∃ (outcome : DocumentOutcome) (made : List OutputFormat),
    batch.report.documents[i]? = some outcome ∧ outcome.source = source ∧
    outcome.artifacts = made.map (order.artifact stem) ∧
    ∀ format ∈ made, ∃ graph content, Source.load tree source = .ok graph ∧
      order.produce graph tree format = (.ok content, tree) ∧
      batch.tree.readText (order.artifactPath stem format) = .ok content

theorem Separately.delivers {draw : String → Except Failure String} {batch : Batch} {i : Nat}
    {source stem : String} (hd : order.layout = Layout.ofFunction draw)
    (ha : Apart order tree sources stamp)
    (h : Separately order tree (start sources stamp tree).jobs (fun _ => Job.stepsOf order) batch)
    (hi : sources[i]? = some source) (ht : (Stem.assign sources stamp)[i]? = some stem) :
    batch.Delivers order tree i source stem := by
  have hj := getElem?_start hi ht tree
  obtain ⟨made, rest, failure, course, hr⟩ :=
    Job.run_start order source stem tree (Nat.le_refl (Job.stepsOf order))
  have hb := h.documents i
  rw [hj, Option.map_some, hr] at hb
  refine ⟨{ source, artifacts := made.map (order.artifact stem), failure }, made, ?_, rfl, rfl, ?_⟩
  · rw [report, List.getElem?_map, hb, Option.map_some]
    rfl
  · intro format hf
    obtain ⟨graph, content, hg, hp, hc⟩ := course.exists_content hd hf
    have hready := ready_start ha
    have hfits := hready.fits _ (List.mem_of_getElem? hj)
    obtain ⟨-, -, alone⟩ := hfits.run hd hready.steady (Job.stepsOf order)
    have hformat : format ∈ order.formats := by
      refine Order.mem_plan.mp ?_
      rw [course.plan_eq]
      exact List.mem_append_left _ hf
    exact ⟨graph, content, hg, hp tree,
      Order.readText_of_own alone h.others (h.own i _ hj) hformat hc⟩

end Batch

namespace Options

/-- The order of the steps makes no difference to a batch of which no source leads to the file of an
artifact, or through one as if it were a directory. No document leads to an artifact by its
extension. Whatever the order, the report and the files are those of the run in which one document
comes after the other, no file is written for two artifacts, and every artifact that is reported
holds what was made of its own document. -/
theorem process_interleaved (options : Options) (draw : String → Except Failure String)
    (clock : Nat) (sources : List String) (tree prepared : FileTree) (schedule : List Nat) :
    let order := options.order (.ofFunction draw)
    let stamp := if options.stamp then some clock else none
    let stems := Stem.assign sources stamp
    let other := (Batch.start sources stamp prepared).follow order schedule
    (∀ source ∈ sources, Path.extension? source = some "xml" →
      ∀ stem ∈ stems, ∀ format, order.artifactPath stem format ≠ source) ∧
    ((∀ source ∈ sources, Path.extension? source = some "xml" ∧
        ∀ fault, prepared.locate source = .error fault →
          prepared.reach source ∉ order.artifactPlaces prepared stems) →
      Batch.Apart order prepared sources stamp) ∧
    (Batch.prepare tree options.outputDir = .ok prepared →
      Batch.Apart order prepared sources stamp →
      (∀ i < sources.length, Job.stepsOf order ≤ schedule.count i) →
      ∃ batch : Batch,
        { options with parallel := false }.process (.ofFunction draw) clock sources tree = .ok batch ∧
        other.report = batch.report ∧
        other.tree.home = batch.tree.home ∧
        (∀ place, other.tree.item? place = batch.tree.item? place) ∧
        (∀ (i j : Nat) (stem stem' : String) (format format' : OutputFormat),
          stems[i]? = some stem → stems[j]? = some stem' →
          order.artifactPath stem format = order.artifactPath stem' format' →
          i = j ∧ format = format') ∧
        ∀ (i : Nat) (source stem : String), sources[i]? = some source → stems[i]? = some stem →
          other.Delivers order prepared i source stem) := by
  intro order stamp stems other
  refine ⟨fun source _ hx stem hm format => ?_, Batch.apart_of_extension, fun hp ha hs => ?_⟩
  · exact Order.artifactPath_ne_of_extension (Stem.slash_not_mem_assign hm) hx
  have hd : order.layout = .ofFunction draw := rfl
  have ho := Batch.separately_of_complete hd ha hs
  have hc : ∀ i < sources.length,
      Job.stepsOf order ≤ (Batch.sequential order sources.length).count i :=
    fun i hi => Batch.le_count_schedule order false hi
  have hq := Batch.separately_of_complete hd ha hc
  obtain ⟨jobs, home, items⟩ := hq.eq ho
  refine ⟨(Batch.start sources stamp prepared).follow order
    (Batch.sequential order sources.length), ?_, ?_, home, items, ?_, ?_⟩
  · simp only [process, hp]
    rfl
  · exact congrArg (fun jobs : List Job => (⟨jobs.map Job.outcome⟩ : Report)) jobs
  · intro i j stem stem' format format' hi hj h
    obtain ⟨rfl, rfl⟩ := order.artifactPath_inj
      (Stem.slash_not_mem_assign (List.mem_of_getElem? hi))
      (Stem.slash_not_mem_assign (List.mem_of_getElem? hj)) h
    have hl := (List.getElem?_eq_some_iff.mp hi).1
    exact ⟨(List.getElem?_inj hl (Stem.nodup_assign sources stamp)).mp (hi.trans hj.symm), rfl⟩
  · exact fun i source stem hi ht => ho.delivers hd ha hi ht

def menuText (id : String) : String :=
  "<s><modules><menu><moduleId>" ++ id ++ "</moduleId></menu></modules></s>"

/-- A working directory with two documents of one name and a directory for artifacts. -/
def twoMenus : FileTree :=
  { items := [(["w"], .directory), (["w", "a.xml"], .file (.text (menuText "A"))),
      (["w", "b"], .directory), (["w", "b", "a.xml"], .file (.text (menuText "B"))),
      (["w", "out"], .directory)]
    home := ["w"] }

def drawMenus : Options :=
  { files := ["a.xml", "b/a.xml"], dirs := [], formats := [.text .dot, .svg], outputDir := "out"
    stamp := false, parallel := true, annotateSource := false, render := .default }

/-- What a layout is to make of a drawing. -/
def framed (dot : String) : Except Failure String :=
  .ok ("<svg>" ++ dot ++ "</svg>")

theorem menus_located (order : Order) :
    ∀ source ∈ ["a.xml", "b/a.xml"], Path.extension? source = some "xml" ∧
      ∀ fault, twoMenus.locate source = .error fault →
        twoMenus.reach source ∉
          order.artifactPlaces twoMenus (Stem.assign ["a.xml", "b/a.xml"] none) := by
  intro source hs
  simp only [List.mem_cons, List.not_mem_nil, or_false] at hs
  rcases hs with rfl | rfl
  · exact ⟨by decide, nofun⟩
  · exact ⟨by decide, nofun⟩

/-- Two documents of one name, each of which is read before the other is drawn. -/
theorem menus_interleaved :
    let layout := Layout.ofFunction framed
    let order := drawMenus.order layout
    let other := (Batch.start ["a.xml", "b/a.xml"] none twoMenus).follow order
      [1, 0, 0, 1, 0, 1, 1, 0]
    ∃ batch : Batch,
      { drawMenus with parallel := false }.process layout 0 ["a.xml", "b/a.xml"] twoMenus =
        .ok batch ∧
      other.report = batch.report ∧
      (∀ place, other.tree.item? place = batch.tree.item? place) ∧
      other.report.documents.map (fun outcome => outcome.artifacts.map Artifact.path) =
        [["out/a.dot", "out/a.svg"], ["out/a_2.dot", "out/a_2.svg"]] ∧
      other.Delivers order twoMenus 0 "a.xml" "a" ∧
      other.Delivers order twoMenus 1 "b/a.xml" "a_2" ∧
      other.tree.readText "out/a.svg" ≠ other.tree.readText "out/a_2.svg" := by
  intro layout order other
  obtain ⟨-, apart, same⟩ := process_interleaved drawMenus framed 0 ["a.xml", "b/a.xml"] twoMenus
    twoMenus [1, 0, 0, 1, 0, 1, 1, 0]
  obtain ⟨batch, hb, hr, -, files, -, own⟩ := same rfl (apart (menus_located order)) (by decide)
  exact ⟨batch, hb, hr, files, by decide +kernel, own 0 _ _ rfl rfl, own 1 _ _ rfl rfl,
    ne_of_apply_ne Except.toOption (by decide +kernel)⟩

/-- A batch none of whose sources is the path of an artifact, with a schedule that takes all steps
and gives another report than the documents one after the other. -/
structure OrderMatters (options : Options) (draw : String → Except Failure String)
    (sources : List String) (tree : FileTree) (schedule : List Nat) : Prop where
  no_artifact : ∀ source ∈ sources, ∀ stem ∈ Stem.assign sources none,
    ∀ format ∈ options.formats, (options.order (.ofFunction draw)).artifactPath stem format ≠ source
  complete : ∀ i < sources.length,
    Job.stepsOf (options.order (.ofFunction draw)) ≤ schedule.count i
  differs : ∃ batch : Batch,
    { options with parallel := false }.process (.ofFunction draw) 0 sources tree = .ok batch ∧
    ((Batch.start sources none tree).follow (options.order (.ofFunction draw)) schedule).report ≠
      batch.report

def drawCharts : Options :=
  { drawMenus with formats := [.text .mermaid] }

/-- A source that goes through an artifact, or leads to it under another spelling, is read with
another outcome once the artifact is written. -/
theorem order_matters_behind_artifact :
    OrderMatters drawCharts framed ["a.xml", "out/a.mmd/b.xml"] twoMenus [1, 1, 1, 0, 0, 0] ∧
    OrderMatters drawCharts framed ["a.xml", "./out/a.mmd"] twoMenus [1, 1, 1, 0, 0, 0] := by
  constructor
  · exact ⟨by decide +kernel, by decide, _, rfl, by decide +kernel⟩
  · exact ⟨by decide +kernel, by decide, _, rfl, by decide +kernel⟩

end Options

end CallFlow
