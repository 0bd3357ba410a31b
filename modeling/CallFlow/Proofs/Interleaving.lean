import CallFlow.Proofs.DocumentOutcome

namespace CallFlow

namespace FileTree

def update (tree : FileTree) : Option (Place × String) → FileTree
  | none => tree
  | some (place, text) => tree.put place (.file (.text text))

/-- The file that is written, if there is one, is in one of some places. -/
def Within (places : Set Place) (file : Option (Place × String)) : Prop :=
  ∀ place text, file = some (place, text) → place ∈ places

variable {tree other : FileTree} {file : Option (Place × String)} {place : Place}
  {places : Set Place}

theorem within_none : Within places none := by
  intro place text h
  cases h

theorem item?_update_congr (hf : Within places file) (hn : [] ∉ places)
    (h : other.item? place = tree.item? place) :
    (other.update file).item? place = (tree.update file).item? place := by
  rcases file with _ | ⟨there, text⟩
  · exact h
  · have ht : there ≠ [] := by
      rintro rfl
      exact hn (hf [] text rfl)
    rw [update, update, item?_put ht, item?_put ht, h]

theorem item?_update_outside (hf : Within places file) (hn : [] ∉ places) (hp : place ∉ places) :
    (tree.update file).item? place = tree.item? place := by
  rcases file with _ | ⟨there, text⟩
  · rfl
  · have hm := hf there text rfl
    have ht : there ≠ [] := by
      rintro rfl
      exact hn hm
    have ho : place ≠ there := by
      rintro rfl
      exact hp hm
    rw [update, item?_put ht, if_neg ho]

end FileTree

open FileTree (SameOutside Within within_none)

namespace Order

variable {order : Order} {tree other : FileTree} {stems : List String} {stem : String}
  {place : Place}

theorem not_directory_of_mem (hp : place ∈ order.artifactPlaces tree stems) :
    tree.item? place ≠ some .directory := by
  obtain ⟨stem, -, format, -, ht⟩ := hp
  obtain ⟨before, last, he⟩ := order.exists_endsIn stem
  exact ((FileTree.target_endsIn_ok (he format)).mp ht).2

theorem nil_not_mem : [] ∉ order.artifactPlaces tree stems := fun hp =>
  not_directory_of_mem hp rfl

theorem artifactPlaces_singleton_subset (hs : stem ∈ stems) :
    order.artifactPlaces tree [stem] ⊆ order.artifactPlaces tree stems := by
  rintro place ⟨other, ho, format, hf, ht⟩
  obtain rfl := List.mem_singleton.mp ho
  exact ⟨other, hs, format, hf, ht⟩

/-- What is written for one document is written for no other. -/
theorem artifactPlaces_disjoint {stem' : String} (hs : '/' ∉ stem.toList)
    (hs' : '/' ∉ stem'.toList) (hn : stem ≠ stem') (hp : place ∈ order.artifactPlaces tree [stem]) :
    place ∉ order.artifactPlaces tree [stem'] := by
  rintro ⟨other', ho', format', -, ht'⟩
  obtain ⟨other, ho, format, -, ht⟩ := hp
  obtain rfl := List.mem_singleton.mp ho
  obtain rfl := List.mem_singleton.mp ho'
  obtain ⟨hl, -⟩ := (FileTree.target_endsIn_ok (order.endsIn_dir hs format)).mp ht
  obtain ⟨hl', -⟩ := (FileTree.target_endsIn_ok (order.endsIn_dir hs' format')).mp ht'
  exact hn (order.stem_eq_of_place hs hs' hl hl')

theorem sameOutside_update {places : Set Place} {file : Option (Place × String)}
    (h : SameOutside places tree other) (hf : Within (order.artifactPlaces tree stems) file)
    (hp : order.artifactPlaces tree stems ⊆ places) :
    SameOutside places tree (other.update file) := by
  rcases file with _ | ⟨there, text⟩
  · exact h
  · have hm := hf there text rfl
    have hd : other.item? there ≠ some .directory := fun hi =>
      not_directory_of_mem hm ((h.directory there).mp hi)
    have hn : there ≠ [] := by
      rintro rfl
      exact nil_not_mem hm
    exact h.trans (.put hn hd (hp hm))

/-- Whatever a tree holds in some places, artifacts are written to the same places or cannot be
written for the same reasons. -/
structure Steady (order : Order) (tree : FileTree) (stems : List String) (places : Set Place) :
    Prop where
  written : order.artifactPlaces tree stems ⊆ places
  target : ∀ other, SameOutside places tree other → ∀ stem ∈ stems, ∀ format,
    other.target (order.artifactPath stem format) = tree.target (order.artifactPath stem format)

theorem steady (order : Order) (tree : FileTree) (hss : ∀ stem ∈ stems, '/' ∉ stem.toList) :
    order.Steady tree stems (order.artifactPlaces tree stems) where
  written := fun _ hp => hp
  target := fun _ h _ hs format => order.target_artifact_eq hss h hs format

section Writing

variable {format : OutputFormat} {content : String}

theorem exists_unwritten (order : Order) (stem content : String) (format : OutputFormat)
    (fault : FileFault) :
    ∃ failure, ∀ tree : FileTree, tree.target (order.artifactPath stem format) = .error fault →
      order.write tree stem format content = .error failure := by
  refine ⟨(fault.toFailure.withOperation "output::write_artifact").withContext "path"
    (order.artifactPath stem format), fun tree h => ?_⟩
  unfold write
  simp only [FileTree.writeText, FileTree.write, h]
  rfl

theorem write_of_target_ok (h : tree.target (order.artifactPath stem format) = .ok place) :
    order.write tree stem format content =
      .ok (order.artifact stem format, tree.put place (.file (.text content))) := by
  unfold write
  simp only [FileTree.writeText, FileTree.write, h]
  rfl

theorem exists_produce {draw : String → Except Failure String}
    (hd : order.layout = Layout.ofFunction draw) (graph : Graph) (format : OutputFormat) :
    ∃ made, ∀ tree, order.produce graph tree format = (made, tree) := by
  cases format with
  | text format => exact ⟨_, fun tree => rfl⟩
  | svg => exact ⟨draw (graph.draw .dot order.annotate), fun tree => by rw [produce, hd]; rfl⟩

theorem spares {draw : String → Except Failure String}
    (hd : order.layout = Layout.ofFunction draw) : order.Spares := by
  intro dot tree
  rw [hd]
  rfl

theorem Course.exists_content {draw : String → Except Failure String} {source : String}
    {made rest : List OutputFormat} {failure : Option DocumentFailure} {after : FileTree}
    (h : order.Course source stem tree made rest failure after)
    (hd : order.layout = Layout.ofFunction draw) (hf : format ∈ made) :
    ∃ graph content, Source.load tree source = .ok graph ∧
      (∀ other, order.produce graph other format = (.ok content, other)) ∧
      after.readText (order.artifactPath stem format) = .ok content := by
  obtain ⟨graph, before, content, hg, hm, hc⟩ := h.exists_readText (spares hd) hf
  obtain ⟨produced, hp⟩ := order.exists_produce hd graph format
  obtain rfl : produced = .ok content := by rw [← hm, hp]
  exact ⟨graph, content, hg, hp, hc⟩

end Writing

end Order

namespace Source

theorem load_eq {places : Set Place} {tree other : FileTree} {source : String}
    (h : SameOutside places tree other) (hr : tree.reach source ∉ places) :
    load other source = load tree source :=
  load_congr (h.readText_eq hr)

end Source

namespace Job

/-- A document whose source is told from other places than those in which trees may differ. -/
structure Fits (order : Order) (tree : FileTree) (stems : List String) (places : Set Place)
    (job : Job) : Prop where
  stem : job.stem ∈ stems
  source : tree.reach job.source ∉ places
  pending : ∀ graph pending, job.progress = .drawing graph pending → pending ⊆ order.formats

variable {order : Order} {draw : String → Except Failure String} {tree other : FileTree}
  {stems : List String} {places : Set Place} {job : Job}

theorem Fits.start {source stem : String} (hs : stem ∈ stems) (hr : tree.reach source ∉ places) :
    Fits order tree stems places (.start source stem) := by
  refine ⟨hs, hr, ?_⟩
  intro graph pending h
  cases h

theorem Fits.finished (hj : job.Fits order tree stems places) (failure : Option DocumentFailure) :
    Fits order tree stems places { job with progress := .finished failure } := by
  refine ⟨hj.stem, hj.source, ?_⟩
  intro graph pending h
  cases h

theorem Fits.drawing (hj : job.Fits order tree stems places) (graph : Graph)
    (written : List Artifact) {pending : List OutputFormat} (hp : pending ⊆ order.formats) :
    Fits order tree stems places { job with written, progress := .drawing graph pending } := by
  refine ⟨hj.stem, hj.source, ?_⟩
  intro graph pending h
  obtain ⟨rfl, rfl⟩ := Progress.drawing.inj h
  exact hp

/-- A step does the same in all trees that differ only in places where the document does not look,
and what it writes is an artifact of its own. -/
theorem Fits.step (hd : order.layout = Layout.ofFunction draw)
    (hs : order.Steady tree stems places) (hj : job.Fits order tree stems places) :
    ∃ next file, next.Fits order tree stems places ∧ next.stem = job.stem ∧
      Within (order.artifactPlaces tree [job.stem]) file ∧
      ∀ other, SameOutside places tree other → job.step order other = (next, other.update file) := by
  cases hp : job.progress with
  | waiting =>
    have hl := fun other (h : SameOutside places tree other) => Source.load_eq h hj.source
    cases hr : Source.load tree job.source with
    | error staged =>
      exact ⟨job.stop staged, none, hj.finished _, rfl, within_none,
        fun other h => step_unread hp ((hl other h).trans hr)⟩
    | ok graph =>
      exact ⟨{ job with progress := .drawing graph order.plan }, none,
        hj.drawing graph job.written (fun _ => Order.mem_plan.mp), rfl, within_none,
        fun other h => step_opened hp ((hl other h).trans hr)⟩
  | finished failure => exact ⟨job, none, hj, rfl, within_none, fun other _ => step_finished hp⟩
  | drawing graph pending =>
    cases pending with
    | nil =>
      exact ⟨{ job with progress := .finished none }, none, hj.finished none, rfl, within_none,
        fun other _ => step_completed hp⟩
    | cons format pending =>
      have hf := hj.pending graph _ hp
      obtain ⟨made, hm⟩ := order.exists_produce hd graph format
      cases made with
      | error failure =>
        exact ⟨job.stop ⟨.render, failure.withContext "document" job.source⟩, none,
          hj.finished _, rfl, within_none, fun other _ => step_unmade hp (hm other)⟩
      | ok content =>
        have ht := fun other h => hs.target other h job.stem hj.stem format
        cases hw : tree.target (order.artifactPath job.stem format) with
        | error fault =>
          obtain ⟨failure, hn⟩ := order.exists_unwritten job.stem content format fault
          exact ⟨job.stop ⟨.write, failure⟩, none, hj.finished _, rfl, within_none,
            fun other h => step_unwritten hp (hm other) (hn other ((ht other h).trans hw))⟩
        | ok place =>
          refine ⟨{ job with
              written := job.written ++ [order.artifact job.stem format]
              progress := .drawing graph pending },
            some (place, content), hj.drawing graph _ fun _ hm => hf (List.mem_cons_of_mem _ hm),
            rfl, ?_, fun other h =>
              step_written hp (hm other) (Order.write_of_target_ok ((ht other h).trans hw))⟩
          intro there text h
          obtain ⟨rfl, rfl⟩ := Prod.mk.inj (Option.some.inj h)
          exact ⟨job.stem, by simp, format, hf List.mem_cons_self, hw⟩

theorem run_succ (order : Order) (count : Nat) (job : Job) (tree : FileTree) :
    run order (count + 1) job tree =
      (run order count job tree).1.step order (run order count job tree).2 := by
  induction count generalizing job tree with
  | zero => rfl
  | succ count ih => rw [run, ih, run]

/-- What is left of a document that was worked on alone. -/
theorem Fits.run (hd : order.layout = Layout.ofFunction draw)
    (hs : order.Steady tree stems places) (hj : job.Fits order tree stems places) (count : Nat) :
    (run order count job tree).1.Fits order tree stems places ∧
      (run order count job tree).1.stem = job.stem ∧
      SameOutside places tree (run order count job tree).2 := by
  induction count with
  | zero => exact ⟨hj, rfl, .refl places tree⟩
  | succ count ih =>
    obtain ⟨hj', hn, ht⟩ := ih
    obtain ⟨next, file, hf, he, hw, hstep⟩ := hj'.step hd hs
    rw [run_succ, hstep _ ht]
    refine ⟨hf, he.trans hn, Order.sameOutside_update ht hw ?_⟩
    exact fun _ hp => hs.written (Order.artifactPlaces_singleton_subset hj'.stem hp)

theorem run_add (order : Order) (count more : Nat) (job : Job) (tree : FileTree) :
    Job.run order (count + more) job tree =
      Job.run order more (Job.run order count job tree).1 (Job.run order count job tree).2 := by
  induction more with
  | zero => rfl
  | succ more ih => rw [← Nat.add_assoc, run_succ, ih, run_succ]

/-- A document is finished once it had all its steps. -/
theorem run_of_le (order : Order) (source stem : String) (tree : FileTree) {count : Nat}
    (hc : stepsOf order ≤ count) :
    Job.run order count (.start source stem) tree =
      Job.run order (stepsOf order) (.start source stem) tree := by
  obtain ⟨more, rfl⟩ := Nat.exists_eq_add_of_le hc
  obtain ⟨made, rest, failure, -, hj⟩ := run_start order source stem tree (Nat.le_refl _)
  have hf : (Job.run order (stepsOf order) (.start source stem) tree).1.progress =
      .finished failure := by
    rw [hj]
  rw [run_add, run_finished hf]

end Job

namespace Batch

/-- Documents with stems of their own, none of which reads what is written for any of them. -/
structure Ready (order : Order) (tree : FileTree) (jobs : List Job) : Prop where
  names : ∀ job ∈ jobs, '/' ∉ job.stem.toList
  once : (jobs.map Job.stem).Nodup
  fits : ∀ job ∈ jobs, job.Fits order tree (jobs.map Job.stem)
    (order.artifactPlaces tree (jobs.map Job.stem))

/-- Every document is where its own steps would have led it alone, and so are its artifacts. -/
structure Separately (order : Order) (tree : FileTree) (jobs : List Job) (count : Nat → Nat)
    (batch : Batch) : Prop where
  documents : ∀ i, batch.jobs[i]? = jobs[i]?.map fun job => (Job.run order (count i) job tree).1
  others : SameOutside (order.artifactPlaces tree (jobs.map Job.stem)) tree batch.tree
  own : ∀ i job, jobs[i]? = some job → ∀ place ∈ order.artifactPlaces tree [job.stem],
    batch.tree.item? place = (Job.run order (count i) job tree).2.item? place

variable {order : Order} {draw : String → Except Failure String} {tree : FileTree}
  {jobs : List Job} {count : Nat → Nat} {batch other : Batch}

theorem Ready.steady (hr : Ready order tree jobs) :
    order.Steady tree (jobs.map Job.stem) (order.artifactPlaces tree (jobs.map Job.stem)) := by
  refine order.steady tree fun stem hs => ?_
  obtain ⟨job, hj, rfl⟩ := List.mem_map.mp hs
  exact hr.names job hj

theorem Ready.stem_ne (hr : Ready order tree jobs) {i j : Nat} {job job' : Job}
    (hi : jobs[i]? = some job) (hj : jobs[j]? = some job') (hn : i ≠ j) : job.stem ≠ job'.stem := by
  intro hs
  have hl : i < (jobs.map Job.stem).length := by
    rw [List.length_map]
    exact (List.getElem?_eq_some_iff.mp hi).1
  refine hn ((List.getElem?_inj hl hr.once).mp ?_)
  rw [List.getElem?_map, List.getElem?_map, hi, hj, Option.map_some, Option.map_some, hs]

/-- Where there is no document, nothing is done. -/
theorem Separately.advance_absent (h : Separately order tree jobs count batch) {position : Nat}
    (hp : jobs[position]? = none) :
    Separately order tree jobs (fun i => count i + if position = i then 1 else 0)
      (batch.advance order position) := by
  have hb := h.documents position
  rw [hp] at hb
  have ha : batch.advance order position = batch := by simp only [Batch.advance, hb, Option.map_none]
  rw [ha]
  have hn : ∀ i job, jobs[i]? = some job → position ≠ i := by
    rintro i job hi rfl
    rw [hp] at hi
    cases hi
  refine ⟨fun i => ?_, h.others, fun i job hi place hm => ?_⟩
  · rw [h.documents i]
    cases hi : jobs[i]? with
    | none => rfl
    | some job => rw [if_neg (hn i job hi), Nat.add_zero]
  · rw [if_neg (hn i job hi)]
    exact h.own i job hi place hm

/-- A step of one document leaves the others, and what was written for them, as they are. -/
theorem Separately.advance (hd : order.layout = Layout.ofFunction draw)
    (hr : Ready order tree jobs) (h : Separately order tree jobs count batch) (position : Nat) :
    Separately order tree jobs (fun i => count i + if position = i then 1 else 0)
      (batch.advance order position) := by
  cases hp : jobs[position]? with
  | none => exact h.advance_absent hp
  | some job =>
    have hm := List.mem_of_getElem? hp
    have hb := h.documents position
    rw [hp, Option.map_some] at hb
    obtain ⟨hf, hn, ht⟩ := (hr.fits job hm).run hd hr.steady (count position)
    obtain ⟨next, file, -, -, hw, hstep⟩ := hf.step hd hr.steady
    rw [hn] at hw
    have hone : Job.run order (count position + 1) job tree =
        (next, (Job.run order (count position) job tree).2.update file) := by
      rw [Job.run_succ, hstep _ ht]
    have ha : batch.advance order position =
        { jobs := batch.jobs.set position next, tree := batch.tree.update file } := by
      simp only [Batch.advance, hb, hstep _ h.others]
    have hl : position < batch.jobs.length := (List.getElem?_eq_some_iff.mp hb).1
    have hsub : order.artifactPlaces tree [job.stem] ⊆
        order.artifactPlaces tree (jobs.map Job.stem) :=
      Order.artifactPlaces_singleton_subset (List.mem_map_of_mem hm)
    rw [ha]
    refine ⟨fun i => ?_, Order.sameOutside_update h.others hw hsub, fun i job' hi place hpl => ?_⟩
    · by_cases hi : position = i
      · subst hi
        rw [List.getElem?_set_self hl, hp, Option.map_some, if_pos rfl, hone]
      · rw [List.getElem?_set_ne hi, if_neg hi]
        exact h.documents i
    · by_cases hpi : position = i
      · subst hpi
        obtain rfl := Option.some.inj (hp.symm.trans hi)
        rw [if_pos rfl, hone]
        exact FileTree.item?_update_congr hw Order.nil_not_mem (h.own position job hi place hpl)
      · rw [if_neg hpi, Nat.add_zero, ← h.own i job' hi place hpl]
        refine FileTree.item?_update_outside hw Order.nil_not_mem ?_
        exact Order.artifactPlaces_disjoint (hr.names job' (List.mem_of_getElem? hi))
          (hr.names job hm) (hr.stem_ne hi hp (Ne.symm hpi)) hpl

/-- Only how many steps a document had matters, not when it had them. -/
theorem Separately.follow (hd : order.layout = Layout.ofFunction draw)
    (hr : Ready order tree jobs) (h : Separately order tree jobs count batch)
    (schedule : List Nat) :
    Separately order tree jobs (fun i => count i + schedule.count i)
      (batch.follow order schedule) := by
  -- For any counts of steps already made, so that each step of the schedule can be added to them.
  induction schedule generalizing batch count with
  | nil => exact h
  | cons position schedule ih =>
    have hc : (fun i => count i + (position :: schedule).count i) =
        fun i => (count i + if position = i then 1 else 0) + schedule.count i := by
      funext i
      rw [List.count_cons, Nat.add_comm (schedule.count i), ← Nat.add_assoc]
      simp only [beq_iff_eq]
    rw [hc]
    exact ih (h.advance hd hr position)

theorem separately_start (order : Order) (tree : FileTree) (jobs : List Job) :
    Separately order tree jobs (fun _ => 0) { jobs, tree } where
  documents := fun i => by simp [Job.run]
  others := .refl _ tree
  own := fun _ _ _ _ _ => rfl

/-- Two batches that are where their documents would have come alone are the same. -/
theorem Separately.eq (h : Separately order tree jobs count batch)
    (h' : Separately order tree jobs count other) :
    other.jobs = batch.jobs ∧ other.tree.home = batch.tree.home ∧
      ∀ place, other.tree.item? place = batch.tree.item? place := by
  refine ⟨List.ext_getElem? fun i => ?_, h'.others.home.trans h.others.home.symm, fun place => ?_⟩
  · rw [h.documents, h'.documents]
  · by_cases hp : place ∈ order.artifactPlaces tree (jobs.map Job.stem)
    · obtain ⟨stem, hs, format, hf, ht⟩ := hp
      obtain ⟨job, hj, rfl⟩ := List.mem_map.mp hs
      obtain ⟨i, hi⟩ := List.getElem?_of_mem hj
      have hm : place ∈ order.artifactPlaces tree [job.stem] := ⟨job.stem, by simp, format, hf, ht⟩
      rw [h.own i job hi place hm, h'.own i job hi place hm]
    · rw [h.others.item place hp, h'.others.item place hp]

/-- No source leads to where an artifact is written, or through it. -/
def Apart (order : Order) (tree : FileTree) (sources : List String) (stamp : Option Nat) : Prop :=
  ∀ source ∈ sources, tree.reach source ∉ order.artifactPlaces tree (Stem.assign sources stamp)

variable {sources : List String} {stamp : Option Nat} {source stem : String} {i : Nat}

theorem map_stem_start (sources : List String) (stamp : Option Nat) (tree : FileTree) :
    (start sources stamp tree).jobs.map Job.stem = Stem.assign sources stamp := by
  have hl : (Stem.assign sources stamp).length ≤ sources.length :=
    Nat.le_of_eq (Stem.length_assign sources stamp)
  rw [start, List.map_zipWith, ← List.map_uncurry_zip_eq_zipWith]
  exact List.map_snd_zip hl

theorem getElem?_start (hs : sources[i]? = some source)
    (ht : (Stem.assign sources stamp)[i]? = some stem) (tree : FileTree) :
    (start sources stamp tree).jobs[i]? = some (Job.start source stem) := by
  rw [start, List.getElem?_zipWith, hs, ht]

theorem exists_start {job : Job} (hj : (start sources stamp tree).jobs[i]? = some job) :
    ∃ source stem, sources[i]? = some source ∧
      (Stem.assign sources stamp)[i]? = some stem ∧ job = .start source stem := by
  rw [start, List.getElem?_zipWith] at hj
  split at hj
  · rename_i source stem hs ht
    exact ⟨source, stem, hs, ht, (Option.some.inj hj).symm⟩
  · cases hj

theorem ready_start (ha : Apart order tree sources stamp) :
    Ready order tree (start sources stamp tree).jobs := by
  have hm : ∀ job ∈ (start sources stamp tree).jobs, ∃ source stem, source ∈ sources ∧
      stem ∈ Stem.assign sources stamp ∧ job = .start source stem := by
    intro job hj
    obtain ⟨i, hi⟩ := List.getElem?_of_mem hj
    obtain ⟨source, stem, hs, ht, he⟩ := exists_start hi
    exact ⟨source, stem, List.mem_of_getElem? hs, List.mem_of_getElem? ht, he⟩
  refine ⟨fun job hj => ?_, ?_, fun job hj => ?_⟩
  · obtain ⟨source, stem, -, ht, rfl⟩ := hm job hj
    exact Stem.slash_not_mem_assign ht
  · rw [map_stem_start]
    exact Stem.nodup_assign sources stamp
  · obtain ⟨source, stem, hs, ht, rfl⟩ := hm job hj
    rw [map_stem_start]
    exact .start ht (ha source hs)

/-- Whatever the order of the steps, in the end each document is where it would have come alone. -/
theorem separately_of_complete (hd : order.layout = Layout.ofFunction draw)
    (ha : Apart order tree sources stamp) {schedule : List Nat}
    (hs : ∀ i < sources.length, Job.stepsOf order ≤ schedule.count i) :
    Separately order tree (start sources stamp tree).jobs (fun _ => Job.stepsOf order)
      ((start sources stamp tree).follow order schedule) := by
  have h := (separately_start order tree (start sources stamp tree).jobs).follow hd
    (ready_start ha) schedule
  have hr : ∀ i job, (start sources stamp tree).jobs[i]? = some job →
      Job.run order (0 + schedule.count i) job tree =
        Job.run order (Job.stepsOf order) job tree := by
    intro i job hi
    obtain ⟨source, stem, hi', -, rfl⟩ := exists_start hi
    rw [Nat.zero_add]
    exact Job.run_of_le order source stem tree (hs i (List.getElem?_eq_some_iff.mp hi').1)
  refine ⟨fun i => ?_, h.others, fun i job hi place hm => ?_⟩
  · refine (h.documents i).trans ?_
    cases hi : (start sources stamp tree).jobs[i]? with
    | none => rfl
    | some job => rw [Option.map_some, Option.map_some, hr i job hi]
  · rw [← hr i job hi]
    exact h.own i job hi place hm

theorem count_sequential (order : Order) (count i : Nat) :
    (sequential order count).count i = if i < count then Job.stepsOf order else 0 := by
  induction count with
  | zero => rfl
  | succ count ih =>
    have hs : sequential order (count + 1) =
        sequential order count ++ List.replicate (Job.stepsOf order) count := by
      simp [sequential, List.range_succ, List.flatMap_append]
    rw [hs, List.count_append, ih, List.count_replicate]
    simp only [beq_iff_eq]
    split <;> split <;> split <;> omega

theorem count_alternating (order : Order) {count i : Nat} (hi : i < count) :
    (alternating order count).count i = Job.stepsOf order := by
  rw [alternating]
  induction Job.stepsOf order with
  | zero => rfl
  | succ steps ih =>
    rw [List.replicate_succ, List.flatten_cons, List.count_append, ih, List.count_range, if_pos hi,
      Nat.add_comm]

/-- Both orders of work finish all documents. -/
theorem le_count_schedule (order : Order) (parallel : Bool) {count i : Nat} (hi : i < count) :
    Job.stepsOf order ≤ (schedule order parallel count).count i := by
  cases parallel with
  | true => exact Nat.le_of_eq (count_alternating order hi).symm
  | false =>
    refine Nat.le_of_eq ?_
    rw [schedule, if_neg Bool.false_ne_true, count_sequential, if_pos hi]

end Batch

namespace Order

variable {order : Order} {tree alone other : FileTree} {stem : String}

theorem readText_of_own {format : OutputFormat} {places : Set Place} {content : String}
    (ha : SameOutside places tree alone) (ho : SameOutside places tree other)
    (hi : ∀ place ∈ order.artifactPlaces tree [stem], other.item? place = alone.item? place)
    (hf : format ∈ order.formats)
    (hr : alone.readText (order.artifactPath stem format) = .ok content) :
    other.readText (order.artifactPath stem format) = .ok content := by
  obtain ⟨before, last, he⟩ := order.exists_endsIn stem
  obtain ⟨place, hl, hp⟩ := FileTree.readText_eq_ok.mp hr
  have ht := ha.symm.locate_ok hl
  have hd : tree.item? place ≠ some .directory := by
    intro hd
    rw [(ha.directory place).mpr hd] at hp
    cases hp
  have hm : place ∈ order.artifactPlaces tree [stem] :=
    ⟨stem, by simp, format, hf, (FileTree.target_endsIn_ok (he format)).mpr ⟨ht, hd⟩⟩
  exact FileTree.readText_eq_ok.mpr ⟨place, ho.locate_ok ht, (hi place hm).trans hp⟩

end Order

end CallFlow
