import CallFlow.Proofs.CaseOutlines
import CallFlow.Proofs.ParsedCases

namespace CallFlow.Corpus

namespace Reader

/-- A reader takes in lines, with comments anywhere between them. -/
inductive TakesIn (suite : String) : Reader → List String → Reader → Prop
  | done {reader : Reader} : TakesIn suite reader [] reader
  | comment {reader after : Reader} {lines : List String} (comments : List String)
      (rest : TakesIn suite { reader with comments } lines after) : TakesIn suite reader lines after
  | line {reader next after : Reader} {line : String} {lines : List String}
      (read : reader.readLine suite line = .ok next) (rest : TakesIn suite next lines after) :
      TakesIn suite reader (line :: lines) after

variable {suite line : String} {lines front rest : List String} {reader after : Reader}
  {fault : TextFault}

theorem takesIn_of_foldlM (h : lines.foldlM (step suite) reader = .ok after) :
    TakesIn suite reader (lines.filter fun line => !isComment line) after := by
  induction lines generalizing reader with
  | nil =>
    cases h
    exact .done
  | cons line lines ih =>
    rw [List.foldlM_cons] at h
    obtain ⟨next, hn, h⟩ := bind_eq_ok.mp h
    unfold step at hn
    split at hn
    · rename_i hc
      cases hn
      rw [List.filter_cons_of_neg (by simp [hc])]
      exact .comment _ (ih h)
    · rename_i hc
      rw [List.filter_cons_of_pos (by simp [hc])]
      exact .line hn (ih h)

theorem exists_stop_of_foldlM (h : lines.foldlM (step suite) reader = .error fault) :
    ∃ front line rest stopped, (lines.filter fun line => !isComment line) = front ++ line :: rest ∧
      TakesIn suite reader front stopped ∧ stopped.readLine suite line = .error fault := by
  induction lines generalizing reader with
  | nil => cases h
  | cons line lines ih =>
    rw [List.foldlM_cons] at h
    rcases bind_eq_error.mp h with hs | ⟨next, hn, h⟩
    · unfold step at hs
      split at hs
      · cases hs
      · rename_i hc
        rw [List.filter_cons_of_pos (by simp [hc])]
        exact ⟨[], line, _, reader, rfl, .done, hs⟩
    · obtain ⟨front, stop, rest, stopped, he, ht, hs⟩ := ih h
      unfold step at hn
      split at hn
      · rename_i hc
        cases hn
        rw [List.filter_cons_of_neg (by simp [hc])]
        exact ⟨front, stop, rest, stopped, he, .comment _ ht, hs⟩
      · rename_i hc
        rw [List.filter_cons_of_pos (by simp [hc]), he]
        exact ⟨line :: front, stop, rest, stopped, rfl, .line hn ht, hs⟩

namespace TakesIn

theorem append (h : TakesIn suite reader (front ++ rest) after) :
    ∃ between, TakesIn suite reader front between ∧ TakesIn suite between rest after := by
  generalize hl : front ++ rest = lines at h
  induction h generalizing front with
  | done =>
    obtain ⟨rfl, rfl⟩ := List.append_eq_nil_iff.mp hl
    exact ⟨_, .done, .done⟩
  | comment comments _ ih =>
    obtain ⟨between, hf, hr⟩ := ih hl
    exact ⟨between, .comment comments hf, hr⟩
  | line read more ih =>
    cases front with
    | nil =>
      rw [List.nil_append] at hl
      subst hl
      exact ⟨_, .done, .line read more⟩
    | cons first front =>
      obtain ⟨rfl, hrest⟩ := List.cons.inj hl
      obtain ⟨between, hf, hr⟩ := ih hrest
      exact ⟨between, .line read hf, hr⟩

theorem cons (h : TakesIn suite reader (line :: rest) after) :
    ∃ comments next, readLine suite { reader with comments } line = .ok next ∧
      TakesIn suite next rest after := by
  generalize hl : line :: rest = lines at h
  induction h with
  | done => cases hl
  | comment comments _ ih => exact ih hl
  | line read more =>
    cases hl
    exact ⟨_, _, read, more⟩

theorem keeps {p : List Case → Position → Prop}
    (hp : ∀ line ∈ lines, ∀ (cases : List Case) (comments : List String) (position : Position)
      (next : Reader), p cases position → readLine suite ⟨cases, comments, position⟩ line = .ok next →
        p next.cases next.position)
    (hb : p reader.cases reader.position) (h : TakesIn suite reader lines after) :
    p after.cases after.position := by
  induction h with
  | done => exact hb
  | comment comments _ ih => exact ih hp hb
  | line read _ ih =>
    obtain ⟨hl, hr⟩ := List.forall_mem_cons.mp hp
    exact ih hr (hl _ _ _ _ hb read)

end TakesIn

end Reader

section Places

variable {suite : String} {lines more : List String} {reader after : Reader}

theorem standsAfter_start : StandsAfter suite [] .start :=
  .lead [] fun _ hm => absurd hm List.not_mem_nil

theorem StandsAfter.takesIn (h : StandsAfter suite lines reader)
    (ht : reader.TakesIn suite more after) : StandsAfter suite (lines ++ more) after := by
  induction ht generalizing lines with
  | done => rwa [List.append_nil]
  | comment comments _ ih => exact ih (h.comments comments)
  | line read _ ih =>
    have hs := ih (h.readLine read)
    rwa [List.append_assoc] at hs

theorem faulty_of_parseCases {text : String} {fault : TextFault}
    (h : parseCases suite text = .error fault) : Faulty (outlineLines text) := by
  unfold parseCases at h
  rcases bind_eq_error.mp h with hr | ⟨reader, hr, h⟩
  · obtain ⟨front, line, rest, stopped, hl, ht, hs⟩ := Reader.exists_stop_of_foldlM hr
    rw [outlineLines, bareLines, hl]
    exact (standsAfter_start.takesIn ht).faulty_of_readLine hs rest
  · have hs := standsAfter_start.takesIn (Reader.takesIn_of_foldlM hr)
    rw [List.nil_append] at hs
    rcases bind_eq_error.mp h with hf | ⟨cases, hf, h⟩
    · exact hs.faulty_of_finish hf
    · exact (hs.finish hf).faulty h

/-- What is accepted is read as it stands. -/
theorem outlines_of_parseCases {text : String} {cases : List Case}
    (h : parseCases suite text = .ok cases) : Outlines suite (outlineLines text) cases := by
  obtain ⟨reader, hr, h⟩ := bind_eq_ok.mp h
  obtain ⟨found, hf, h⟩ := bind_eq_ok.mp h
  have hs := standsAfter_start.takesIn (Reader.takesIn_of_foldlM hr)
  rw [List.nil_append] at hs
  obtain ⟨rfl, -, -⟩ := checkCases_eq_ok.mp h
  exact hs.finish hf

end Places

section Refusals

variable {suite line : String} {lines rest : List String} {reader after : Reader}

namespace Reader.TakesIn

theorem position_of_no_banner (h : TakesIn suite reader lines after)
    (hl : ∀ line ∈ lines, isBanner line = false)
    (hb : ∃ current opened, reader.position = .body current opened) :
    ∃ current opened, after.position = .body current opened := by
  refine keeps (p := fun _ position => ∃ current opened, position = .body current opened)
    (fun line hm cases comments position next hb hr => ?_) hb h
  obtain ⟨current, opened, rfl⟩ := hb
  rcases cases_readLine_body hr with ⟨closed, hbanner, -, -⟩ | ⟨head, closed, -, -, rfl⟩ |
    ⟨part, -, -, rfl⟩ | ⟨-, -, -, rfl⟩ | ⟨c, -, -, -, rfl⟩
  · rw [hl line hm] at hbanner
    cases hbanner
  · exact ⟨_, _, rfl⟩
  · exact ⟨_, _, rfl⟩
  · exact ⟨_, _, rfl⟩
  · exact ⟨_, _, rfl⟩

/-- A section above the first title stays open. -/
theorem position_of_stray (h : TakesIn suite reader lines after)
    (hb : ∃ part, reader.position = .body none (some part)) :
    ∃ part, after.position = .body none (some part) := by
  refine keeps (p := fun _ position => ∃ part, position = .body none (some part))
    (fun line hm cases comments position next hb hr => ?_) hb h
  obtain ⟨part, rfl⟩ := hb
  rcases cases_readLine_body hr with ⟨closed, -, hc, -⟩ | ⟨head, closed, -, hc, -⟩ |
    ⟨part, -, -, rfl⟩ | ⟨-, hn, -, -⟩ | ⟨c, -, hn, -, -⟩
  · cases hc
  · cases hc
  · exact ⟨_, rfl⟩
  · cases hn
  · cases hn

/-- Above the first title there is no case. -/
theorem position_of_lead (h : TakesIn suite .start lines after)
    (hl : ∀ line ∈ lines, isBanner line = false) :
    ∃ opened, after.position = .body none opened := by
  refine keeps (p := fun _ position => ∃ opened, position = .body none opened)
    (fun line hm cases comments position next hb hr => ?_) ⟨none, rfl⟩ h
  obtain ⟨opened, rfl⟩ := hb
  rcases cases_readLine_body hr with ⟨closed, hbanner, -, -⟩ | ⟨head, closed, -, hc, rfl⟩ |
    ⟨part, -, -, rfl⟩ | ⟨-, -, -, rfl⟩ | ⟨c, -, -, hf, rfl⟩
  · rw [hl line hm] at hbanner
    cases hbanner
  · cases opened with
    | none =>
      cases hc
      exact ⟨_, rfl⟩
    | some part => cases hc
  · exact ⟨_, rfl⟩
  · exact ⟨_, rfl⟩
  · cases hf

theorem split_name (h : TakesIn suite reader lines after) (hb : reader.position = .name) :
    ((∀ line ∈ lines, isBlankLine line = true) ∧ after.position = .name) ∨
      ∃ above name more between c, lines = above ++ name :: more ∧
        (∀ line ∈ above, isBlankLine line = true) ∧ isBlankLine name = false ∧
        between.position = .closing c ∧ c.documents = [] ∧ TakesIn suite between more after := by
  induction h with
  | done => exact .inl ⟨fun _ hm => absurd hm List.not_mem_nil, hb⟩
  | comment comments _ ih => exact ih hb
  | @line reader next after line lines read rest ih =>
    obtain ⟨cases, told, position⟩ := reader
    cases hb
    rcases cases_readLine_name read with ⟨hblank, rfl⟩ | ⟨hname, rfl⟩
    · rcases ih rfl with ⟨hall, hp⟩ | ⟨above, name, more, between, c, rfl, ha, hn, hp, hd, ht⟩
      · exact .inl ⟨List.forall_mem_cons.mpr ⟨hblank, hall⟩, hp⟩
      · exact .inr ⟨line :: above, name, more, between, c, rfl,
          List.forall_mem_cons.mpr ⟨hblank, ha⟩, hn, hp, hd, ht⟩
    · exact .inr ⟨[], line, lines, _, _, rfl, fun _ hm => absurd hm List.not_mem_nil, hname, rfl, rfl,
        rest⟩

theorem split_closing {c : Case} (h : TakesIn suite reader lines after)
    (hb : reader.position = .closing c) :
    ((∀ line ∈ lines, isBlankLine line = true) ∧ after.position = .closing c) ∨
      ∃ below closing more between, lines = below ++ closing :: more ∧
        (∀ line ∈ below, isBlankLine line = true) ∧ isBanner closing = true ∧
        between.position = .body (some c) none ∧ TakesIn suite between more after := by
  induction h with
  | done => exact .inl ⟨fun _ hm => absurd hm List.not_mem_nil, hb⟩
  | comment comments _ ih => exact ih hb
  | @line reader next after line lines read rest ih =>
    obtain ⟨cases, told, position⟩ := reader
    cases hb
    rcases cases_readLine_closing read with ⟨hblank, rfl⟩ | ⟨hbanner, rfl⟩
    · rcases ih rfl with ⟨hall, hp⟩ | ⟨below, closing, more, between, rfl, ha, hc, hp, ht⟩
      · exact .inl ⟨List.forall_mem_cons.mpr ⟨hblank, hall⟩, hp⟩
      · exact .inr ⟨line :: below, closing, more, between, rfl,
          List.forall_mem_cons.mpr ⟨hblank, ha⟩, hc, hp, ht⟩
    · exact .inr ⟨[], line, lines, _, rfl, fun _ hm => absurd hm List.not_mem_nil, hbanner, rfl, rest⟩

theorem exists_next_of_banner (h : TakesIn suite reader (line :: lines) after)
    (hb : isBanner line = true) {current : Option Case} {opened : Option OpenSection}
    (hp : reader.position = .body current opened) :
    ∃ closed next, closeSection current opened = .ok closed ∧
      next.cases = reader.cases ++ closed.toList ∧ next.position = .name ∧
      TakesIn suite next lines after := by
  obtain ⟨cases, told, position⟩ := reader
  cases hp
  obtain ⟨told, next, hn, ht⟩ := h.cons
  simp only [readLine, hb, if_true] at hn
  obtain ⟨closed, hc, hn⟩ := bind_eq_ok.mp hn
  cases hn
  exact ⟨closed, _, hc, rfl, rfl, ht⟩

/-- Behind a title stands its case, of which nothing else is known yet. -/
theorem position_of_title {title : Title} (h : TakesIn suite reader title.lines after)
    {current : Option Case} {opened : Option OpenSection}
    (hb : reader.position = .body current opened) :
    ∃ c, after.position = .body (some c) none ∧ c.documents = [] := by
  obtain ⟨closed, next, -, -, hp, h⟩ := h.exists_next_of_banner title.opens hb
  rcases h.split_name hp with ⟨hall, -⟩ |
    ⟨above, name, more, between, c, he, ha, hn, hp, hd, h⟩
  · have hm := hall title.name (List.mem_append_right _ List.mem_cons_self)
    exact absurd (title.name_not_blank.symm.trans hm) Bool.false_ne_true
  · obtain ⟨-, -, rfl⟩ := eq_of_blanks title.above_blank title.name_not_blank ha hn he
    have hclosing := not_blank_of_banner title.closes
    rcases h.split_closing hp with ⟨hall, -⟩ | ⟨below, closing, more, last, he, hl, hc, hp, h⟩
    · have hm := hall title.closing (List.mem_append_right _ List.mem_cons_self)
      exact absurd (hclosing.symm.trans hm) Bool.false_ne_true
    · obtain ⟨-, -, rfl⟩ :=
        eq_of_blanks title.below_blank hclosing hl (not_blank_of_banner hc) he
      exact ⟨c, h.keeps (p := fun _ place => place = .body (some c) none)
        (fun _ hm => absurd hm List.not_mem_nil) hp, hd⟩

/-- Fields change nothing but arguments. -/
theorem position_of_fields (h : TakesIn suite reader lines after)
    (hl : ∀ line ∈ lines, IsInner line) (hb : ∃ c, reader.position = .body (some c) none) :
    ∃ c, after.position = .body (some c) none := by
  refine keeps (p := fun _ position => ∃ c, position = .body (some c) none)
    (fun line hm cases comments position next hb hr => ?_) hb h
  obtain ⟨c, rfl⟩ := hb
  rcases cases_readLine_body hr with ⟨closed, hbanner, -, -⟩ | ⟨head, closed, hh, -, -⟩ |
    ⟨part, -, hn, -⟩ | ⟨-, -, -, rfl⟩ | ⟨c, -, -, -, rfl⟩
  · exact absurd ((hl line hm).not_banner.symm.trans hbanner) (by decide)
  · exact absurd ((hl line hm).not_header.symm.trans hh) nofun
  · cases hn
  · exact ⟨_, rfl⟩
  · exact ⟨_, rfl⟩

theorem documents_eq_nil (h : TakesIn suite reader lines after)
    (hl : ∀ line ∈ lines, isBanner line = false ∧ ∀ path, sectionOf? line ≠ some (.document path))
    {c : Case} (hb : reader.position = .body (some c) none) (hd : c.documents = []) :
    ∃ c opened, after.position = .body (some c) opened ∧ (c.closed opened).documents = [] := by
  have hp := keeps (p := fun _ position => ∃ c opened, position = .body (some c) opened ∧
      c.documents = [] ∧ ∀ part ∈ opened, ∃ kind, part.head = .expectation kind)
    (fun line hm cases comments position next hb hr => ?_)
    ⟨c, none, hb, hd, fun _ hm => absurd hm (by simp)⟩ h
  · obtain ⟨c, opened, hp, hd, ho⟩ := hp
    refine ⟨c, opened, hp, ?_⟩
    cases opened with
    | none => exact hd
    | some part =>
      obtain ⟨kind, hk⟩ := ho part rfl
      rw [Case.closed, hk]
      exact hd
  · obtain ⟨c, opened, rfl, hd, ho⟩ := hb
    obtain ⟨hbanner, hheader⟩ := hl line hm
    have hclosed : (c.closed opened).documents = [] := by
      cases opened with
      | none => exact hd
      | some part =>
        obtain ⟨kind, hk⟩ := ho part rfl
        rw [Case.closed, hk]
        exact hd
    rcases cases_readLine_body hr with ⟨closed, hb, -, -⟩ | ⟨head, closed, hh, hc, rfl⟩ |
      ⟨part, -, rfl, rfl⟩ | ⟨-, rfl, -, rfl⟩ | ⟨c', -, -, hf, rfl⟩
    · exact absurd (hbanner.symm.trans hb) (by decide)
    · rw [closeSection_some] at hc
      cases hc
      refine ⟨_, _, rfl, hclosed, fun part hp => ?_⟩
      cases hp
      cases head with
      | document path => exact absurd hh (hheader path)
      | expectation kind => exact ⟨kind, rfl⟩
    · refine ⟨_, _, rfl, hd, fun part' hp => ?_⟩
      cases hp
      exact ho part rfl
    · exact ⟨_, _, rfl, hd, fun _ hm => absurd hm (by simp)⟩
    · obtain ⟨args, -, rfl⟩ := exists_args_of_setField hf
      exact ⟨_, _, rfl, hd, fun _ hm => absurd hm (by simp)⟩

theorem mem_cases (h : TakesIn suite reader lines after) {c : Case} (hc : c ∈ reader.cases) :
    c ∈ after.cases := by
  refine keeps (p := fun cases _ => c ∈ cases)
    (fun line _ cases comments position next hm hr => ?_) hc h
  cases position with
  | name =>
    rcases cases_readLine_name hr with ⟨-, rfl⟩ | ⟨-, rfl⟩
    · exact hm
    · exact hm
  | closing current =>
    rcases cases_readLine_closing hr with ⟨-, rfl⟩ | ⟨-, rfl⟩
    · exact hm
    · exact hm
  | body current opened =>
    rcases cases_readLine_body hr with ⟨closed, -, -, rfl⟩ | ⟨head, closed, -, -, rfl⟩ |
      ⟨part, -, -, rfl⟩ | ⟨-, -, -, rfl⟩ | ⟨c, -, -, -, rfl⟩
    · exact List.mem_append_left _ hm
    all_goals exact hm

end Reader.TakesIn

namespace Entry

theorem lines_below (entry : Entry) :
    ∀ line ∈ entry.fields ++ entry.blocks.flatMap Block.lines, isBanner line = false ∧
      (entry.documents = [] → ∀ path, sectionOf? line ≠ some (.document path)) := by
  intro line hm
  rcases List.mem_append.mp hm with hm | hm
  · have hi := entry.inner line hm
    exact ⟨hi.not_banner, fun _ path hh => absurd (hi.not_header.symm.trans hh) nofun⟩
  · obtain ⟨block, hb, hm⟩ := List.mem_flatMap.mp hm
    rcases List.mem_cons.mp hm with rfl | hm
    · refine ⟨not_banner_of_header block.opens, fun hd path hh => ?_⟩
      have hn := List.filterMap_eq_nil_iff.mp hd block hb
      have hhead := Option.some.inj (block.opens.symm.trans hh)
      rw [Block.document?, hhead] at hn
      cases hn
    · have hi := block.inner line hm
      exact ⟨hi.not_banner, fun _ path hh => absurd (hi.not_header.symm.trans hh) nofun⟩

end Entry

namespace Reader.TakesIn

theorem position_of_entries {entries : List Entry}
    (h : TakesIn suite reader (entryLines entries) after)
    (hb : ∃ current opened, reader.position = .body current opened) :
    ∃ current opened, after.position = .body current opened := by
  induction entries generalizing reader with
  | nil => exact h.position_of_no_banner (fun _ hm => absurd hm List.not_mem_nil) hb
  | cons entry entries ih =>
    have hl : TakesIn suite reader (entry.lines ++ entryLines entries) after := h
    obtain ⟨next, he, hr⟩ := hl.append
    rw [Entry.lines, List.append_assoc] at he
    obtain ⟨titled, ht, he⟩ := he.append
    obtain ⟨current, opened, hp⟩ := hb
    obtain ⟨c, hc, -⟩ := ht.position_of_title hp
    exact ih hr (he.position_of_no_banner (fun line hm => (entry.lines_below line hm).1) ⟨_, _, hc⟩)

theorem position_of_areEntries (h : TakesIn suite .start lines after) (hl : AreEntries lines) :
    ∃ current opened, after.position = .body current opened := by
  obtain ⟨lead, entries, hlead, rfl⟩ := hl
  obtain ⟨between, hb, h⟩ := h.append
  obtain ⟨opened, hp⟩ := hb.position_of_lead hlead
  exact h.position_of_entries ⟨_, _, hp⟩

theorem position_of_first {opened : Option OpenSection}
    (h : TakesIn suite reader (line :: lines) after) (hp : reader.position = .body none opened)
    (hn : isBanner line = false) (hb : isBlankLine line = false) :
    ∃ part, after.position = .body none (some part) := by
  obtain ⟨cases, told, position⟩ := reader
  cases hp
  obtain ⟨told, next, hr, h⟩ := h.cons
  refine h.position_of_stray ?_
  rcases cases_readLine_body hr with ⟨closed, hbanner, -, -⟩ | ⟨head, closed, -, hc, rfl⟩ |
    ⟨part, -, -, rfl⟩ | ⟨-, -, hblank, -⟩ | ⟨c, -, -, hf, -⟩
  · exact absurd (hn.symm.trans hbanner) (by decide)
  · cases opened with
    | none =>
      cases hc
      exact ⟨_, rfl⟩
    | some part => cases hc
  · exact ⟨_, rfl⟩
  · exact absurd (hb.symm.trans hblank) (by decide)
  · cases hf

/-- Below a title nothing else than arguments is taken. -/
theorem exists_args {c : Case} (h : TakesIn suite reader (line :: lines) after)
    (hp : reader.position = .body (some c) none) (hi : IsInner line) (hb : isBlankLine line = false) :
    ∃ args, argsOf? line = some args := by
  obtain ⟨cases, told, position⟩ := reader
  cases hp
  obtain ⟨told, next, hr, -⟩ := h.cons
  rcases cases_readLine_body hr with ⟨closed, hbanner, -, -⟩ | ⟨head, closed, hh, -, -⟩ |
    ⟨part, -, hn, -⟩ | ⟨-, -, hblank, -⟩ | ⟨c', -, -, hf, -⟩
  · exact absurd (hi.not_banner.symm.trans hbanner) (by decide)
  · exact absurd (hi.not_header.symm.trans hh) nofun
  · cases hn
  · exact absurd (hb.symm.trans hblank) (by decide)
  · obtain ⟨args, ha, -⟩ := exists_args_of_setField hf
    exact ⟨args, ha⟩

theorem exists_title {current : Option Case} {opened : Option OpenSection}
    (h : TakesIn suite reader (line :: lines) after) (hp : reader.position = .body current opened)
    (hb : isBanner line = true) (he : ∃ current opened, after.position = .body current opened) :
    ∃ (title : Title) (more : List String), line :: lines = title.lines ++ more := by
  obtain ⟨current, opened, he⟩ := he
  obtain ⟨closed, next, -, -, hp, h⟩ := h.exists_next_of_banner hb hp
  rcases h.split_name hp with ⟨-, ha⟩ | ⟨above, name, more, between, c, rfl, ha, hn, hp, -, h⟩
  · cases he.symm.trans ha
  · rcases h.split_closing hp with ⟨-, ha⟩ | ⟨below, closing, more, last, rfl, hl, hc, -, -⟩
    · cases he.symm.trans ha
    · let title : Title := ⟨line, above, name, below, closing, hb, ha, hn, hl, hc⟩
      exact ⟨title, more, (title.lines_append more).symm⟩

theorem exists_noDocument {entry : Entry} (h : TakesIn suite reader (entry.lines ++ lines) after)
    (hp : ∃ current opened, reader.position = .body current opened) (hd : entry.documents = [])
    (hw : ∀ line ∈ lines.head?, isBanner line = true) {found : List Case}
    (hf : after.finish = .ok found) : ∃ c ∈ found, c.documents = [] := by
  obtain ⟨current, opened, hp⟩ := hp
  obtain ⟨between, he, h⟩ := h.append
  rw [Entry.lines, List.append_assoc] at he
  obtain ⟨titled, ht, he⟩ := he.append
  obtain ⟨c, hc, hcd⟩ := ht.position_of_title hp
  obtain ⟨c, opened, hb, hdocs⟩ := he.documents_eq_nil
    (fun line hm => ⟨(entry.lines_below line hm).1, (entry.lines_below line hm).2 hd⟩) hc hcd
  obtain ⟨last, open', closed, hl, hclose, rfl⟩ := cases_finish hf
  refine ⟨c.closed opened, ?_, hdocs⟩
  cases lines with
  | nil =>
    have hs := h.keeps (p := fun _ place => place = .body (some c) opened)
      (fun _ hm => absurd hm List.not_mem_nil) hb
    cases hl.symm.trans hs
    rw [closeSection_some] at hclose
    cases hclose
    exact List.mem_append_right _ List.mem_cons_self
  | cons line lines =>
    obtain ⟨closed, next, hclosed, hcases, -, hr⟩ := h.exists_next_of_banner (hw line rfl) hb
    rw [closeSection_some] at hclosed
    cases hclosed
    refine List.mem_append_left _ (hr.mem_cases ?_)
    rw [hcases]
    exact List.mem_append_right _ List.mem_cons_self

end Reader.TakesIn

theorem Faulty.not_read (hf : Faulty lines) (h : Reader.TakesIn suite .start lines reader)
    {cases : List Case} (hr : reader.finish = .ok cases) (hn : cases ≠ [])
    (hd : ∀ c ∈ cases, c.documents ≠ []) : False := by
  obtain ⟨current, opened, closed, hp, hc, -⟩ := Reader.cases_finish hr
  cases hf with
  | stray lead line rest lead_no_banner no_banner not_blank =>
    obtain ⟨between, hl, h⟩ := h.append
    obtain ⟨opened, hb⟩ := hl.position_of_lead lead_no_banner
    obtain ⟨part, hs⟩ := h.position_of_first hb no_banner not_blank
    cases hp.symm.trans hs
    cases hc
  | untitled front opening rest behind opens no_title =>
    obtain ⟨between, hl, h⟩ := h.append
    obtain ⟨current, opened, hb⟩ := hl.position_of_areEntries behind
    obtain ⟨title, more, he⟩ := h.exists_title hb opens ⟨_, _, hp⟩
    exact no_title title more he
  | badField front title fields line rest behind inner line_inner not_blank no_args =>
    obtain ⟨between, hl, h⟩ := h.append
    obtain ⟨titled, hl, hfields⟩ := hl.append
    obtain ⟨before, hl, htitle⟩ := hl.append
    obtain ⟨current, opened, hb⟩ := hl.position_of_areEntries behind
    obtain ⟨c, hb, -⟩ := htitle.position_of_title hb
    obtain ⟨c, hb⟩ := hfields.position_of_fields inner ⟨c, hb⟩
    obtain ⟨args, ha⟩ := h.exists_args hb line_inner not_blank
    exact absurd (no_args.symm.trans ha) nofun
  | noCase lines no_title =>
    obtain ⟨lead, entries, hl, he, ht⟩ := (standsAfter_start.takesIn h).finish hr
    cases ht with
    | nil => exact hn rfl
    | @cons entry c entries cases _ _ =>
      refine no_title lead entry.title
        (entry.fields ++ entry.blocks.flatMap Block.lines ++ entryLines entries)
        ⟨lead, [], fun line hm => not_banner_of_blank (hl line hm), (List.append_nil lead).symm⟩
        (he.trans ?_)
      simp [entryLines, Entry.lines]
  | noDocument front entry rest behind whole none_stands =>
    rw [List.append_assoc] at h
    obtain ⟨between, hl, h⟩ := h.append
    obtain ⟨c, hm, hcd⟩ :=
      h.exists_noDocument (hl.position_of_areEntries behind) none_stands whole hr
    exact hd c hm hcd

theorem not_faulty_of_parseCases {text : String} {cases : List Case}
    (h : parseCases suite text = .ok cases) : ¬Faulty (outlineLines text) := by
  intro hf
  obtain ⟨reader, hr, h⟩ := bind_eq_ok.mp h
  obtain ⟨found, hfound, h⟩ := bind_eq_ok.mp h
  obtain ⟨rfl, hn, hd⟩ := checkCases_eq_ok.mp h
  exact hf.not_read (Reader.takesIn_of_foldlM hr) hfound hn hd

end Refusals

theorem newline_not_mem_outlineLines {text line : String} (h : line ∈ outlineLines text) :
    '\n' ∉ line.toList := by
  obtain ⟨written, hw, rfl⟩ := List.mem_map.mp (List.mem_filter.mp h).1
  exact (isLine_bareLine hw).no_newline

/-- A text is refused exactly where its outline is faulty. Otherwise it has one case for each entry, in
order, with the bodies of its blocks as they stand. -/
theorem parseCases_outline (suite text : String) :
    ((∃ fault, parseCases suite text = .error fault) ↔ Faulty (outlineLines text)) ∧
    ∀ cases, parseCases suite text = .ok cases →
      ∃ lead entries, (∀ line ∈ lead, isBlankLine line = true) ∧
        outlineLines text = lead ++ entryLines entries ∧
        List.Forall₂ (Entry.Tells suite) entries cases ∧
        ∀ entry ∈ entries, ∀ block ∈ entry.blocks, Holds (bodyText block.rows) block.rows := by
  refine ⟨⟨fun ⟨fault, h⟩ => faulty_of_parseCases h, fun hf => ?_⟩, fun cases h => ?_⟩
  · cases h : parseCases suite text with
    | error fault => exact ⟨fault, rfl⟩
    | ok cases => exact absurd hf (not_faulty_of_parseCases h)
  · obtain ⟨lead, entries, hl, he, ht⟩ := outlines_of_parseCases h
    refine ⟨lead, entries, hl, he, ht, fun entry hm block hb => ?_⟩
    refine holds_bodyText fun row hr => ?_
    have hrow : row ∈ outlineLines text := by
      rw [he]
      refine List.mem_append_right _ (List.mem_flatMap.mpr ⟨entry, hm, ?_⟩)
      exact List.mem_append_right _ (List.mem_flatMap.mpr ⟨block, hb, List.mem_cons_of_mem _ hr⟩)
    exact newline_not_mem_outlineLines hrow

def twoEntries : String :=
  "\n=====\nOne, first\n\n=====\nargs: -s 'a b'\n--- file: m.xml ---\n\nx\r\n$// inside\ny\n" ++
  "--- expect:modules ---\n======\ntwo\n=====\n--- file: n.xml ---"

theorem twoEntries_outlined :
    Faulty (outlineLines "args: a\n") ∧
    ∃ cases, parseCases "s" twoEntries = .ok cases ∧
      cases.map Case.name = ["one-first", "two"] ∧
      cases.map Case.documents = [[⟨"m.xml", "\nx\ny\n"⟩], [⟨"n.xml", ""⟩]] ∧
      ∃ lead entries, (∀ line ∈ lead, isBlankLine line = true) ∧
        outlineLines twoEntries = lead ++ entryLines entries ∧
        List.Forall₂ (Entry.Tells "s") entries cases ∧
        ∀ entry ∈ entries, ∀ block ∈ entry.blocks, Holds (bodyText block.rows) block.rows := by
  have hf : parseCases "s" "args: a\n" = .error .strayContent := by decide +kernel
  have hp : parseCases "s" twoEntries =
      .ok [⟨"s", "one-first", ["-s", "a b"], [⟨"m.xml", "\nx\ny\n"⟩], [⟨"modules", ""⟩], []⟩,
        ⟨"s", "two", [], [⟨"n.xml", ""⟩], [], ["$// inside"]⟩] := by decide +kernel
  exact ⟨(parseCases_outline "s" "args: a\n").1.mp ⟨_, hf⟩, _, hp, rfl, rfl,
    (parseCases_outline "s" twoEntries).2 _ hp⟩

end CallFlow.Corpus
