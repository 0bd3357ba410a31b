import CallFlow.Proofs.OutlinedTexts

namespace CallFlow.Corpus

def commentsOf (cases : List Case) : List String :=
  cases.flatMap Case.comments

section Written

variable {suite line : String} {c : Case} {cases : List Case}

theorem isComment_bareLine (line : String) : isComment (bareLine line) = isComment line := by
  rw [isComment, isComment, Text.trim, Text.trim, trimChars_bareLine]

theorem filter_comments_of_no_comment {lines : List String}
    (h : ∀ line ∈ lines, isComment line = false) : lines.filter isComment = [] :=
  List.filter_eq_nil_iff.mpr fun line hm => by simp [h line hm]

theorem isComment_header (head : Section) : isComment head.header = false := by
  obtain ⟨cs, hl⟩ := exists_toList_header head
  exact isComment_of_head hl (by decide) (by decide)

theorem isComment_sectionLines {parts : List (Section × String)}
    (hp : ∀ part ∈ parts, IsBody part.2) (gap : Nat) :
    ∀ line ∈ sectionLines gap parts, isComment line = false := by
  have hrow {body row : String} (hb : IsBody body) (hm : row ∈ rows body) : isComment row = false :=
    (hb.plain row (rows_subset body hm)).not_comment
  induction parts with
  | nil => exact fun line hm => absurd hm List.not_mem_nil
  | cons part rest ih =>
    obtain ⟨hb, hr⟩ := List.forall_mem_cons.mp hp
    intro line hm
    cases rest with
    | nil =>
      rw [sectionLines, List.mem_cons, List.mem_append] at hm
      rcases hm with rfl | hm | hm
      · exact isComment_header part.1
      · exact hrow hb (withoutBlanks_subset _ hm)
      · rw [List.eq_of_mem_replicate hm]
        decide
    | cons next more =>
      rw [sectionLines, linesOf, List.mem_append, List.mem_cons, List.mem_append,
        List.mem_singleton] at hm
      rcases hm with (rfl | hm | rfl) | hm
      · exact isComment_header part.1
      · exact hrow hb hm
      · decide
      · exact ih hr line hm

theorem isComment_argsLines (args : List String) :
    ∀ line ∈ Case.argsLines args, isComment line = false := by
  intro line hm
  unfold Case.argsLines at hm
  split at hm
  · cases hm
  · rcases List.mem_cons.mp hm with rfl | hm
    · have hl : ("args: " ++ Text.Words.join args).toList =
          'a' :: ("rgs: ".toList ++ (Text.Words.join args).toList) := by
        rw [String.toList_append]
        rfl
      exact isComment_of_head hl (by decide) (by decide)
    · rw [List.mem_singleton.mp hm]
      decide

theorem isComment_slug (raw : String) : isComment (slug raw) = false := by
  obtain ⟨c, cs, hl, hc⟩ := exists_toList_slug raw
  exact isComment_of_head hl hc.plain.1 hc.plain.2.1

theorem Case.WasRead.filter_lines (h : c.WasRead suite) (gap : Nat) :
    (c.lines gap).filter isComment = c.comments := by
  obtain ⟨raw, hname⟩ := h.name
  have hc : c.comments.filter isComment = c.comments :=
    List.filter_eq_self.mpr fun comment hm => (h.comments comment hm).is_comment
  have hn : [banner, c.name, banner, ""].filter isComment = [] := by
    refine filter_comments_of_no_comment fun line hm => ?_
    simp only [List.mem_cons, List.not_mem_nil, or_false] at hm
    rcases hm with rfl | rfl | rfl | rfl
    · exact isComment_of_head rfl (by decide) (by decide)
    · rw [hname]
      exact isComment_slug raw
    · exact isComment_of_head rfl (by decide) (by decide)
    · decide
  have ha := filter_comments_of_no_comment (isComment_argsLines c.args)
  have hs := filter_comments_of_no_comment
    (isComment_sectionLines (fun part hm => (h.sections part hm).2) gap)
  rw [Case.lines, Case.openingLines, List.filter_append, List.filter_append, List.filter_append, hc,
    hn, ha, hs, List.append_nil, List.append_nil, List.append_nil]

theorem filter_fileLines (h : ∀ c ∈ cases, c.WasRead suite) :
    (fileLines cases).filter isComment = commentsOf cases := by
  induction cases with
  | nil => rfl
  | cons c rest ih =>
    obtain ⟨hc, hr⟩ := List.forall_mem_cons.mp h
    cases rest with
    | nil => rw [fileLines, hc.filter_lines, commentsOf, List.flatMap_singleton]
    | cons next more =>
      rw [fileLines, List.filter_append, hc.filter_lines, ih hr]
      rfl

theorem filter_bareLines_casesText (hn : cases ≠ [])
    (h : ∀ c ∈ cases, c.WasRead suite ∧ c.documents ≠ []) :
    (bareLines (casesText cases)).filter isComment = commentsOf cases := by
  have hw := fun c hm => (h c hm).1
  have hs : ∀ c ∈ cases, c.sections ≠ [] := by
    intro c hm
    simp [Case.sections, (h c hm).2]
  have hl : ∀ c ∈ cases, ∀ line ∈ c.lines 0, '\n' ∉ line.toList := fun c hm =>
    c.newline_not_mem_lines (hw c hm).name
      (fun comment hc => ((hw c hm).comments comment hc).no_newline)
      (fun part hp => ((hw c hm).sections part hp).1.no_newline) (hw c hm).args
  have hb : ∀ comment ∈ commentsOf cases, bareLine comment = comment := by
    intro comment hm
    obtain ⟨c, hc, hm⟩ := List.mem_flatMap.mp hm
    exact bareLine_of_getLast? ((hw c hc).comments comment hm).not_return
  have hf : ((fileLines cases).map bareLine).filter isComment =
      ((fileLines cases).filter isComment).map bareLine := by
    rw [List.filter_map]
    simp only [Function.comp_def, isComment_bareLine]
  rw [bareLines, map_bareLine_casesText hn hs hl, hf, filter_fileLines hw, List.map_congr_left hb,
    List.map_id']

end Written

/-- The case that a position is in. -/
def Position.case? : Position → Option Case
  | .name => none
  | .closing current => some current
  | .body current _ => current

/-- All comments so far, in order: those that cases keep, and those that wait for the next one. -/
def Reader.told (reader : Reader) : List String :=
  commentsOf (reader.cases ++ reader.position.case?.toList) ++ reader.comments

section Told

variable {suite line : String} {lines : List String} {reader after : Reader}

theorem commentsOf_append (cases more : List Case) :
    commentsOf (cases ++ more) = commentsOf cases ++ commentsOf more :=
  List.flatMap_append

theorem commentsOf_add (c : Case) (head : Section) (body : String) :
    commentsOf [c.add head body] = commentsOf [c] := by
  cases head <;> rfl

theorem commentsOf_closeSection {current closed : Option Case} {opened : Option OpenSection}
    (h : closeSection current opened = .ok closed) :
    commentsOf closed.toList = commentsOf current.toList := by
  unfold closeSection at h
  split at h
  · cases h
    rfl
  · cases h
  · cases h
    exact commentsOf_add _ _ _

namespace Reader

/-- A line that is no comment takes no comment away. -/
theorem told_readLine (h : reader.readLine suite line = .ok after) : after.told = reader.told := by
  obtain ⟨cases, told, position⟩ := reader
  cases position with
  | name =>
    rcases cases_readLine_name h with ⟨-, rfl⟩ | ⟨-, rfl⟩
    · rfl
    · simp [Reader.told, Position.case?, commentsOf, Case.new]
  | closing current =>
    rcases cases_readLine_closing h with ⟨-, rfl⟩ | ⟨-, rfl⟩
    · rfl
    · rfl
  | body current opened =>
    rcases cases_readLine_body h with ⟨closed, -, hc, rfl⟩ | ⟨head, closed, -, hc, rfl⟩ |
      ⟨part, -, -, rfl⟩ | ⟨-, -, -, rfl⟩ | ⟨c, -, -, hf, rfl⟩
    · simp only [Reader.told, Position.case?, Option.toList_none, List.append_nil, commentsOf_append,
        commentsOf_closeSection hc]
    · simp only [Reader.told, Position.case?, commentsOf_append, commentsOf_closeSection hc]
    · rfl
    · rfl
    · cases current with
      | none => cases hf
      | some current =>
        obtain ⟨args, -, rfl⟩ := exists_args_of_setField hf
        simp only [Reader.told, Position.case?, commentsOf_append]
        rfl

theorem step_of_not_comment (hc : isComment line = false) :
    reader.step suite line = reader.readLine suite line :=
  if_neg (by simp [hc])

theorem told_of_foldlM (h : lines.foldlM (step suite) reader = .ok after) :
    after.told = reader.told ++ lines.filter isComment := by
  induction lines generalizing reader with
  | nil =>
    cases h
    rw [List.filter_nil, List.append_nil]
  | cons line lines ih =>
    rw [List.foldlM_cons] at h
    obtain ⟨next, hn, h⟩ := bind_eq_ok.mp h
    rw [ih h]
    unfold step at hn
    split at hn
    · rename_i hc
      cases hn
      rw [List.filter_cons_of_pos hc]
      simp [Reader.told]
    · rename_i hc
      rw [List.filter_cons_of_neg hc, told_readLine hn]

/-- At the end the cases keep all but the comments that still wait. -/
theorem told_of_finish {cases : List Case} (h : reader.finish = .ok cases) :
    reader.told = commentsOf cases ++ reader.comments := by
  obtain ⟨current, opened, closed, hp, hc, rfl⟩ := cases_finish h
  rw [Reader.told, hp, commentsOf_append, commentsOf_append, commentsOf_closeSection hc]
  rfl

theorem comments_of_foldlM {p : Position → Prop}
    (hp : ∀ line ∈ lines, isComment line = false → ∀ (cases : List Case) (comments : List String)
      (position : Position) (next : Reader), p position →
        readLine suite ⟨cases, comments, position⟩ line = .ok next →
          p next.position ∧ next.comments = comments)
    (hb : p reader.position) (h : lines.foldlM (step suite) reader = .ok after) :
    p after.position ∧ after.comments = reader.comments ++ lines.filter isComment := by
  induction lines generalizing reader with
  | nil =>
    cases h
    rw [List.filter_nil, List.append_nil]
    exact ⟨hb, rfl⟩
  | cons line lines ih =>
    obtain ⟨hl, hr⟩ := List.forall_mem_cons.mp hp
    rw [List.foldlM_cons] at h
    obtain ⟨next, hn, h⟩ := bind_eq_ok.mp h
    unfold step at hn
    split at hn
    · rename_i hc
      cases hn
      obtain ⟨hpos, hcom⟩ := @ih { reader with comments := reader.comments ++ [line] } hr hb h
      refine ⟨hpos, ?_⟩
      rw [hcom, List.filter_cons_of_pos hc, List.append_assoc, List.singleton_append]
    · rename_i hc
      obtain ⟨hnext, hsame⟩ := hl (eq_false_of_ne_true hc) _ _ _ _ hb hn
      obtain ⟨hpos, hcom⟩ := ih hr hnext h
      refine ⟨hpos, ?_⟩
      rw [hcom, hsame, List.filter_cons_of_neg hc]

end Reader

end Told

section LastName

variable {suite : String} {lines front rest above : List String} {line opening : String}
  {reader after : Reader} {p : String → Bool}

theorem exists_parts_of_filter (h : lines.filter p = front ++ line :: rest) :
    ∃ before behind, lines = before ++ line :: behind ∧ before.filter p = front ∧
      behind.filter p = rest ∧ p line = true := by
  obtain ⟨first, second, rfl, hf, hs⟩ := List.filter_eq_append_iff.mp h
  obtain ⟨skipped, behind, rfl, hk, hl, hb⟩ := List.filter_eq_cons_iff.mp hs
  refine ⟨first ++ skipped, behind, (List.append_assoc _ _ _).symm, ?_, hb, hl⟩
  rw [List.filter_append, hf, List.filter_eq_nil_iff.mpr hk, List.append_nil]

theorem foldlM_parts {before behind : List String} {reader after : Reader}
    (h : (before ++ line :: behind).foldlM (Reader.step suite) reader = .ok after) :
    ∃ between next, before.foldlM (Reader.step suite) reader = .ok between ∧
      between.step suite line = .ok next ∧ behind.foldlM (Reader.step suite) next = .ok after := by
  rw [List.foldlM_append] at h
  obtain ⟨between, hb, h⟩ := bind_eq_ok.mp h
  rw [List.foldlM_cons] at h
  obtain ⟨next, hn, h⟩ := bind_eq_ok.mp h
  exact ⟨between, next, hb, hn, h⟩

/-- Behind a banner below entries a name may stand, blank lines left aside. -/
theorem Reader.TakesIn.position_of_opening (hf : AreEntries front) (ho : isBanner opening = true)
    (ha : ∀ line ∈ above, isBlankLine line = true)
    (h : TakesIn suite .start (front ++ opening :: above) after) : after.position = .name := by
  obtain ⟨between, hl, h⟩ := h.append
  obtain ⟨current, opened, hb⟩ := hl.position_of_areEntries hf
  obtain ⟨closed, next, -, -, hp, h⟩ := h.exists_next_of_banner ho hb
  rcases h.split_name hp with ⟨-, hs⟩ | ⟨blanks, name, more, _, _, rfl, -, hn, -, -, -⟩
  · exact hs
  · have hm := ha name (List.mem_append_right _ List.mem_cons_self)
    exact absurd (hn.symm.trans hm) Bool.false_ne_true

theorem comments_of_blanks {c : Case} (hp : reader.position = .closing c)
    (hl : ∀ line ∈ lines, isComment line = false → isBlankLine line = true)
    (h : lines.foldlM (Reader.step suite) reader = .ok after) :
    after.position = .closing c ∧ after.comments = reader.comments ++ lines.filter isComment := by
  refine Reader.comments_of_foldlM (p := (· = .closing c))
    (fun line hm hc cases comments position next hb hr => ?_) hp h
  subst hb
  rcases Reader.cases_readLine_closing hr with ⟨-, rfl⟩ | ⟨hbanner, -⟩
  · exact ⟨rfl, rfl⟩
  · exact absurd ((not_blank_of_banner hbanner).symm.trans (hl line hm hc)) Bool.false_ne_true

theorem comments_of_no_banner (hp : ∃ current opened, reader.position = .body current opened)
    (hl : ∀ line ∈ lines, isComment line = false → isBanner line = false)
    (h : lines.foldlM (Reader.step suite) reader = .ok after) :
    after.comments = reader.comments ++ lines.filter isComment := by
  refine (Reader.comments_of_foldlM (p := fun place => ∃ current opened, place = .body current opened)
    (fun line hm hc cases comments position next hb hr => ?_) hp h).2
  obtain ⟨current, opened, rfl⟩ := hb
  rcases Reader.cases_readLine_body hr with ⟨closed, hbanner, -, -⟩ | ⟨head, closed, -, -, rfl⟩ |
    ⟨part, -, -, rfl⟩ | ⟨-, -, -, rfl⟩ | ⟨c, -, -, -, rfl⟩
  · exact absurd ((hl line hm hc).symm.trans hbanner) Bool.false_ne_true
  all_goals exact ⟨⟨_, _, rfl⟩, rfl⟩

theorem comments_below_name {last : Entry} (hp : reader.position = .name)
    (hn : reader.step suite last.title.name = .ok after) (hc : isComment last.title.name = false)
    (hl : (lines.filter fun line => !isComment line) = last.title.below ++ last.title.closing ::
      (last.fields ++ last.blocks.flatMap Block.lines)) {final : Reader}
    (h : lines.foldlM (Reader.step suite) after = .ok final) :
    final.comments = lines.filter isComment := by
  obtain ⟨cases, told, position⟩ := reader
  subst hp
  rw [Reader.step_of_not_comment hc] at hn
  rcases Reader.cases_readLine_name hn with ⟨hblank, -⟩ | ⟨-, rfl⟩
  · exact absurd (last.title.name_not_blank.symm.trans hblank) Bool.false_ne_true
  obtain ⟨above, behind, rfl, habove, hbehind, hclosing⟩ := exists_parts_of_filter hl
  have hclosing : isComment last.title.closing = false := by simpa using hclosing
  obtain ⟨⟨done, waiting, position⟩, next, ha, hs, hb⟩ := foldlM_parts h
  have mem {lines : List String} {line : String} (hm : line ∈ lines) (hc : isComment line = false) :
      line ∈ lines.filter fun line => !isComment line :=
    List.mem_filter.mpr ⟨hm, by simp [hc]⟩
  obtain ⟨rfl, hwaiting⟩ := comments_of_blanks rfl
    (fun line hm hc => last.title.below_blank line (habove ▸ mem hm hc)) ha
  rw [Reader.step_of_not_comment hclosing] at hs
  rcases Reader.cases_readLine_closing hs with ⟨hblank, -⟩ | ⟨-, rfl⟩
  · exact absurd ((not_blank_of_banner last.title.closes).symm.trans hblank) Bool.false_ne_true
  have hfinal := comments_of_no_banner ⟨_, _, rfl⟩
    (fun line hm hc => (last.lines_below line (hbehind ▸ mem hm hc)).1) hb
  rw [hfinal, List.filter_append, List.filter_cons_of_neg (by simp [hclosing])]
  exact congrArg (· ++ behind.filter isComment) hwaiting

/-- The name of the last case parts the comments of a text. Those above it are written again, each of
them above the case that keeps it, and those below it are not. So all are written again exactly if none
stands below it. -/
theorem comments_above_last_name (suite text : String) (cases : List Case)
    (h : parseCases suite text = .ok cases) :
    ∃ lead entries, ∃ last : Entry, ∃ before behind,
      bareLines text = before ++ last.title.name :: behind ∧
      (before.filter fun line => !isComment line) =
        lead ++ entryLines entries ++ last.title.opening :: last.title.above ∧
      (behind.filter fun line => !isComment line) = last.title.below ++ last.title.closing ::
        (last.fields ++ last.blocks.flatMap Block.lines) ∧
      List.Forall₂ (Entry.Tells suite) (entries ++ [last]) cases ∧
      (bareLines (casesText cases)).filter isComment = before.filter isComment ∧
      (((bareLines text).filter isComment).Sublist (bareLines (casesText cases)) ↔
        behind.filter isComment = []) := by
  obtain ⟨lead, all, hl, he, ht⟩ := outlines_of_parseCases h
  obtain ⟨hn, hw⟩ := wasRead_of_parseCases h
  rcases List.eq_nil_or_concat' all with rfl | ⟨entries, last, rfl⟩
  · rw [List.forall₂_nil_left_iff] at ht
    exact absurd ht hn
  have hs : outlineLines text = lead ++ entryLines entries ++ last.title.opening :: last.title.above ++
      last.title.name :: (last.title.below ++ last.title.closing ::
        (last.fields ++ last.blocks.flatMap Block.lines)) := by
    rw [he]
    simp [entryLines, Entry.lines, Title.lines]
  obtain ⟨before, behind, hp, hbefore, hbehind, hname⟩ := exists_parts_of_filter hs
  have hname : isComment last.title.name = false := by simpa using hname
  obtain ⟨reader, hr, h⟩ := bind_eq_ok.mp h
  obtain ⟨found, hf, h⟩ := bind_eq_ok.mp h
  obtain ⟨rfl, -, -⟩ := checkCases_eq_ok.mp h
  have htold := Reader.told_of_foldlM hr
  rw [Reader.told_of_finish hf] at htold
  change _ = ([] : List String) ++ (bareLines text).filter isComment at htold
  have hlines : ((bareLines text).foldlM (Reader.step suite) .start) = .ok reader := hr
  rw [hp] at hlines
  obtain ⟨between, next, hb, hstep, hrest⟩ := foldlM_parts hlines
  have hbetween := Reader.takesIn_of_foldlM hb
  rw [hbefore] at hbetween
  have hposition := hbetween.position_of_opening
    ⟨lead, entries, fun line hm => not_banner_of_blank (hl line hm), rfl⟩ last.title.opens
    last.title.above_blank
  have hwaiting := comments_below_name hposition hstep hname hbehind hrest
  have hall : (bareLines text).filter isComment =
      before.filter isComment ++ behind.filter isComment := by
    rw [hp, List.filter_append, List.filter_cons_of_neg (by simp [hname])]
  have hkept : commentsOf cases = before.filter isComment := by
    rw [hwaiting, List.nil_append, hall] at htold
    exact List.append_cancel_right htold
  have hwritten := (filter_bareLines_casesText hn hw).trans hkept
  refine ⟨lead, entries, last, before, behind, hp, hbefore, hbehind, ht, hwritten, ?_⟩
  constructor
  · intro hsub
    have hc := hsub.filter isComment
    simp only [List.filter_filter, Bool.and_self] at hc
    rw [hwritten, hall] at hc
    have hlength := hc.length_le
    rw [List.length_append] at hlength
    exact List.eq_nil_of_length_eq_zero (by omega)
  · intro hnone
    rw [hall, hnone, List.append_nil, ← hwritten]
    exact List.filter_sublist

end LastName

def commentedText : String :=
  "$// top\n=====\n$// in a title\none\n$// below a name\n=====\n--- file: a.xml ---\nx\n" ++
  "$// in a section\r\n=====\ntwo\n=====\n--- file: b.xml ---\n"

theorem commentedText_kept :
    ∃ cases, parseCases "s" commentedText = .ok cases ∧
      (bareLines commentedText).filter isComment =
        ["$// top", "$// in a title", "$// below a name", "$// in a section"] ∧
      ∃ lead entries, ∃ last : Entry, ∃ before behind,
        bareLines commentedText = before ++ last.title.name :: behind ∧
        (before.filter fun line => !isComment line) =
          lead ++ entryLines entries ++ last.title.opening :: last.title.above ∧
        (behind.filter fun line => !isComment line) = last.title.below ++ last.title.closing ::
          (last.fields ++ last.blocks.flatMap Block.lines) ∧
        List.Forall₂ (Entry.Tells "s") (entries ++ [last]) cases ∧
        (bareLines (casesText cases)).filter isComment = before.filter isComment ∧
        (((bareLines commentedText).filter isComment).Sublist (bareLines (casesText cases)) ↔
          behind.filter isComment = []) := by
  have hp : parseCases "s" commentedText =
      .ok [⟨"s", "one", [], [⟨"a.xml", "x\n"⟩], [], ["$// top", "$// in a title"]⟩,
        ⟨"s", "two", [], [⟨"b.xml", ""⟩], [], ["$// below a name", "$// in a section"]⟩] := by
    decide +kernel
  exact ⟨_, hp, by decide +kernel, comments_above_last_name "s" commentedText _ hp⟩

/-- A comment behind the last section is lost. -/
theorem comment_behind_sections_lost :
    let text := "=====\none\n=====\n--- file: a.xml ---\nx\n$// last\n"
    ∃ cases, parseCases "s" text = .ok cases ∧
      ¬((bareLines text).filter isComment).Sublist (bareLines (casesText cases)) := by
  intro text
  have hp : parseCases "s" text = .ok [⟨"s", "one", [], [⟨"a.xml", "x\n"⟩], [], []⟩] := by
    decide +kernel
  have hc : (bareLines text).filter isComment = ["$// last"] := by decide +kernel
  obtain ⟨hn, hw⟩ := wasRead_of_parseCases hp
  refine ⟨_, hp, fun hs => ?_⟩
  have hm := (hs.filter isComment).subset (List.mem_filter.mpr ⟨hc ▸ List.mem_cons_self, by decide⟩)
  rw [filter_bareLines_casesText hn hw] at hm
  cases hm

end CallFlow.Corpus
