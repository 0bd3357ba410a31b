import CallFlow.Proofs.ParsedCases
import CallFlow.Proofs.Yields

namespace CallFlow.Corpus

section Returns

variable {cs : List Char} {lines : List String} {line text body : String}

/-- Of a stretch that a line feed ends, one carriage return does not count. -/
theorem unifyLineEnds_append_newline (hn : '\n' ∉ cs) (rest : List Char) :
    Text.unifyLineEnds (cs ++ '\n' :: rest) =
      Text.dropReturn cs ++ '\n' :: Text.unifyLineEnds rest := by
  induction cs with
  | nil => simp [Text.unifyLineEnds, Text.dropReturn]
  | cons c cs ih =>
    simp only [List.mem_cons, not_or] at hn
    obtain ⟨hc, hcs⟩ := hn
    cases cs with
    | nil =>
      by_cases hr : c = '\r'
      · subst hr
        rfl
      · have hd : Text.dropReturn [c] = [c] := if_neg (by simpa using hr)
        rw [hd]
        simp [Text.unifyLineEnds, hr]
    | cons d ds =>
      have hd : d ≠ '\n' := fun h => hcs (h ▸ List.mem_cons_self)
      have hu : Text.unifyLineEnds (c :: (d :: ds ++ '\n' :: rest)) =
          c :: Text.unifyLineEnds (d :: ds ++ '\n' :: rest) := by
        simp [Text.unifyLineEnds, hd]
      have hr : Text.dropReturn (c :: d :: ds) = c :: Text.dropReturn (d :: ds) := by
        simp only [Text.dropReturn, List.getLast?_cons_cons]
        split <;> rfl
      rw [List.cons_append, hu, ih hcs, hr, List.cons_append]

/-- A line that stands in a section but for one carriage return at its end. -/
def IsKeptLine (line : String) : Prop :=
  IsPlain (String.ofList (Text.dropReturn line.toList))

instance (line : String) : Decidable (IsKeptLine line) :=
  inferInstanceAs (Decidable (IsPlain _))

theorem IsKeptLine.bareLine_eq (h : IsKeptLine line) :
    bareLine line = String.ofList (Text.dropReturn line.toList) := by
  rw [← bareLine_of_getLast? h.not_return, bareLine_dropReturn, String.ofList_toList]

theorem IsKeptLine.isPlain_bareLine (h : IsKeptLine line) : IsPlain (bareLine line) := by
  rw [h.bareLine_eq]
  exact h

theorem IsPlain.isKeptLine (h : IsPlain line) : IsKeptLine line := by
  have hd : Text.dropReturn line.toList = line.toList := if_neg h.not_return
  rw [IsKeptLine, hd, String.ofList_toList]
  exact h

/-- A text without the carriage returns before its line ends. -/
def bared (text : String) : String :=
  Text.join "\n" ((Text.splitAt '\n' text).map bareLine)

theorem join_concat_empty (lines : List String) :
    Text.join "\n" (lines ++ [""]) = allLines lines := by
  by_cases hn : lines = []
  · rw [hn]
    rfl
  · rw [Text.join_append hn (List.cons_ne_nil _ _), Text.join_singleton, String.append_empty,
      allLines_eq_join hn]

theorem exists_allLines (h : IsEnded text) :
    ∃ lines, (∀ line ∈ lines, '\n' ∉ line.toList) ∧ text = allLines lines := by
  rcases h with rfl | h
  · exact ⟨[], fun line hm => absurd hm List.not_mem_nil, rfl⟩
  · refine ⟨rows text, fun line hm => newline_not_mem_splitAt (rows_subset text hm), ?_⟩
    rw [allLines_eq_join (rows_ne_nil text), ← terminated_eq_join, terminated, if_pos h]

theorem splitAt_allLines (h : ∀ line ∈ lines, '\n' ∉ line.toList) :
    Text.splitAt '\n' (allLines lines) = lines ++ [""] :=
  Text.splitAt_join h

theorem bared_allLines (h : ∀ line ∈ lines, '\n' ∉ line.toList) :
    bared (allLines lines) = allLines (lines.map bareLine) := by
  rw [bared, splitAt_allLines h, List.map_append, ← join_concat_empty]
  rfl

theorem newline_not_mem_bareLines (h : ∀ line ∈ lines, '\n' ∉ line.toList) :
    ∀ line ∈ lines.map bareLine, '\n' ∉ line.toList := by
  intro line hm
  obtain ⟨before, hb, rfl⟩ := List.mem_map.mp hm
  exact fun hc => h before hb (mem_bareLine hc)

theorem splitAt_bared (text : String) :
    Text.splitAt '\n' (bared text) = (Text.splitAt '\n' text).map bareLine := by
  have hn : (Text.splitAt '\n' text).map bareLine ≠ [] := by simp [Text.splitAt, Text.pieces]
  exact Text.splitAt_intercalate hn
    (newline_not_mem_bareLines fun line hm => newline_not_mem_splitAt hm)

theorem isPlain_bared (h : ∀ line ∈ Text.splitAt '\n' text, IsKeptLine line) :
    ∀ line ∈ Text.splitAt '\n' (bared text), IsPlain line := by
  intro line hm
  rw [splitAt_bared] at hm
  obtain ⟨before, hb, rfl⟩ := List.mem_map.mp hm
  exact (h before hb).isPlain_bareLine

theorem bared_of_isPlain (h : ∀ line ∈ Text.splitAt '\n' text, IsPlain line) :
    bared text = text := by
  have hm : (Text.splitAt '\n' text).map bareLine = Text.splitAt '\n' text := by
    rw [List.map_congr_left fun line hm => bareLine_of_getLast? (h line hm).not_return]
    exact List.map_id' _
  rw [bared, hm]
  exact Text.join_splitAt '\n' text

theorem unifyLineEnds_allLines (hl : ∀ line ∈ lines, '\n' ∉ line.toList)
    (hk : ∀ line ∈ lines, IsKeptLine line) :
    Text.unifyLineEnds (allLines lines).toList = (allLines (lines.map bareLine)).toList := by
  have ht (line : String) (rest : List String) :
      (allLines (line :: rest)).toList = line.toList ++ '\n' :: (allLines rest).toList := by
    rw [allLines_cons]
    simp
  induction lines with
  | nil => rfl
  | cons line rest ih =>
    obtain ⟨hll, hlr⟩ := List.forall_mem_cons.mp hl
    obtain ⟨hkl, hkr⟩ := List.forall_mem_cons.mp hk
    rw [ht, unifyLineEnds_append_newline hll, ih hlr hkr, List.map_cons, ht, hkl.bareLine_eq,
      String.toList_ofList]

/-- Texts are compared without those carriage returns. -/
theorem normal_eq (he : IsEnded text) (hk : ∀ line ∈ Text.splitAt '\n' text, IsKeptLine line) :
    normal text = unterminated (bared text) := by
  obtain ⟨lines, hl, rfl⟩ := exists_allLines he
  have hkl : ∀ line ∈ lines, IsKeptLine line := by
    intro line hm
    refine hk line ?_
    rw [splitAt_allLines hl]
    exact List.mem_append_left _ hm
  rw [normal, unifyLineEnds_allLines hl hkl, String.ofList_toList, bared_allLines hl]

theorem IsBody.normal_eq (h : IsBody text) : normal text = unterminated text := by
  rw [Corpus.normal_eq h.ended fun line hm => (h.plain line hm).isKeptLine, bared_of_isPlain h.plain]

/-- What is added to a text when it is written does not count. -/
theorem normal_terminated (h : IsEnded text) : normal (terminated text) = normal text := by
  rcases h.terminated with he | ⟨rfl, he⟩
  · rw [he]
  · rw [he]
    decide

theorem rows_allLines (hn : lines ≠ []) (h : ∀ line ∈ lines, '\n' ∉ line.toList) :
    rows (allLines lines) = lines := by
  have ho : opened (Text.join "\n" lines ++ "\n") = Text.join "\n" lines := by
    simp [opened]
  rw [rows, allLines_eq_join hn, ho]
  exact Text.splitAt_intercalate hn h

theorem rows_bared (h : IsEnded body) : rows (bared body) = (rows body).map bareLine := by
  obtain ⟨lines, hl, rfl⟩ := exists_allLines h
  rw [bared_allLines hl]
  by_cases hn : lines = []
  · rw [hn]
    decide
  · rw [rows_allLines hn hl, rows_allLines (by simpa using hn) (newline_not_mem_bareLines hl)]

end Returns

section Parts

/-- A section whose text has no carriage returns before its line ends. -/
def barePart (part : Section × String) : Section × String :=
  (part.1, bared part.2)

theorem withoutBlanks_append_blanks (lines : List String) (count : Nat) :
    withoutBlanks (lines ++ List.replicate count "") = withoutBlanks lines := by
  have hd : (List.replicate count "").dropWhile (· = "") = [] := by
    rw [List.dropWhile_replicate, if_pos (decide_eq_true rfl)]
  rw [withoutBlanks, List.reverse_append, List.reverse_replicate, List.dropWhile_append, hd]
  rfl

theorem exists_blanks_bare (lines : List String) :
    ∃ more, (withoutBlanks lines).map bareLine =
      withoutBlanks (lines.map bareLine) ++ List.replicate more "" := by
  obtain ⟨count, hc⟩ := exists_blanks lines
  obtain ⟨more, hm⟩ := exists_blanks ((withoutBlanks lines).map bareLine)
  have hb : bareLine "" = "" := by decide
  have hl : lines.map bareLine =
      (withoutBlanks lines).map bareLine ++ List.replicate count "" := by
    conv_lhs => rw [hc, List.map_append, List.map_replicate, hb]
  refine ⟨more, ?_⟩
  rw [hl, withoutBlanks_append_blanks]
  exact hm

theorem map_bareLine_bareLines (lines : List String) :
    (lines.map bareLine).map bareLine = lines.map bareLine := by
  rw [List.map_map]
  refine List.map_congr_left fun line _ => ?_
  exact bareLine_of_getLast? (getLast?_bareLine line)

/-- Up to carriage returns, sections are written like those without any. Only the blank lines at the
end may be more. -/
theorem exists_sectionLines_bare {parts : List (Section × String)}
    (h : ∀ part ∈ parts, IsEnded part.2) (gap : Nat) :
    ∃ wider, (sectionLines gap parts).map bareLine =
      (sectionLines wider (parts.map barePart)).map bareLine := by
  have hb : bareLine "" = "" := by decide
  induction parts with
  | nil => exact ⟨0, rfl⟩
  | cons part rest ih =>
    obtain ⟨hp, hr⟩ := List.forall_mem_cons.mp h
    cases rest with
    | nil =>
      obtain ⟨more, hm⟩ := exists_blanks_bare (rows part.2)
      refine ⟨more + gap, ?_⟩
      have hi : (withoutBlanks ((rows part.2).map bareLine)).map bareLine =
          withoutBlanks ((rows part.2).map bareLine) := by
        refine (List.map_congr_left fun line hl => ?_).trans (List.map_id' _)
        obtain ⟨before, -, rfl⟩ := List.mem_map.mp (withoutBlanks_subset _ hl)
        exact bareLine_of_getLast? (getLast?_bareLine before)
      simp only [sectionLines, List.map_cons, List.map_nil, List.map_append, List.map_replicate, hb,
        barePart, rows_bared hp, hm, hi, List.append_assoc, List.replicate_append_replicate]
    | cons next others =>
      obtain ⟨wider, hw⟩ := ih hr
      refine ⟨wider, ?_⟩
      simp only [sectionLines, List.map_append, List.map_cons] at hw ⊢
      simp only [hw, linesOf, barePart, rows_bared hp, List.map_cons, List.map_append,
        map_bareLine_bareLines]

end Parts

namespace Case

/-- A case whose text leaves no doubt about its sections, whatever its values are. -/
structure IsWritable (c : Case) : Prop where
  name : ∃ raw, c.name = slug raw
  documents_ne_nil : c.documents ≠ []
  comments : ∀ comment ∈ c.comments, IsCommentLine comment
  labels : ∀ part ∈ c.sections, IsLabel part.1.label
  args : ∀ arg ∈ c.args, '\n' ∉ arg.toList
  args_kept : Text.Words.split? (Text.trim (Text.Words.join c.args)) = some c.args
  documents : ∀ document ∈ c.documents, IsBody document.contents
  values_ended : ∀ expectation ∈ c.expectations, IsEnded expectation.value
  values_kept : ∀ expectation ∈ c.expectations,
    ∀ line ∈ Text.splitAt '\n' expectation.value, IsKeptLine line

/-- The case with values that have no carriage returns before their line ends. -/
def bared (c : Case) : Case :=
  { c with expectations := c.expectations.map fun expectation =>
      { expectation with value := Corpus.bared expectation.value } }

/-- Two cases by the same name that come to the same verdict. -/
structure ReadsAs (c other : Case) : Prop where
  suite_eq : other.suite = c.suite
  name_eq : other.name = c.name
  args_eq : other.args = c.args
  yields : c.expectations ≠ [] → ∀ source kind,
    yieldOfAll source kind other.documents = yieldOfAll source kind c.documents
  expectations : List.Forall₂ (fun expectation kept => kept.kind = expectation.kind ∧
    normal kept.value = normal expectation.value) c.expectations other.expectations

variable {c : Case}

theorem ReadsAs.refl (c : Case) : c.ReadsAs c :=
  ⟨rfl, rfl, rfl, fun _ _ _ => rfl, List.forall₂_same.mpr fun _ _ => ⟨rfl, rfl⟩⟩

theorem ReadsAs.id_eq {other : Case} (h : c.ReadsAs other) : other.id = c.id := by
  rw [id, id, h.suite_eq, h.name_eq]

theorem IsWritable.sections_bared (h : c.IsWritable) : c.bared.sections = c.sections.map barePart := by
  have hd : ∀ document ∈ c.documents,
      (Section.document document.path, document.contents) =
        barePart (.document document.path, document.contents) := by
    intro document hm
    rw [barePart, bared_of_isPlain (h.documents document hm).plain]
  rw [sections, sections, bared, List.map_append, List.map_map, List.map_map, List.map_map,
    List.map_congr_left hd]
  rfl

theorem IsWritable.isEnded (h : c.IsWritable) : ∀ part ∈ c.sections, IsEnded part.2 := by
  intro part hm
  rcases List.mem_append.mp hm with hm | hm
  · obtain ⟨document, hd, rfl⟩ := List.mem_map.mp hm
    exact (h.documents document hd).ended
  · obtain ⟨expectation, he, rfl⟩ := List.mem_map.mp hm
    exact h.values_ended expectation he

theorem IsWritable.sections_ne_nil (h : c.IsWritable) : c.sections ≠ [] := by
  simp [sections, h.documents_ne_nil]

theorem IsWritable.readable_bared (h : c.IsWritable) : c.bared.Readable where
  name := h.name
  documents_ne_nil := h.documents_ne_nil
  comments := by
    intro comment hm
    have hc := h.comments comment hm
    exact ⟨hc.no_newline, hc.is_comment, hc.not_return⟩
  labels := by
    intro part hm
    rw [h.sections_bared] at hm
    obtain ⟨before, hb, rfl⟩ := List.mem_map.mp hm
    have hl := h.labels before hb
    exact ⟨hl.no_newline, hl.trimmed⟩
  args := h.args_kept
  bodies := by
    intro part hm
    rcases List.mem_append.mp hm with hm | hm
    · obtain ⟨document, hd, rfl⟩ := List.mem_map.mp hm
      exact (h.documents document hd).plain
    · obtain ⟨kept, hk, rfl⟩ := List.mem_map.mp hm
      obtain ⟨expectation, he, rfl⟩ := List.mem_map.mp hk
      exact isPlain_bared (h.values_kept expectation he)

theorem IsWritable.exists_lines_bared (h : c.IsWritable) (gap : Nat) :
    ∃ wider, (c.lines gap).map bareLine = (c.bared.lines wider).map bareLine := by
  obtain ⟨wider, hw⟩ := exists_sectionLines_bare h.isEnded gap
  refine ⟨wider, ?_⟩
  rw [lines, lines, List.map_append, List.map_append, h.sections_bared, hw]
  rfl

theorem restored_append {parts more : List (Section × String)} (hn : more ≠ []) (gap : Nat) :
    Corpus.restored gap (parts ++ more) =
      parts.map (fun part => (part.1, terminated part.2)) ++ Corpus.restored gap more := by
  induction parts with
  | nil => rfl
  | cons part rest ih =>
    rw [List.cons_append, List.map_cons, List.cons_append, ← ih]
    cases hr : rest ++ more with
    | nil => exact absurd (List.append_eq_nil_iff.mp hr).2 hn
    | cons next others => rw [Corpus.restored]

theorem exists_expectations_restored (gap : Nat) (expectations : List Expectation) :
    ∃ kept : List Expectation, Corpus.restored gap (expectations.map fun expectation =>
        (.expectation expectation.kind, expectation.value)) =
      kept.map fun expectation => (.expectation expectation.kind, expectation.value) := by
  obtain ⟨kept, hk, -⟩ := exists_map_of_forall₂ (S := fun _ _ : Expectation => True)
    (g := fun expectation : Expectation => (Section.expectation expectation.kind, expectation.value))
    (fun expectation part h => ⟨⟨expectation.kind, part.2⟩, Prod.ext h.1 rfl, trivial⟩)
    (forall₂_restored gap (expectations.map fun expectation : Expectation =>
      (Section.expectation expectation.kind, expectation.value)))
  exact ⟨kept, hk⟩

/-- In a case that expects something no document is the last section, so all of them are read as they
were, but for their last lines being ended. -/
theorem documents_restored (hn : c.expectations ≠ []) (suite : String) (gap : Nat) :
    (c.restored suite gap).documents = c.documents.map Document.ended := by
  obtain ⟨kept, hk⟩ := exists_expectations_restored gap c.expectations
  have he : (c.expectations.map fun expectation =>
      (Section.expectation expectation.kind, expectation.value)) ≠ [] := by simpa using hn
  have hd : (c.documents.map fun document =>
        (Section.document document.path, document.contents)).map
          (fun part => (part.1, terminated part.2)) =
      (c.documents.map Document.ended).map fun document =>
        (.document document.path, document.contents) := by
    rw [List.map_map, List.map_map]
    rfl
  rw [restored, sections, restored_append he, hd, hk, addAll_documents, addAll_expectations]
  exact List.nil_append _

/-- What is read of a case has the same name and comes to the same verdict. -/
theorem IsWritable.readsAs_restored (h : c.IsWritable) {gap : Nat}
    (hr : (c.bared.restored c.suite gap).WasRead c.suite) :
    c.ReadsAs (c.bared.restored c.suite gap) := by
  have hk := kept_restored c.suite gap c.bared
  refine ⟨hk.suite_eq, hk.name_eq, hk.args_eq, fun hn source kind => ?_, ?_⟩
  · have hb : c.bared.expectations ≠ [] := by simpa [bared] using hn
    rw [documents_restored hb]
    exact yieldOfAll_ended source kind fun document hm => (h.documents document hm).ended
  · refine forall₂_imp_of_mem (List.forall₂_map_left_iff.mp hk.expectations) ?_
    rintro expectation hm kept hkept ⟨hkind, hvalue⟩
    have hp := List.mem_map_of_mem (f := fun expectation : Expectation =>
      (Section.expectation expectation.kind, expectation.value)) hkept
    have hbody := (hr.sections _ (List.mem_append_right _ hp)).2
    refine ⟨hkind, ?_⟩
    rw [hbody.normal_eq, hvalue,
      normal_eq (h.values_ended expectation hm) (h.values_kept expectation hm)]

/-- Up to carriage returns, writable cases are written like those without any. -/
theorem exists_entries_bared {entries : List (Case × Nat)}
    (h : ∀ entry ∈ entries, entry.1.IsWritable) :
    ∃ others : List (Case × Nat),
      List.Forall₂ (fun entry other => other.1 = entry.1.bared) entries others ∧
      (entries.flatMap fun entry => entry.1.lines entry.2).map bareLine =
        (others.flatMap fun entry => entry.1.lines entry.2).map bareLine := by
  induction entries with
  | nil => exact ⟨[], .nil, rfl⟩
  | cons entry rest ih =>
    obtain ⟨he, hr⟩ := List.forall_mem_cons.mp h
    obtain ⟨wider, hw⟩ := he.exists_lines_bared entry.2
    obtain ⟨others, hf, hl⟩ := ih hr
    refine ⟨(entry.1.bared, wider) :: others, .cons rfl hf, ?_⟩
    rw [List.flatMap_cons, List.flatMap_cons, List.map_append, List.map_append, hw, hl]

theorem parseCases_written {suite : String} {cases : List Case} (hn : cases ≠ [])
    (h : ∀ c ∈ cases, c.IsWritable ∧ c.suite = suite) :
    ∃ result, parseCases suite (casesText cases) = .ok result ∧
      List.Forall₂ ReadsAs cases result := by
  have hl : ∀ c ∈ cases, ∀ line ∈ c.lines 0, '\n' ∉ line.toList := by
    intro c hm
    have hw := (h c hm).1
    exact c.newline_not_mem_lines hw.name (fun comment hc => (hw.comments comment hc).no_newline)
      (fun part hp => (hw.labels part hp).no_newline) hw.args
  have hs : ∀ c ∈ cases, c.sections ≠ [] := fun c hm => (h c hm).1.sections_ne_nil
  have hg : ∀ entry ∈ gapped cases, entry.1.IsWritable ∧ entry.1.suite = suite := by
    intro entry hm
    refine h entry.1 ?_
    rw [← map_fst_gapped cases]
    exact List.mem_map_of_mem hm
  obtain ⟨others, hf, hlines⟩ := exists_entries_bared fun entry hm => (hg entry hm).1
  have hne : others ≠ [] := by
    rintro rfl
    have hz := congrArg (List.map Prod.fst) (List.forall₂_nil_right_iff.mp hf)
    rw [map_fst_gapped] at hz
    exact hn hz
  have hr : ∀ other ∈ others, other.1.Readable := by
    intro other hm
    obtain ⟨entry, he, ho⟩ := exists_left_of_forall₂ hf hm
    rw [ho]
    exact (hg entry he).1.readable_bared
  have hp : parseCases suite (casesText cases) =
      .ok (others.map fun entry => entry.1.restored suite entry.2) := by
    refine parseCases_of_lines suite hne hr ?_
    rw [map_bareLine_casesText hn hs hl, fileLines_eq, hlines]
  refine ⟨_, hp, ?_⟩
  have hread := (wasRead_of_parseCases hp).2
  rw [← map_fst_gapped cases, List.forall₂_map_left_iff, List.forall₂_map_right_iff]
  refine forall₂_imp_of_mem hf ?_
  intro entry hm other ho he
  obtain ⟨hw, hsuite⟩ := hg entry hm
  have hwas := (hread _ (List.mem_map_of_mem ho)).1
  subst hsuite
  rw [he] at hwas ⊢
  exact hw.readsAs_restored hwas

end Case

end CallFlow.Corpus
