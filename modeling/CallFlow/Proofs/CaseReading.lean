import CallFlow.Proofs.CaseLines
import CallFlow.Success

namespace CallFlow.Corpus

section Beginnings

variable {line : String} {c : Char} {cs : List Char}

theorem isComment_of_head (hl : line.toList = c :: cs) (hb : Text.isBlank c = false)
    (hc : c ≠ '$') : isComment line = false := by
  rw [isComment, Text.startsWith, Text.trim, String.toList_ofList, hl, Text.trimChars_cons hb]
  have hm : commentMark.toList = '$' :: ['/', '/'] := rfl
  rw [hm, List.isPrefixOf_cons_cons, beq_false_of_ne hc.symm, Bool.false_and]

theorem isBanner_of_head (hl : line.toList = c :: cs) (hb : Text.isBlank c = false)
    (hc : c ≠ '=') : isBanner line = false := by
  rw [isBanner, hl, Text.trimChars_cons hb]
  simp [hc]

theorem isBlankLine_of_head (hl : line.toList = c :: cs) (hb : Text.isBlank c = false) :
    isBlankLine line = false := by
  refine decide_eq_false fun h => ?_
  have ht := congrArg String.toList h
  rw [Text.trim, String.toList_ofList, hl, Text.trimChars_cons hb] at ht
  cases ht

theorem sectionOf?_of_head (hl : line.toList = c :: cs) (hc : c ≠ '-') : sectionOf? line = none := by
  have hs : Text.startsWith line "---" = false := by
    have hm : "---".toList = '-' :: ['-', '-'] := rfl
    rw [Text.startsWith, hl, hm, List.isPrefixOf_cons_cons, beq_false_of_ne hc.symm, Bool.false_and]
  rw [sectionOf?, hs]
  rfl

end Beginnings

section Headers

/-- What a header names. -/
def Section.label : Section → String
  | document path => path
  | expectation kind => kind

def dashed (c : Char) (word rest : List Char) : List Char :=
  ['-', '-', '-', ' '] ++ (c :: word ++ ':' :: rest) ++ [' ', '-', '-', '-']

theorem toList_header_document (path : String) :
    (Section.document path).header.toList = dashed 'f' ['i', 'l', 'e'] (' ' :: path.toList) := by
  simp [Section.header, dashed]

theorem toList_header_expectation (kind : String) :
    (Section.expectation kind).header.toList =
      dashed 'e' ['x', 'p', 'e', 'c', 't'] kind.toList := by
  simp [Section.header, dashed]

theorem getLast?_header (head : Section) : head.header.toList.getLast? = some '-' := by
  cases head with
  | document path =>
    rw [toList_header_document, dashed, List.getLast?_append]
    rfl
  | expectation kind =>
    rw [toList_header_expectation, dashed, List.getLast?_append]
    rfl

theorem exists_toList_header (head : Section) : ∃ cs, head.header.toList = '-' :: cs := by
  cases head with
  | document path => exact ⟨_, toList_header_document path⟩
  | expectation kind => exact ⟨_, toList_header_expectation kind⟩

variable {line : String} {c : Char} {word rest : List Char}

theorem headerWords_eq (hl : line.toList = dashed c word rest) (hb : Text.isBlank c = false) :
    headerWords line = String.ofList (c :: word ++ ':' :: Text.trimRightChars rest) := by
  have hw : ((line.toList.dropWhile (· = '-')).reverse.dropWhile (· = '-')).reverse =
      ' ' :: (c :: word ++ ':' :: rest) ++ [' '] := by
    rw [hl]
    simp [dashed]
  have hc : Text.isBlank ':' = false := by decide
  rw [headerWords, Text.trim, hw, String.toList_ofList, Text.trimChars_append_blank (by decide),
    Text.trimChars_blank_cons (by decide), List.cons_append, Text.trimChars_cons hb,
    Text.trimRightChars_append_cons hc]
  rfl

theorem isHeader_of_dashed (hl : line.toList = dashed c word rest) :
    (!Text.startsWith line "---" || !Text.endsWith line "---" || line.length < 6) = false := by
  have hm : "---".toList = ['-', '-', '-'] := rfl
  have hs : Text.startsWith line "---" = true := by
    rw [Text.startsWith, hl, hm, List.isPrefixOf_iff_prefix]
    exact List.prefix_append_of_prefix
      ((List.prefix_append ['-', '-', '-'] [' ']).trans (List.prefix_append _ _))
  have he : Text.endsWith line "---" = true := by
    rw [Text.endsWith, hl, hm, List.isSuffixOf_iff_suffix]
    exact (List.suffix_append [' '] ['-', '-', '-']).trans (List.suffix_append _ _)
  have hn : ¬line.length < 6 := by
    rw [← String.length_toList, hl, dashed, List.length_append, List.length_append]
    simp only [List.length_cons, List.length_nil]
    omega
  rw [hs, he, decide_eq_false hn]
  rfl

theorem sectionOf?_header {head : Section} (ht : Text.trim head.label = head.label) :
    sectionOf? head.header = some head := by
  have hl := congrArg String.toList ht
  rw [Text.trim, String.toList_ofList] at hl
  have hfile : "file:".toList = ['f', 'i', 'l', 'e', ':'] := rfl
  have hexpect : "expect:".toList = ['e', 'x', 'p', 'e', 'c', 't', ':'] := rfl
  cases head with
  | document path =>
    have hl : Text.trimChars path.toList = path.toList := hl
    have hd := toList_header_document path
    have hf : Text.dropStart? "file:" (headerWords (Section.document path).header) =
        some (String.ofList (Text.trimRightChars (' ' :: path.toList))) := by
      rw [headerWords_eq hd (by decide), Text.dropStart?, hfile, String.toList_ofList]
      exact congrArg (Option.map String.ofList) (Text.after?_append ['f', 'i', 'l', 'e', ':'] _)
    have hp : Text.trim (String.ofList (Text.trimRightChars (' ' :: path.toList))) = path := by
      rw [Text.trim, String.toList_ofList, Text.trimChars_trimRightChars,
        Text.trimChars_blank_cons (by decide), hl]
      exact String.ofList_toList
    rw [sectionOf?, isHeader_of_dashed hd, hf]
    simp only [Bool.false_eq_true, if_false, hp]
  | expectation kind =>
    have hl : Text.trimChars kind.toList = kind.toList := hl
    have hd := toList_header_expectation kind
    have hf : Text.dropStart? "file:" (headerWords (Section.expectation kind).header) = none := by
      rw [headerWords_eq hd (by decide), Text.dropStart?, hfile, String.toList_ofList]
      exact congrArg (Option.map String.ofList) (Text.after?_cons_of_ne (by decide) _ _)
    have he : Text.dropStart? "expect:" (headerWords (Section.expectation kind).header) =
        some (String.ofList (Text.trimRightChars kind.toList)) := by
      rw [headerWords_eq hd (by decide), Text.dropStart?, hexpect, String.toList_ofList]
      exact congrArg (Option.map String.ofList)
        (Text.after?_append ['e', 'x', 'p', 'e', 'c', 't', ':'] _)
    have hk : Text.trim (String.ofList (Text.trimRightChars kind.toList)) = kind := by
      rw [Text.trim, String.toList_ofList, Text.trimChars_trimRightChars, hl]
      exact String.ofList_toList
    rw [sectionOf?, isHeader_of_dashed hd, hf, he]
    simp only [Bool.false_eq_true, if_false, hk]

end Headers

section Arguments

variable {line : String} {c : Char} {cs : List Char}

theorem toList_bareLine_of_head (hl : line.toList = c :: cs) (hc : c ≠ '\r') :
    ∃ ds, (bareLine line).toList = c :: ds := by
  rw [bareLine, String.toList_ofList, hl, List.reverse_cons, List.dropWhile_append]
  split
  · rw [List.dropWhile_cons_of_neg (by simpa using hc)]
    exact ⟨[], rfl⟩
  · rw [List.reverse_append]
    exact ⟨_, rfl⟩

theorem trimChars_bareLine (line : String) :
    Text.trimChars (bareLine line).toList = Text.trimChars line.toList := by
  have hs : line.toList = (line.toList.reverse.dropWhile (· = '\r')).reverse ++
      (line.toList.reverse.takeWhile (· = '\r')).reverse := by
    rw [← List.reverse_append, List.takeWhile_append_dropWhile, List.reverse_reverse]
  have hb : ∀ b ∈ (line.toList.reverse.takeWhile (· = '\r')).reverse, Text.isBlank b = true := by
    intro b hm
    have hr := List.all_eq_true.mp List.all_takeWhile b (List.mem_reverse.mp hm)
    rw [of_decide_eq_true hr]
    decide
  have ht := Text.trimChars_append_blanks hb (line.toList.reverse.dropWhile (· = '\r')).reverse
  rw [← hs] at ht
  rw [ht, bareLine, String.toList_ofList]

theorem setField_argsLine {c : Case} {args : List String}
    (ha : Text.Words.split? (Text.trim (Text.Words.join args)) = some args) :
    setField (some c) (bareLine ("args: " ++ Text.Words.join args)) = .ok { c with args } := by
  have hl : Text.trim (bareLine ("args: " ++ Text.Words.join args)) =
      String.ofList (['a', 'r', 'g', 's'] ++
        ':' :: Text.trimRightChars (' ' :: (Text.Words.join args).toList)) := by
    have hm : "args: ".toList = ['a', 'r', 'g', 's', ':', ' '] := rfl
    have hc := Text.trimRightChars_append_cons (c := ':') (by decide) ['r', 'g', 's']
      (' ' :: (Text.Words.join args).toList)
    rw [Text.trim, trimChars_bareLine, String.toList_append, hm]
    exact congrArg String.ofList ((Text.trimChars_cons (by decide) _).trans (congrArg _ hc))
  have hs : splitColon? (Text.trim (bareLine ("args: " ++ Text.Words.join args))) =
      some ("args", String.ofList (Text.trimRightChars (' ' :: (Text.Words.join args).toList))) := by
    rw [hl]
    simp [splitColon?]
  have ht : Text.trim (String.ofList
      (Text.trimRightChars (' ' :: (Text.Words.join args).toList))) =
      Text.trim (Text.Words.join args) := by
    rw [Text.trim, String.toList_ofList, Text.trimChars_trimRightChars,
      Text.trimChars_blank_cons (by decide)]
    rfl
  simp only [setField, hs, ht, ha]

end Arguments

/-- A line that is nothing but a line of a section. -/
structure IsPlain (line : String) : Prop where
  not_comment : isComment line = false
  not_banner : isBanner line = false
  not_header : sectionOf? line = none
  not_return : line.toList.getLast? ≠ some '\r'

theorem isPlain_iff {line : String} :
    IsPlain line ↔ isComment line = false ∧ isBanner line = false ∧ sectionOf? line = none ∧
      line.toList.getLast? ≠ some '\r' :=
  ⟨fun ⟨hc, hb, hh, hr⟩ => ⟨hc, hb, hh, hr⟩, fun ⟨hc, hb, hh, hr⟩ => ⟨hc, hb, hh, hr⟩⟩

instance (line : String) : Decidable (IsPlain line) :=
  decidable_of_iff _ isPlain_iff.symm

theorem isPlain_empty : IsPlain "" := by
  decide

def Case.closed (c : Case) : Option OpenSection → Case
  | none => c
  | some part => c.add part.head (bodyText part.lines)

theorem Case.closed_some (c : Case) (head : Section) (lines : List String) :
    c.closed (some ⟨head, lines⟩) = c.add head (bodyText lines) :=
  rfl

theorem closeSection_some (c : Case) (opened : Option OpenSection) :
    closeSection (some c) opened = .ok (some (c.closed opened)) := by
  cases opened <;> rfl

theorem checkCases_eq_ok {found cases : List Case} :
    checkCases found = .ok cases ↔
      cases = found ∧ found ≠ [] ∧ ∀ c ∈ found, c.documents ≠ [] := by
  unfold checkCases
  split
  · rename_i hn
    exact ⟨nofun, fun ⟨_, h, _⟩ => absurd hn h⟩
  · rename_i hn
    split
    · rename_i c hf
      have hd := List.find?_some hf
      exact ⟨nofun,
        fun ⟨_, _, h⟩ => absurd (of_decide_eq_true hd) (h c (List.mem_of_find?_eq_some hf))⟩
    · rename_i hf
      constructor
      · intro h
        cases h
        exact ⟨rfl, hn, fun c hm he => List.find?_eq_none.mp hf c hm (decide_eq_true he)⟩
      · rintro ⟨rfl, -, -⟩
        rfl

namespace Reader

variable {suite : String} {reader after : Reader} {line : String} {lines more comments : List String}
  {done : List Case} {current closed : Option Case} {opened : Option OpenSection}

theorem cases_readLine_name
    (h : readLine suite ⟨done, comments, .name⟩ line = .ok after) :
    (isBlankLine line = true ∧ after = ⟨done, comments, .name⟩) ∨
      isBlankLine line = false ∧
        after = ⟨done, [], .closing (.new suite (slug (Text.trim line)) comments)⟩ := by
  simp only [readLine] at h
  split at h
  · rename_i hb
    cases h
    exact .inl ⟨hb, rfl⟩
  · rename_i hb
    cases h
    exact .inr ⟨eq_false_of_ne_true hb, rfl⟩

theorem cases_readLine_closing {c : Case}
    (h : readLine suite ⟨done, comments, .closing c⟩ line = .ok after) :
    (isBlankLine line = true ∧ after = ⟨done, comments, .closing c⟩) ∨
      isBanner line = true ∧ after = ⟨done, comments, .body (some c) none⟩ := by
  simp only [readLine] at h
  split at h
  · rename_i hb
    cases h
    exact .inl ⟨hb, rfl⟩
  · split at h
    · rename_i hb
      cases h
      exact .inr ⟨hb, rfl⟩
    · cases h

theorem cases_readLine_body
    (h : readLine suite ⟨done, comments, .body current opened⟩ line = .ok after) :
    (∃ closed, isBanner line = true ∧ closeSection current opened = .ok closed ∧
        after = ⟨done ++ closed.toList, comments, .name⟩) ∨
      (∃ head closed, sectionOf? line = some head ∧ closeSection current opened = .ok closed ∧
        after = ⟨done, comments, .body closed (some ⟨head, []⟩)⟩) ∨
      (∃ part, IsInner line ∧ opened = some part ∧
        after = ⟨done, comments, .body current (some ⟨part.head, part.lines ++ [line]⟩)⟩) ∨
      (IsInner line ∧ opened = none ∧ isBlankLine line = true ∧
        after = ⟨done, comments, .body current none⟩) ∨
      ∃ c, IsInner line ∧ opened = none ∧ setField current line = .ok c ∧
        after = ⟨done, comments, .body (some c) none⟩ := by
  simp only [readLine] at h
  split at h
  · rename_i hbanner
    obtain ⟨closed, hc, h⟩ := bind_eq_ok.mp h
    cases h
    exact .inl ⟨closed, hbanner, hc, rfl⟩
  · rename_i hbanner
    split at h
    · rename_i head hhead
      obtain ⟨closed, hc, h⟩ := bind_eq_ok.mp h
      cases h
      exact .inr (.inl ⟨head, closed, hhead, hc, rfl⟩)
    · rename_i part hhead
      cases h
      exact .inr (.inr (.inl ⟨part, ⟨eq_false_of_ne_true hbanner, hhead⟩, rfl, rfl⟩))
    · rename_i hhead
      have hi : IsInner line := ⟨eq_false_of_ne_true hbanner, hhead⟩
      split at h
      · rename_i hb
        cases h
        exact .inr (.inr (.inr (.inl ⟨hi, rfl, hb, rfl⟩)))
      · obtain ⟨c, hf, h⟩ := bind_eq_ok.mp h
        cases h
        exact .inr (.inr (.inr (.inr ⟨c, hi, rfl, hf, rfl⟩)))

theorem cases_finish {reader : Reader} {found : List Case} (h : reader.finish = .ok found) :
    ∃ current opened closed, reader.position = .body current opened ∧
      closeSection current opened = .ok closed ∧ found = reader.cases ++ closed.toList := by
  unfold finish at h
  split at h
  · rename_i current opened hp
    obtain ⟨closed, hc, h⟩ := bind_eq_ok.mp h
    cases h
    exact ⟨current, opened, closed, hp, hc, rfl⟩
  · cases h

def reads (suite : String) (reader : Reader) (lines : List String) : Except TextFault Reader :=
  (lines.map bareLine).foldlM (step suite) reader

theorem reads_cons (h : reader.step suite (bareLine line) = .ok after) :
    reads suite reader (line :: lines) = reads suite after lines := by
  rw [reads, List.map_cons, List.foldlM_cons, h]
  rfl

theorem reads_append (h : reads suite reader lines = .ok after) :
    reads suite reader (lines ++ more) = reads suite after more := by
  rw [reads] at h
  rw [reads, List.map_append, List.foldlM_append, h]
  rfl

theorem reads_comments (hc : ∀ comment ∈ lines, isComment comment = true)
    (hr : ∀ comment ∈ lines, comment.toList.getLast? ≠ some '\r') :
    reads suite reader lines = .ok { reader with comments := reader.comments ++ lines } := by
  induction lines generalizing reader with
  | nil =>
    rw [List.append_nil]
    rfl
  | cons comment rest ih =>
    obtain ⟨hcc, hcr⟩ := List.forall_mem_cons.mp hc
    obtain ⟨hrc, hrr⟩ := List.forall_mem_cons.mp hr
    have hs : reader.step suite (bareLine comment) =
        .ok { reader with comments := reader.comments ++ [comment] } := by
      rw [bareLine_of_getLast? hrc, step, if_pos hcc]
    rw [reads_cons hs, ih hcr hrr, List.append_assoc, List.singleton_append]

theorem step_slug (suite : String) (done : List Case) (comments : List String) (raw : String) :
    step suite ⟨done, comments, .name⟩ (bareLine (slug raw)) =
      .ok ⟨done, [], .closing (.new suite (slug raw) comments)⟩ := by
  obtain ⟨c, cs, hl, hchar⟩ := exists_toList_slug raw
  have hr : bareLine (slug raw) = slug raw := by
    refine bareLine_of_getLast? fun h => ?_
    have hm := isBlank_of_mem_slug (List.mem_of_getLast? h)
    revert hm
    decide
  have ht : Text.trim (slug raw) = slug raw := by
    rw [Text.trim, Text.trimChars_of_forall fun c hc => isBlank_of_mem_slug hc, String.ofList_toList]
  have hsc : isComment (slug raw) = false := isComment_of_head hl hchar.plain.1 hchar.plain.2.1
  have hsn : isBlankLine (slug raw) = false := isBlankLine_of_head hl hchar.plain.1
  simp only [hr, step, hsc, readLine, hsn, ht, slug_slug]
  rfl

theorem reads_name (hs : closeSection current opened = .ok closed) (raw : String) :
    reads suite ⟨done, comments, .body current opened⟩ [banner, slug raw, banner, ""] =
      .ok ⟨done ++ closed.toList, [], .body (some (.new suite (slug raw) comments)) none⟩ := by
  have hb : bareLine banner = banner := bareLine_of_getLast? (by decide)
  have hc : isComment banner = false := isComment_of_head rfl (by decide) (by decide)
  have hn : isBlankLine banner = false := isBlankLine_of_head rfl (by decide)
  have hbanner : isBanner banner = true := by decide
  have hopen : step suite ⟨done, comments, .body current opened⟩ (bareLine banner) =
      .ok ⟨done ++ closed.toList, comments, .name⟩ := by
    simp only [hb, step, hc, readLine, hbanner, hs]
    rfl
  have hclose : step suite ⟨done ++ closed.toList, [], .closing (.new suite (slug raw) comments)⟩
      (bareLine banner) =
      .ok ⟨done ++ closed.toList, [], .body (some (.new suite (slug raw) comments)) none⟩ := by
    simp only [hb, step, hc, readLine, hn, hbanner]
    rfl
  rw [reads_cons hopen, reads_cons (step_slug suite _ comments raw), reads_cons hclose]
  rfl

theorem reads_args {c : Case} {args : List String} (hc : c.args = [])
    (ha : Text.Words.split? (Text.trim (Text.Words.join args)) = some args) :
    reads suite ⟨done, comments, .body (some c) none⟩ (Case.argsLines args) =
      .ok ⟨done, comments, .body (some { c with args }) none⟩ := by
  unfold Case.argsLines
  split
  · rename_i h
    have hk : { c with args := [] } = c := by rw [← hc]
    rw [h, hk]
    rfl
  · have hw : ("args: " ++ Text.Words.join args).toList =
        'a' :: ("rgs: ".toList ++ (Text.Words.join args).toList) := by
      rw [String.toList_append]
      rfl
    obtain ⟨ds, hl⟩ := toList_bareLine_of_head hw (by decide)
    have hs : step suite ⟨done, comments, .body (some c) none⟩
        (bareLine ("args: " ++ Text.Words.join args)) =
        .ok ⟨done, comments, .body (some { c with args }) none⟩ := by
      simp only [step, isComment_of_head hl (by decide) (by decide), readLine,
        isBanner_of_head hl (by decide) (by decide), sectionOf?_of_head hl (by decide),
        isBlankLine_of_head hl (by decide), setField_argsLine ha]
      rfl
    rw [reads_cons hs]
    rfl

theorem reads_header {head : Section} (ht : Text.trim head.label = head.label)
    (hs : closeSection current opened = .ok closed) :
    reads suite ⟨done, comments, .body current opened⟩ (head.header :: lines) =
      reads suite ⟨done, comments, .body closed (some ⟨head, []⟩)⟩ lines := by
  obtain ⟨cs, hl⟩ := exists_toList_header head
  have hr : bareLine head.header = head.header := by
    refine bareLine_of_getLast? ?_
    rw [getLast?_header]
    decide
  refine reads_cons ?_
  simp only [hr, step, isComment_of_head hl (by decide) (by decide), readLine,
    isBanner_of_head hl (by decide) (by decide), sectionOf?_header ht, hs]
  rfl

theorem reads_plain {part : OpenSection} (hp : ∀ line ∈ lines, IsPlain line) :
    reads suite ⟨done, comments, .body current (some part)⟩ lines =
      .ok ⟨done, comments, .body current (some { part with lines := part.lines ++ lines })⟩ := by
  induction lines generalizing part with
  | nil =>
    rw [List.append_nil]
    rfl
  | cons line rest ih =>
    obtain ⟨hl, hr⟩ := List.forall_mem_cons.mp hp
    have hs : step suite ⟨done, comments, .body current (some part)⟩ (bareLine line) =
        .ok ⟨done, comments, .body current (some { part with lines := part.lines ++ [line] })⟩ := by
      simp only [bareLine_of_getLast? hl.not_return, step, hl.not_comment, readLine, hl.not_banner,
        hl.not_header]
      rfl
    rw [reads_cons hs, ih hr, List.append_assoc, List.singleton_append]

end Reader

end CallFlow.Corpus
