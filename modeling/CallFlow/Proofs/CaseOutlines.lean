import CallFlow.Corpus.Outline
import CallFlow.Proofs.CasesReadBack
import CallFlow.Success

namespace CallFlow.Corpus

section Lines

variable {line : String} {above above' rest rest' : List String}

theorem exists_toList_of_sectionOf? {head : Section} (h : sectionOf? line = some head) :
    ∃ cs, line.toList = '-' :: cs := by
  unfold sectionOf? at h
  split at h
  · cases h
  · rename_i hd
    rw [Bool.not_eq_true, Bool.or_eq_false_iff, Bool.or_eq_false_iff, Bool.not_eq_false'] at hd
    obtain ⟨cs, hc⟩ := List.isPrefixOf_iff_prefix.mp hd.1.1
    exact ⟨_, hc.symm⟩

theorem not_banner_of_header {head : Section} (h : sectionOf? line = some head) :
    isBanner line = false := by
  obtain ⟨cs, hl⟩ := exists_toList_of_sectionOf? h
  exact isBanner_of_head hl (by decide) (by decide)

theorem not_blank_of_header {head : Section} (h : sectionOf? line = some head) :
    isBlankLine line = false := by
  obtain ⟨cs, hl⟩ := exists_toList_of_sectionOf? h
  exact isBlankLine_of_head hl (by decide)

theorem not_blank_of_banner (h : isBanner line = true) : isBlankLine line = false := by
  rw [isBlankLine, decide_eq_false_iff_not, Text.trim, ← String.toList_inj, String.toList_ofList]
  intro he
  rw [isBanner, he] at h
  cases h

theorem not_banner_of_blank (h : isBlankLine line = true) : isBanner line = false :=
  eq_false_of_ne_true fun hb => Bool.false_ne_true ((not_blank_of_banner hb).symm.trans h)

theorem argsOf?_of_blank (h : isBlankLine line = true) : argsOf? line = none := by
  rw [argsOf?, of_decide_eq_true h]
  rfl

theorem eq_of_blanks {name name' : String} (ha : ∀ line ∈ above, isBlankLine line = true)
    (hn : isBlankLine name = false) (ha' : ∀ line ∈ above', isBlankLine line = true)
    (hn' : isBlankLine name' = false) (h : above ++ name :: rest = above' ++ name' :: rest') :
    above = above' ∧ name = name' ∧ rest = rest' := by
  have ht := congrArg (List.takeWhile isBlankLine) h
  rw [List.takeWhile_append_of_pos ha, List.takeWhile_append_of_pos ha',
    List.takeWhile_cons_of_neg (by simp [hn]), List.append_nil,
    List.takeWhile_cons_of_neg (by simp [hn']), List.append_nil] at ht
  subst ht
  obtain ⟨rfl, rfl⟩ := List.cons.inj (List.append_cancel_left h)
  exact ⟨rfl, rfl, rfl⟩

end Lines

section Fields

variable {line : String} {args : List String}

theorem setField_of_args (c : Case) (ha : argsOf? line = some args) :
    setField (some c) line = .ok { c with args } := by
  unfold argsOf? at ha
  split at ha
  · rename_i value hc
    simp only [setField, hc, ha]
  · cases ha

/-- Below a title nothing but arguments is taken. -/
theorem exists_setField_error (c : Case) (ha : argsOf? line = none) :
    ∃ fault, setField (some c) line = .error fault := by
  simp only [setField]
  split
  · exact ⟨_, rfl⟩
  · rename_i value hc
    have hs : Text.Words.split? (Text.trim value) = none := by
      simpa only [argsOf?, hc] using ha
    rw [hs]
    exact ⟨_, rfl⟩
  · exact ⟨_, rfl⟩

/-- A line that is taken below a title gives the arguments. -/
theorem exists_args_of_setField {c after : Case} (h : setField (some c) line = .ok after) :
    ∃ args, argsOf? line = some args ∧ after = { c with args } := by
  cases ha : argsOf? line with
  | none =>
    obtain ⟨fault, he⟩ := exists_setField_error c ha
    rw [he] at h
    cases h
  | some args =>
    rw [setField_of_args c ha] at h
    cases h
    exact ⟨args, rfl, rfl⟩

end Fields

namespace Reader

variable {suite line : String} {cases : List Case} {comments : List String} {current : Option Case}
  {opened : Option OpenSection} {after : Reader} {fault : TextFault}

/-- Where a title has to be closed, only a line that stands for something else is refused. -/
theorem faults_readLine_closing {c : Case}
    (h : readLine suite ⟨cases, comments, .closing c⟩ line = .error fault) :
    isBlankLine line = false ∧ isBanner line = false := by
  simp only [readLine] at h
  split at h
  · cases h
  · rename_i hblank
    split at h
    · cases h
    · rename_i hbanner
      exact ⟨eq_false_of_ne_true hblank, eq_false_of_ne_true hbanner⟩

theorem faults_readLine_body
    (h : readLine suite ⟨cases, comments, .body current opened⟩ line = .error fault) :
    closeSection current opened = .error fault ∨
      IsInner line ∧ opened = none ∧ isBlankLine line = false ∧
        setField current line = .error fault := by
  simp only [readLine] at h
  split at h
  · rcases bind_eq_error.mp h with hc | ⟨_, -, h⟩
    · exact .inl hc
    · cases h
  · rename_i hbanner
    split at h
    · rcases bind_eq_error.mp h with hc | ⟨_, -, h⟩
      · exact .inl hc
      · cases h
    · cases h
    · rename_i hhead
      split at h
      · cases h
      · rename_i hblank
        rcases bind_eq_error.mp h with hf | ⟨_, -, h⟩
        · exact .inr ⟨⟨eq_false_of_ne_true hbanner, hhead⟩, rfl, eq_false_of_ne_true hblank, hf⟩
        · cases h

end Reader

namespace Entry

variable {suite : String} {c : Case}

def ofTitle (title : Title) : Entry where
  title := title
  fields := []
  blocks := []
  inner := fun _ hm => absurd hm List.not_mem_nil

def withField (entry : Entry) (field : String) (hi : IsInner field) : Entry :=
  { entry with
    fields := entry.fields ++ [field]
    inner := fun line hm => (List.mem_append.mp hm).elim (entry.inner line) fun hf =>
      List.mem_singleton.mp hf ▸ hi }

def withBlock (entry : Entry) (block : Block) : Entry :=
  { entry with blocks := entry.blocks ++ [block] }

theorem lines_ofTitle (title : Title) : (ofTitle title).lines = title.lines := by
  simp [lines, ofTitle]

theorem lines_withField {entry : Entry} (hb : entry.blocks = []) {field : String}
    (hi : IsInner field) : (entry.withField field hi).lines = entry.lines ++ [field] := by
  simp [lines, withField, hb]

theorem lines_withBlock (entry : Entry) (block : Block) :
    (entry.withBlock block).lines = entry.lines ++ block.lines := by
  simp [lines, withBlock]

theorem tells_ofTitle (suite : String) (title : Title) (comments : List String) :
    (ofTitle title).Tells suite (.new suite (slug (Text.trim title.name)) comments) where
  suite_eq := rfl
  name_eq := by simp only [Case.new, ofTitle]
  args_eq := rfl
  documents_eq := rfl
  expectations_eq := rfl

theorem Tells.withBlank {entry : Entry} (h : entry.Tells suite c) {field : String}
    (hi : IsInner field) (hb : isBlankLine field = true) :
    (entry.withField field hi).Tells suite c := by
  refine ⟨h.suite_eq, h.name_eq, ?_, h.documents_eq, h.expectations_eq⟩
  rw [h.args_eq]
  simp [args, withField, argsOf?_of_blank hb]

theorem Tells.withArgs {entry : Entry} (h : entry.Tells suite c) {field : String}
    (hi : IsInner field) {args : List String} (ha : argsOf? field = some args) :
    (entry.withField field hi).Tells suite { c with args } := by
  refine ⟨h.suite_eq, h.name_eq, ?_, h.documents_eq, h.expectations_eq⟩
  simp [Entry.args, withField, ha]

theorem Tells.withBlock {entry : Entry} (h : entry.Tells suite c) (block : Block) :
    (entry.withBlock block).Tells suite (c.add block.head (bodyText block.rows)) := by
  obtain ⟨header, head, rows, opens, inner⟩ := block
  cases head with
  | document path =>
    refine ⟨h.suite_eq, h.name_eq, h.args_eq, ?_, ?_⟩
    · simp [Case.add, documents, Entry.withBlock, Block.document?, h.documents_eq]
    · simp [Case.add, expectations, Entry.withBlock, Block.expectation?, h.expectations_eq]
  | expectation kind =>
    refine ⟨h.suite_eq, h.name_eq, h.args_eq, ?_, ?_⟩
    · simp [Case.add, documents, Entry.withBlock, Block.document?, h.documents_eq]
    · simp [Case.add, expectations, Entry.withBlock, Block.expectation?, h.expectations_eq]

end Entry

section Outlines

variable {suite : String} {lines : List String} {cases : List Case}

theorem outlines_blank (hb : ∀ line ∈ lines, isBlankLine line = true) :
    Outlines suite lines [] :=
  ⟨lines, [], hb, (List.append_nil lines).symm, .nil⟩

theorem Outlines.snoc (h : Outlines suite lines cases) {entry : Entry} {c : Case}
    (hc : entry.Tells suite c) : Outlines suite (lines ++ entry.lines) (cases ++ [c]) := by
  obtain ⟨lead, entries, hl, rfl, hs⟩ := h
  refine ⟨lead, entries ++ [entry], hl, ?_, List.rel_append hs (.cons hc .nil)⟩
  simp [entryLines]

theorem Outlines.areEntries (h : Outlines suite lines cases) : AreEntries lines := by
  obtain ⟨lead, entries, hl, rfl, -⟩ := h
  exact ⟨lead, entries, fun line hm => not_banner_of_blank (hl line hm), rfl⟩

end Outlines

section Untitled

variable {front above below rest : List String} {opening name : String}

theorem Title.lines_append (title : Title) (more : List String) :
    title.lines ++ more =
      title.opening :: (title.above ++ title.name :: (title.below ++ title.closing :: more)) := by
  simp [lines]

theorem faulty_unnamed (hf : AreEntries front) (ho : isBanner opening = true)
    (ha : ∀ line ∈ above, isBlankLine line = true) : Faulty (front ++ opening :: above) := by
  refine .untitled front opening above hf ho fun title more he => ?_
  rw [Title.lines_append] at he
  have hm : title.name ∈ above := by
    rw [(List.cons.inj he).2]
    exact List.mem_append_right _ List.mem_cons_self
  exact Bool.false_ne_true (title.name_not_blank.symm.trans (ha _ hm))

theorem faulty_unclosed (hf : AreEntries front) (ho : isBanner opening = true)
    (ha : ∀ line ∈ above, isBlankLine line = true) (hn : isBlankLine name = false)
    (hb : ∀ line ∈ below, isBlankLine line = true)
    (hr : ∀ line ∈ rest.head?, isBlankLine line = false ∧ isBanner line = false) :
    Faulty (front ++ opening :: (above ++ name :: (below ++ rest))) := by
  refine .untitled front opening _ hf ho fun title more he => ?_
  rw [Title.lines_append] at he
  obtain ⟨rfl, rfl, hl⟩ :=
    eq_of_blanks ha hn title.above_blank title.name_not_blank (List.cons.inj he).2
  have hc := not_blank_of_banner title.closes
  cases rest with
  | nil =>
    rw [List.append_nil] at hl
    have hm : title.closing ∈ below := by
      rw [hl]
      exact List.mem_append_right _ List.mem_cons_self
    exact Bool.false_ne_true (hc.symm.trans (hb _ hm))
  | cons line rest =>
    obtain ⟨hblank, hbanner⟩ := hr line rfl
    obtain ⟨-, rfl, -⟩ := eq_of_blanks hb hblank title.below_blank hc hl
    exact Bool.false_ne_true (hbanner.symm.trans title.closes)

end Untitled

/-- Where a reader stands after lines that are no comments. -/
inductive StandsAfter (suite : String) : List String → Reader → Prop
  | lead (lines : List String) {comments : List String}
      (blank : ∀ line ∈ lines, isBlankLine line = true) :
      StandsAfter suite lines ⟨[], comments, .body none none⟩
  | stray (lead : List String) (line : String) (rest : List String) {comments : List String}
      {opened : OpenSection} (no_banner : ∀ line ∈ lead, isBanner line = false)
      (line_no_banner : isBanner line = false) (not_blank : isBlankLine line = false) :
      StandsAfter suite (lead ++ line :: rest) ⟨[], comments, .body none (some opened)⟩
  | name (front : List String) (opening : String) (above : List String) {cases : List Case}
      {comments : List String} (behind : Outlines suite front cases)
      (opens : isBanner opening = true) (blank : ∀ line ∈ above, isBlankLine line = true) :
      StandsAfter suite (front ++ opening :: above) ⟨cases, comments, .name⟩
  | closing (front : List String) (opening : String) (above : List String) (name : String)
      (below : List String) {cases : List Case} {comments told : List String}
      (behind : Outlines suite front cases) (opens : isBanner opening = true)
      (blank : ∀ line ∈ above, isBlankLine line = true) (named : isBlankLine name = false)
      (below_blank : ∀ line ∈ below, isBlankLine line = true) :
      StandsAfter suite (front ++ opening :: (above ++ name :: below))
        ⟨cases, comments, .closing (.new suite (slug (Text.trim name)) told)⟩
  | fields (front : List String) (entry : Entry) {cases : List Case} {comments : List String}
      {c : Case} (behind : Outlines suite front cases) (tells : entry.Tells suite c)
      (no_block : entry.blocks = []) :
      StandsAfter suite (front ++ entry.lines) ⟨cases, comments, .body (some c) none⟩
  | block (front : List String) (entry : Entry) (block : Block) {cases : List Case}
      {comments : List String} {c : Case} (behind : Outlines suite front cases)
      (tells : entry.Tells suite c) :
      StandsAfter suite (front ++ entry.lines ++ block.lines)
        ⟨cases, comments, .body (some c) (some ⟨block.head, block.rows⟩)⟩

namespace StandsAfter

variable {suite line : String} {lines : List String} {reader after : Reader} {fault : TextFault}

theorem comments (h : StandsAfter suite lines reader) (comments : List String) :
    StandsAfter suite lines { reader with comments } := by
  cases h with
  | lead lines blank => exact .lead lines blank
  | stray lead line rest no_banner line_no_banner not_blank =>
    exact .stray lead line rest no_banner line_no_banner not_blank
  | name front opening above behind opens blank => exact .name front opening above behind opens blank
  | closing front opening above name below behind opens blank named below_blank =>
    exact .closing front opening above name below behind opens blank named below_blank
  | fields front entry behind tells no_block => exact .fields front entry behind tells no_block
  | block front entry block behind tells => exact .block front entry block behind tells

theorem cases_closed {cases : List Case} {told : List String} {current closed : Option Case}
    {opened : Option OpenSection} (h : StandsAfter suite lines ⟨cases, told, .body current opened⟩)
    (hc : closeSection current opened = .ok closed) :
    (closed = none ∧ cases = [] ∧ ∀ line ∈ lines, isBlankLine line = true) ∨
      ∃ front entry c, closed = some c ∧ lines = front ++ Entry.lines entry ∧
        Outlines suite front cases ∧ entry.Tells suite c := by
  cases h with
  | lead lines blank =>
    cases hc
    exact .inl ⟨rfl, rfl, blank⟩
  | stray lead line rest no_banner line_no_banner not_blank => cases hc
  | fields front entry behind tells no_block =>
    cases hc
    exact .inr ⟨front, entry, _, rfl, rfl, behind, tells⟩
  | block front entry block behind tells =>
    cases hc
    refine .inr ⟨front, entry.withBlock block, _, rfl, ?_, behind, tells.withBlock block⟩
    rw [Entry.lines_withBlock, List.append_assoc]

theorem outlines_closed {cases : List Case} {told : List String} {current closed : Option Case}
    {opened : Option OpenSection} (h : StandsAfter suite lines ⟨cases, told, .body current opened⟩)
    (hc : closeSection current opened = .ok closed) :
    Outlines suite lines (cases ++ closed.toList) := by
  rcases h.cases_closed hc with ⟨rfl, rfl, blank⟩ | ⟨front, entry, c, rfl, rfl, behind, tells⟩
  · exact outlines_blank blank
  · exact behind.snoc tells

theorem readLine (h : StandsAfter suite lines reader) (hs : reader.readLine suite line = .ok after) :
    StandsAfter suite (lines ++ [line]) after := by
  obtain ⟨cases, told, position⟩ := reader
  cases position with
  | name =>
    rcases Reader.cases_readLine_name hs with ⟨hblank, rfl⟩ | ⟨hname, rfl⟩
    · cases h with
      | name front opening above behind opens blank =>
        rw [List.append_assoc]
        exact .name front opening (above ++ [line]) behind opens
          (List.forall_mem_append.mpr ⟨blank, List.forall_mem_singleton.mpr hblank⟩)
    · cases h with
      | name front opening above behind opens blank =>
        rw [List.append_assoc]
        exact .closing front opening above line [] behind opens blank hname
          fun _ hm => absurd hm List.not_mem_nil
  | closing current =>
    rcases Reader.cases_readLine_closing hs with ⟨hblank, rfl⟩ | ⟨hbanner, rfl⟩
    · cases h with
      | closing front opening above name below behind opens blank named below_blank =>
        rw [List.append_assoc, List.cons_append, List.append_assoc, List.cons_append]
        exact .closing front opening above name (below ++ [line]) behind opens blank named
          (List.forall_mem_append.mpr ⟨below_blank, List.forall_mem_singleton.mpr hblank⟩)
    · cases h with
      | closing front opening above name below behind opens blank named below_blank =>
        let title : Title :=
          ⟨opening, above, name, below, line, opens, blank, named, below_blank, hbanner⟩
        have hl : front ++ opening :: (above ++ name :: below) ++ [line] =
            front ++ (Entry.ofTitle title).lines := by
          simp [Entry.lines_ofTitle, Title.lines, title]
        rw [hl]
        exact .fields front _ behind (Entry.tells_ofTitle suite title _) rfl
  | body current opened =>
    rcases Reader.cases_readLine_body hs with ⟨closed, hbanner, hc, rfl⟩ |
      ⟨head, closed, hhead, hc, rfl⟩ | ⟨part, hi, rfl, rfl⟩ | ⟨hi, rfl, hblank, rfl⟩ |
      ⟨c, hi, rfl, hf, rfl⟩
    · exact .name lines line [] (h.outlines_closed hc) hbanner fun _ hm => absurd hm List.not_mem_nil
    · rcases h.cases_closed hc with ⟨rfl, rfl, blank⟩ | ⟨front, entry, c, rfl, rfl, behind, tells⟩
      · exact .stray lines line [] (fun line hm => not_banner_of_blank (blank line hm))
          (not_banner_of_header hhead) (not_blank_of_header hhead)
      · exact .block front entry ⟨line, head, [], hhead, fun _ hm => absurd hm List.not_mem_nil⟩
          behind tells
    · cases h with
      | stray lead first rest no_banner first_no_banner not_blank =>
        rw [List.append_assoc]
        exact .stray lead first (rest ++ [line]) no_banner first_no_banner not_blank
      | block front entry block behind tells =>
        rw [List.append_assoc]
        exact .block front entry ⟨block.header, block.head, block.rows ++ [line], block.opens,
          List.forall_mem_append.mpr ⟨block.inner, List.forall_mem_singleton.mpr hi⟩⟩ behind tells
    · cases h with
      | lead lines blank =>
        exact .lead _ (List.forall_mem_append.mpr ⟨blank, List.forall_mem_singleton.mpr hblank⟩)
      | fields front entry behind tells no_block =>
        rw [List.append_assoc, ← Entry.lines_withField no_block hi]
        exact .fields front _ behind (tells.withBlank hi hblank) no_block
    · cases h with
      | lead lines blank => cases hf
      | fields front entry behind tells no_block =>
        rw [List.append_assoc, ← Entry.lines_withField no_block hi]
        obtain ⟨args, ha, rfl⟩ := exists_args_of_setField hf
        exact .fields front _ behind (tells.withArgs hi ha) no_block

/-- A section that cannot be closed is one above the first title. -/
theorem faulty_of_closeSection {cases : List Case} {told : List String} {current : Option Case}
    {opened : Option OpenSection} (h : StandsAfter suite lines ⟨cases, told, .body current opened⟩)
    (hc : closeSection current opened = .error fault) (more : List String) :
    Faulty (lines ++ more) := by
  cases h with
  | lead lines blank => cases hc
  | stray lead line rest no_banner line_no_banner not_blank =>
    rw [List.append_assoc, List.cons_append]
    exact .stray lead line (rest ++ more) no_banner line_no_banner not_blank
  | fields front entry behind tells no_block => cases hc
  | block front entry block behind tells => cases hc

theorem faulty_of_readLine (h : StandsAfter suite lines reader)
    (hs : reader.readLine suite line = .error fault) (rest : List String) :
    Faulty (lines ++ line :: rest) := by
  obtain ⟨cases, told, position⟩ := reader
  cases position with
  | name =>
    simp only [Reader.readLine] at hs
    split at hs <;> cases hs
  | closing current =>
    have hl := Reader.faults_readLine_closing hs
    cases h with
    | closing front opening above name below behind opens blank named below_blank =>
      rw [List.append_assoc, List.cons_append, List.append_assoc, List.cons_append]
      refine faulty_unclosed behind.areEntries opens blank named below_blank fun other ho => ?_
      cases ho
      exact hl
  | body current opened =>
    rcases Reader.faults_readLine_body hs with hc | ⟨hi, rfl, hblank, hf⟩
    · exact h.faulty_of_closeSection hc _
    · cases h with
      | lead lines blank =>
        exact .stray lines line rest (fun other hm => not_banner_of_blank (blank other hm))
          hi.not_banner hblank
      | fields front entry behind tells no_block =>
        have hl : entry.lines = entry.title.lines ++ entry.fields := by
          rw [Entry.lines, no_block, List.flatMap_nil, List.append_nil]
        rw [hl, ← List.append_assoc]
        refine .badField front entry.title entry.fields line rest behind.areEntries entry.inner hi
          hblank ?_
        cases ha : argsOf? line with
        | none => rfl
        | some args =>
          rw [setField_of_args _ ha] at hf
          cases hf

theorem finish (h : StandsAfter suite lines reader) {cases : List Case}
    (hf : reader.finish = .ok cases) : Outlines suite lines cases := by
  obtain ⟨done, told, position⟩ := reader
  obtain ⟨current, opened, closed, rfl, hc, rfl⟩ := Reader.cases_finish hf
  exact h.outlines_closed hc

theorem faulty_of_finish (h : StandsAfter suite lines reader) (hf : reader.finish = .error fault) :
    Faulty lines := by
  obtain ⟨done, told, position⟩ := reader
  cases position with
  | name =>
    cases h with
    | name front opening above behind opens blank =>
      exact faulty_unnamed behind.areEntries opens blank
  | closing current =>
    cases h with
    | closing front opening above name below behind opens blank named below_blank =>
      rw [← List.append_nil below]
      exact faulty_unclosed behind.areEntries opens blank named below_blank fun other ho => nomatch ho
  | body current opened =>
    rcases bind_eq_error.mp hf with hc | ⟨closed, -, hf⟩
    · rw [← List.append_nil lines]
      exact h.faulty_of_closeSection hc []
    · cases hf

end StandsAfter

theorem Outlines.faulty {suite : String} {lines : List String} {cases : List Case}
    {fault : TextFault} (h : Outlines suite lines cases) (hc : checkCases cases = .error fault) :
    Faulty lines := by
  obtain ⟨lead, entries, hl, rfl, ht⟩ := h
  unfold checkCases at hc
  split at hc
  · rename_i hn
    rw [hn, List.forall₂_nil_right_iff] at ht
    subst ht
    refine .noCase _ fun front title rest _ he => ?_
    have hm : title.opening ∈ lead ++ entryLines [] := by
      rw [he]
      exact List.mem_append_left _ (List.mem_append_right _ List.mem_cons_self)
    rw [entryLines, List.flatMap_nil, List.append_nil] at hm
    exact Bool.false_ne_true ((not_blank_of_banner title.opens).symm.trans (hl _ hm))
  · split at hc
    · rename_i c hfind
      obtain ⟨entry, he, hte⟩ := exists_left_of_forall₂ ht (List.mem_of_find?_eq_some hfind)
      have hnone := List.find?_some hfind
      have hd : entry.documents = [] := hte.documents_eq.symm.trans (of_decide_eq_true hnone)
      obtain ⟨before, after, rfl⟩ := List.append_of_mem he
      have hs : lead ++ entryLines (before ++ entry :: after) =
          lead ++ entryLines before ++ entry.lines ++ entryLines after := by
        simp [entryLines]
      rw [hs]
      refine .noDocument _ entry _ ⟨lead, before, fun line hm => not_banner_of_blank (hl line hm), rfl⟩
        (fun line hm => ?_) hd
      cases after with
      | nil => cases hm
      | cons next after =>
        cases hm
        exact next.title.opens
    · cases hc

end CallFlow.Corpus
