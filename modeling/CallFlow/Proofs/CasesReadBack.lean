import CallFlow.Proofs.CaseReading
import Mathlib.Data.List.Forall2

namespace CallFlow.Corpus

/-- Two sections that differ at most in the line feeds at their end. -/
def SameSection (part other : Section × String) : Prop :=
  other.1 = part.1 ∧ unterminated other.2 = unterminated part.2

def restored (gap : Nat) : List (Section × String) → List (Section × String)
  | [] => []
  | [part] => [(part.1, bodyText (withoutBlanks (rows part.2) ++ List.replicate gap ""))]
  | part :: next :: rest => (part.1, terminated part.2) :: restored gap (next :: rest)

section Restored

variable {parts : List (Section × String)}

/-- The blank line behind a section ends its text. -/
theorem bodyText_rows (body : String) : bodyText (rows body ++ [""]) = terminated body := by
  have ht : Text.join "\n" (rows body ++ [""]) = terminated body := by
    rw [Text.join_append (rows_ne_nil body) (List.cons_ne_nil _ _), Text.join_singleton,
      String.append_empty, ← terminated_eq_join]
  have hn : terminated body ≠ "" := by
    rw [terminated_eq]
    simp
  rw [bodyText_eq, ht, if_neg hn, terminated_eq body, terminated_append]

theorem unterminated_bodyText_blanks (body : String) (gap : Nat) :
    unterminated (bodyText (withoutBlanks (rows body) ++ List.replicate gap "")) =
      unterminated body := by
  obtain ⟨count, hc⟩ := exists_blanks (rows body)
  calc
    unterminated (bodyText (withoutBlanks (rows body) ++ List.replicate gap "")) =
        unterminated (Text.join "\n" (withoutBlanks (rows body))) := by
      rw [unterminated_bodyText, unterminated_join_blanks]
    _ = unterminated (Text.join "\n" (rows body)) := by
      rw [← unterminated_join_blanks (withoutBlanks (rows body)) count, ← hc]
    _ = unterminated body := by
      rw [← unterminated_append, ← terminated_eq_join, unterminated_terminated]

theorem forall₂_restored (gap : Nat) (parts : List (Section × String)) :
    List.Forall₂ SameSection parts (restored gap parts) := by
  induction parts with
  | nil => exact .nil
  | cons part rest ih =>
    cases rest with
    | nil =>
      have hp : SameSection part
          (part.1, bodyText (withoutBlanks (rows part.2) ++ List.replicate gap "")) := by
        refine ⟨rfl, ?_⟩
        dsimp only
        rw [unterminated_bodyText_blanks]
      rw [restored]
      exact .cons hp .nil
    | cons next more =>
      rw [restored]
      exact .cons ⟨rfl, unterminated_terminated part.2⟩ ih

theorem getElem?_restored (gap : Nat) {i : Nat} {head : Section} {body : String}
    (hp : parts[i]? = some (head, body)) (hi : i + 1 < parts.length)
    (hb : body.toList.getLast? = some '\n') : (restored gap parts)[i]? = some (head, body) := by
  induction parts generalizing i with
  | nil => cases hp
  | cons part rest ih =>
    cases rest with
    | nil =>
      simp only [List.length_singleton] at hi
      omega
    | cons next more =>
      cases i with
      | zero =>
        obtain rfl := Option.some.inj hp
        rw [restored, List.getElem?_cons_zero, terminated, if_pos hb]
      | succ i =>
        rw [restored, List.getElem?_cons_succ]
        refine ih hp ?_
        rw [List.length_cons] at hi
        omega

end Restored

section Correspondence

variable {α β γ : Type}

theorem forall₂_imp_of_mem {R S : α → β → Prop} {xs : List α} {zs : List β}
    (h : List.Forall₂ R xs zs) (hi : ∀ x ∈ xs, ∀ z ∈ zs, R x z → S x z) : List.Forall₂ S xs zs := by
  induction h with
  | nil => exact .nil
  | cons hx _ ih =>
    refine .cons (hi _ List.mem_cons_self _ List.mem_cons_self hx) (ih fun x hxs z hzs => ?_)
    exact hi x (List.mem_cons_of_mem _ hxs) z (List.mem_cons_of_mem _ hzs)

theorem exists_left_of_forall₂ {R : α → β → Prop} {xs : List α} {zs : List β}
    (h : List.Forall₂ R xs zs) {z : β} (hz : z ∈ zs) : ∃ x ∈ xs, R x z := by
  induction h with
  | nil => cases hz
  | cons hx _ ih =>
    rcases List.mem_cons.mp hz with rfl | hz
    · exact ⟨_, List.mem_cons_self, hx⟩
    · obtain ⟨x, hm, hr⟩ := ih hz
      exact ⟨x, List.mem_cons_of_mem _ hm, hr⟩

/-- Lists that stand side by side are joined by a third, if their members are. -/
theorem exists_forall₂_of_forall₂ {R : α → β → Prop} {S : α → γ → Prop} {T : β → γ → Prop}
    {xs : List α} {ys : List β} (h : List.Forall₂ R xs ys)
    (he : ∀ x ∈ xs, ∀ y ∈ ys, R x y → ∃ z, S x z ∧ T y z) :
    ∃ zs, List.Forall₂ S xs zs ∧ List.Forall₂ T ys zs := by
  induction h with
  | nil => exact ⟨[], .nil, .nil⟩
  | cons hx _ ih =>
    obtain ⟨z, hs, ht⟩ := he _ List.mem_cons_self _ List.mem_cons_self hx
    obtain ⟨zs, hss, hts⟩ :=
      ih fun x hxs y hys => he x (List.mem_cons_of_mem _ hxs) y (List.mem_cons_of_mem _ hys)
    exact ⟨z :: zs, .cons hs hss, .cons ht hts⟩

theorem forall₂_through {R : α → β → Prop} {S : β → γ → Prop} {xs : List α} {ys : List β}
    {zs : List γ} (h : List.Forall₂ R xs ys) (h' : List.Forall₂ S ys zs) :
    List.Forall₂ (fun x z => ∃ y, R x y ∧ S y z) xs zs := by
  induction h generalizing zs with
  | nil =>
    cases h'
    exact .nil
  | cons hr _ ih =>
    cases h' with
    | cons hs h' => exact .cons ⟨_, hr, hs⟩ (ih h')

theorem exists_append_of_forall₂ {R : α → β → Prop} {xs ys : List α} {zs : List β}
    (h : List.Forall₂ R (xs ++ ys) zs) :
    ∃ us vs, zs = us ++ vs ∧ List.Forall₂ R xs us ∧ List.Forall₂ R ys vs := by
  induction xs generalizing zs with
  | nil => exact ⟨[], zs, rfl, .nil, h⟩
  | cons x xs ih =>
    cases h with
    | cons hx h =>
      obtain ⟨us, vs, rfl, hu, hv⟩ := ih h
      exact ⟨_ :: us, vs, rfl, .cons hx hu, hv⟩

theorem exists_map_of_forall₂ {R : α → β → Prop} {S : γ → γ → Prop} {f : γ → α} {g : γ → β}
    {xs : List γ} {zs : List β} (hf : ∀ x z, R (f x) z → ∃ y, z = g y ∧ S x y)
    (h : List.Forall₂ R (xs.map f) zs) : ∃ ys, zs = ys.map g ∧ List.Forall₂ S xs ys := by
  induction xs generalizing zs with
  | nil =>
    cases h
    exact ⟨[], rfl, .nil⟩
  | cons x xs ih =>
    cases h with
    | cons hx h =>
      obtain ⟨y, rfl, hy⟩ := hf _ _ hx
      obtain ⟨ys, rfl, hs⟩ := ih h
      exact ⟨y :: ys, rfl, .cons hy hs⟩

end Correspondence

namespace Case

def addAll (c : Case) (parts : List (Section × String)) : Case :=
  parts.foldl (fun c part => c.add part.1 part.2) c

theorem addAll_cons (c : Case) (part : Section × String) (rest : List (Section × String)) :
    c.addAll (part :: rest) = (c.add part.1 part.2).addAll rest :=
  rfl

theorem addAll_singleton (c : Case) (part : Section × String) :
    c.addAll [part] = c.add part.1 part.2 :=
  rfl

theorem addAll_documents (c : Case) (documents : List Document) (rest : List (Section × String)) :
    c.addAll (documents.map (fun document => (.document document.path, document.contents)) ++ rest) =
      { c with documents := c.documents ++ documents }.addAll rest := by
  induction documents generalizing c with
  | nil => rw [List.append_nil]; rfl
  | cons document more ih =>
    rw [List.map_cons, List.cons_append, addAll_cons, ih]
    simp [add]

theorem addAll_expectations (c : Case) (expectations : List Expectation) :
    c.addAll (expectations.map fun expectation =>
      (.expectation expectation.kind, expectation.value)) =
      { c with expectations := c.expectations ++ expectations } := by
  induction expectations generalizing c with
  | nil => rw [List.append_nil]; rfl
  | cons expectation more ih =>
    rw [List.map_cons, addAll_cons, ih]
    simp [add]

structure Readable (c : Case) : Prop where
  name : ∃ raw, c.name = slug raw
  documents_ne_nil : c.documents ≠ []
  comments : ∀ comment ∈ c.comments, '\n' ∉ comment.toList ∧ isComment comment = true ∧
    comment.toList.getLast? ≠ some '\r'
  labels : ∀ part ∈ c.sections, '\n' ∉ part.1.label.toList ∧ Text.trim part.1.label = part.1.label
  args : Text.Words.split? (Text.trim (Text.Words.join c.args)) = some c.args
  bodies : ∀ part ∈ c.sections, ∀ line ∈ Text.splitAt '\n' part.2, IsPlain line

theorem readable_iff {c : Case} :
    c.Readable ↔ slug c.name = c.name ∧ c.documents ≠ [] ∧
      (∀ comment ∈ c.comments, '\n' ∉ comment.toList ∧ isComment comment = true ∧
        comment.toList.getLast? ≠ some '\r') ∧
      (∀ part ∈ c.sections, '\n' ∉ part.1.label.toList ∧
        Text.trim part.1.label = part.1.label) ∧
      Text.Words.split? (Text.trim (Text.Words.join c.args)) = some c.args ∧
      ∀ part ∈ c.sections, ∀ line ∈ Text.splitAt '\n' part.2, IsPlain line := by
  constructor
  · rintro ⟨⟨raw, hn⟩, hd, hc, hl, ha, hb⟩
    refine ⟨?_, hd, hc, hl, ha, hb⟩
    rw [hn, slug_slug]
  · rintro ⟨hn, hd, hc, hl, ha, hb⟩
    exact ⟨⟨c.name, hn.symm⟩, hd, hc, hl, ha, hb⟩

instance (c : Case) : Decidable c.Readable :=
  decidable_of_iff _ readable_iff.symm

structure Kept (suite : String) (c other : Case) : Prop where
  suite_eq : other.suite = suite
  name_eq : other.name = c.name
  args_eq : other.args = c.args
  comments_eq : other.comments = c.comments
  documents : List.Forall₂ (fun document kept => kept.path = document.path ∧
    unterminated kept.contents = unterminated document.contents) c.documents other.documents
  expectations : List.Forall₂ (fun expectation kept => kept.kind = expectation.kind ∧
    unterminated kept.value = unterminated expectation.value) c.expectations other.expectations
  sections : ∀ (i : Nat) (head : Section) (body : String), c.sections[i]? = some (head, body) →
    i + 1 < c.sections.length → body.toList.getLast? = some '\n' →
    other.sections[i]? = some (head, body)

def restored (suite : String) (gap : Nat) (c : Case) : Case :=
  { new suite c.name c.comments with args := c.args }.addAll (Corpus.restored gap c.sections)

theorem kept_restored (suite : String) (gap : Nat) (c : Case) :
    Kept suite c (c.restored suite gap) := by
  obtain ⟨us, vs, hs, hu, hv⟩ := exists_append_of_forall₂ (forall₂_restored gap c.sections)
  obtain ⟨documents, rfl, hd⟩ := exists_map_of_forall₂
    (S := fun document kept => kept.path = document.path ∧
      unterminated kept.contents = unterminated document.contents)
    (g := fun document : Document => (Section.document document.path, document.contents))
    (fun document part h => ⟨⟨document.path, part.2⟩, Prod.ext h.1 rfl, rfl, h.2⟩) hu
  obtain ⟨expectations, rfl, he⟩ := exists_map_of_forall₂
    (S := fun expectation kept => kept.kind = expectation.kind ∧
      unterminated kept.value = unterminated expectation.value)
    (g := fun expectation : Expectation => (Section.expectation expectation.kind, expectation.value))
    (fun expectation part h => ⟨⟨expectation.kind, part.2⟩, Prod.ext h.1 rfl, rfl, h.2⟩) hv
  have hc : c.restored suite gap =
      { new suite c.name c.comments with args := c.args, documents, expectations } := by
    rw [restored, hs, addAll_documents, addAll_expectations]
    rfl
  rw [hc]
  refine ⟨rfl, rfl, rfl, rfl, hd, he, ?_⟩
  intro i head body hi hl hb
  have hr := getElem?_restored gap hi hl hb
  rw [hs] at hr
  exact hr

end Case

section Lines

variable {c : Case}

theorem newline_not_mem_quoteWord {word : String} (hw : '\n' ∉ word.toList) :
    '\n' ∉ (Text.Words.quoteWord word).toList := by
  unfold Text.Words.quoteWord
  split
  · have hq : ∀ c ∈ word.toList, '\n' ∉ Text.Words.quoteChar c := by
      intro c hc
      unfold Text.Words.quoteChar
      split
      · decide
      · simp only [List.mem_singleton]
        rintro rfl
        exact hw hc
    simpa using hq
  · exact hw

theorem newline_not_mem_argsLines {args : List String} (ha : ∀ arg ∈ args, '\n' ∉ arg.toList) :
    ∀ line ∈ Case.argsLines args, '\n' ∉ line.toList := by
  intro line hm
  have hj : '\n' ∉ (Text.Words.join args).toList := by
    refine Text.not_mem_join (by decide) fun part hp => ?_
    obtain ⟨arg, ha', rfl⟩ := List.mem_map.mp hp
    exact newline_not_mem_quoteWord (ha arg ha')
  unfold Case.argsLines at hm
  split at hm
  · cases hm
  · simp only [List.mem_cons, List.not_mem_nil, or_false] at hm
    rcases hm with rfl | rfl
    · rw [String.toList_append, List.mem_append, not_or]
      exact ⟨by decide, hj⟩
    · decide

theorem newline_not_mem_header {head : Section} (hl : '\n' ∉ head.label.toList) :
    '\n' ∉ head.header.toList := by
  cases head with
  | document path =>
    rw [toList_header_document]
    simpa [dashed, Section.label] using hl
  | expectation kind =>
    rw [toList_header_expectation]
    simpa [dashed, Section.label] using hl

theorem newline_not_mem_sectionLines {parts : List (Section × String)}
    (hl : ∀ part ∈ parts, '\n' ∉ part.1.label.toList) :
    ∀ line ∈ sectionLines 0 parts, '\n' ∉ line.toList := by
  have hrows : ∀ (body line : String), line ∈ rows body → '\n' ∉ line.toList :=
    fun body line hm => newline_not_mem_splitAt (rows_subset body hm)
  induction parts with
  | nil => intro line hm; cases hm
  | cons part rest ih =>
    obtain ⟨hp, hr⟩ := List.forall_mem_cons.mp hl
    have hh := newline_not_mem_header hp
    intro line hm
    cases rest with
    | nil =>
      simp only [sectionLines, List.replicate_zero, List.append_nil, List.mem_cons] at hm
      rcases hm with rfl | hm
      · exact hh
      · exact hrows part.2 line (withoutBlanks_subset _ hm)
    | cons next more =>
      simp only [sectionLines, linesOf, List.mem_append, List.mem_cons, List.not_mem_nil,
        or_false] at hm
      rcases hm with (rfl | hm | rfl) | hm
      · exact hh
      · exact hrows part.2 line hm
      · decide
      · exact ih hr line hm

theorem newline_not_mem_slug (raw : String) : '\n' ∉ (slug raw).toList := by
  intro h
  have hb := isBlank_of_mem_slug h
  revert hb
  decide

theorem Case.newline_not_mem_lines (hn : ∃ raw, c.name = slug raw)
    (hc : ∀ comment ∈ c.comments, '\n' ∉ comment.toList)
    (hl : ∀ part ∈ c.sections, '\n' ∉ part.1.label.toList)
    (ha : ∀ arg ∈ c.args, '\n' ∉ arg.toList) : ∀ line ∈ c.lines 0, '\n' ∉ line.toList := by
  intro line hm
  obtain ⟨raw, hname⟩ := hn
  simp only [Case.lines, Case.openingLines, List.mem_append, List.mem_cons, List.not_mem_nil,
    or_false] at hm
  rcases hm with ((hm | rfl | rfl | rfl | rfl) | hm) | hm
  · exact hc line hm
  · decide
  · rw [hname]
    exact newline_not_mem_slug raw
  · decide
  · decide
  · exact newline_not_mem_argsLines ha line hm
  · exact newline_not_mem_sectionLines hl line hm

theorem Case.Readable.newline_not_mem (hr : c.Readable) (ha : ∀ arg ∈ c.args, '\n' ∉ arg.toList) :
    ∀ line ∈ c.lines 0, '\n' ∉ line.toList :=
  c.newline_not_mem_lines hr.name (fun comment hm => (hr.comments comment hm).1)
    (fun part hm => (hr.labels part hm).1) ha

theorem newline_not_mem_fileLines {cases : List Case} (hs : ∀ c ∈ cases, c.sections ≠ [])
    (hl : ∀ c ∈ cases, ∀ line ∈ c.lines 0, '\n' ∉ line.toList) :
    ∀ line ∈ fileLines cases, '\n' ∉ line.toList := by
  induction cases with
  | nil => intro line hm; cases hm
  | cons c rest ih =>
    obtain ⟨hsc, hsr⟩ := List.forall_mem_cons.mp hs
    obtain ⟨hlc, hlr⟩ := List.forall_mem_cons.mp hl
    intro line hm
    cases rest with
    | nil => exact hlc line hm
    | cons next more =>
      rw [fileLines, Case.lines_gap hsc, List.mem_append, List.mem_append] at hm
      rcases hm with (hm | hm) | hm
      · exact hlc line hm
      · rw [List.eq_of_mem_replicate hm]
        decide
      · exact ih hsr hlr line hm

theorem map_bareLine_casesText {cases : List Case} (hn : cases ≠ [])
    (hs : ∀ c ∈ cases, c.sections ≠ [])
    (hl : ∀ c ∈ cases, ∀ line ∈ c.lines 0, '\n' ∉ line.toList) :
    (Text.lines (casesText cases)).map bareLine = (fileLines cases).map bareLine := by
  rw [casesText_eq hn hs fun c hm line hc he => hl c hm line hc (List.mem_of_getLast? he),
    map_bareLine_lines (newline_not_mem_fileLines hs hl)]

theorem Case.Readable.sections_ne_nil (hr : c.Readable) : c.sections ≠ [] := by
  simp [Case.sections, hr.documents_ne_nil]

end Lines

namespace Reader

variable {suite : String} {done : List Case} {comments : List String} {current closed : Option Case}
  {opened : Option OpenSection}

theorem reads_sections {parts : List (Section × String)} (hn : parts ≠ [])
    (hl : ∀ part ∈ parts, Text.trim part.1.label = part.1.label)
    (hp : ∀ part ∈ parts, ∀ line ∈ rows part.2, IsPlain line) (gap : Nat) (c : Case)
    (opened : Option OpenSection) :
    ∃ now part, reads suite ⟨done, comments, .body (some c) opened⟩ (sectionLines gap parts) =
        .ok ⟨done, comments, .body (some now) (some part)⟩ ∧
      now.closed (some part) = (c.closed opened).addAll (restored gap parts) := by
  -- A header closes whatever is open, so the section before it may be any.
  induction parts generalizing c opened with
  | nil => exact absurd rfl hn
  | cons part rest ih =>
    obtain ⟨hlp, hlr⟩ := List.forall_mem_cons.mp hl
    obtain ⟨hpp, hpr⟩ := List.forall_mem_cons.mp hp
    have hh := closeSection_some c opened
    cases rest with
    | nil =>
      have hw : ∀ line ∈ withoutBlanks (rows part.2) ++ List.replicate gap "", IsPlain line := by
        intro line hm
        rcases List.mem_append.mp hm with hm | hm
        · exact hpp line (withoutBlanks_subset _ hm)
        · rw [List.eq_of_mem_replicate hm]
          exact isPlain_empty
      rw [sectionLines, reads_header hlp hh, reads_plain hw, List.nil_append]
      refine ⟨_, _, rfl, ?_⟩
      rw [restored, Case.addAll_singleton, Case.closed_some]
    | cons next more =>
      have hw : ∀ line ∈ rows part.2 ++ [""], IsPlain line := by
        intro line hm
        rcases List.mem_append.mp hm with hm | hm
        · exact hpp line hm
        · rw [List.mem_singleton.mp hm]
          exact isPlain_empty
      have hs : reads suite ⟨done, comments, .body (some c) opened⟩ (linesOf part) =
          .ok ⟨done, comments, .body (some (c.closed opened)) (some ⟨part.1, rows part.2 ++ [""]⟩)⟩ := by
        rw [linesOf, reads_header hlp hh, reads_plain hw, List.nil_append]
      obtain ⟨now, last, hr, hc⟩ := ih (List.cons_ne_nil _ _) hlr hpr (c.closed opened)
        (some ⟨part.1, rows part.2 ++ [""]⟩)
      refine ⟨now, last, ?_, ?_⟩
      · rw [sectionLines, reads_append hs, hr]
      · rw [hc, restored, Case.addAll_cons, Case.closed_some, bodyText_rows]

theorem reads_case (suite : String) (done : List Case) {c : Case} (hr : c.Readable)
    (hs : closeSection current opened = .ok closed) (gap : Nat) :
    ∃ now part, reads suite ⟨done, [], .body current opened⟩ (c.lines gap) =
        .ok ⟨done ++ closed.toList, [], .body (some now) (some part)⟩ ∧
      now.closed (some part) = c.restored suite gap := by
  obtain ⟨raw, hname⟩ := hr.name
  have hcomments : reads suite ⟨done, [], .body current opened⟩ c.comments =
      .ok ⟨done, c.comments, .body current opened⟩ :=
    reads_comments (fun comment hm => (hr.comments comment hm).2.1)
      fun comment hm => (hr.comments comment hm).2.2
  have hbanner : reads suite ⟨done, c.comments, .body current opened⟩ [banner, c.name, banner, ""] =
      .ok ⟨done ++ closed.toList, [], .body (some (.new suite c.name c.comments)) none⟩ := by
    rw [hname]
    exact reads_name hs raw
  have hargs : reads suite ⟨done ++ closed.toList, [], .body (some (.new suite c.name c.comments)) none⟩
      (Case.argsLines c.args) =
      .ok ⟨done ++ closed.toList, [],
        .body (some { Case.new suite c.name c.comments with args := c.args }) none⟩ :=
    reads_args rfl hr.args
  obtain ⟨now, part, hsections, hc⟩ := reads_sections hr.sections_ne_nil
    (fun part hm => (hr.labels part hm).2)
    (fun part hm line hl => hr.bodies part hm line (rows_subset part.2 hl)) gap
    { Case.new suite c.name c.comments with args := c.args } none
  refine ⟨now, part, ?_, hc⟩
  rw [Case.lines, Case.openingLines, List.append_assoc, List.append_assoc, reads_append hcomments,
    reads_append hbanner, reads_append hargs, hsections]

end Reader

def restoredCases (suite : String) : List Case → List Case
  | [] => []
  | [c] => [c.restored suite 0]
  | c :: next :: rest => c.restored suite 2 :: restoredCases suite (next :: rest)

theorem forall₂_restoredCases (suite : String) (cases : List Case) :
    List.Forall₂ (Case.Kept suite) cases (restoredCases suite cases) := by
  induction cases with
  | nil => exact .nil
  | cons c rest ih =>
    have hk := fun gap => c.kept_restored suite gap
    cases rest with
    | nil => exact .cons (hk 0) .nil
    | cons next more => exact .cons (hk 2) ih

/-- The cases of a file, each with the number of blank lines behind it. -/
def gapped : List Case → List (Case × Nat)
  | [] => []
  | [c] => [(c, 0)]
  | c :: next :: rest => (c, 2) :: gapped (next :: rest)

theorem map_fst_gapped (cases : List Case) : (gapped cases).map Prod.fst = cases := by
  induction cases with
  | nil => rfl
  | cons c rest ih =>
    cases rest with
    | nil => rfl
    | cons next more => rw [gapped, List.map_cons, ih]

theorem fileLines_eq (cases : List Case) :
    fileLines cases = (gapped cases).flatMap fun entry => entry.1.lines entry.2 := by
  induction cases with
  | nil => rfl
  | cons c rest ih =>
    cases rest with
    | nil => rw [fileLines, gapped, List.flatMap_singleton]
    | cons next more => rw [fileLines, gapped, List.flatMap_cons, ih]

theorem restoredCases_eq (suite : String) (cases : List Case) :
    restoredCases suite cases = (gapped cases).map fun entry => entry.1.restored suite entry.2 := by
  induction cases with
  | nil => rfl
  | cons c rest ih =>
    cases rest with
    | nil => rfl
    | cons next more => rw [restoredCases, gapped, List.map_cons, ih]

theorem Reader.reads_gapped (suite : String) (done : List Case) {entries : List (Case × Nat)}
    {current closed : Option Case} {opened : Option OpenSection}
    (hr : ∀ entry ∈ entries, entry.1.Readable) (hs : closeSection current opened = .ok closed) :
    ∃ reader, reads suite ⟨done, [], .body current opened⟩
        (entries.flatMap fun entry => entry.1.lines entry.2) = .ok reader ∧
      reader.finish = .ok (done ++ closed.toList ++
        entries.map fun entry => entry.1.restored suite entry.2) := by
  -- Comments above a case are read while the case before it is still open: its last section is
  -- closed by the banner, and until then it is told by what closing it would leave.
  induction entries generalizing done current opened closed with
  | nil =>
    refine ⟨_, rfl, ?_⟩
    simp only [finish, hs, List.map_nil, List.append_nil]
    rfl
  | cons entry rest ih =>
    obtain ⟨hc, hrest⟩ := List.forall_mem_cons.mp hr
    obtain ⟨now, part, hread, hclosed⟩ := reads_case suite done hc hs entry.2
    obtain ⟨reader, hmore, hfinish⟩ := ih _ hrest (closeSection_some now (some part))
    refine ⟨reader, ?_, ?_⟩
    · rw [List.flatMap_cons, reads_append hread, hmore]
    · rw [hfinish, hclosed, List.map_cons]
      simp

theorem Reader.reads_cases (suite : String) (done : List Case) {cases : List Case}
    {current closed : Option Case} {opened : Option OpenSection} (hr : ∀ c ∈ cases, c.Readable)
    (hs : closeSection current opened = .ok closed) :
    ∃ reader, reads suite ⟨done, [], .body current opened⟩ (fileLines cases) = .ok reader ∧
      reader.finish = .ok (done ++ closed.toList ++ restoredCases suite cases) := by
  have hg : ∀ entry ∈ gapped cases, entry.1.Readable := by
    intro entry hm
    refine hr entry.1 ?_
    rw [← map_fst_gapped cases]
    exact List.mem_map_of_mem hm
  rw [fileLines_eq, restoredCases_eq]
  exact reads_gapped suite done hg hs

theorem documents_ne_nil_of_kept {suite : String} {cases others : List Case}
    (h : List.Forall₂ (Case.Kept suite) cases others) (hd : ∀ c ∈ cases, c.documents ≠ []) :
    ∀ c ∈ others, c.documents ≠ [] := by
  induction h with
  | nil => intro c hm; cases hm
  | cons hk h ih =>
    obtain ⟨hc, hr⟩ := List.forall_mem_cons.mp hd
    refine List.forall_mem_cons.mpr ⟨?_, ih hr⟩
    intro he
    have hl := hk.documents.length_eq
    rw [he] at hl
    exact hc (List.eq_nil_of_length_eq_zero hl)

theorem parseCases_of_lines (suite : String) {text : String} {entries : List (Case × Nat)}
    (hn : entries ≠ []) (hr : ∀ entry ∈ entries, entry.1.Readable)
    (hl : (Text.lines text).map bareLine =
      (entries.flatMap fun entry => entry.1.lines entry.2).map bareLine) :
    parseCases suite text = .ok (entries.map fun entry => entry.1.restored suite entry.2) := by
  have hstart : closeSection none none = .ok none := rfl
  obtain ⟨reader, hread, hfinish⟩ := Reader.reads_gapped suite [] hr hstart
  have hd : ∀ c ∈ entries.map fun entry => entry.1.restored suite entry.2, c.documents ≠ [] := by
    intro c hm he
    obtain ⟨entry, hentry, rfl⟩ := List.mem_map.mp hm
    have hk := (entry.1.kept_restored suite entry.2).documents.length_eq
    rw [he] at hk
    exact (hr entry hentry).documents_ne_nil (List.eq_nil_of_length_eq_zero hk)
  have hlines : ((Text.lines text).map bareLine).foldlM (Reader.step suite) .start = .ok reader := by
    rw [hl]
    exact hread
  rw [parseCases, hlines]
  change (do checkCases (← reader.finish)) = _
  rw [hfinish]
  exact checkCases_eq_ok.mpr ⟨rfl, by simpa using hn, hd⟩

theorem parseCases_of_comments (suite : String) {text more : String} {lines comments : List String}
    (hc : ∀ comment ∈ comments, isComment comment = true)
    (hr : ∀ comment ∈ comments, comment.toList.getLast? ≠ some '\r')
    (ht : (Text.lines text).map bareLine = lines.map bareLine)
    (hm : (Text.lines more).map bareLine = (lines ++ comments).map bareLine) :
    parseCases suite more = parseCases suite text := by
  rw [parseCases, parseCases, ht, hm, List.map_append, List.foldlM_append]
  cases (lines.map bareLine).foldlM (Reader.step suite) .start with
  | error fault => rfl
  | ok reader =>
    change (do checkCases (← (← Reader.reads suite reader comments).finish)) = _
    rw [Reader.reads_comments hc hr]
    obtain ⟨_, _, position⟩ := reader
    cases position <;> rfl

/-- Whatever is written of cases whose arguments stand on one line is read back: the same cases in the
same order, up to the line feeds at the end of their texts. -/
theorem parseCases_casesText (suite : String) (cases : List Case) (hn : cases ≠ [])
    (hr : ∀ c ∈ cases, c.Readable) (ha : ∀ c ∈ cases, ∀ arg ∈ c.args, '\n' ∉ arg.toList) :
    ∃ result, parseCases suite (casesText cases) = .ok result ∧
      List.Forall₂ (Case.Kept suite) cases result := by
  have hk := forall₂_restoredCases suite cases
  have hs : ∀ c ∈ cases, c.sections ≠ [] := fun c hm => (hr c hm).sections_ne_nil
  have hl : ∀ c ∈ cases, ∀ line ∈ c.lines 0, '\n' ∉ line.toList :=
    fun c hm => (hr c hm).newline_not_mem (ha c hm)
  have hlines : (Text.lines (casesText cases)).map bareLine = (fileLines cases).map bareLine := by
    rw [casesText_eq hn hs fun c hm line hc h => hl c hm line hc (List.mem_of_getLast? h),
      map_bareLine_lines (newline_not_mem_fileLines hs hl)]
  have hstart : closeSection none none = .ok none := rfl
  obtain ⟨reader, hread, hfinish⟩ := Reader.reads_cases suite [] hr hstart
  have hne : restoredCases suite cases ≠ [] := by
    intro he
    have hlen := hk.length_eq
    rw [he] at hlen
    exact hn (List.eq_nil_of_length_eq_zero hlen)
  have hd := documents_ne_nil_of_kept hk fun c hm => (hr c hm).documents_ne_nil
  have hread' : ((Text.lines (casesText cases)).map bareLine).foldlM (Reader.step suite) .start =
      .ok reader := by
    rw [hlines]
    exact hread
  refine ⟨restoredCases suite cases, ?_, hk⟩
  rw [parseCases, hread']
  change (do checkCases (← reader.finish)) = _
  rw [hfinish]
  exact checkCases_eq_ok.mpr ⟨rfl, hne, hd⟩

/-- A case with comments and arguments, and one whose document does not end its last line. -/
def menuCases : List Case :=
  [{ suite := "menus", name := "main-menu", args := ["--source", "main menu.xml"]
     documents := [⟨"main.xml", "<s>\n\n</s>\n"⟩]
     expectations := [⟨"error", "ok\n"⟩]
     comments := ["$// exception edges"] },
   { suite := "menus", name := "case", args := []
     documents := [⟨"a.xml", "<s/>"⟩, ⟨"b.xml", ""⟩]
     expectations := [⟨"error", "ok\n\n"⟩]
     comments := [] }]

theorem menuCases_readBack :
    menuCases ≠ [] ∧ (∀ c ∈ menuCases, c.Readable) ∧
      (∀ c ∈ menuCases, ∀ arg ∈ c.args, '\n' ∉ arg.toList) ∧
      ∃ result, parseCases "menus" (casesText menuCases) = .ok result ∧
        List.Forall₂ (Case.Kept "menus") menuCases result := by
  have hn : menuCases ≠ [] := List.cons_ne_nil _ _
  have hr : ∀ c ∈ menuCases, c.Readable := by decide +kernel
  have ha : ∀ c ∈ menuCases, ∀ arg ∈ c.args, '\n' ∉ arg.toList := by decide
  exact ⟨hn, hr, ha, parseCases_casesText "menus" menuCases hn hr ha⟩

def twoLines : Case :=
  { suite := "a", name := "x", args := ["a\nb"], documents := [⟨"m.xml", "<a/>\n"⟩]
    expectations := [], comments := [] }

def brokenLines : List String :=
  [banner, "x", banner, "", "args: 'a", "b'", "", "--- file: m.xml ---", "<a/>"]

/-- An argument that breaks its line is not read back, though its words can be taken apart. -/
theorem twoLines_unread :
    twoLines.Readable ∧ parseCases "a" (casesText [twoLines]) = .error .badArguments := by
  have hr : twoLines.Readable := by decide +kernel
  have hc : ∀ c ∈ [twoLines], c.sections ≠ [] := by decide
  have hl : ∀ c ∈ [twoLines], ∀ line ∈ c.lines 0, line.toList.getLast? ≠ some '\n' := by
    decide +kernel
  have ht : casesText [twoLines] = allLines brokenLines := by
    have hf : fileLines [twoLines] = [banner, "x", banner, ""] ++ ["args: 'a\nb'"] ++
        ["", "--- file: m.xml ---", "<a/>"] := by
      decide +kernel
    have ha : allLines ["args: 'a\nb'"] = allLines ["args: 'a", "b'"] := by decide +kernel
    rw [casesText_eq (List.cons_ne_nil _ _) hc hl, hf, allLines_append, allLines_append, ha,
      ← allLines_append, ← allLines_append]
    rfl
  have hb : (Text.lines (casesText [twoLines])).map bareLine = brokenLines.map bareLine := by
    rw [ht, map_bareLine_lines]
    decide +kernel
  have hstart : closeSection none none = .ok none := rfl
  have hx : slug "x" = "x" := by decide
  have hname : Reader.reads "a" .start [banner, "x", banner, ""] =
      .ok ⟨[], [], .body (some (.new "a" "x" [])) none⟩ :=
    hx ▸ Reader.reads_name hstart "x"
  have hread : (brokenLines.map bareLine).foldlM (Reader.step "a") .start =
      .error .badArguments := by
    change Reader.reads "a" .start ([banner, "x", banner, ""] ++ _) = _
    rw [Reader.reads_append hname]
    decide +kernel
  refine ⟨hr, ?_⟩
  rw [parseCases, hb, hread]
  rfl

end CallFlow.Corpus
