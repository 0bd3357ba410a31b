import CallFlow.Proofs.CasesReadBack
import CallFlow.Success

namespace CallFlow.Corpus

section Lines

/-- One line, without its end. -/
structure IsLine (line : String) : Prop where
  no_newline : '\n' ∉ line.toList
  not_return : line.toList.getLast? ≠ some '\r'

structure IsCommentLine (line : String) : Prop extends IsLine line where
  is_comment : isComment line = true

/-- A line that stands in a section. -/
structure IsBodyLine (line : String) : Prop extends IsLine line, IsPlain line

/-- A label that a header on one line may have. -/
structure IsLabel (label : String) : Prop where
  no_newline : '\n' ∉ label.toList
  trimmed : Text.trim label = label

/-- What stands in a section: plain lines, each of which is ended. -/
structure IsBody (body : String) : Prop where
  ended : body = "" ∨ body.toList.getLast? = some '\n'
  plain : ∀ line ∈ Text.splitAt '\n' body, IsPlain line

variable {line label : String} {lines : List String}

theorem mem_bareLine {c : Char} (h : c ∈ (bareLine line).toList) : c ∈ line.toList := by
  rw [bareLine, String.toList_ofList, List.mem_reverse] at h
  exact List.mem_reverse.mp ((List.dropWhile_sublist _).subset h)

theorem getLast?_bareLine (line : String) : (bareLine line).toList.getLast? ≠ some '\r' := by
  intro h
  rw [bareLine, String.toList_ofList, List.getLast?_reverse] at h
  have hn := List.head?_dropWhile_not (· = '\r') line.toList.reverse
  rw [h] at hn
  simp at hn

theorem newline_not_mem_lines {text line : String} (h : line ∈ Text.lines text) :
    '\n' ∉ line.toList := by
  obtain ⟨chars, hm, rfl⟩ := List.mem_map.mp h
  rw [String.toList_ofList]
  rcases List.mem_append.mp hm with hm | hm
  · obtain ⟨piece, hp, rfl⟩ := List.mem_map.mp hm
    have hn := Text.not_mem_of_mem_pieces ((List.dropLast_sublist _).subset hp)
    unfold Text.dropReturn
    split
    · exact fun hc => hn ((List.dropLast_sublist _).subset hc)
    · exact hn
  · have hl := (Option.mem_filter_iff.mp (Option.mem_toList.mp hm)).1
    exact Text.not_mem_of_mem_pieces (List.mem_of_getLast? hl)

theorem isLine_bareLine {text line : String} (h : line ∈ Text.lines text) :
    IsLine (bareLine line) :=
  ⟨fun hc => newline_not_mem_lines h (mem_bareLine hc), getLast?_bareLine line⟩

theorem newline_not_mem_trim (h : '\n' ∉ line.toList) : '\n' ∉ (Text.trim line).toList := by
  rw [Text.trim, String.toList_ofList]
  exact fun hc => h (Text.mem_trimChars hc)

theorem isLabel_trim (h : '\n' ∉ line.toList) : IsLabel (Text.trim line) :=
  ⟨newline_not_mem_trim h, Text.trim_trim line⟩

theorem newline_not_mem_dropStart? {start rest : String} (h : '\n' ∉ line.toList)
    (hd : Text.dropStart? start line = some rest) : '\n' ∉ rest.toList := by
  obtain ⟨cs, hc, rfl⟩ := Option.map_eq_some_iff.mp hd
  rw [Text.after?_eq_some] at hc
  rw [String.toList_ofList]
  intro hm
  rw [hc] at h
  exact h (List.mem_append_right _ hm)

theorem newline_not_mem_headerWords (h : '\n' ∉ line.toList) :
    '\n' ∉ (headerWords line).toList := by
  refine newline_not_mem_trim fun hm => h ?_
  rw [String.toList_ofList, List.mem_reverse] at hm
  have hr := List.mem_reverse.mp ((List.dropWhile_sublist _).subset hm)
  exact (List.dropWhile_sublist _).subset hr

theorem mem_of_splitColon? {field value : String} (h : splitColon? line = some (field, value))
    {c : Char} (hc : c ∈ value.toList) : c ∈ line.toList := by
  unfold splitColon? at h
  split at h
  · cases h
  · rename_i d rest hd
    obtain ⟨-, rfl⟩ := Prod.mk.inj (Option.some.inj h)
    rw [String.toList_ofList] at hc
    have hm : c ∈ line.toList.dropWhile (· ≠ ':') := by
      rw [hd]
      exact List.mem_cons_of_mem d hc
    exact (List.dropWhile_sublist _).subset hm

theorem isLabel_of_sectionOf? (h : '\n' ∉ line.toList) {head : Section}
    (hs : sectionOf? line = some head) : IsLabel head.label := by
  have hw := newline_not_mem_headerWords h
  unfold sectionOf? at hs
  split at hs
  · cases hs
  · split at hs
    · rename_i path hd
      cases hs
      exact isLabel_trim (newline_not_mem_dropStart? hw hd)
    · rename_i kind _ hd
      cases hs
      exact isLabel_trim (newline_not_mem_dropStart? hw hd)
    · cases hs

theorem isBody_bodyText (hl : ∀ line ∈ lines, IsBodyLine line) : IsBody (bodyText lines) := by
  obtain ⟨ended, hs⟩ := holds_bodyText fun line hm => (hl line hm).no_newline
  refine ⟨ended, fun line hm => ?_⟩
  rcases hs with hs | hs
  · rw [hs] at hm
    exact (hl line hm).toIsPlain
  · rw [hs] at hm
    rcases List.mem_append.mp hm with hm | hm
    · exact (hl line hm).toIsPlain
    · rw [List.mem_singleton.mp hm]
      exact isPlain_empty

end Lines

namespace Case

/-- What every case that was read in a suite is like. -/
structure WasRead (suite : String) (c : Case) : Prop where
  suite_eq : c.suite = suite
  name : ∃ raw, c.name = slug raw
  comments : ∀ comment ∈ c.comments, IsCommentLine comment
  args : ∀ arg ∈ c.args, '\n' ∉ arg.toList
  sections : ∀ part ∈ c.sections, IsLabel part.1.label ∧ IsBody part.2

theorem mem_sections_add {c : Case} {head : Section} {body : String} {part : Section × String} :
    part ∈ (c.add head body).sections ↔ part ∈ c.sections ∨ part = (head, body) := by
  cases head with
  | document path =>
    simp only [add, sections, List.map_append, List.mem_append, List.map_singleton,
      List.mem_singleton]
    exact or_right_comm
  | expectation kind =>
    simp only [add, sections, List.map_append, List.mem_append, List.map_singleton,
      List.mem_singleton]
    exact or_assoc.symm

variable {suite : String} {c : Case}

theorem wasRead_new (raw : String) {comments : List String}
    (hc : ∀ comment ∈ comments, IsCommentLine comment) :
    (new suite (slug raw) comments).WasRead suite :=
  ⟨rfl, ⟨raw, rfl⟩, hc, fun _ ha => absurd ha List.not_mem_nil,
    fun _ hp => absurd hp List.not_mem_nil⟩

theorem WasRead.add (h : c.WasRead suite) {head : Section} {body : String}
    (hl : IsLabel head.label) (hb : IsBody body) : (c.add head body).WasRead suite where
  suite_eq := by cases head <;> exact h.suite_eq
  name := by cases head <;> exact h.name
  comments := by cases head <;> exact h.comments
  args := by cases head <;> exact h.args
  sections := by
    intro part hp
    rcases mem_sections_add.mp hp with hp | rfl
    · exact h.sections part hp
    · exact ⟨hl, hb⟩

/-- A line before the first section changes the arguments at most. -/
theorem WasRead.setField (h : c.WasRead suite) {line : String} (hl : '\n' ∉ line.toList)
    {after : Case} (hs : setField (some c) line = .ok after) : after.WasRead suite := by
  simp only [Corpus.setField] at hs
  split at hs
  · cases hs
  · rename_i value hc
    split at hs
    · cases hs
    · rename_i args ha
      cases hs
      refine ⟨h.suite_eq, h.name, h.comments, fun arg hm hn => ?_, h.sections⟩
      have hv : '\n' ∈ value.toList := by
        have ht := Text.Words.mem_of_split? ha hm hn
        rw [Text.trim, String.toList_ofList] at ht
        exact Text.mem_trimChars ht
      exact newline_not_mem_trim hl (mem_of_splitColon? hc hv)
  · cases hs

end Case

section Readers

variable {suite : String}

/-- A section that is being read has plain lines so far. -/
structure OpenSection.IsSound (part : OpenSection) : Prop where
  label : IsLabel part.head.label
  lines : ∀ line ∈ part.lines, IsBodyLine line

/-- What is being read is like what was read. -/
def Position.IsSound (suite : String) : Position → Prop
  | .name => True
  | .closing current => current.WasRead suite
  | .body current opened =>
    (∀ c ∈ current, c.WasRead suite) ∧ ∀ part ∈ opened, part.IsSound

structure Reader.IsSound (suite : String) (reader : Reader) : Prop where
  cases : ∀ c ∈ reader.cases, c.WasRead suite
  comments : ∀ comment ∈ reader.comments, IsCommentLine comment
  position : reader.position.IsSound suite

theorem wasRead_of_closeSection {current closed : Option Case} {opened : Option OpenSection}
    (hp : (Position.body current opened).IsSound suite)
    (h : closeSection current opened = .ok closed) : ∀ c ∈ closed, c.WasRead suite := by
  obtain ⟨hc, ho⟩ := hp
  unfold closeSection at h
  split at h
  · cases h
    exact hc
  · cases h
  · rename_i part current
    cases h
    intro c hm
    cases hm
    have hpart := ho part rfl
    exact (hc current rfl).add hpart.label (isBody_bodyText hpart.lines)

namespace Reader

variable {reader after : Reader} {line : String}

theorem IsSound.readLine (h : reader.IsSound suite) (hl : IsLine line)
    (hc : isComment line = false) (hs : reader.readLine suite line = .ok after) :
    after.IsSound suite := by
  obtain ⟨done, comments, position⟩ := reader
  obtain ⟨hcases, hcomments, hposition⟩ := h
  cases position with
  | name =>
    rcases cases_readLine_name hs with ⟨-, rfl⟩ | ⟨-, rfl⟩
    · exact ⟨hcases, hcomments, hposition⟩
    · exact ⟨hcases, fun _ hm => absurd hm List.not_mem_nil, Case.wasRead_new _ hcomments⟩
  | closing current =>
    rcases cases_readLine_closing hs with ⟨-, rfl⟩ | ⟨-, rfl⟩
    · exact ⟨hcases, hcomments, hposition⟩
    · refine ⟨hcases, hcomments, fun c hm => ?_, fun part hm => absurd hm (by simp)⟩
      cases hm
      exact hposition
  | body current opened =>
    rcases cases_readLine_body hs with ⟨closed, -, hclose, rfl⟩ | ⟨head, closed, hhead, hclose, rfl⟩ |
      ⟨part, hinner, rfl, rfl⟩ | ⟨-, rfl, -, rfl⟩ | ⟨next, -, rfl, hnext, rfl⟩
    · have hclosed := wasRead_of_closeSection hposition hclose
      refine ⟨fun c hm => ?_, hcomments, trivial⟩
      rcases List.mem_append.mp hm with hm | hm
      · exact hcases c hm
      · exact hclosed c (Option.mem_toList.mp hm)
    · refine ⟨hcases, hcomments, wasRead_of_closeSection hposition hclose, fun part hm => ?_⟩
      cases hm
      exact ⟨isLabel_of_sectionOf? hl.no_newline hhead, fun _ hm => absurd hm List.not_mem_nil⟩
    · have hpart := hposition.2 part rfl
      refine ⟨hcases, hcomments, hposition.1, fun part' hm => ?_⟩
      cases hm
      refine ⟨hpart.label, fun line' hm => ?_⟩
      rcases List.mem_append.mp hm with hm | hm
      · exact hpart.lines line' hm
      · rw [List.mem_singleton.mp hm]
        exact ⟨hl, hc, hinner.not_banner, hinner.not_header⟩
    · exact ⟨hcases, hcomments, hposition⟩
    · refine ⟨hcases, hcomments, fun c hm => ?_, fun part hm => absurd hm (by simp)⟩
      cases hm
      cases current with
      | none => cases hnext
      | some current => exact (hposition.1 current rfl).setField hl.no_newline hnext

theorem IsSound.step (h : reader.IsSound suite) (hl : IsLine line)
    (hs : reader.step suite line = .ok after) : after.IsSound suite := by
  unfold Reader.step at hs
  split at hs
  · rename_i hc
    cases hs
    refine ⟨h.cases, fun comment hm => ?_, h.position⟩
    rcases List.mem_append.mp hm with hm | hm
    · exact h.comments comment hm
    · rw [List.mem_singleton.mp hm]
      exact ⟨hl, hc⟩
  · rename_i hc
    exact h.readLine hl (eq_false_of_ne_true hc) hs

theorem isSound_start : start.IsSound suite := by
  refine ⟨?_, ?_, ?_, ?_⟩ <;> intro _ hm <;> cases hm

theorem IsSound.finish (h : reader.IsSound suite) {cases : List Case}
    (hf : reader.finish = .ok cases) : ∀ c ∈ cases, c.WasRead suite := by
  obtain ⟨current, opened, closed, hp, hclose, rfl⟩ := cases_finish hf
  have hclosed := wasRead_of_closeSection (hp ▸ h.position) hclose
  intro c hm
  rcases List.mem_append.mp hm with hm | hm
  · exact h.cases c hm
  · exact hclosed c (Option.mem_toList.mp hm)

end Reader

theorem wasRead_of_parseCases {text : String} {cases : List Case}
    (h : parseCases suite text = .ok cases) :
    cases ≠ [] ∧ ∀ c ∈ cases, c.WasRead suite ∧ c.documents ≠ [] := by
  obtain ⟨reader, hr, h⟩ := bind_eq_ok.mp h
  obtain ⟨found, hf, h⟩ := bind_eq_ok.mp h
  have hsound : reader.IsSound suite := by
    refine foldlM_keeps (fun line hm before after hb hs => ?_) Reader.isSound_start hr
    obtain ⟨written, hw, rfl⟩ := List.mem_map.mp hm
    exact hb.step (isLine_bareLine hw) hs
  obtain ⟨rfl, hn, hd⟩ := checkCases_eq_ok.mp h
  exact ⟨hn, fun c hm => ⟨hsound.finish hf c hm, hd c hm⟩⟩

end Readers

end CallFlow.Corpus
