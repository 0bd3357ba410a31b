import CallFlow.Corpus.Kind
import CallFlow.Corpus.Outline

namespace CallFlow.Corpus

section Lines

variable {lines more : List String} {line text : String}

theorem allLines_append (lines more : List String) :
    allLines (lines ++ more) = allLines lines ++ allLines more := by
  simp [allLines, String.join_append]

theorem allLines_cons (line : String) (lines : List String) :
    allLines (line :: lines) = line ++ "\n" ++ allLines lines := by
  simp [allLines]

theorem allLines_eq_join (hn : lines ≠ []) : allLines lines = Text.join "\n" lines ++ "\n" := by
  induction lines with
  | nil => exact absurd rfl hn
  | cons line rest ih =>
    rw [allLines_cons]
    cases rest with
    | nil => simp [allLines]
    | cons next more =>
      rw [ih (List.cons_ne_nil _ _), Text.join_cons_cons, String.append_assoc, String.append_assoc,
        String.append_assoc]

theorem bareLine_dropReturn (cs : List Char) :
    bareLine (String.ofList (Text.dropReturn cs)) = bareLine (String.ofList cs) := by
  unfold Text.dropReturn
  split
  · rename_i h
    obtain ⟨front, rfl⟩ := List.getLast?_eq_some_iff.mp h
    simp [bareLine]
  · rfl

theorem map_bareLine_lines (h : ∀ line ∈ lines, '\n' ∉ line.toList) :
    (Text.lines (allLines lines)).map bareLine = lines.map bareLine := by
  have hp := Text.pieces_join h
  simp only [Text.lines, Text.lineChars, allLines, hp, List.dropLast_concat, List.getLast?_concat]
  simp only [List.map_append, List.map_map, Option.filter_some, List.isEmpty_nil]
  simp [bareLine_dropReturn]

theorem dropWhile_reverse_of_getLast? {c : Char} {cs : List Char} (h : cs.getLast? ≠ some c) :
    (cs.reverse.dropWhile (· = c)).reverse = cs := by
  have hd : cs.reverse.dropWhile (· = c) = cs.reverse := by
    cases hr : cs.reverse with
    | nil => rfl
    | cons d ds =>
      refine List.dropWhile_cons_of_neg ?_
      intro hc
      refine h ?_
      rw [List.getLast?_eq_head?_reverse, hr, List.head?_cons, of_decide_eq_true hc]
  rw [hd, List.reverse_reverse]

theorem bareLine_of_getLast? (h : line.toList.getLast? ≠ some '\r') : bareLine line = line := by
  rw [bareLine, dropWhile_reverse_of_getLast? h, String.ofList_toList]

end Lines

section Ends

variable {text : String} {rows : List String}

theorem unterminated_append (text : String) : unterminated (text ++ "\n") = unterminated text := by
  simp [unterminated]

theorem unterminated_of_getLast? (h : text.toList.getLast? ≠ some '\n') :
    unterminated text = text := by
  rw [unterminated, dropWhile_reverse_of_getLast? h, String.ofList_toList]

theorem unterminated_terminated (text : String) :
    unterminated (terminated text) = unterminated text := by
  unfold terminated
  split
  · rfl
  · exact unterminated_append text

theorem terminated_append (text : String) : terminated (text ++ "\n") = text ++ "\n" := by
  simp [terminated]

theorem unterminated_join_blanks (lines : List String) (count : Nat) :
    unterminated (Text.join "\n" (lines ++ List.replicate count "")) =
      unterminated (Text.join "\n" lines) := by
  induction count with
  | zero => rw [List.replicate_zero, List.append_nil]
  | succ count ih =>
    rw [List.replicate_succ', ← List.append_assoc, ← ih]
    cases hl : lines ++ List.replicate count "" with
    | nil => rfl
    | cons line rest =>
      rw [Text.join_append (List.cons_ne_nil _ _) (List.cons_ne_nil _ _), Text.join_singleton,
        String.append_empty, unterminated_append]

theorem bodyText_eq (lines : List String) :
    bodyText lines =
      if Text.join "\n" lines = "" then "" else terminated (Text.join "\n" lines) :=
  rfl

theorem splitAt_newline_append (text : String) :
    Text.splitAt '\n' (text ++ "\n") = Text.splitAt '\n' text ++ [""] := by
  have hp : Text.pieces '\n' (text.toList ++ '\n' :: []) = _ := Text.pieces_append_cons _ []
  have hn : "\n".toList = ['\n'] := rfl
  rw [Text.splitAt, Text.splitAt, String.toList_append, hn, hp, List.map_append]
  rfl

theorem holds_bodyText (h : ∀ row ∈ rows, '\n' ∉ row.toList) : Holds (bodyText rows) rows := by
  have hj : rows ≠ [] → Text.splitAt '\n' (Text.join "\n" rows) = rows :=
    fun hn => Text.splitAt_intercalate hn h
  rw [bodyText_eq]
  split
  · rename_i he
    refine ⟨.inl rfl, ?_⟩
    cases hr : rows with
    | nil => exact .inr rfl
    | cons row rest =>
      rw [← hr, ← he]
      exact .inl (hj (by rw [hr]; exact List.cons_ne_nil _ _))
  · rename_i he
    have hn : rows ≠ [] := by
      rintro rfl
      exact he rfl
    unfold terminated
    split
    · rename_i hlast
      exact ⟨.inr hlast, .inl (hj hn)⟩
    · refine ⟨.inr (by simp), .inr ?_⟩
      rw [splitAt_newline_append, hj hn]

theorem unterminated_bodyText (lines : List String) :
    unterminated (bodyText lines) = unterminated (Text.join "\n" lines) := by
  rw [bodyText_eq]
  split
  · rename_i h
    rw [h]
  · exact unterminated_terminated _

end Ends

def opened (text : String) : String :=
  if text.toList.getLast? = some '\n' then String.ofList text.toList.dropLast else text

theorem terminated_eq (text : String) : terminated text = opened text ++ "\n" := by
  unfold terminated opened
  split
  · rename_i h
    obtain ⟨front, hf⟩ := List.getLast?_eq_some_iff.mp h
    rw [← String.toList_inj, hf]
    simp
  · rfl

def rows (body : String) : List String :=
  Text.splitAt '\n' (opened body)

theorem rows_ne_nil (body : String) : rows body ≠ [] := by
  simp [rows, Text.splitAt, Text.pieces]

theorem terminated_eq_join (body : String) :
    terminated body = Text.join "\n" (rows body) ++ "\n" := by
  rw [terminated_eq, rows]
  exact congrArg (· ++ "\n") (Text.join_splitAt '\n' (opened body)).symm

theorem rows_subset (body : String) : rows body ⊆ Text.splitAt '\n' body := by
  unfold rows opened
  split
  · rename_i h
    obtain ⟨front, hf⟩ := List.getLast?_eq_some_iff.mp h
    rw [hf, List.dropLast_concat, Text.splitAt, Text.splitAt, String.toList_ofList, hf,
      Text.pieces_append_cons, List.map_append]
    exact List.subset_append_left _ _
  · exact List.Subset.refl _

theorem newline_not_mem_splitAt {text line : String} (h : line ∈ Text.splitAt '\n' text) :
    '\n' ∉ line.toList := by
  obtain ⟨piece, hp, rfl⟩ := List.mem_map.mp h
  rw [String.toList_ofList]
  exact Text.not_mem_of_mem_pieces hp

def withoutBlanks (lines : List String) : List String :=
  (lines.reverse.dropWhile (· = "")).reverse

theorem exists_blanks (lines : List String) :
    ∃ count, lines = withoutBlanks lines ++ List.replicate count "" := by
  have hb : ∀ line ∈ lines.reverse.takeWhile (· = ""), line = "" := by
    intro line hm
    exact of_decide_eq_true (List.all_eq_true.mp List.all_takeWhile line hm)
  refine ⟨(lines.reverse.takeWhile (· = "")).length, ?_⟩
  have hr := List.eq_replicate_of_mem hb
  calc
    lines = (lines.reverse.takeWhile (· = "") ++ lines.reverse.dropWhile (· = "")).reverse := by
      rw [List.takeWhile_append_dropWhile, List.reverse_reverse]
    _ = withoutBlanks lines ++ (lines.reverse.takeWhile (· = "")).reverse := by
      rw [List.reverse_append, withoutBlanks]
    _ = _ := by rw [hr, List.reverse_replicate, List.length_replicate]

theorem getLast?_withoutBlanks (lines : List String) : (withoutBlanks lines).getLast? ≠ some "" := by
  intro h
  rw [withoutBlanks, List.getLast?_reverse] at h
  have hn := List.head?_dropWhile_not (· = "") lines.reverse
  rw [h] at hn
  simp at hn

theorem withoutBlanks_subset (lines : List String) : withoutBlanks lines ⊆ lines := by
  intro line hm
  exact List.mem_reverse.mp ((List.dropWhile_suffix _).subset (List.mem_reverse.mp hm))

section Sections

def linesOf (part : Section × String) : List String :=
  part.1.header :: (rows part.2 ++ [""])

/-- The lines of sections with a gap behind them, in place of the blank lines at the end of the
last. -/
def sectionLines (gap : Nat) : List (Section × String) → List String
  | [] => []
  | [part] => part.1.header :: (withoutBlanks (rows part.2) ++ List.replicate gap "")
  | part :: next :: rest => linesOf part ++ sectionLines gap (next :: rest)

theorem sectionText_eq (part : Section × String) :
    sectionText part.1 part.2 = allLines (linesOf part) := by
  rw [linesOf, allLines_cons, allLines_append, allLines_eq_join (rows_ne_nil part.2), sectionText,
    terminated_eq_join]
  simp [allLines, String.append_assoc]

theorem sectionLines_gap {parts : List (Section × String)} (hn : parts ≠ []) (gap : Nat) :
    sectionLines gap parts = sectionLines 0 parts ++ List.replicate gap "" := by
  induction parts with
  | nil => exact absurd rfl hn
  | cons part rest ih =>
    cases rest with
    | nil => simp [sectionLines]
    | cons next more =>
      rw [sectionLines, sectionLines, ih (List.cons_ne_nil _ _), List.append_assoc]

theorem exists_flatMap_linesOf {parts : List (Section × String)} (hn : parts ≠ []) :
    ∃ count, parts.flatMap linesOf = sectionLines 0 parts ++ List.replicate count "" := by
  induction parts with
  | nil => exact absurd rfl hn
  | cons part rest ih =>
    cases rest with
    | nil =>
      obtain ⟨count, hc⟩ := exists_blanks (rows part.2)
      refine ⟨count + 1, ?_⟩
      rw [List.flatMap_singleton, linesOf, sectionLines, List.replicate_zero, List.append_nil,
        List.replicate_succ', ← List.append_assoc, List.cons_append, ← hc]
      rfl
    | cons next more =>
      obtain ⟨count, hc⟩ := ih (List.cons_ne_nil _ _)
      refine ⟨count, ?_⟩
      rw [List.flatMap_cons, hc, sectionLines, List.append_assoc]

theorem header_ne_empty (head : Section) : head.header ≠ "" := by
  cases head <;> simp [Section.header]

theorem exists_getLast?_sectionLines {parts : List (Section × String)} (hn : parts ≠ []) :
    ∃ line, (sectionLines 0 parts).getLast? = some line ∧ line ≠ "" := by
  induction parts with
  | nil => exact absurd rfl hn
  | cons part rest ih =>
    cases rest with
    | nil =>
      rw [sectionLines, List.replicate_zero, List.append_nil, List.getLast?_cons]
      refine ⟨_, rfl, ?_⟩
      cases hl : (withoutBlanks (rows part.2)).getLast? with
      | none => exact header_ne_empty part.1
      | some line =>
        rintro rfl
        exact getLast?_withoutBlanks _ hl
    | cons next more =>
      obtain ⟨line, hl, he⟩ := ih (List.cons_ne_nil _ _)
      refine ⟨line, ?_, he⟩
      rw [sectionLines, List.getLast?_append, hl, Option.some_or]

end Sections

namespace Case

def argsLines (args : List String) : List String :=
  if args = [] then [] else ["args: " ++ Text.Words.join args, ""]

def openingLines (c : Case) : List String :=
  c.comments ++ [banner, c.name, banner, ""] ++ argsLines c.args

def lines (gap : Nat) (c : Case) : List String :=
  c.openingLines ++ sectionLines gap c.sections

theorem argsText_eq (args : List String) : argsText args = allLines (argsLines args) := by
  unfold argsText argsLines
  split
  · rfl
  · simp [allLines, String.append_assoc]

theorem text_eq (c : Case) : c.text = allLines (c.openingLines ++ c.sections.flatMap linesOf) := by
  have hs : String.join (c.sections.map fun part => sectionText part.1 part.2) =
      allLines (c.sections.flatMap linesOf) := by
    induction c.sections with
    | nil => rfl
    | cons part rest ih =>
      rw [List.map_cons, String.join_cons, ih, List.flatMap_cons, allLines_append]
      exact congrArg (· ++ _) (sectionText_eq part)
  change _ ++ String.join (c.sections.map fun part => sectionText part.1 part.2) = _
  rw [hs, argsText_eq, openingLines, allLines_append, allLines_append, allLines_append]
  simp [allLines, String.append_assoc]

theorem lines_gap {c : Case} (hn : c.sections ≠ []) (gap : Nat) :
    c.lines gap = c.lines 0 ++ List.replicate gap "" := by
  rw [lines, sectionLines_gap hn, ← List.append_assoc, lines]

theorem lines_ne_nil (c : Case) (gap : Nat) : c.lines gap ≠ [] := by
  simp [lines, openingLines]

theorem getLast?_join {lines : List String} {line : String} (hl : lines.getLast? = some line)
    (he : line ≠ "") : (Text.join "\n" lines).toList.getLast? = line.toList.getLast? := by
  obtain ⟨front, rfl⟩ := List.getLast?_eq_some_iff.mp hl
  have hn : line.toList ≠ [] := fun h => he (String.toList_eq_nil_iff.mp h)
  cases front with
  | nil => rw [List.nil_append, Text.join_singleton]
  | cons first front =>
    rw [Text.join_append (List.cons_ne_nil _ _) (List.cons_ne_nil _ _), Text.join_singleton,
      String.toList_append, List.getLast?_append, List.getLast?_eq_some_getLast hn, Option.some_or]

theorem unterminated_text {c : Case} (hn : c.sections ≠ [])
    (hl : ∀ line ∈ c.lines 0, line.toList.getLast? ≠ some '\n') :
    unterminated c.text = Text.join "\n" (c.lines 0) := by
  obtain ⟨count, hc⟩ := exists_flatMap_linesOf hn
  rw [text_eq, hc, ← List.append_assoc]
  change unterminated (allLines (c.lines 0 ++ List.replicate count "")) = _
  rw [allLines_eq_join (by simp [lines_ne_nil]), unterminated_append, unterminated_join_blanks]
  refine unterminated_of_getLast? fun h => ?_
  obtain ⟨line, hs, he⟩ := exists_getLast?_sectionLines hn
  have hlast : (c.lines 0).getLast? = some line := by
    rw [lines, List.getLast?_append, hs, Option.some_or]
  rw [getLast?_join hlast he] at h
  exact hl line (List.mem_of_getLast? hlast) h

end Case

/-- The lines of a file: two blank lines part each case from the next. -/
def fileLines : List Case → List String
  | [] => []
  | [c] => c.lines 0
  | c :: next :: rest => c.lines 2 ++ fileLines (next :: rest)

theorem casesText_eq {cases : List Case} (hn : cases ≠ [])
    (hs : ∀ c ∈ cases, c.sections ≠ [])
    (hl : ∀ c ∈ cases, ∀ line ∈ c.lines 0, line.toList.getLast? ≠ some '\n') :
    casesText cases = allLines (fileLines cases) := by
  unfold casesText
  induction cases with
  | nil => exact absurd rfl hn
  | cons c rest ih =>
    obtain ⟨hc, hrs⟩ := List.forall_mem_cons.mp hs
    obtain ⟨hcl, hrl⟩ := List.forall_mem_cons.mp hl
    cases rest with
    | nil =>
      rw [List.map_singleton, Text.join_singleton, Case.unterminated_text hc hcl, fileLines,
        allLines_eq_join (c.lines_ne_nil 0)]
    | cons next more =>
      have hi := ih (List.cons_ne_nil _ _) hrs hrl
      rw [fileLines, allLines_append, ← hi, Case.lines_gap hc, allLines_append,
        allLines_eq_join (c.lines_ne_nil 0), List.map_cons, List.map_cons, Text.join_cons_cons,
        Case.unterminated_text hc hcl]
      simp [allLines, String.append_assoc]

end CallFlow.Corpus
