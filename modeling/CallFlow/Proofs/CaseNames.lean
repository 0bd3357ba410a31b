import Mathlib.Data.List.Induction
import Mathlib.Logic.Function.Iterate
import CallFlow.Proofs.Blessing

namespace CallFlow.Corpus

theorem toLower_ne_blank {c : Char} (hc : c.isAlphanum = true) : c.toLower ≠ ' ' := by
  have few : ∀ n < 128, (Char.ofNat n).isAlphanum = true → (Char.ofNat n).toLower ≠ ' ' := by
    decide
  have here := few c.toNat (toNat_lt_of_isAlphanum hc)
  rw [Char.ofNat_toNat] at here
  exact here hc

theorem slug_of_words {raw : String} {words : List (List Char)}
    (hw : slugWords raw.toList = words) (hn : words ≠ []) :
    slug raw = String.ofList (['-'].intercalate words) := by
  rw [slug, hw]
  cases words with
  | nil => exact absurd rfl hn
  | cons first rest => rfl

/-- What is written of a name so far, and whether a dash is due before the next letter or digit. -/
structure NameDraft where
  written : List Char
  dashDue : Bool

namespace NameDraft

def empty : NameDraft := { written := [], dashDue := false }

/-- No dash becomes due as long as nothing is written. -/
def push (draft : NameDraft) (c : Char) : NameDraft :=
  if c.isAlphanum then
    { written := draft.written ++ (if draft.dashDue && draft.written ≠ [] then ['-'] else []) ++
        [c.toLower]
      dashDue := false }
  else if draft.written ≠ [] then { draft with dashDue := true }
  else draft

def name (draft : NameDraft) : String :=
  if draft.written = [] then "case" else String.ofList draft.written

/-- A draft with the words before the last stretch of letters and digits, and that stretch as far as
it goes. -/
inductive Spells : NameDraft → List (List Char) → List Char → Prop where
  | start : Spells empty [] []
  | between {words : List (List Char)} (some_word : words ≠ [])
      (some_written : ['-'].intercalate words ≠ []) :
      Spells { written := ['-'].intercalate words, dashDue := true } words []
  | within (words : List (List Char)) {last : List Char} (some_letter : last ≠ []) :
      Spells { written := ['-'].intercalate (words ++ [last]), dashDue := false } words last

variable {draft : NameDraft} {words : List (List Char)} {last : List Char} {c : Char}

theorem intercalate_ne_nil (hl : last ≠ []) : ['-'].intercalate (words ++ [last]) ≠ [] := by
  intro he
  have kept := Text.intercalate_concat_append '-' words [] last
  rw [List.nil_append, he] at kept
  exact hl (List.append_eq_nil_iff.mp kept.symm).2

theorem Spells.push_letter (h : draft.Spells words last) (hc : c.isAlphanum = true) :
    (draft.push c).Spells words (last ++ [c.toLower]) := by
  cases h with
  | start =>
    have hp : empty.push c = { written := ['-'].intercalate [[c.toLower]], dashDue := false } := by
      simp [push, hc, empty]
    rw [hp]
    exact .within [] (List.cons_ne_nil _ _)
  | between some_word some_written =>
    have hp : push { written := ['-'].intercalate words, dashDue := true } c =
        { written := ['-'].intercalate (words ++ [[c.toLower]]), dashDue := false } := by
      simp [push, hc, some_written, Text.intercalate_concat some_word]
    rw [hp]
    exact .within words (List.cons_ne_nil _ _)
  | within _ some_letter =>
    have hp : push { written := ['-'].intercalate (words ++ [last]), dashDue := false } c =
        { written := ['-'].intercalate (words ++ [last ++ [c.toLower]]), dashDue := false } := by
      simp [push, hc, Text.intercalate_concat_append]
    rw [hp]
    exact .within words (by simp)

/-- Anything else ends the last stretch, if there is one. -/
theorem Spells.push_other (h : draft.Spells words last) (hc : c.isAlphanum = false) :
    (draft.push c).Spells (words ++ [last].filter (· ≠ [])) [] := by
  cases h with
  | start =>
    have hp : empty.push c = empty := by simp [push, hc, empty]
    rw [hp]
    exact .start
  | between some_word some_written =>
    have hp : push { written := ['-'].intercalate words, dashDue := true } c =
        { written := ['-'].intercalate (words ++ [[]].filter (· ≠ [])), dashDue := true } := by
      simp [push, hc]
    rw [hp]
    exact .between (by simpa using some_word) (by simpa using some_written)
  | within _ some_letter =>
    have hw : [last].filter (· ≠ []) = [last] := by simp [some_letter]
    have hp : push { written := ['-'].intercalate (words ++ [last]), dashDue := false } c =
        { written := ['-'].intercalate (words ++ [last]), dashDue := true } := by
      simp [push, hc, intercalate_ne_nil some_letter]
    rw [hp, hw]
    exact .between (by simp) (intercalate_ne_nil some_letter)

/-- The words of a draft are those of what it was made from. -/
theorem exists_spells (cs : List Char) :
    ∃ before last, Text.pieces ' ' (cs.map slugBlank) = before ++ [last] ∧
      (cs.foldl push empty).Spells (before.filter (· ≠ [])) last := by
  induction cs using List.reverseRecOn with
  | nil => exact ⟨[], [], rfl, .start⟩
  | append_singleton cs c ih =>
    obtain ⟨before, last, hp, spells⟩ := ih
    rw [List.map_append, List.map_singleton, List.foldl_append, List.foldl_cons, List.foldl_nil]
    by_cases hc : c.isAlphanum = true
    · have hb : slugBlank c = c.toLower := if_pos hc
      rw [hb]
      exact ⟨before, _, Text.pieces_concat (toLower_ne_blank hc) hp, spells.push_letter hc⟩
    · have hb : slugBlank c = ' ' := if_neg hc
      rw [hb, Text.pieces_append_cons, hp]
      refine ⟨before ++ [last], [], rfl, ?_⟩
      rw [List.filter_append]
      exact spells.push_other (Bool.not_eq_true _ ▸ hc)

theorem name_foldl_push (raw : String) : (raw.toList.foldl push empty).name = slug raw := by
  obtain ⟨before, last, hp, spells⟩ := exists_spells raw.toList
  have words : slugWords raw.toList = before.filter (· ≠ []) ++ [last].filter (· ≠ []) := by
    rw [slugWords, hp, List.filter_append]
  revert words
  generalize before.filter (· ≠ []) = done at spells ⊢
  generalize raw.toList.foldl push empty = draft at spells ⊢
  intro words
  cases spells with
  | start =>
    rw [slug, words]
    rfl
  | between some_word some_written =>
    rw [slug_of_words words (by simpa using some_word), name, if_neg some_written]
    simp
  | within _ some_letter =>
    have hw : [last].filter (· ≠ []) = [last] := by simp [some_letter]
    rw [hw] at words
    rw [slug_of_words words (by simp), name, if_neg (intercalate_ne_nil some_letter)]

end NameDraft

section Words

variable {c : Char} {raw : String}

theorem IsSlugChar.isLower_or_isDigit (h : IsSlugChar c) : c.isLower = true ∨ c.isDigit = true := by
  obtain ⟨hc, hs⟩ := h
  have hp : slugBlank c ≠ ' ' → (slugBlank c).isLower = true ∨ (slugBlank c).isDigit = true :=
    forall_slugBlank (p := fun d => d ≠ ' ' → d.isLower = true ∨ d.isDigit = true) (by decide) c
  rw [hc] at hp
  exact hp hs

theorem IsSlugChar.ne_dash (h : IsSlugChar c) : c ≠ '-' := by
  rintro rfl
  exact absurd h.1 (by decide)

theorem slugBlank_ne_blank_iff : slugBlank c ≠ ' ' ↔ c.isAlphanum = true := by
  unfold slugBlank
  split
  · rename_i hc
    exact ⟨fun _ => hc, fun _ => toLower_ne_blank hc⟩
  · rename_i hc
    exact ⟨fun h => absurd rfl h, fun h => absurd h hc⟩

theorem flatten_slugWords (cs : List Char) :
    (slugWords cs).flatten = (cs.filter Char.isAlphanum).map Char.toLower := by
  have parted : ([' '].intercalate (Text.pieces ' ' (cs.map slugBlank))).filter (· ≠ ' ') =
      (Text.pieces ' ' (cs.map slugBlank)).flatten :=
    Text.filter_intercalate (by decide) fun part hp c hc =>
      decide_eq_true fun he => Text.not_mem_of_mem_pieces hp (he ▸ hc)
  rw [Text.intercalate_pieces, List.filter_map] at parted
  have letters : cs.filter ((fun d => decide (d ≠ ' ')) ∘ slugBlank) = cs.filter Char.isAlphanum :=
    List.filter_congr fun c _ => by
      rw [Function.comp_apply, Bool.eq_iff_iff, decide_eq_true_iff, slugBlank_ne_blank_iff]
  calc
    (slugWords cs).flatten = (Text.pieces ' ' (cs.map slugBlank)).flatten :=
      List.flatten_filter_ne_nil
    _ = (cs.filter Char.isAlphanum).map slugBlank := by rw [← parted, letters]
    _ = (cs.filter Char.isAlphanum).map Char.toLower :=
      List.map_congr_left fun c hc => if_pos (List.mem_filter.mp hc).2

theorem slugWords_eq_nil_iff {cs : List Char} :
    slugWords cs = [] ↔ (cs.filter Char.isAlphanum).map Char.toLower = [] := by
  rw [← flatten_slugWords, List.flatten_eq_nil_iff]
  constructor
  · intro hn word hw
    rw [hn] at hw
    cases hw
  · intro all_empty
    refine List.eq_nil_iff_forall_not_mem.mpr fun word hw => ?_
    exact of_decide_eq_true (List.mem_filter.mp hw).2 (all_empty word hw)

/-- Apart from its dashes a name is what it was made from. -/
theorem filter_slug (hn : slugWords raw.toList ≠ []) :
    (slug raw).toList.filter (· ≠ '-') = (slugWords raw.toList).flatten := by
  have words := areSlugWords_slugWords hn
  rw [slug_of_words rfl hn, String.toList_ofList]
  exact Text.filter_intercalate (by decide) fun word hw c hc =>
    decide_eq_true (words.isSlugChar word hw c hc).ne_dash

theorem head?_slug (raw : String) : (slug raw).toList.head? ≠ some '-' := by
  obtain ⟨c, cs, hl, hc⟩ := exists_toList_slug raw
  rw [hl, List.head?_cons]
  exact fun h => hc.ne_dash (Option.some.inj h)

theorem getLast?_slug (raw : String) : (slug raw).toList.getLast? ≠ some '-' := by
  obtain ⟨words, hw, hs⟩ := exists_slug_eq raw
  obtain ⟨init, last, rfl⟩ := (List.eq_nil_or_concat' words).resolve_left hw.ne_nil
  have hm : last ∈ init ++ [last] := List.mem_append_right _ (List.mem_singleton_self _)
  obtain ⟨letters, c, rfl⟩ := (List.eq_nil_or_concat' last).resolve_left (hw.word_ne_nil last hm)
  rw [hs, String.toList_ofList, Text.intercalate_concat_append, List.getLast?_concat]
  have hc := hw.isSlugChar _ hm c (List.mem_append_right _ (List.mem_singleton_self _))
  exact fun h => hc.ne_dash (Option.some.inj h)

end Words

section Rewriting

variable {suite text : String} {cases changed last : List Case}

/-- Cases that come of others when their file is written and read any number of times. Expected values
may be replaced before each writing. -/
inductive Rewritten (suite : String) : List Case → List Case → Prop where
  | never (cases : List Case) : Rewritten suite cases cases
  | once_more {cases changed read last : List Case}
      (revised : List.Forall₂ Case.Revises cases changed) (storable : ∀ c ∈ changed, c.IsStorable)
      (reread : parseCases suite (casesText changed) = .ok read)
      (more : Rewritten suite read last) : Rewritten suite cases last

theorem map_id_eq {others : List Case}
    (h : List.Forall₂ (fun c other => Case.id other = c.id) cases others) :
    others.map Case.id = cases.map Case.id := by
  induction h with
  | nil => rfl
  | cons he _ ih => rw [List.map_cons, List.map_cons, he, ih]

theorem exists_reread (h : parseCases suite text = .ok cases)
    (revised : List.Forall₂ Case.Revises cases changed) (storable : ∀ c ∈ changed, c.IsStorable) :
    ∃ read, parseCases suite (casesText changed) = .ok read ∧
      read.map Case.id = cases.map Case.id := by
  obtain ⟨some_case, were_read⟩ := wasRead_of_parseCases h
  have hn : changed ≠ [] := by
    rintro rfl
    exact some_case (List.forall₂_nil_right_iff.mp revised)
  have writable : ∀ c ∈ changed, c.IsWritable ∧ c.suite = suite := by
    intro other hm
    obtain ⟨c, hc, hr⟩ := exists_left_of_forall₂ revised hm
    obtain ⟨was_read, hd⟩ := were_read c hc
    refine ⟨was_read.isWritable hd hr (storable other hm), ?_⟩
    rw [hr.frame]
    exact was_read.suite_eq
  obtain ⟨read, hp, same⟩ := Case.parseCases_written hn writable
  refine ⟨read, hp, ?_⟩
  rw [map_id_eq (same.imp fun _ _ hr => hr.id_eq), map_id_eq (revised.imp fun _ _ hr => hr.id_eq)]

/-- However often a file is rewritten, what is read in the end is a file with the same names. -/
theorem Rewritten.exists_text (rewritten : Rewritten suite cases last)
    (h : parseCases suite text = .ok cases) :
    (∃ written, parseCases suite written = .ok last) ∧
      last.map Case.id = cases.map Case.id := by
  induction rewritten generalizing text with
  | never => exact ⟨⟨text, h⟩, rfl⟩
  | once_more revised storable reread more ih =>
    obtain ⟨read, hr, ids⟩ := exists_reread h revised storable
    obtain rfl := Except.ok.inj (reread.symm.trans hr)
    obtain ⟨written, same⟩ := ih reread
    exact ⟨written, same.trans ids⟩

end Rewriting

/-- The name of a case is made of runs of lower case letters and digits with single dashes between
them. It holds the letters and digits that it was made from, and `case` stands for none. Making a
name of it again leaves it as it is, so it is read as it was written; and the cases of a file keep
their names however often the file is rewritten, as long as nothing in it is taken for something
else. -/
theorem slug_canonical (raw : String) :
    (∃ words : List (List Char), words ≠ [] ∧
      (∀ word ∈ words, word ≠ [] ∧ ∀ c ∈ word, c.isLower = true ∨ c.isDigit = true) ∧
      (slug raw).toList = ['-'].intercalate words) ∧
    (slug raw).toList.head? ≠ some '-' ∧ (slug raw).toList.getLast? ≠ some '-' ∧
    ((raw.toList.filter Char.isAlphanum).map Char.toLower = [] → slug raw = "case") ∧
    ((raw.toList.filter Char.isAlphanum).map Char.toLower ≠ [] →
      (slug raw).toList.filter (· ≠ '-') =
        (raw.toList.filter Char.isAlphanum).map Char.toLower) ∧
    slug raw = (raw.toList.foldl NameDraft.push .empty).name ∧
    slug (slug raw) = slug raw ∧ (∀ n, slug^[n] (slug raw) = slug raw) ∧
    (∀ suite done comments,
      Reader.step suite ⟨done, comments, .name⟩ (bareLine (slug raw)) =
        .ok ⟨done, [], .closing (.new suite (slug raw) comments)⟩) ∧
    ∀ suite text cases, parseCases suite text = .ok cases →
      ∀ last, Rewritten suite cases last →
        last.map Case.id = cases.map Case.id ∧
        ∀ changed, List.Forall₂ Case.Revises last changed → (∀ c ∈ changed, c.IsStorable) →
          ∃ read, parseCases suite (casesText changed) = .ok read ∧
            read.map Case.id = cases.map Case.id := by
  obtain ⟨words, hw, hs⟩ := exists_slug_eq raw
  refine ⟨⟨words, hw.ne_nil, fun word hm => ⟨hw.word_ne_nil word hm, fun c hc => ?_⟩, ?_⟩,
    head?_slug raw, getLast?_slug raw, fun hn => ?_, fun hn => ?_,
    (NameDraft.name_foldl_push raw).symm, slug_slug raw, Function.iterate_fixed (slug_slug raw),
    fun suite done comments => Reader.step_slug suite done comments raw,
    fun suite text cases h last rewritten => ?_⟩
  · exact (hw.isSlugChar word hm c hc).isLower_or_isDigit
  · rw [hs, String.toList_ofList]
  · rw [slug, slugWords_eq_nil_iff.mpr hn]
  · rw [filter_slug (mt slugWords_eq_nil_iff.mp hn), flatten_slugWords]
  · obtain ⟨⟨written, hl⟩, same⟩ := rewritten.exists_text h
    refine ⟨same, fun changed revised storable => ?_⟩
    obtain ⟨read, hr, ids⟩ := exists_reread hl revised storable
    exact ⟨read, hr, ids.trans same⟩

example : slug "Case: two entries, one target!" = "case-two-entries-one-target" := by decide

/-- A file whose case is updated and read again. Its case keeps its name. -/
theorem stepCase_keeps_name :
    parseCases "a" (casesText [stepCase "A" ""]) = .ok [stepCase "A" ""] ∧
      Rewritten "a" [stepCase "A" ""] [stepCase "A" "A play \"play\"\n"] ∧
      slug "X!" = "x" ∧ slug (slug "X!") = slug "X!" ∧
      [stepCase "A" "A play \"play\"\n"].map Case.id = [stepCase "A" ""].map Case.id := by
  have read : parseCases "a" (casesText [stepCase "A" ""]) = .ok [stepCase "A" ""] :=
    parseCases_stepCase (by decide +kernel) (by decide +kernel)
  have reread : parseCases "a" (casesText [stepCase "A" "A play \"play\"\n"]) =
      .ok [stepCase "A" "A play \"play\"\n"] :=
    parseCases_stepCase (by decide +kernel) (by decide +kernel)
  have ended : "A play \"play\"\n" = terminated "A play \"play\"\n" := by decide
  have revised : Case.Revises (stepCase "A" "") (stepCase "A" "A play \"play\"\n") :=
    ⟨rfl, rfl, List.forall_mem_singleton.mpr (.inr ⟨_, ended⟩)⟩
  have rewritten : Rewritten "a" [stepCase "A" ""] [stepCase "A" "A play \"play\"\n"] :=
    .once_more (.cons revised .nil) (by decide +kernel) reread (.never _)
  obtain ⟨-, -, -, -, -, -, again, -, -, kept⟩ := slug_canonical "X!"
  exact ⟨read, rewritten, by decide, again, (kept "a" _ _ read _ rewritten).1⟩

end CallFlow.Corpus
