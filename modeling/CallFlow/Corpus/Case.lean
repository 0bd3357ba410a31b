import CallFlow.Text.Words
import CallFlow.Text

namespace CallFlow.Corpus

structure Document where
  path : String
  contents : String
  deriving DecidableEq, Repr

structure Expectation where
  kind : String
  value : String
  deriving DecidableEq, Repr

/-- The suite is the file that a case is in. Comments stand above the case. -/
structure Case where
  suite : String
  name : String
  args : List String
  documents : List Document
  expectations : List Expectation
  comments : List String
  deriving DecidableEq, Repr

/-- What a header says about the lines below it. -/
inductive Section where
  | document (path : String)
  | expectation (kind : String)
  deriving DecidableEq, Repr

/-- The letters and digits of a name, everything else being a blank. -/
def slugBlank (c : Char) : Char :=
  if c.isAlphanum then c.toLower else ' '

/-- The runs of letters and digits in a name. -/
def slugWords (cs : List Char) : List (List Char) :=
  (Text.pieces ' ' (cs.map slugBlank)).filter (· ≠ [])

/-- The name by which a case is known: the runs of ASCII letters and digits in lower case, with
dashes between them. -/
def slug (raw : String) : String :=
  match slugWords raw.toList with
  | [] => "case"
  | words => String.ofList (['-'].intercalate words)

section Slug

variable {c : Char} {cs : List Char} {words : List (List Char)}

theorem toNat_lt_of_isAlphanum (h : c.isAlphanum = true) : c.toNat < 128 := by
  have hc : c.toNat = c.val.toNat := rfl
  change (decide (c.val ≥ 'A'.val ∧ c.val ≤ 'Z'.val) || (c.val ≥ 'a'.val && c.val ≤ 'z'.val) ||
    (c.val ≥ '0'.val && c.val ≤ '9'.val)) = true at h
  simp [UInt32.le_iff_toNat_le] at h
  omega

/-- Letters and digits are few, so that they can be gone through. -/
theorem forall_slugBlank {p : Char → Prop} (h : ∀ n < 128, p (slugBlank (Char.ofNat n)))
    (c : Char) : p (slugBlank c) := by
  by_cases hc : c.isAlphanum = true
  · have hn := h c.toNat (toNat_lt_of_isAlphanum hc)
    rwa [Char.ofNat_toNat] at hn
  · have he : slugBlank c = slugBlank (Char.ofNat 0) := by
      rw [slugBlank, if_neg hc]
      decide
    rw [he]
    exact h 0 (by decide)

def IsSlugChar (c : Char) : Prop :=
  slugBlank c = c ∧ c ≠ ' '

theorem isSlugChar_slugBlank (h : slugBlank c ≠ ' ') : IsSlugChar (slugBlank c) := by
  have hi : slugBlank (slugBlank c) = slugBlank c :=
    forall_slugBlank (p := fun d => slugBlank d = d) (by decide) c
  exact ⟨hi, h⟩

theorem IsSlugChar.plain (h : IsSlugChar c) : Text.isBlank c = false ∧ c ≠ '$' ∧ c ≠ '=' := by
  obtain ⟨hc, hs⟩ := h
  have hp : slugBlank c ≠ ' ' →
      Text.isBlank (slugBlank c) = false ∧ slugBlank c ≠ '$' ∧ slugBlank c ≠ '=' :=
    forall_slugBlank (p := fun d => d ≠ ' ' → Text.isBlank d = false ∧ d ≠ '$' ∧ d ≠ '=')
      (by decide) c
  rw [hc] at hp
  exact hp hs

/-- The words of a name: there is one, and none is empty. -/
structure AreSlugWords (words : List (List Char)) : Prop where
  ne_nil : words ≠ []
  word_ne_nil : ∀ word ∈ words, word ≠ []
  isSlugChar : ∀ word ∈ words, ∀ c ∈ word, IsSlugChar c

theorem areSlugWords_slugWords (hn : slugWords cs ≠ []) : AreSlugWords (slugWords cs) where
  ne_nil := hn
  word_ne_nil := by
    intro word hm
    exact of_decide_eq_true (List.mem_filter.mp hm).2
  isSlugChar := by
    intro word hm c hc
    have hp := (List.mem_filter.mp hm).1
    have hi : c ∈ [' '].intercalate (Text.pieces ' ' (cs.map slugBlank)) :=
      Text.mem_intercalate hp hc
    rw [Text.intercalate_pieces] at hi
    obtain ⟨d, _, rfl⟩ := List.mem_map.mp hi
    exact isSlugChar_slugBlank fun h => Text.not_mem_of_mem_pieces hp (h ▸ hc)

/-- Every name is made of words, with dashes between them. -/
theorem exists_slug_eq (raw : String) :
    ∃ words, AreSlugWords words ∧ slug raw = String.ofList (['-'].intercalate words) := by
  unfold slug
  cases hw : slugWords raw.toList with
  | nil =>
    have hc : slugWords ['c', 'a', 's', 'e'] = [['c', 'a', 's', 'e']] := by decide
    have hn : slugWords ['c', 'a', 's', 'e'] ≠ [] := by rw [hc]; exact List.cons_ne_nil _ _
    exact ⟨[['c', 'a', 's', 'e']], hc ▸ areSlugWords_slugWords hn, rfl⟩
  | cons word rest =>
    have hn : slugWords raw.toList ≠ [] := by rw [hw]; exact List.cons_ne_nil _ _
    exact ⟨word :: rest, hw ▸ areSlugWords_slugWords hn, rfl⟩

/-- The words of a name are found in it again. -/
theorem slugWords_intercalate (hw : AreSlugWords words) :
    slugWords (['-'].intercalate words) = words := by
  have hc : ∀ word ∈ words, word.map slugBlank = word := by
    intro word hm
    calc
      word.map slugBlank = word.map id :=
        List.map_congr_left fun c hc => (hw.isSlugChar word hm c hc).1
      _ = word := List.map_id word
  have hm : words.map (List.map slugBlank) = words :=
    calc
      words.map (List.map slugBlank) = words.map id := List.map_congr_left hc
      _ = words := List.map_id words
  have hs : ∀ word ∈ words, ' ' ∉ word :=
    fun word hm h => (hw.isSlugChar word hm ' ' h).2 rfl
  have hd : slugBlank '-' = ' ' := by decide
  rw [slugWords, Text.map_intercalate, hm, hd, Text.pieces_intercalate hw.ne_nil hs]
  refine List.filter_eq_self.mpr ?_
  intro word hm
  exact decide_eq_true (hw.word_ne_nil word hm)

/-- Names are left as they are. -/
theorem slug_slug (raw : String) : slug (slug raw) = slug raw := by
  obtain ⟨words, hw, hs⟩ := exists_slug_eq raw
  rw [hs, slug, String.toList_ofList, slugWords_intercalate hw]
  cases words with
  | nil => exact absurd rfl hw.ne_nil
  | cons word rest => rfl

theorem mem_slug {raw : String} (h : c ∈ (slug raw).toList) : c = '-' ∨ IsSlugChar c := by
  obtain ⟨words, hw, hs⟩ := exists_slug_eq raw
  rw [hs, String.toList_ofList] at h
  rcases Text.eq_or_mem_of_mem_intercalate h with rfl | ⟨word, hm, hc⟩
  · exact .inl rfl
  · exact .inr (hw.isSlugChar word hm c hc)

theorem isBlank_of_mem_slug {raw : String} (h : c ∈ (slug raw).toList) :
    Text.isBlank c = false := by
  rcases mem_slug h with rfl | hc
  · decide
  · exact hc.plain.1

theorem exists_toList_slug (raw : String) :
    ∃ c cs, (slug raw).toList = c :: cs ∧ IsSlugChar c := by
  obtain ⟨words, hw, hs⟩ := exists_slug_eq raw
  cases words with
  | nil => exact absurd rfl hw.ne_nil
  | cons word rest =>
    cases word with
    | nil => exact absurd rfl (hw.word_ne_nil [] List.mem_cons_self)
    | cons c cs =>
      have hc := hw.isSlugChar _ List.mem_cons_self c List.mem_cons_self
      rw [hs, String.toList_ofList, List.intercalate_cons_cons_left]
      exact ⟨c, _, rfl, hc⟩

end Slug

def banner : String :=
  String.ofList (List.replicate 79 '=')

def Section.header : Section → String
  | document path => "--- file: " ++ path ++ " ---"
  | expectation kind => "--- expect:" ++ kind ++ " ---"

def terminated (text : String) : String :=
  if text.toList.getLast? = some '\n' then text else text ++ "\n"

def unterminated (text : String) : String :=
  String.ofList (text.toList.reverse.dropWhile (· = '\n')).reverse

def sectionText (head : Section) (body : String) : String :=
  head.header ++ "\n" ++ terminated body ++ "\n"

namespace Case

def new (suite name : String) (comments : List String) : Case :=
  { suite, name, args := [], documents := [], expectations := [], comments }

def id (c : Case) : String :=
  c.suite ++ "::" ++ c.name

def expectation? (c : Case) (kind : String) : Option String :=
  (c.expectations.find? (·.kind = kind)).map Expectation.value

def add (c : Case) (head : Section) (body : String) : Case :=
  match head with
  | .document path => { c with documents := c.documents ++ [{ path, contents := body }] }
  | .expectation kind => { c with expectations := c.expectations ++ [{ kind, value := body }] }

/-- The documents come first, then the expectations. -/
def sections (c : Case) : List (Section × String) :=
  c.documents.map (fun document => (.document document.path, document.contents)) ++
  c.expectations.map fun expectation => (.expectation expectation.kind, expectation.value)

def argsText (args : List String) : String :=
  if args = [] then "" else "args: " ++ Text.Words.join args ++ "\n\n"

def text (c : Case) : String :=
  String.join (c.comments.map (· ++ "\n")) ++ banner ++ "\n" ++ c.name ++ "\n" ++ banner ++ "\n\n" ++
  argsText c.args ++ String.join (c.sections.map fun (head, body) => sectionText head body)

end Case

def casesText (cases : List Case) : String :=
  Text.join "\n\n\n" (cases.map fun c => unterminated c.text) ++ "\n"

end CallFlow.Corpus
