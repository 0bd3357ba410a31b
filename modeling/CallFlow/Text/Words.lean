namespace CallFlow.Text.Words

/-- Where a reader of words is. -/
inductive Mode where
  | between
  | comment
  | word
  | single
  | double
  deriving DecidableEq, Repr

def isSeparator (c : Char) : Bool :=
  c == ' ' || c == '\t' || c == '\n'

/-- The signs that lose their meaning behind a backslash in double quotes. -/
def isEscapable (c : Char) : Bool :=
  c == '$' || c == '\x60' || c == '"' || c == '\\'

def push (cs : List Char) : List (List Char) → List (List Char)
  | [] => [cs]
  | word :: words => (cs ++ word) :: words

/-- The words in the rest of a text. Inside a word, the first of them is the rest of that word. -/
def scan : Mode → List Char → Option (List (List Char))
  | .between, [] | .comment, [] => some []
  | .word, [] => some [[]]
  | .single, [] | .double, [] => none
  | .comment, c :: cs => scan (if c = '\n' then .between else .comment) cs
  | .between, '\\' :: '\n' :: cs => scan .between cs
  | .word, '\\' :: '\n' :: cs => scan .word cs
  | .double, '\\' :: '\n' :: cs => scan .double cs
  | .between, ['\\'] | .word, ['\\'] => some [['\\']]
  | .between, '\\' :: c :: cs | .word, '\\' :: c :: cs => (scan .word cs).map (push [c])
  | .double, '\\' :: c :: cs =>
    (scan .double cs).map (push (if isEscapable c then [c] else ['\\', c]))
  | .single, c :: cs =>
    if c = '\'' then scan .word cs else (scan .single cs).map (push [c])
  | .double, c :: cs =>
    if c = '"' then scan .word cs else (scan .double cs).map (push [c])
  | .between, c :: cs =>
    if isSeparator c then scan .between cs
    else if c = '#' then scan .comment cs
    else if c = '\'' then scan .single cs
    else if c = '"' then scan .double cs
    else (scan .word cs).map (push [c])
  | .word, c :: cs =>
    if isSeparator c then (scan .between cs).map ([] :: ·)
    else if c = '\'' then scan .single cs
    else if c = '"' then scan .double cs
    else (scan .word cs).map (push [c])

/-- The words of a text. A quote that is not closed leaves none. -/
def split? (text : String) : Option (List String) :=
  (scan .between text.toList).map (·.map String.ofList)

def Within (cs : List Char) (words : Option (List (List Char))) : Prop :=
  ∀ found ∈ words, ∀ word ∈ found, word ⊆ cs

theorem Within.cons {cs : List Char} {words : Option (List (List Char))} (h : Within cs words)
    (c : Char) : Within (c :: cs) words :=
  fun found hf word hw => List.Subset.trans (h found hf word hw) (List.subset_cons_self c cs)

theorem Within.push {cs ds : List Char} {words : Option (List (List Char))} (h : Within cs words)
    (hd : ds ⊆ cs) : Within cs (words.map (Words.push ds)) := by
  intro found hf word hw
  obtain ⟨before, hb, rfl⟩ := Option.map_eq_some_iff.mp hf
  have hr := h before hb
  cases before with
  | nil =>
    rw [List.mem_singleton.mp hw]
    exact hd
  | cons first rest =>
    obtain ⟨hfirst, hrest⟩ := List.forall_mem_cons.mp hr
    rcases List.mem_cons.mp hw with rfl | hw
    · exact List.append_subset.mpr ⟨hd, hfirst⟩
    · exact hrest word hw

theorem Within.word {cs : List Char} {words : Option (List (List Char))} (h : Within cs words) :
    Within cs (words.map ([] :: ·)) := by
  intro found hf word hw
  obtain ⟨before, hb, rfl⟩ := Option.map_eq_some_iff.mp hf
  rcases List.mem_cons.mp hw with rfl | hw
  · exact List.nil_subset cs
  · exact h before hb word hw

theorem within_scan (mode : Mode) (cs : List Char) : Within cs (scan mode cs) := by
  have head (c : Char) (cs : List Char) : [c] ⊆ c :: cs :=
    List.cons_subset.mpr ⟨List.mem_cons_self, List.nil_subset _⟩
  fun_induction scan mode cs
  -- The text is at its end.
  case case1 | case2 | case3 | case4 | case5 | case10 | case11 => simp [Within]
  -- What stands first belongs to no word.
  case case6 ih | case15 ih | case17 ih | case19 ih | case20 ih | case21 ih | case22 ih |
      case25 ih | case26 ih => exact ih.cons _
  case case7 ih | case8 ih | case9 ih => exact (ih.cons _).cons _
  case case24 ih => exact (ih.cons _).word
  -- What stands first is put into a word, a backslash only before what it cannot escape.
  case case16 ih | case18 ih | case23 ih | case27 ih => exact (ih.cons _).push (head _ _)
  case case12 ih | case13 ih =>
    exact ((ih.cons _).cons _).push (List.Subset.trans (head _ _) (List.subset_cons_self _ _))
  case case14 ih =>
    refine ((ih.cons _).cons _).push ?_
    split
    · exact List.Subset.trans (head _ _) (List.subset_cons_self _ _)
    · exact List.cons_subset_cons _ (head _ _)

theorem mem_of_split? {text : String} {words : List String} (h : split? text = some words)
    {word : String} (hw : word ∈ words) {c : Char} (hc : c ∈ word.toList) : c ∈ text.toList := by
  obtain ⟨found, hf, rfl⟩ := Option.map_eq_some_iff.mp h
  obtain ⟨chars, hm, rfl⟩ := List.mem_map.mp hw
  rw [String.toList_ofList] at hc
  exact within_scan .between text.toList found hf chars hm hc
/-- The signs that a reader of words may take for something else. -/
def isSpecial (c : Char) : Bool :=
  "|&;<>()$\x60\\\"' \t\n*?[#~=%".toList.contains c

def quoteChar (c : Char) : List Char :=
  if c = '\'' then ['\'', '\\', '\'', '\''] else [c]

/-- A word as it has to be written. Quotes are left out where nothing asks for them. -/
def quoteWord (word : String) : String :=
  if word = "" || word.toList.any isSpecial then
    "'" ++ String.ofList (word.toList.flatMap quoteChar) ++ "'"
  else word

def join (words : List String) : String :=
  String.intercalate " " (words.map quoteWord)

end CallFlow.Text.Words
