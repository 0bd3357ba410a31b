namespace CallFlow.Text

/-- The characters with the Unicode property White_Space. -/
def isBlank (c : Char) : Bool :=
  c == ' ' || (0x9 ≤ c.toNat && c.toNat ≤ 0xD) || c.toNat == 0x85 || c.toNat == 0xA0 ||
  c.toNat == 0x1680 || (0x2000 ≤ c.toNat && c.toNat ≤ 0x200A) || c.toNat == 0x2028 ||
  c.toNat == 0x2029 || c.toNat == 0x202F || c.toNat == 0x205F || c.toNat == 0x3000

def byteOrderMark : Char := Char.ofNat 0xFEFF

def trimLeftChars (cs : List Char) : List Char :=
  cs.dropWhile isBlank

def trimRightChars (cs : List Char) : List Char :=
  (cs.reverse.dropWhile isBlank).reverse

def trimChars (cs : List Char) : List Char :=
  trimRightChars (trimLeftChars cs)

/-- Removes the blanks at both ends. -/
def trim (s : String) : String :=
  String.ofList (trimChars s.toList)

def trimLeft (s : String) : String :=
  String.ofList (trimLeftChars s.toList)

section Trim

variable {b c : Char} {cs : List Char}

theorem trimChars_blank_cons (hb : isBlank b = true) (cs : List Char) :
    trimChars (b :: cs) = trimChars cs := by
  rw [trimChars, trimLeftChars, List.dropWhile_cons_of_pos hb]
  rfl

theorem trimRightChars_append_blank (hb : isBlank b = true) (cs : List Char) :
    trimRightChars (cs ++ [b]) = trimRightChars cs := by
  rw [trimRightChars, List.reverse_append, List.reverse_singleton, List.singleton_append,
    List.dropWhile_cons_of_pos hb]
  rfl

theorem trimChars_append_blank (hb : isBlank b = true) (cs : List Char) :
    trimChars (cs ++ [b]) = trimChars cs := by
  rw [trimChars, trimLeftChars, List.dropWhile_append]
  split
  · rename_i he
    rw [List.isEmpty_iff] at he
    rw [List.dropWhile_cons_of_pos hb, trimChars, trimLeftChars, he]
    rfl
  · exact trimRightChars_append_blank hb _

theorem trimChars_append_blanks {bs : List Char} (hb : ∀ b ∈ bs, isBlank b = true)
    (cs : List Char) : trimChars (cs ++ bs) = trimChars cs := by
  induction bs generalizing cs with
  | nil => rw [List.append_nil]
  | cons b bs ih =>
    obtain ⟨hc, hr⟩ := List.forall_mem_cons.mp hb
    rw [List.append_cons, ih hr, trimChars_append_blank hc]

theorem trimChars_trimRightChars (cs : List Char) : trimChars (trimRightChars cs) = trimChars cs := by
  have hs : cs = trimRightChars cs ++ (cs.reverse.takeWhile isBlank).reverse := by
    rw [trimRightChars, ← List.reverse_append, List.takeWhile_append_dropWhile, List.reverse_reverse]
  have hb : ∀ b ∈ (cs.reverse.takeWhile isBlank).reverse, isBlank b = true := by
    intro b hm
    exact List.all_eq_true.mp List.all_takeWhile b (List.mem_reverse.mp hm)
  have ht := trimChars_append_blanks hb (trimRightChars cs)
  rw [← hs] at ht
  exact ht.symm

/-- Nothing is taken away before what is no blank. -/
theorem trimRightChars_append_cons (hc : isBlank c = false) (cs ds : List Char) :
    trimRightChars (cs ++ c :: ds) = cs ++ c :: trimRightChars ds := by
  have hn : ¬isBlank c = true := by rw [hc]; exact Bool.false_ne_true
  have hl : (cs ++ c :: ds).reverse = ds.reverse ++ c :: cs.reverse := by simp
  rw [trimRightChars, hl, List.dropWhile_append]
  split
  · rename_i he
    rw [List.isEmpty_iff] at he
    rw [List.dropWhile_cons_of_neg hn, trimRightChars, he]
    simp
  · simp [trimRightChars]

theorem trimChars_cons (hc : isBlank c = false) (cs : List Char) :
    trimChars (c :: cs) = c :: trimRightChars cs := by
  have hn : ¬isBlank c = true := by rw [hc]; exact Bool.false_ne_true
  rw [trimChars, trimLeftChars, List.dropWhile_cons_of_neg hn]
  exact trimRightChars_append_cons hc [] cs

theorem trimChars_of_forall (h : ∀ c ∈ cs, isBlank c = false) : trimChars cs = cs := by
  have hl : ∀ ds : List Char, (∀ c ∈ ds, isBlank c = false) → ds.dropWhile isBlank = ds := by
    intro ds hd
    cases ds with
    | nil => rfl
    | cons d ds =>
      refine List.dropWhile_cons_of_neg ?_
      rw [hd d List.mem_cons_self]
      exact Bool.false_ne_true
  rw [trimChars, trimLeftChars, hl cs h, trimRightChars, hl cs.reverse, List.reverse_reverse]
  exact fun c hc => h c (List.mem_reverse.mp hc)

theorem trimLeftChars_trimLeftChars (cs : List Char) :
    trimLeftChars (trimLeftChars cs) = trimLeftChars cs := by
  induction cs with
  | nil => rfl
  | cons c cs ih =>
    by_cases hc : isBlank c = true
    · have hd : trimLeftChars (c :: cs) = trimLeftChars cs := List.dropWhile_cons_of_pos hc
      rw [hd, ih]
    · have hd : trimLeftChars (c :: cs) = c :: cs := List.dropWhile_cons_of_neg hc
      rw [hd, hd]

theorem trimChars_trimChars (cs : List Char) : trimChars (trimChars cs) = trimChars cs := by
  calc
    trimChars (trimChars cs) = trimChars (trimLeftChars cs) := trimChars_trimRightChars _
    _ = trimChars cs := by rw [trimChars, trimLeftChars_trimLeftChars, trimChars]

theorem trim_trim (s : String) : trim (trim s) = trim s := by
  rw [trim, trim, String.toList_ofList, trimChars_trimChars]

theorem mem_trimChars {c : Char} {cs : List Char} (h : c ∈ trimChars cs) : c ∈ cs := by
  have hr := List.mem_reverse.mp ((List.dropWhile_sublist _).subset (List.mem_reverse.mp h))
  exact (List.dropWhile_sublist _).subset hr

end Trim

def dropMarks (s : String) : String :=
  String.ofList (s.toList.dropWhile (· == byteOrderMark))

section Intercalate

variable {α : Type} {sep : α} {parts : List (List α)} {part : List α} {c : α}

theorem mem_intercalate (hp : part ∈ parts) (hc : c ∈ part) : c ∈ [sep].intercalate parts := by
  induction parts with
  | nil => cases hp
  | cons first rest ih =>
    cases rest with
    | nil => simpa [List.mem_singleton.mp hp] using hc
    | cons next more =>
      rw [List.intercalate_cons_cons]
      rcases List.mem_cons.mp hp with rfl | hp
      · exact List.mem_append_left _ (List.mem_append_left _ hc)
      · exact List.mem_append_right _ (ih hp)

theorem eq_or_mem_of_mem_intercalate (hc : c ∈ [sep].intercalate parts) :
    c = sep ∨ ∃ part ∈ parts, c ∈ part := by
  induction parts with
  | nil => cases hc
  | cons first rest ih =>
    cases rest with
    | nil =>
      rw [List.intercalate_singleton] at hc
      exact .inr ⟨first, List.mem_singleton_self _, hc⟩
    | cons next more =>
      rw [List.intercalate_cons_cons] at hc
      rcases List.mem_append.mp hc with hc | hc
      · rcases List.mem_append.mp hc with hc | hc
        · exact .inr ⟨first, List.mem_cons_self, hc⟩
        · exact .inl (List.mem_singleton.mp hc)
      · rcases ih hc with rfl | ⟨part, hp, hc⟩
        · exact .inl rfl
        · exact .inr ⟨part, List.mem_cons_of_mem _ hp, hc⟩

theorem map_intercalate {β : Type} (f : α → β) (sep : α) (parts : List (List α)) :
    ([sep].intercalate parts).map f = [f sep].intercalate (parts.map (List.map f)) := by
  induction parts with
  | nil => rfl
  | cons first rest ih =>
    cases rest with
    | nil => simp
    | cons next more =>
      rw [List.intercalate_cons_cons, List.map_append, List.map_append, ih]
      exact List.intercalate_cons_cons.symm

theorem intercalate_concat (hn : parts ≠ []) (last : List α) :
    [sep].intercalate (parts ++ [last]) = [sep].intercalate parts ++ sep :: last := by
  induction parts with
  | nil => exact absurd rfl hn
  | cons first rest ih =>
    cases rest with
    | nil => simp
    | cons next more =>
      have hi := ih (List.cons_ne_nil _ _)
      simp only [List.cons_append] at hi
      simp only [List.cons_append, List.intercalate_cons_cons, hi, List.append_assoc]

theorem intercalate_concat_append (sep : α) (parts : List (List α)) (last more : List α) :
    [sep].intercalate (parts ++ [last ++ more]) = [sep].intercalate (parts ++ [last]) ++ more := by
  by_cases hn : parts = []
  · simp [hn]
  · rw [intercalate_concat hn, intercalate_concat hn, List.append_assoc, List.cons_append]

theorem filter_intercalate {p : α → Bool} (hs : p sep = false)
    (hp : ∀ part ∈ parts, ∀ c ∈ part, p c = true) :
    ([sep].intercalate parts).filter p = parts.flatten := by
  induction parts with
  | nil => rfl
  | cons first rest ih =>
    obtain ⟨hf, hr⟩ := List.forall_mem_cons.mp hp
    have kept : first.filter p = first := List.filter_eq_self.mpr hf
    cases rest with
    | nil => simp [kept]
    | cons next more =>
      have dropped : [sep].filter p = [] := List.filter_cons_of_neg (by simp [hs])
      rw [List.intercalate_cons_cons, List.filter_append, List.filter_append, kept, dropped, ih hr,
        List.append_nil]
      exact List.flatten_cons.symm

end Intercalate

/-- The stretch before the first separator, and the stretches after each separator. -/
def cut {α : Type} [DecidableEq α] (sep : α) (cs : List α) : List α × List (List α) :=
  cs.foldr (fun c (first, others) =>
    if c = sep then ([], first :: others) else (c :: first, others)) ([], [])

/-- The stretches between separators: one more than there are separators. -/
def pieces {α : Type} [DecidableEq α] (sep : α) (cs : List α) : List (List α) :=
  let (first, others) := cut sep cs
  first :: others

section Pieces

variable {α : Type} [DecidableEq α] {sep : α} {cs : List α}

theorem pieces_cons_sep (sep : α) (cs : List α) : pieces sep (sep :: cs) = [] :: pieces sep cs := by
  simp [pieces, cut]

theorem cut_append (h : sep ∉ cs) (rest : List α) :
    cut sep (cs ++ rest) = (cs ++ (cut sep rest).1, (cut sep rest).2) := by
  induction cs with
  | nil => rfl
  | cons c cs ih =>
    simp only [List.mem_cons, not_or] at h
    obtain ⟨hc, hs⟩ := h
    have hr : cut sep (c :: (cs ++ rest)) =
        (c :: (cut sep (cs ++ rest)).1, (cut sep (cs ++ rest)).2) := by
      simp [cut, Ne.symm hc]
    rw [List.cons_append, hr, ih hs]
    rfl

/-- A stretch without the separator is ended by the next one. -/
theorem pieces_append_sep (h : sep ∉ cs) (rest : List α) :
    pieces sep (cs ++ sep :: rest) = cs :: pieces sep rest := by
  have hr := pieces_cons_sep sep rest
  simp only [pieces, List.cons.injEq] at hr ⊢
  rw [cut_append h, hr.1, hr.2, List.append_nil]
  exact ⟨rfl, rfl⟩

theorem length_pieces (sep : α) (cs : List α) :
    (pieces sep cs).length = cs.count sep + 1 := by
  induction cs with
  | nil => rfl
  | cons c cs ih =>
    by_cases h : c = sep
    · subst h
      rw [pieces_cons_sep, List.length_cons, ih, List.count_cons_self]
    · have hc : sep ∉ [c] := by simpa using Ne.symm h
      have hp : (pieces sep (c :: cs)).length = (pieces sep cs).length := by
        simp only [pieces, ← List.singleton_append (l := cs), cut_append hc, List.length_cons]
      rw [hp, ih, List.count_cons_of_ne h]

theorem pieces_of_not_mem (h : sep ∉ cs) : pieces sep cs = [cs] := by
  have hc := cut_append h []
  rw [List.append_nil] at hc
  rw [pieces, hc]
  simp [cut]

theorem pieces_cons_of_ne {c : α} {first : List α} {others : List (List α)} (hc : c ≠ sep)
    (h : pieces sep cs = first :: others) : pieces sep (c :: cs) = (c :: first) :: others := by
  have hs : sep ∉ [c] := by simpa using Ne.symm hc
  simp only [pieces, List.cons.injEq] at h
  simp only [pieces, ← List.singleton_append (l := cs), cut_append hs, h.1, h.2]
  rfl

/-- What holds no separator lengthens the last stretch. -/
theorem pieces_append (sep : α) (cs : List α) :
    ∃ before last, ∀ rest, sep ∉ rest → pieces sep (cs ++ rest) = before ++ [last ++ rest] := by
  induction cs with
  | nil => exact ⟨[], [], fun rest hr => pieces_of_not_mem hr⟩
  | cons c cs ih =>
    obtain ⟨before, last, ih⟩ := ih
    by_cases hc : c = sep
    · subst hc
      refine ⟨[] :: before, last, fun rest hr => ?_⟩
      rw [List.cons_append, pieces_cons_sep, ih rest hr, List.cons_append]
    · cases before with
      | nil =>
        refine ⟨[], c :: last, fun rest hr => ?_⟩
        rw [List.cons_append, pieces_cons_of_ne hc (ih rest hr)]
        rfl
      | cons first before =>
        refine ⟨(c :: first) :: before, last, fun rest hr => ?_⟩
        rw [List.cons_append, pieces_cons_of_ne hc (ih rest hr)]
        rfl

theorem pieces_concat {c : α} {before : List (List α)} {last : List α} (hc : c ≠ sep)
    (h : pieces sep cs = before ++ [last]) :
    pieces sep (cs ++ [c]) = before ++ [last ++ [c]] := by
  obtain ⟨before', last', longer⟩ := pieces_append sep cs
  have now := longer [] List.not_mem_nil
  rw [List.append_nil, List.append_nil, h] at now
  obtain ⟨rfl, hl⟩ := List.append_inj' now rfl
  obtain rfl := List.singleton_inj.mp hl
  exact longer [c] (by simpa using hc.symm)

/-- A separator parts the stretches before it from those after it. -/
theorem pieces_append_cons (cs rest : List α) :
    pieces sep (cs ++ sep :: rest) = pieces sep cs ++ pieces sep rest := by
  induction cs with
  | nil => exact pieces_cons_sep sep rest
  | cons c cs ih =>
    by_cases hc : c = sep
    · subst hc
      rw [List.cons_append, pieces_cons_sep, ih, pieces_cons_sep, List.cons_append]
    · have hp : pieces sep cs = (cut sep cs).1 :: (cut sep cs).2 := rfl
      rw [hp, List.cons_append] at ih
      rw [List.cons_append, pieces_cons_of_ne hc ih, pieces_cons_of_ne hc hp, List.cons_append]

/-- No stretch holds a separator. -/
theorem not_mem_of_mem_pieces {piece : List α} (hp : piece ∈ pieces sep cs) : sep ∉ piece := by
  induction cs generalizing piece with
  | nil =>
    rw [List.mem_singleton.mp hp]
    exact List.not_mem_nil
  | cons c cs ih =>
    have hs : pieces sep cs = (cut sep cs).1 :: (cut sep cs).2 := rfl
    by_cases hc : c = sep
    · rw [hc, pieces_cons_sep] at hp
      rcases List.mem_cons.mp hp with rfl | hp
      · exact List.not_mem_nil
      · exact ih hp
    · rw [pieces_cons_of_ne hc hs] at hp
      rcases List.mem_cons.mp hp with rfl | hp
      · have hf : sep ∉ (cut sep cs).1 := ih (by rw [hs]; exact List.mem_cons_self)
        simp [Ne.symm hc, hf]
      · exact ih (by rw [hs]; exact List.mem_cons_of_mem _ hp)

theorem pieces_intercalate {parts : List (List α)} (hn : parts ≠ [])
    (h : ∀ part ∈ parts, sep ∉ part) : pieces sep ([sep].intercalate parts) = parts := by
  induction parts with
  | nil => exact absurd rfl hn
  | cons part rest ih =>
    obtain ⟨hp, hr⟩ := List.forall_mem_cons.mp h
    cases rest with
    | nil => simpa using pieces_of_not_mem hp
    | cons next more =>
      rw [List.intercalate_cons_cons, List.append_assoc, List.singleton_append,
        pieces_append_sep hp, ih (List.cons_ne_nil _ _) hr]

theorem intercalate_pieces (sep : α) (cs : List α) : [sep].intercalate (pieces sep cs) = cs := by
  induction cs with
  | nil => rfl
  | cons c cs ih =>
    have hp : pieces sep cs = (cut sep cs).1 :: (cut sep cs).2 := rfl
    by_cases hc : c = sep
    · subst hc
      rw [pieces_cons_sep, hp, List.intercalate_cons_cons, ← hp, ih]
      rfl
    · rw [pieces_cons_of_ne hc hp, List.intercalate_cons_cons_left, ← hp, ih]

end Pieces

theorem map_ofList_toList (parts : List String) :
    (parts.map String.toList).map String.ofList = parts := by
  have hi : String.ofList ∘ String.toList = id := by
    funext s
    exact String.ofList_toList
  rw [List.map_map, hi, List.map_id]

theorem map_toList_ofList (parts : List (List Char)) :
    (parts.map String.ofList).map String.toList = parts := by
  have hi : String.toList ∘ String.ofList = id := by
    funext cs
    exact String.toList_ofList
  rw [List.map_map, hi, List.map_id]

def splitAt (sep : Char) (s : String) : List String :=
  (pieces sep s.toList).map String.ofList

theorem pieces_join {lines : List String} (h : ∀ line ∈ lines, '\n' ∉ line.toList) :
    pieces '\n' (String.join (lines.map (· ++ "\n"))).toList =
      lines.map String.toList ++ [[]] := by
  rw [String.toList_join]
  induction lines with
  | nil => rfl
  | cons line rest ih =>
    obtain ⟨hl, hr⟩ := List.forall_mem_cons.mp h
    simp only [List.map_cons, List.flatMap_cons, List.cons_append, ← ih hr,
      ← pieces_append_sep hl, String.toList_append]
    simp

theorem splitAt_join {lines : List String} (h : ∀ line ∈ lines, '\n' ∉ line.toList) :
    splitAt '\n' (String.join (lines.map (· ++ "\n"))) = lines ++ [""] := by
  rw [splitAt, pieces_join h, List.map_append, map_ofList_toList]
  rfl

theorem count_join {lines : List String} (h : ∀ line ∈ lines, '\n' ∉ line.toList) :
    (String.join (lines.map (· ++ "\n"))).toList.count '\n' = lines.length := by
  have hl := congrArg List.length (pieces_join h)
  rw [length_pieces, List.length_append, List.length_map, List.length_singleton] at hl
  exact Nat.succ.inj hl

/-- A carriage return at the end of a line belongs to its terminator. -/
def dropReturn (line : List Char) : List Char :=
  if line.getLast? = some '\r' then line.dropLast else line

/-- The lines of a text without their terminators. Only a line that is terminated loses a
carriage return, and a terminator at the end starts no further line. -/
def lineChars (cs : List Char) : List (List Char) :=
  let all := pieces '\n' cs
  all.dropLast.map dropReturn ++ (all.getLast?.filter (fun last => !last.isEmpty)).toList

def lines (s : String) : List String :=
  (lineChars s.toList).map String.ofList

def mapChars (f : Char → List Char) (s : String) : String :=
  String.ofList (s.toList.flatMap f)

def replace (c : Char) (text s : String) : String :=
  mapChars (fun d => if d = c then text.toList else [d]) s

theorem mem_replace {c d : Char} {text s : String} :
    d ∈ (replace c text s).toList ↔
      d ∈ s.toList ∧ d ≠ c ∨ c ∈ s.toList ∧ d ∈ text.toList := by
  simp only [replace, mapChars, String.toList_ofList, List.mem_flatMap]
  constructor
  · rintro ⟨e, he, hd⟩
    split at hd
    · rename_i hc
      exact .inr ⟨hc ▸ he, hd⟩
    · rename_i hc
      rw [List.mem_singleton.mp hd]
      exact .inl ⟨he, hc⟩
  · rintro (⟨hd, hc⟩ | ⟨hc, hd⟩)
    · exact ⟨d, hd, by simp [hc]⟩
    · exact ⟨c, hc, by simpa using hd⟩

def erase (c : Char) (s : String) : String :=
  String.ofList (s.toList.filter (· ≠ c))

/-- Writes a line feed for each carriage return that stands before one. -/
def unifyLineEnds : List Char → List Char
  | '\r' :: '\n' :: cs => '\n' :: unifyLineEnds cs
  | c :: cs => c :: unifyLineEnds cs
  | [] => []

def lastPiece (sep : Char) (s : String) : String :=
  String.ofList ((s.toList.reverse.takeWhile (· ≠ sep)).reverse)

def asciiLower (s : String) : String :=
  String.ofList (s.toList.map Char.toLower)

/-- Equal up to the case of ASCII letters. -/
def sameWord (s t : String) : Bool :=
  s.toList.map Char.toLower == t.toList.map Char.toLower

theorem sameWord_iff {s t : String} : sameWord s t = true ↔ asciiLower s = asciiLower t := by
  rw [sameWord, beq_iff_eq, asciiLower, asciiLower, String.ofList_inj]

def startsWith (s start : String) : Bool :=
  start.toList.isPrefixOf s.toList

def endsWith (s ending : String) : Bool :=
  ending.toList.isSuffixOf s.toList

/-- What follows a beginning, if the characters begin so. -/
def after? : (start cs : List Char) → Option (List Char)
  | [], rest => some rest
  | _ :: _, [] => none
  | a :: as, b :: bs => if a = b then after? as bs else none

@[simp]
theorem after?_append (start rest : List Char) : after? start (start ++ rest) = some rest := by
  induction start with
  | nil => rfl
  | cons c start ih => simpa [after?] using ih

theorem after?_cons_of_ne {a b : Char} (h : a ≠ b) (as bs : List Char) :
    after? (a :: as) (b :: bs) = none :=
  if_neg h

theorem after?_eq_some {start cs rest : List Char} :
    after? start cs = some rest ↔ cs = start ++ rest := by
  constructor
  · intro h
    induction start generalizing cs with
    | nil => exact Option.some.inj h
    | cons c start ih =>
      cases cs with
      | nil => cases h
      | cons d cs =>
        by_cases hc : c = d
        · subst hc
          rw [after?, if_pos rfl] at h
          rw [ih h, List.cons_append]
        · rw [after?, if_neg hc] at h
          cases h
  · rintro rfl
    exact after?_append start rest

def dropStart? (start s : String) : Option String :=
  (after? start.toList s.toList).map String.ofList

def hasInfix (inner : List Char) : List Char → Bool
  | [] => inner.isEmpty
  | c :: cs => inner.isPrefixOf (c :: cs) || hasInfix inner cs

def contains (s inner : String) : Bool :=
  hasInfix inner.toList s.toList

def join (sep : String) (parts : List String) : String :=
  String.intercalate sep parts

@[simp]
theorem join_singleton (sep part : String) : join sep [part] = part :=
  String.intercalate_singleton

@[simp]
theorem join_cons_cons (sep part next : String) (more : List String) :
    join sep (part :: next :: more) = part ++ sep ++ join sep (next :: more) :=
  String.intercalate_cons_cons

/-- The stretches between separators make up the text again. -/
theorem join_splitAt (sep : Char) (s : String) :
    join (String.singleton sep) (splitAt sep s) = s := by
  rw [← String.toList_inj, join, String.toList_intercalate, splitAt, map_toList_ofList,
    String.toList_singleton, intercalate_pieces]

/-- Parts without the separator are found again between separators. -/
theorem splitAt_intercalate {sep : Char} {parts : List String} (hn : parts ≠ [])
    (h : ∀ part ∈ parts, sep ∉ part.toList) :
    splitAt sep (join (String.singleton sep) parts) = parts := by
  have hp : ∀ part ∈ parts.map String.toList, sep ∉ part := by
    intro part hm
    obtain ⟨s, hs, rfl⟩ := List.mem_map.mp hm
    exact h s hs
  have hm : parts.map String.toList ≠ [] := by simpa using hn
  rw [splitAt, join, String.toList_intercalate, String.toList_singleton,
    pieces_intercalate hm hp, map_ofList_toList]

theorem join_append {sep : String} {parts more : List String} (hp : parts ≠ []) (hm : more ≠ []) :
    join sep (parts ++ more) = join sep parts ++ sep ++ join sep more :=
  String.intercalate_append_of_ne_nil hp hm

theorem not_mem_join {c : Char} {sep : String} {parts : List String} (hs : c ∉ sep.toList)
    (hp : ∀ part ∈ parts, c ∉ part.toList) : c ∉ (join sep parts).toList := by
  induction parts with
  | nil => simp [join]
  | cons part rest ih =>
    obtain ⟨hc, hr⟩ := List.forall_mem_cons.mp hp
    cases rest with
    | nil => simpa using hc
    | cons next more =>
      simp only [join_cons_cons, String.toList_append, List.mem_append, not_or]
      exact ⟨⟨hc, hs⟩, ih hr⟩

theorem join_eq_empty {sep : String} {parts : List String} (hp : ∀ part ∈ parts, part ≠ "") :
    join sep parts = "" ↔ parts = [] := by
  cases parts with
  | nil => simp [join]
  | cons part rest =>
    have hn : part ≠ "" := hp part List.mem_cons_self
    cases rest with
    | nil => simpa using hn
    | cons next more => simp [hn]

end CallFlow.Text
