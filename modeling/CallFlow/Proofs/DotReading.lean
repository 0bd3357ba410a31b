import CallFlow.Diagram.Dot.Element

namespace CallFlow.Diagram.Dot

variable {key value text name : String} {attributes : Attributes} {rest : List Char}

/-- A plain word, which the equals sign behind it ends. -/
def IsKey (key : String) : Prop :=
  key.toList.all isWordChar = true

instance : DecidablePred IsKey := fun key =>
  inferInstanceAs (Decidable (key.toList.all isWordChar = true))

def Attributes.Keyed (attributes : Attributes) : Prop :=
  ∀ pair ∈ attributes, IsKey pair.1

/-- A statement whose line can be told from the lines of other statements. -/
def Statement.Legible : Statement → Prop
  | .setting key _ => IsKey key
  | .nodeDefaults text | .edgeDefaults text => '\n' ∉ text.toList
  | .blank => True
  | .node _ attributes | .edge _ _ attributes => attributes.Keyed

@[simp]
theorem after?_append (start : String) (rest : List Char) :
    after? start (start.toList ++ rest) = some rest :=
  Text.after?_append start.toList rest

theorem before?_append (text ending : String) :
    before? ending (text.toList ++ ending.toList) = some text := by
  simp [before?, after?, List.reverse_append]

theorem toList_quote (text : String) :
    (quote text).toList = '"' :: (text.toList.flatMap escapeChar ++ ['"']) := by
  simp [quote, toList_escape]

theorem line_break_not_mem_quote (text : String) : '\n' ∉ (quote text).toList := by
  simp [quote, escape, Text.mem_replace]

theorem readString_quote (text : String) (rest : List Char) :
    readString ((quote text).toList ++ rest) = some (text, rest) := by
  have hq : (quote text).toList ++ rest =
      "\"".toList ++ (text.toList.flatMap escapeChar ++ '"' :: rest) := by
    simp [toList_quote]
  rw [readString, hq, after?_append]
  simp [readQuoted_escape]

/-- A quoted text is read back, so it is the quotation of one text only. -/
theorem quote_injective : Function.Injective quote := by
  intro a b h
  have ha := readString_quote a []
  rw [h, readString_quote] at ha
  exact (congrArg Prod.fst (Option.some.inj ha)).symm

theorem scanString_quote (text : String) (rest : List Char) :
    scanString ((quote text).toList ++ rest) = some (quote text, rest) := by
  have hq : (quote text).toList ++ rest =
      "\"".toList ++ (text.toList.flatMap escapeChar ++ '"' :: rest) := by
    simp [toList_quote]
  rw [scanString, hq, after?_append]
  simp only [Option.bind_eq_bind, Option.bind_some, scanQuoted_escape]
  rw [← toList_escape, String.ofList_toList]
  rfl

theorem readAttribute_text (hk : IsKey key) (value : String)
    (rest : List Char) :
    readAttribute ((key ++ "=" ++ quote value).toList ++ rest) = some ((key, value), rest) := by
  have he : '=' ∉ key.toList := not_mem_of_all hk (by decide)
  have hs : (key ++ "=" ++ quote value).toList ++ rest =
      key.toList ++ ("=".toList ++ ((quote value).toList ++ rest)) := by
    simp only [String.toList_append, List.append_assoc]
  have ht : (key.toList ++ ("=".toList ++ ((quote value).toList ++ rest))).takeWhile (· ≠ '=') =
      key.toList := by
    rw [List.takeWhile_append_of_pos]
    · simp
    · intro c hc
      simpa using fun h : c = '=' => he (h ▸ hc)
  simp only [readAttribute, hs, ht, List.drop_left, after?_append]
  simp only [Option.bind_eq_bind, Option.bind_some, readString_quote]
  simp

namespace Attributes

@[simp]
theorem keyed_nil : Keyed [] := fun _ h => nomatch h

@[simp]
theorem keyed_cons {pair : String × String} :
    Keyed (pair :: attributes) ↔ IsKey pair.1 ∧ attributes.Keyed :=
  List.forall_mem_cons

/-- The pairs between the brackets, up to the closing one. -/
theorem toList_join_cons (pair next : String × String) (more : Attributes) :
    (Text.join ", " ((pair :: next :: more).map pairText)).toList =
      (pairText pair).toList ++
        (", ".toList ++ (Text.join ", " ((next :: more).map pairText)).toList) := by
  simp

theorem length_le_join (pair : String × String) (more : Attributes) :
    more.length ≤ (Text.join ", " ((pair :: more).map pairText)).toList.length := by
  induction more generalizing pair with
  | nil => exact Nat.zero_le _
  | cons next more ih =>
    have := ih next
    rw [toList_join_cons, List.length_append, List.length_append, List.length_cons]
    change _ ≤ _ + (2 + _)
    omega

end Attributes

/-- Attributes are read one after the other. A bound that allows for all of them will do. -/
theorem readAttributes_join (pair : String × String) (attributes : Attributes)
    (hk : Attributes.Keyed (pair :: attributes)) {bound : Nat} (hb : attributes.length < bound)
    (rest : List Char) :
    readAttributes bound
        ((Text.join ", " ((pair :: attributes).map Attributes.pairText)).toList ++
          ("]".toList ++ rest)) =
      some (pair :: attributes, rest) := by
  obtain ⟨bound, rfl⟩ : ∃ n, bound = n + 1 := ⟨bound - 1, by omega⟩
  induction attributes generalizing pair bound with
  | nil =>
    have hn : after? ", " ("]".toList ++ rest) = none := rfl
    obtain ⟨hp, -⟩ := Attributes.keyed_cons.mp hk
    rw [List.map_singleton, Text.join_singleton, readAttributes, Attributes.pairText,
      readAttribute_text hp]
    simp only [Option.bind_eq_bind, Option.bind_some, hn, after?_append]
    rfl
  | cons next more ih =>
    obtain ⟨hp, hm⟩ := Attributes.keyed_cons.mp hk
    obtain ⟨bound, rfl⟩ : ∃ n, bound = n + 1 := ⟨bound - 1, by simp at hb; omega⟩
    rw [Attributes.toList_join_cons, readAttributes, List.append_assoc, Attributes.pairText,
      readAttribute_text hp, List.append_assoc]
    simp only [Option.bind_eq_bind, Option.bind_some, after?_append]
    rw [ih next hm bound (by simpa using hb)]
    rfl

theorem readSuffix_suffix (hk : attributes.Keyed) :
    readSuffix (attributes.suffix.toList ++ [';']) = some (attributes, [';']) := by
  cases attributes with
  | nil => rfl
  | cons pair more =>
    have hs : (Attributes.suffix (pair :: more)).toList ++ [';'] = " [".toList ++
        ((Text.join ", " ((pair :: more).map Attributes.pairText)).toList ++
          ("]".toList ++ [';'])) := by
      simp [Attributes.suffix, Attributes.text]
    rw [readSuffix, hs, after?_append]
    refine readAttributes_join pair more hk ?_ [';']
    have := Attributes.length_le_join pair more
    simp only [List.length_append, List.length_singleton]
    omega

theorem line_break_not_mem_suffix (hk : attributes.Keyed) :
    '\n' ∉ attributes.suffix.toList := by
  have hp : ∀ text ∈ attributes.map Attributes.pairText, '\n' ∉ text.toList := by
    intro text ht
    obtain ⟨pair, hm, rfl⟩ := List.mem_map.mp ht
    have hn : '\n' ∉ pair.1.toList := not_mem_of_all (hk pair hm) (by decide)
    simp [Attributes.pairText, hn, line_break_not_mem_quote]
  have hs : '\n' ∉ ", ".toList := by decide
  have hj := Text.not_mem_join hs hp
  unfold Attributes.suffix
  split
  · decide
  · simp [Attributes.text, hj]

/-- No arrow follows the identifier of a node. -/
theorem after?_arrow_suffix (attributes : Attributes) :
    after? " -> " (attributes.suffix.toList ++ [';']) = none := by
  cases attributes with
  | nil => rfl
  | cons pair more =>
    have hs : (Attributes.suffix (pair :: more)).toList ++ [';'] =
        ' ' :: '[' :: ((Text.join ", " ((pair :: more).map Attributes.pairText)).toList ++
          ("]".toList ++ [';'])) := by
      simp [Attributes.suffix, Attributes.text]
    rw [hs]
    rfl

namespace Statement

theorem ofSubject?_node (id : String) (hk : attributes.Keyed) :
    ofSubject? ((quote id).toList ++ (attributes.suffix.toList ++ [';'])) =
      some (.node id attributes) := by
  simp only [ofSubject?, readString_quote, Option.bind_eq_bind, Option.bind_some,
    after?_arrow_suffix, readSuffix_suffix hk]
  rfl

theorem ofSubject?_edge (source target : String) (hk : attributes.Keyed) :
    ofSubject? ((quote source).toList ++ (" -> ".toList ++ ((quote target).toList ++
        (attributes.suffix.toList ++ [';'])))) =
      some (.edge source target attributes) := by
  simp only [ofSubject?, readString_quote, Option.bind_eq_bind, Option.bind_some, after?_append,
    readSuffix_suffix hk]
  rfl

theorem ofSetting?_text (hk : IsKey key) (value : String) :
    ofSetting? ((key ++ "=" ++ quote value).toList ++ [';']) = some (.setting key value) := by
  simp only [ofSetting?, readAttribute_text hk, Option.bind_eq_bind, Option.bind_some]
  rfl

/-- A setting is told from the defaults, since no space follows its key. -/
theorem after?_setting (hk : IsKey key) {start : String}
    (hs : ' ' ∈ start.toList) (hn : '=' ∉ start.toList) (value : String) :
    after? start ((key ++ "=" ++ quote value).toList ++ [';']) = none := by
  rw [Option.eq_none_iff_forall_ne_some]
  intro rest hr
  have hc := Text.after?_eq_some.mp hr
  have he : (key ++ "=" ++ quote value).toList ++ [';'] =
      key.toList ++ '=' :: ((quote value).toList ++ [';']) := by simp
  rw [he] at hc
  rcases List.append_eq_append_iff.mp hc with ⟨as, hks, ht⟩ | ⟨bs, hks, -⟩
  · cases as with
    | nil =>
      rw [hks, List.append_nil] at hs
      exact not_mem_of_all hk (by decide) hs
    | cons c as =>
      obtain ⟨rfl, -⟩ := List.cons.inj ht
      exact hn (by simp [hks])
  · exact not_mem_of_all hk (by decide) (hks ▸ List.mem_append_left bs hs)

theorem ofLine?_indent (cs : List Char) :
    ofLine? ((indent 1).toList ++ cs) =
      if cs.head? = some '"' then ofSubject? cs
      else match after? "node [" cs, after? "edge [" cs with
        | some rest, _ => (before? "];" rest).map .nodeDefaults
        | none, some rest => (before? "];" rest).map .edgeDefaults
        | none, none => ofSetting? cs := by
  have hn : (indent 1).toList ++ cs ≠ [] := by
    rw [indent, String.toList_ofList]
    exact List.cons_ne_nil _ _
  rw [ofLine?, if_neg hn, after?_append]
  simp only [Option.map_eq_bind]
  rfl

theorem ofLine?_line {statement : Statement} (h : statement.Legible) :
    ofLine? statement.line.toList = some statement := by
  cases statement with
  | blank => rfl
  | setting key value =>
    have hl : (line (.setting key value)).toList =
        (indent 1).toList ++ ((key ++ "=" ++ quote value).toList ++ [';']) := by
      simp [line]
    have hq : ((key ++ "=" ++ quote value).toList ++ [';']).head? ≠ some '"' := by
      have hm : '"' ∉ key.toList := not_mem_of_all h (by decide)
      cases hk : key.toList with
      | nil => simp [hk]
      | cons c cs =>
        rw [hk] at hm
        simpa [hk] using fun hc : c = '"' => hm (hc ▸ List.mem_cons_self)
    rw [hl, ofLine?_indent, if_neg hq, after?_setting h (by decide) (by decide),
      after?_setting h (by decide) (by decide)]
    exact ofSetting?_text h value
  | nodeDefaults text =>
    have hl : (line (.nodeDefaults text)).toList =
        (indent 1).toList ++ ("node [".toList ++ (text.toList ++ "];".toList)) := by
      simp [line]
    have hq : ("node [".toList ++ (text.toList ++ "];".toList)).head? ≠ some '"' := by simp
    rw [hl, ofLine?_indent, if_neg hq, after?_append]
    simp only [before?_append]
    rfl
  | edgeDefaults text =>
    have hl : (line (.edgeDefaults text)).toList =
        (indent 1).toList ++ ("edge [".toList ++ (text.toList ++ "];".toList)) := by
      simp [line]
    have hq : ("edge [".toList ++ (text.toList ++ "];".toList)).head? ≠ some '"' := by simp
    have hn : after? "node [" ("edge [".toList ++ (text.toList ++ "];".toList)) = none := rfl
    rw [hl, ofLine?_indent, if_neg hq, hn, after?_append]
    simp only [before?_append]
    rfl
  | node id attributes =>
    have hl : (line (.node id attributes)).toList = (indent 1).toList ++
        ((quote id).toList ++ (attributes.suffix.toList ++ [';'])) := by
      simp [line]
    have hq : ((quote id).toList ++ (attributes.suffix.toList ++ [';'])).head? = some '"' := by
      rw [toList_quote]
      rfl
    rw [hl, ofLine?_indent, if_pos hq, ofSubject?_node id h]
  | edge source target attributes =>
    have hl : (line (.edge source target attributes)).toList = (indent 1).toList ++
        ((quote source).toList ++ (" -> ".toList ++ ((quote target).toList ++
          (attributes.suffix.toList ++ [';'])))) := by
      simp [line]
    have hq : ((quote source).toList ++ (" -> ".toList ++ ((quote target).toList ++
        (attributes.suffix.toList ++ [';'])))).head? = some '"' := by
      rw [toList_quote]
      rfl
    rw [hl, ofLine?_indent, if_pos hq, ofSubject?_edge source target h]

theorem line_break_not_mem {statement : Statement} (h : statement.Legible) :
    '\n' ∉ statement.line.toList := by
  have hi : '\n' ∉ (indent 1).toList := by decide
  cases statement with
  | blank => decide
  | setting key value =>
    have hk : '\n' ∉ key.toList := not_mem_of_all h (by decide)
    simp [line, hi, hk, line_break_not_mem_quote]
  | nodeDefaults text | edgeDefaults text =>
    have ht : '\n' ∉ text.toList := h
    simp [line, hi, ht]
  | node id attributes =>
    simp [line, hi, line_break_not_mem_quote, line_break_not_mem_suffix h]
  | edge source target attributes =>
    simp [line, hi, line_break_not_mem_quote, line_break_not_mem_suffix h]

end Statement

theorem mapM_ofLine? {statements : List Statement} (h : ∀ s ∈ statements, s.Legible) :
    (statements.map fun s => s.line.toList).mapM Statement.ofLine? = some statements := by
  induction statements with
  | nil => rfl
  | cons s more ih =>
    obtain ⟨hs, hm⟩ := List.forall_mem_cons.mp h
    rw [List.map_cons, List.mapM_cons, Statement.ofLine?_line hs, ih hm]
    rfl

theorem readHeader_text (name : String) :
    readHeader ("digraph " ++ name ++ " \x7b").toList = some name := by
  have hs : ("digraph " ++ name ++ " \x7b").toList =
      "digraph ".toList ++ (name.toList ++ " \x7b".toList) := by
    simp only [String.toList_append, List.append_assoc]
  rw [readHeader, hs, after?_append]
  exact before?_append name " \x7b"

theorem line_break_not_mem_documentLines (hn : '\n' ∉ name.toList) {statements : List Statement}
    (h : ∀ s ∈ statements, s.Legible) :
    ∀ line ∈ documentLines name statements, '\n' ∉ line.toList := by
  intro line hm
  simp only [documentLines, List.cons_append, List.mem_cons, List.mem_append, List.mem_map,
    List.not_mem_nil, or_false] at hm
  rcases hm with rfl | ⟨s, hs, rfl⟩ | rfl
  · simpa using hn
  · exact Statement.line_break_not_mem (h s hs)
  · decide

theorem splitAt_document (hn : '\n' ∉ name.toList) {statements : List Statement}
    (h : ∀ s ∈ statements, s.Legible) :
    Text.splitAt '\n' (document name statements) = documentLines name statements ++ [""] :=
  Text.splitAt_join (line_break_not_mem_documentLines hn h)

theorem read?_document (hn : '\n' ∉ name.toList) {statements : List Statement}
    (h : ∀ s ∈ statements, s.Legible) :
    read? (document name statements) = some (name, statements) := by
  have hl := line_break_not_mem_documentLines hn h
  have hr : ((documentLines name statements).map String.toList ++ [[]]).reverse =
      [] :: ['\x7d'] :: (("digraph " ++ name ++ " \x7b").toList ::
        statements.map fun s => s.line.toList).reverse := by
    simp [documentLines, Function.comp_def]
  rw [read?, document, Text.pieces_join hl, hr]
  simp only [List.reverse_reverse, readHeader_text, mapM_ofLine? h]
  rfl

end CallFlow.Diagram.Dot
