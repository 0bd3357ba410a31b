import Mathlib.Data.List.Forall2
import CallFlow.Diagram.Mermaid.Reader
import CallFlow.Proofs.ArrowReading
import CallFlow.Proofs.DeclaredOnce
import CallFlow.Proofs.MermaidNames

namespace CallFlow.Diagram.Mermaid

/-- The line declares a name, with a text that ends where its second quotation mark stands. -/
def Declares (name line : String) : Prop :=
  ∃ text, line = "    " ++ name ++ "[\"" ++ text ++ "\"]" ∧ '"' ∉ text.toList ∧ '\n' ∉ text.toList

/-- Bars stand on the line only around a quoted label, which has none of the marks that end it. -/
def LabelEnclosed (line : String) : Prop :=
  line.toList.count '|' = 0 ∨
    line.toList.count '|' = 2 ∧ ∃ before label after,
      line = before ++ "|\"" ++ label ++ "\"|" ++ after ∧
      ∀ c ∈ ['|', '`', '"', '\n'], c ∉ label.toList

/-- The line paints a link red, which it tells by its number. -/
def Paints (position : Nat) (line : String) : Prop :=
  line = "    linkStyle " ++ toString position ++ " stroke:red,stroke-width:2px,color:red"

/-- A text whose lines are the header, the declarations of all shown identifiers, one link for each
edge, and one style for each link that is drawn as an exception. -/
structure WellFormed (graph : Graph) (text : String) (declared linked styled : List String) :
    Prop where
  lines : Text.splitAt '\n' text = "flowchart TD" :: (declared ++ linked ++ styled) ++ [""]
  declares : List.Forall₂ (fun id line => Declares ((names graph).resolve id) line)
    graph.shownIds declared
  links : List.Forall₂ (fun edge line =>
    arrow? line.toList = some (Arrow.ofEdge (names graph).resolve edge) ∧ LabelEnclosed line)
    graph.edges linked
  ends_declared : ∀ line ∈ linked, ∀ arrow, arrow? line.toList = some arrow →
    OneLine (Declares arrow.source) declared ∧ OneLine (Declares arrow.target) declared
  styles : ∃ positions : List Nat, List.Forall₂ Paints positions styled ∧
    positions.Pairwise (· < ·) ∧
    ∀ i, i ∈ positions ↔ ∃ line arrow, linked[i]? = some line ∧
      arrow? line.toList = some arrow ∧ arrow.isException = true

section Lines

variable {names : Names} {edge : MergedEdge} {name id : String}

theorem readLabel_quoted {label : String} (hq : '"' ∉ label.toList) (rest : List Char) :
    readLabel ("|\"".toList ++ (label.toList ++ ("\"|".toList ++ rest))) = some (true, rest) := by
  have hd : (label.toList ++ ("\"|".toList ++ rest)).dropWhile (· ≠ '"') =
      "\"|".toList ++ rest := by
    rw [List.dropWhile_append_of_pos]
    · rfl
    · intro c hc
      simpa using fun h : c = '"' => hq (h ▸ hc)
  simp only [readLabel, Text.after?_append, hd]
  rfl

theorem mark_not_mem_escapeEdge (label : String) : '"' ∉ (escapeEdge label).toList := by
  simp [escapeEdge, Text.mem_replace]

/-- The part of a link between the stroke and the target. -/
theorem readLabel_part (label : String) (rest : List Char) :
    readLabel ((if label = "" then "" else "|\"" ++ escapeEdge label ++ "\"|").toList ++
      (" ".toList ++ rest)) = some (!decide (label = ""), " ".toList ++ rest) := by
  by_cases h : label = ""
  · simp only [h, ↓reduceIte]
    rfl
  · simp only [h, ↓reduceIte, String.toList_append, List.append_assoc]
    exact readLabel_quoted (mark_not_mem_escapeEdge label) _

theorem arrow?_link (hs : IsNodeName (names.resolve edge.source))
    (ht : IsNodeName (names.resolve edge.target))
    (hl : edge.labels.isEmpty = decide (edge.label = "")) :
    arrow? (link names edge).toList = some (Arrow.ofEdge names.resolve edge) := by
  have hk : (link names edge).toList = "    ".toList ++ ((names.resolve edge.source).toList ++
      ((if edge.isException then " -.->" else " -->").toList ++
        ((if edge.label = "" then "" else "|\"" ++ escapeEdge edge.label ++ "\"|").toList ++
          (" ".toList ++ ((names.resolve edge.target).toList ++ []))))) := by
    cases h : edge.isException <;> simp [link, margin, h]
  have hw : ∀ rest, ((if edge.isException then " -.->" else " -->").toList ++ rest).head? =
      some ' ' := by
    intro rest
    cases edge.isException <;> rfl
  rw [arrow?, hk, Text.after?_append]
  simp only [Option.bind_eq_bind, Option.bind_some]
  rw [Arrow.readWord_append_of_head hs.1 hs.2.1 (hw _) (by decide)]
  simp only [Option.bind_some]
  rw [Arrow.readStroke_append rfl]
  simp only [Option.bind_some]
  rw [readLabel_part]
  simp only [Option.bind_some, Text.after?_append]
  rw [Arrow.readWord_append ht.1 ht.2.1 (by simp)]
  simp only [Option.bind_some, ↓reduceIte, ← hl]
  rfl

theorem arrow?_declaration (hn : IsNodeName (names.resolve id)) (label : String) :
    arrow? (declaration names id label).toList = none := by
  have hd : (declaration names id label).toList = "    ".toList ++
      ((names.resolve id).toList ++ ('[' :: ("\"" ++ escapeNode label ++ "\"]").toList)) := by
    simp [declaration, margin]
  rw [arrow?, hd, Text.after?_append]
  simp only [Option.bind_eq_bind, Option.bind_some]
  rw [Arrow.readWord_append_of_head hn.1 hn.2.1 rfl (by decide)]
  rfl

/-- A digit follows the first word of a style, and no stroke. -/
theorem arrow?_linkStyle (position : Nat) : arrow? (linkStyle position).toList = none := by
  have hs : (linkStyle position).toList = "    ".toList ++ ("linkStyle".toList ++
      (' ' :: (Nat.toDigits 10 position ++
        " stroke:red,stroke-width:2px,color:red".toList))) := by
    simp [linkStyle, margin]
  obtain ⟨digit, digits, hd⟩ :=
    List.exists_cons_of_ne_nil (Nat.toDigits_ne_nil : Nat.toDigits 10 position ≠ [])
  have hn : digit.isDigit = true :=
    Nat.isDigit_of_mem_toDigits (by decide) (by decide) (hd ▸ List.mem_cons_self)
  have hm : '-' ≠ digit := by
    rintro rfl
    exact absurd hn (by decide)
  have hk : ∀ rest, Arrow.readStroke " -->" " -.->" (' ' :: digit :: rest) = none := fun rest =>
    Arrow.readStroke_eq_none (Text.after?_cons_of_ne hm "->".toList rest)
      (Text.after?_cons_of_ne hm ".->".toList rest)
  rw [arrow?, hs, Text.after?_append, hd]
  simp only [Option.bind_eq_bind, Option.bind_some]
  rw [Arrow.readWord_append_of_head (by decide) (by decide) rfl (by decide)]
  simp only [Option.bind_some]
  rw [List.cons_append, hk]
  rfl

theorem IsNodeName.not_mem (h : IsNodeName name) {c : Char} (hc : isWordChar c = false) :
    c ∉ name.toList :=
  not_mem_of_all h.2.1 hc

theorem declares_inj {a b line : String} (ha : IsNodeName a) (hb : IsNodeName b)
    (hl : Declares a line) (hm : Declares b line) : a = b := by
  obtain ⟨text, rfl, -, -⟩ := hl
  obtain ⟨other, he, -, -⟩ := hm
  have hc := congrArg String.toList he
  simp only [String.toList_append, List.append_assoc] at hc
  have hr := congrArg Arrow.readWord (List.append_cancel_left hc)
  rw [Arrow.readWord_append_of_head ha.1 ha.2.1 rfl (by decide),
    Arrow.readWord_append_of_head hb.1 hb.2.1 rfl (by decide)] at hr
  exact congrArg Prod.fst (Option.some.inj hr)

theorem declaration_declares (names : Names) (id label : String) :
    Declares (names.resolve id) (declaration names id label) :=
  ⟨escapeNode label, rfl, by simp [escapeNode, Text.mem_replace],
    by simp [escapeNode, Text.mem_replace]⟩

theorem linkStyle_paints (position : Nat) : Paints position (linkStyle position) := rfl

theorem line_break_not_mem_declaration (hn : IsNodeName (names.resolve id)) (label : String) :
    '\n' ∉ (declaration names id label).toList := by
  have hb : '\n' ∉ (names.resolve id).toList := hn.not_mem (by decide)
  simp [declaration, margin, hb, escapeNode, Text.mem_replace]

theorem line_break_not_mem_link (hs : IsNodeName (names.resolve edge.source))
    (ht : IsNodeName (names.resolve edge.target)) : '\n' ∉ (link names edge).toList := by
  have hsb : '\n' ∉ (names.resolve edge.source).toList := hs.not_mem (by decide)
  have htb : '\n' ∉ (names.resolve edge.target).toList := ht.not_mem (by decide)
  have hk : '\n' ∉ (if edge.isException then "-.->" else "-->").toList := by
    cases edge.isException <;> decide
  have hl : '\n' ∉ (if edge.label = "" then ""
      else "|\"" ++ escapeEdge edge.label ++ "\"|").toList := by
    split
    · simp
    · simp [escapeEdge, Text.mem_replace]
  simp only [link, margin, String.toList_append, List.mem_append, not_or]
  exact ⟨⟨⟨⟨⟨⟨by decide, hsb⟩, by decide⟩, hk⟩, hl⟩, by decide⟩, htb⟩

/-- Only its digits tell the line of one style from that of another. -/
theorem not_mem_linkStyle {c : Char} (hd : c.isDigit = false)
    (hc : c ∉ (margin ++ "linkStyle " ++ " stroke:red,stroke-width:2px,color:red").toList)
    (position : Nat) : c ∉ (linkStyle position).toList := by
  have hp : c ∉ (toString position).toList := by
    intro hm
    have hm : c ∈ Nat.toDigits 10 position := by simpa using hm
    rw [Nat.isDigit_of_mem_toDigits (by decide) (by decide) hm] at hd
    cases hd
  simp only [String.toList_append, List.mem_append, not_or] at hc
  obtain ⟨⟨hm, hl⟩, hs⟩ := hc
  simp only [linkStyle, String.toList_append, List.mem_append, not_or]
  exact ⟨⟨⟨hm, hl⟩, hp⟩, hs⟩

/-- A label that is shown stands alone between the two bars of its link. -/
theorem link_labelEnclosed (hs : IsNodeName (names.resolve edge.source))
    (ht : IsNodeName (names.resolve edge.target)) : LabelEnclosed (link names edge) := by
  have hsb : (names.resolve edge.source).toList.count '|' = 0 :=
    List.count_eq_zero.mpr (hs.not_mem (by decide))
  have htb : (names.resolve edge.target).toList.count '|' = 0 :=
    List.count_eq_zero.mpr (ht.not_mem (by decide))
  have hk : (if edge.isException then "-.->" else "-->").toList.count '|' = 0 := by
    cases edge.isException <;> decide
  have hn : ∀ c ∈ ['|', '`', '"', '\n'], c ∉ (escapeEdge edge.label).toList := by
    simp [escapeEdge, Text.mem_replace]
  have hl : (escapeEdge edge.label).toList.count '|' = 0 :=
    List.count_eq_zero.mpr (hn '|' (by simp))
  have hm : margin.toList.count '|' = 0 := by decide
  by_cases h : edge.label = ""
  · left
    simp [link, h, hsb, htb, hk, hm]
  · right
    refine ⟨by simp [link, h, hsb, htb, hk, hm, hl],
      margin ++ names.resolve edge.source ++ " " ++ (if edge.isException then "-.->" else "-->"),
      escapeEdge edge.label, " " ++ names.resolve edge.target, ?_, hn⟩
    simp only [link, if_neg h, String.append_assoc]

end Lines

section Positions

variable {edges : List MergedEdge}

theorem mem_exceptionPositions {i : Nat} :
    i ∈ exceptionPositions edges ↔ ∃ edge, edges[i]? = some edge ∧ edge.isException = true := by
  simp only [exceptionPositions, List.mem_filterMap, Prod.exists, List.mem_zipIdx_iff_getElem?]
  constructor
  · rintro ⟨edge, j, he, hi⟩
    split at hi
    · obtain rfl := Option.some.inj hi
      exact ⟨edge, he, ‹_›⟩
    · cases hi
  · rintro ⟨edge, he, hx⟩
    exact ⟨edge, i, he, by simp [hx]⟩

theorem exceptionPositions_increase : (exceptionPositions edges).Pairwise (· < ·) := by
  have hz : edges.zipIdx.Pairwise fun a b => a.2 < b.2 := by
    rw [← List.pairwise_map (f := Prod.snd), List.zipIdx_map_snd]
    exact List.pairwise_lt_range'
  refine hz.filterMap _ ?_
  rintro ⟨a, i⟩ ⟨b, j⟩ hij m hm n hn
  simp only [Option.ite_none_right_eq_some, Option.some.injEq] at hm hn
  obtain ⟨-, rfl⟩ := hm
  obtain ⟨-, rfl⟩ := hn
  exact hij

theorem length_exceptionPositions :
    (exceptionPositions edges).length = (edges.filter (·.isException)).length := by
  have hs : (fun p : MergedEdge × Nat => (if p.1.isException then some p.2 else none).isSome) =
      (·.isException) ∘ Prod.fst := by
    funext p
    by_cases h : p.1.isException <;> simp [h]
  rw [exceptionPositions, List.length_filterMap_eq_countP, ← List.countP_eq_length_filter]
  change List.countP (fun p : MergedEdge × Nat =>
    (if p.1.isException then some p.2 else none).isSome) _ = _
  rw [hs, ← List.countP_map, List.zipIdx_map_fst]

end Positions

section Drawing

variable {modules : List Module} {edges : List Edge} {graph : Graph}

theorem isNodeName_of_shown {id : String} (hs : id ∈ graph.shownIds) :
    IsNodeName ((names graph).resolve id) :=
  nameRule.resolve_of_shown isNodeName_candidate hs

theorem arrow?_link_of_mem (h : graph.Represents modules edges) {edge : MergedEdge}
    (he : edge ∈ graph.edges) :
    '\n' ∉ (link (names graph) edge).toList ∧
      arrow? (link (names graph) edge).toList = some (Arrow.ofEdge (names graph).resolve edge) := by
  obtain ⟨hs, ht⟩ := h.ends_shown he
  exact ⟨line_break_not_mem_link (isNodeName_of_shown hs) (isNodeName_of_shown ht),
    arrow?_link (isNodeName_of_shown hs) (isNodeName_of_shown ht) (h.isEmpty_labels he)⟩

theorem arrow?_other (graph : Graph) :
    ∀ other ∈ ("flowchart TD" :: declarations (names graph) graph) ++ linkStyles graph,
      '\n' ∉ other.toList ∧ arrow? other.toList = none := by
  intro line hl
  simp only [List.cons_append, List.mem_cons, List.mem_append] at hl
  rcases hl with rfl | hl | hl
  · decide
  · obtain ⟨shown, hs, rfl⟩ := List.mem_map.mp hl
    have hn := isNodeName_of_shown (Graph.fst_mem_shownIds hs)
    exact ⟨line_break_not_mem_declaration hn shown.2, arrow?_declaration hn shown.2⟩
  · obtain ⟨position, -, rfl⟩ := List.mem_map.mp hl
    exact ⟨not_mem_linkStyle (by decide) (by decide) position, arrow?_linkStyle position⟩

theorem line_break_not_mem_drawingLines (h : graph.Represents modules edges) :
    ∀ line ∈ drawingLines graph, '\n' ∉ line.toList :=
  Arrow.forall_lines (fun other hm => (arrow?_other graph other hm).1)
    fun _ he => (arrow?_link_of_mem h he).1

theorem onLines_draw (h : graph.Represents modules edges) :
    Arrow.onLines arrow? (draw graph) = graph.edges.map (Arrow.ofEdge (names graph).resolve) :=
  Arrow.onLines_join rfl (arrow?_other graph) fun _ => arrow?_link_of_mem h

theorem declarations_declare (graph : Graph) :
    List.Forall₂ (fun id line => Declares ((names graph).resolve id) line) graph.shownIds
      (declarations (names graph) graph) :=
  forall₂_shown fun shown _ => declaration_declares (names graph) shown.1 shown.2

theorem linkStyles_paint (graph : Graph) :
    List.Forall₂ Paints (exceptionPositions graph.edges) (linkStyles graph) := by
  rw [linkStyles, List.forall₂_map_right_iff, List.forall₂_same]
  intro position _
  exact linkStyle_paints position

/-- Every shown identifier is declared on one line, since no line declares two names. -/
theorem oneLine_declarations (h : graph.Represents modules edges) {id : String}
    (hi : id ∈ graph.shownIds) :
    OneLine (Declares ((names graph).resolve id)) (declarations (names graph) graph) :=
  nameRule.oneLine_of_shown isNodeName_candidate Declares declares_inj h.nodup_shownIds
    (declarations_declare graph) hi

theorem length_drawingLines (graph : Graph) :
    (drawingLines graph).length = 1 + graph.nodes.length + graph.danglingIds.length +
      graph.edges.length + (graph.edges.filter (·.isException)).length := by
  simp only [drawingLines, declarations, Graph.shown, links, linkStyles, List.length_append,
    List.length_cons, List.length_map, length_exceptionPositions]
  omega

/-- The position of an exceptional edge is that of its link. -/
theorem mem_exceptionPositions_links (h : graph.Represents modules edges) {i : Nat} :
    i ∈ exceptionPositions graph.edges ↔
      ∃ line arrow, (links (names graph) graph)[i]? = some line ∧
        arrow? line.toList = some arrow ∧ arrow.isException = true := by
  rw [mem_exceptionPositions, links]
  constructor
  · rintro ⟨edge, he, hx⟩
    exact ⟨link (names graph) edge, _, by rw [List.getElem?_map, he]; rfl,
      (arrow?_link_of_mem h (List.mem_of_getElem? he)).2, hx⟩
  · rintro ⟨line, arrow, hl, ha, hx⟩
    rw [List.getElem?_map] at hl
    obtain ⟨edge, he, rfl⟩ := Option.map_eq_some_iff.mp hl
    have hk := (arrow?_link_of_mem h (List.mem_of_getElem? he)).2
    obtain rfl := Option.some.inj (hk.symm.trans ha)
    exact ⟨edge, he, hx⟩

theorem draw_wellFormed (h : graph.Represents modules edges) :
    WellFormed graph (draw graph) (declarations (names graph) graph) (links (names graph) graph)
      (linkStyles graph) where
  lines := Text.splitAt_join (line_break_not_mem_drawingLines h)
  declares := declarations_declare graph
  links := by
    rw [links, List.forall₂_map_right_iff, List.forall₂_same]
    intro edge he
    obtain ⟨hs, ht⟩ := h.ends_shown he
    exact ⟨(arrow?_link_of_mem h he).2,
      link_labelEnclosed (isNodeName_of_shown hs) (isNodeName_of_shown ht)⟩
  ends_declared := by
    intro line hl arrow ha
    obtain ⟨edge, he, rfl⟩ := List.mem_map.mp hl
    obtain rfl := Option.some.inj ((arrow?_link_of_mem h he).2.symm.trans ha)
    obtain ⟨hs, ht⟩ := h.ends_shown he
    exact ⟨oneLine_declarations h hs, oneLine_declarations h ht⟩
  styles := ⟨exceptionPositions graph.edges, linkStyles_paint graph, exceptionPositions_increase,
    fun _ => mem_exceptionPositions_links h⟩

end Drawing

/-- A drawing has one line for its header, one for each node, dangling identifier and edge, and one
for each exceptional edge, and all of them are well formed. -/
theorem flowchart_well_formed (modules : List Module) (edges : List Edge) :
    let graph := Graph.build modules edges
    (draw graph).toList.count '\n' = 1 + graph.nodes.length + graph.danglingIds.length +
      graph.edges.length + (graph.edges.filter (·.isException)).length ∧
    ∃ declared linked styled, WellFormed graph (draw graph) declared linked styled := by
  intro graph
  have h := Graph.build_represents modules edges
  exact ⟨(Text.count_join (line_break_not_mem_drawingLines h)).trans (length_drawingLines graph),
    _, _, _, draw_wellFormed h⟩

end CallFlow.Diagram.Mermaid
