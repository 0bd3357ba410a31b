import CallFlow.Diagram.PlantUml.Reader
import CallFlow.Proofs.ArrowReading
import CallFlow.Proofs.DeclaredOnce
import CallFlow.Proofs.StateNames

namespace CallFlow.Diagram.PlantUml

/-- The line declares a state, with a description between the only quotation marks on it. -/
def Declares (name line : String) : Prop :=
  ∃ text, line = "state \"" ++ text ++ "\" as " ++ name ∧ line.toList.count '"' = 2

/-- A text whose lines are the two of the head, the declarations of all shown identifiers, a mark
for each initial state, a transition for each edge, and the end. -/
structure WellFormed (graph : Graph) (text : String) (declared started moved : List String) :
    Prop where
  lines : Text.splitAt '\n' text =
    ["@startuml", "hide empty description"] ++ declared ++ started ++ moved ++ ["@enduml", ""]
  declares : List.Forall₂ (fun id line => Declares ((names graph).resolve id) line)
    graph.shownIds declared
  starts : started = (graph.nodes.filter (·.kind.isEntry)).map
    fun node => "[*] --> " ++ (names graph).resolve node.id
  moves : List.Forall₂ (fun edge line =>
    arrow? line.toList = some (Arrow.ofEdge (names graph).resolve edge) ∧ '\n' ∉ line.toList)
    graph.edges moved
  starts_declared : ∀ name, "[*] --> " ++ name ∈ started → OneLine (Declares name) declared
  ends_declared : ∀ line ∈ moved, ∀ arrow, arrow? line.toList = some arrow →
    OneLine (Declares arrow.source) declared ∧ OneLine (Declares arrow.target) declared

section Lines

variable {names : Names} {edge : MergedEdge} {name id : String}

theorem IsStateName.not_mem (h : IsStateName name) {c : Char} (hc : isWordChar c = false) :
    c ∉ name.toList :=
  not_mem_of_all h.2.1 hc

theorem head?_label (label : String) :
    ∀ c ∈ (if label = "" then "" else " : " ++ escapeTransition label).toList.head?,
      isWordChar c = false := by
  intro c hc
  by_cases h : label = ""
  · rw [if_pos h] at hc
    cases hc
  · rw [if_neg h, String.toList_append] at hc
    obtain rfl : ' ' = c := Option.some.inj hc
    decide

theorem arrow?_transition (hs : IsStateName (names.resolve edge.source))
    (ht : IsStateName (names.resolve edge.target))
    (hl : edge.labels.isEmpty = decide (edge.label = "")) :
    arrow? (transition names edge).toList = some (Arrow.ofEdge names.resolve edge) := by
  have hk : (transition names edge).toList = (names.resolve edge.source).toList ++
      ((if edge.isException then " -[#red,dashed]-> " else " --> ").toList ++
        ((names.resolve edge.target).toList ++
          (if edge.label = "" then "" else " : " ++ escapeTransition edge.label).toList)) := by
    cases h : edge.isException <;> simp [transition, h]
  have hw : ∀ rest, ((if edge.isException then " -[#red,dashed]-> " else " --> ").toList ++
      rest).head? = some ' ' := by
    intro rest
    cases edge.isException <;> rfl
  rw [arrow?, hk]
  simp only [Option.bind_eq_bind]
  rw [Arrow.readWord_append_of_head hs.1 hs.2.1 (hw _) (by decide)]
  simp only [Option.bind_some]
  rw [Arrow.readStroke_append rfl]
  simp only [Option.bind_some]
  rw [Arrow.readWord_append ht.1 ht.2.1 (head?_label _)]
  simp only [Option.bind_some]
  by_cases h : edge.label = ""
  · simp only [Arrow.ofEdge, hl, h]
    rfl
  · have hx : (" : " ++ escapeTransition edge.label).toList ≠ [] := by simp
    rw [if_neg h, if_neg hx, String.toList_append, Text.after?_append, Arrow.ofEdge, hl,
      decide_eq_false h]
    rfl

/-- A quotation mark follows the first word of a declaration, and no stroke. -/
theorem arrow?_declaration (names : Names) (id description : String) :
    arrow? (declaration names id description).toList = none := by
  have hd : (declaration names id description).toList = "state".toList ++ (' ' :: '"' ::
      (escapeDescription description ++ "\" as " ++ names.resolve id).toList) := by
    simp [declaration]
  rw [arrow?, hd]
  simp only [Option.bind_eq_bind]
  rw [Arrow.readWord_append_of_head (by decide) (by decide) rfl (by decide)]
  rfl

theorem arrow?_initial (names : Names) (node : Node) :
    arrow? (initial names node).toList = none := by
  simp [initial, arrow?, Arrow.readWord, isWordChar]

theorem declaration_declares (hn : IsStateName (names.resolve id)) (description : String) :
    Declares (names.resolve id) (declaration names id description) := by
  have hd : (escapeDescription description).toList.count '"' = 0 :=
    List.count_eq_zero.mpr (by simp [escapeDescription, Text.mem_replace])
  have hc : (names.resolve id).toList.count '"' = 0 :=
    List.count_eq_zero.mpr (hn.not_mem (by decide))
  exact ⟨escapeDescription description, rfl, by simp [declaration, hd, hc]⟩

/-- Neither the description nor the name has a quotation mark. -/
theorem Declares.exists_text {line : String} (h : Declares name line) :
    ∃ text : List Char, '"' ∉ text ∧ '"' ∉ name.toList ∧
      line.toList = "state \"".toList ++ (text ++ '"' :: (" as ".toList ++ name.toList)) := by
  obtain ⟨text, rfl, hc⟩ := h
  have hl : ("state \"" ++ text ++ "\" as " ++ name).toList =
      "state \"".toList ++ (text.toList ++ '"' :: (" as ".toList ++ name.toList)) := by simp
  have hs : "state \"".toList.count '"' = 1 := by decide
  have ha : " as ".toList.count '"' = 0 := by decide
  rw [hl, List.count_append, List.count_append, List.count_cons_self, List.count_append, hs, ha]
    at hc
  exact ⟨text.toList, List.count_eq_zero.mp (by omega), List.count_eq_zero.mp (by omega), hl⟩

/-- The second quotation mark of a line is the last one, and the name begins behind it. -/
theorem declares_inj {a b line : String} (hl : Declares a line) (hm : Declares b line) : a = b := by
  obtain ⟨text, ht, ha, hta⟩ := hl.exists_text
  obtain ⟨other, -, -, hob⟩ := hm.exists_text
  have he := List.append_cancel_left (hta.symm.trans hob)
  obtain ⟨-, -, hn⟩ := (List.append_cons_inj_of_notMem ht (by simpa using ha)).mp he
  exact String.toList_inj.mp (List.append_cancel_left hn)

theorem line_break_not_mem_declaration (hn : IsStateName (names.resolve id))
    (description : String) : '\n' ∉ (declaration names id description).toList := by
  have hb : '\n' ∉ (names.resolve id).toList := hn.not_mem (by decide)
  simp [declaration, hb, escapeDescription, Text.mem_replace]

theorem line_break_not_mem_initial {node : Node} (hn : IsStateName (names.resolve node.id)) :
    '\n' ∉ (initial names node).toList := by
  have hb : '\n' ∉ (names.resolve node.id).toList := hn.not_mem (by decide)
  simp [initial, hb]

theorem line_break_not_mem_transition (hs : IsStateName (names.resolve edge.source))
    (ht : IsStateName (names.resolve edge.target)) : '\n' ∉ (transition names edge).toList := by
  have hsb : '\n' ∉ (names.resolve edge.source).toList := hs.not_mem (by decide)
  have htb : '\n' ∉ (names.resolve edge.target).toList := ht.not_mem (by decide)
  have hk : '\n' ∉ (if edge.isException then "-[#red,dashed]->" else "-->").toList := by
    cases edge.isException <;> decide
  have hl : '\n' ∉ (if edge.label = "" then ""
      else " : " ++ escapeTransition edge.label).toList := by
    split
    · simp
    · simp [escapeTransition, Text.mem_replace]
  simp only [transition, String.toList_append, List.mem_append, not_or]
  exact ⟨⟨⟨⟨⟨hsb, by decide⟩, hk⟩, by decide⟩, htb⟩, hl⟩

end Lines

section Drawing

variable {modules : List Module} {edges : List Edge} {graph : Graph}

theorem isStateName_of_shown {id : String} (hs : id ∈ graph.shownIds) :
    IsStateName ((names graph).resolve id) :=
  nameRule.resolve_of_shown isStateName_candidate hs

theorem arrow?_transition_of_mem (h : graph.Represents modules edges) {edge : MergedEdge}
    (he : edge ∈ graph.edges) :
    '\n' ∉ (transition (names graph) edge).toList ∧
      arrow? (transition (names graph) edge).toList =
        some (Arrow.ofEdge (names graph).resolve edge) := by
  obtain ⟨hs, ht⟩ := h.ends_shown he
  exact ⟨line_break_not_mem_transition (isStateName_of_shown hs) (isStateName_of_shown ht),
    arrow?_transition (isStateName_of_shown hs) (isStateName_of_shown ht) (h.isEmpty_labels he)⟩

theorem mem_initials {line : String} (hl : line ∈ initials (names graph) graph) :
    ∃ node, node.id ∈ graph.shownIds ∧ line = initial (names graph) node := by
  obtain ⟨node, hn, rfl⟩ := List.mem_map.mp hl
  exact ⟨node, List.mem_append_left _ (List.mem_map_of_mem (List.mem_of_mem_filter hn)), rfl⟩

theorem arrow?_other (graph : Graph) :
    ∀ other ∈ (["@startuml", "hide empty description"] ++ declarations (names graph) graph ++
        initials (names graph) graph) ++ ["@enduml"],
      '\n' ∉ other.toList ∧ arrow? other.toList = none := by
  have hh : ∀ line ∈ ["@startuml", "hide empty description", "@enduml"],
      '\n' ∉ line.toList ∧ arrow? line.toList = none := by decide
  intro line hl
  simp only [List.mem_append] at hl
  rcases hl with ((hl | hl) | hl) | hl
  · exact hh line (List.mem_append_left ["@enduml"] hl)
  · obtain ⟨shown, hs, rfl⟩ := List.mem_map.mp hl
    have hn := isStateName_of_shown (Graph.fst_mem_shownIds hs)
    exact ⟨line_break_not_mem_declaration hn shown.2, arrow?_declaration _ shown.1 shown.2⟩
  · obtain ⟨node, hi, rfl⟩ := mem_initials hl
    exact ⟨line_break_not_mem_initial (isStateName_of_shown hi), arrow?_initial _ node⟩
  · exact hh line (List.mem_append_right ["@startuml", "hide empty description"] hl)

theorem line_break_not_mem_drawingLines (h : graph.Represents modules edges) :
    ∀ line ∈ drawingLines graph, '\n' ∉ line.toList :=
  Arrow.forall_lines (fun other hm => (arrow?_other graph other hm).1)
    fun _ he => (arrow?_transition_of_mem h he).1

theorem finalize_eq_self {text : String} {c : Char} (ht : text.toList.head? = some c)
    (hm : (c == Text.byteOrderMark) = false) (hb : Text.isBlank c = false) :
    finalize text = text := by
  obtain ⟨rest, hr⟩ := List.head?_eq_some_iff.mp ht
  have hd : Text.dropMarks text = text := by
    rw [Text.dropMarks, hr, List.dropWhile_cons, hm, ← hr]
    exact String.ofList_toList
  rw [finalize, hd, Text.trimLeft, Text.trimLeftChars, hr, List.dropWhile_cons, hb, ← hr]
  exact String.ofList_toList

/-- The first character of a drawing is neither a byte order mark nor blank. -/
theorem finalize_drawing (graph : Graph) :
    finalize (String.join ((drawingLines graph).map (· ++ "\n"))) =
      String.join ((drawingLines graph).map (· ++ "\n")) := by
  have hh : (String.join ((drawingLines graph).map (· ++ "\n"))).toList.head? = some '@' := by
    rw [String.toList_join]
    rfl
  exact finalize_eq_self hh (by decide) (by decide)

theorem onLines_draw (h : graph.Represents modules edges) :
    Arrow.onLines arrow? (draw graph) = graph.edges.map (Arrow.ofEdge (names graph).resolve) := by
  rw [draw, finalize_drawing]
  exact Arrow.onLines_join rfl (arrow?_other graph) fun _ => arrow?_transition_of_mem h

theorem declarations_declare (graph : Graph) :
    List.Forall₂ (fun id line => Declares ((names graph).resolve id) line) graph.shownIds
      (declarations (names graph) graph) :=
  forall₂_shown fun shown hs =>
    declaration_declares (isStateName_of_shown (Graph.fst_mem_shownIds hs)) shown.2

theorem oneLine_declarations (h : graph.Represents modules edges) {id : String}
    (hi : id ∈ graph.shownIds) :
    OneLine (Declares ((names graph).resolve id)) (declarations (names graph) graph) :=
  nameRule.oneLine_of_shown isStateName_candidate Declares (fun _ _ => declares_inj)
    h.nodup_shownIds (declarations_declare graph) hi

theorem length_drawingLines (graph : Graph) :
    (drawingLines graph).length = 3 + graph.nodes.length + graph.danglingIds.length +
      (graph.nodes.filter (·.kind.isEntry)).length + graph.edges.length := by
  simp only [drawingLines, declarations, Graph.shown, initials, transitions, List.length_append,
    List.length_cons, List.length_map, List.length_nil]
  omega

theorem draw_wellFormed (h : graph.Represents modules edges) :
    WellFormed graph (draw graph) (declarations (names graph) graph)
      (initials (names graph) graph) (transitions (names graph) graph) where
  lines := by
    rw [draw, finalize_drawing, Text.splitAt_join (line_break_not_mem_drawingLines h)]
    simp [drawingLines]
  declares := declarations_declare graph
  starts := rfl
  moves := by
    rw [transitions, List.forall₂_map_right_iff, List.forall₂_same]
    exact fun edge he => (arrow?_transition_of_mem h he).symm
  starts_declared := by
    intro name hl
    obtain ⟨node, hi, he⟩ := mem_initials hl
    obtain rfl := (String.append_right_inj "[*] --> ").mp he
    exact oneLine_declarations h hi
  ends_declared := by
    intro line hl arrow ha
    obtain ⟨edge, he, rfl⟩ := List.mem_map.mp hl
    obtain rfl := Option.some.inj ((arrow?_transition_of_mem h he).2.symm.trans ha)
    obtain ⟨hs, ht⟩ := h.ends_shown he
    exact ⟨oneLine_declarations h hs, oneLine_declarations h ht⟩

end Drawing

/-- A drawing has two lines for its head and one for its end, one for each node, dangling
identifier, initial state and edge, and all of them are well formed. Nothing has to be taken off
its beginning. -/
theorem state_diagram_well_formed (modules : List Module) (edges : List Edge) :
    let graph := Graph.build modules edges
    (draw graph).toList.count '\n' = 3 + graph.nodes.length + graph.danglingIds.length +
      (graph.nodes.filter (·.kind.isEntry)).length + graph.edges.length ∧
    finalize (String.join ((drawingLines graph).map (· ++ "\n"))) =
      String.join ((drawingLines graph).map (· ++ "\n")) ∧
    ∃ declared started moved, WellFormed graph (draw graph) declared started moved := by
  intro graph
  have h := Graph.build_represents modules edges
  refine ⟨?_, finalize_drawing graph, _, _, _, draw_wellFormed h⟩
  rw [draw, finalize_drawing, Text.count_join (line_break_not_mem_drawingLines h)]
  exact length_drawingLines graph

end CallFlow.Diagram.PlantUml
