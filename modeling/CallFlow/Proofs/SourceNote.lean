import CallFlow.Proofs.DanglingIds
import CallFlow.Proofs.DotDrawing

namespace CallFlow.Diagram.Dot

theorem noteCandidate_succ (n : Nat) : noteCandidate (n + 1) = noteCandidate n ++ "_" := by
  rw [← String.toList_inj]
  simp [noteCandidate, List.replicate_succ']

theorem noteCandidate_injective : Function.Injective noteCandidate := by
  intro m n h
  have hl := congrArg (fun name => name.toList.length) h
  simpa [noteCandidate] using hl

/-- The search for an identifier that stands for nothing in the graph, with the number of
underscores by which it extends the one it begins with. -/
inductive Search (graph : Graph) : String → Nat → String → Prop where
  | free {name : String} (node : graph.node? name = none) (dangling : name ∉ graph.danglingIds) :
      Search graph name 0 name
  | taken {name found : String} {count : Nat}
      (shown : graph.node? name ≠ none ∨ name ∈ graph.danglingIds)
      (rest : Search graph (name ++ "_") count found) : Search graph name (count + 1) found

def Shows (element : Element) (line : String) : Prop :=
  (Statement.ofLine? line.toList).bind Statement.elements? = some [element]

/-- The lines before those of the nodes. -/
def opening : List String :=
  ["digraph ivr \x7b", "  rankdir=\"TB\";",
    "  node [shape=box, style=\"rounded\", fontname=\"Helvetica\"];",
    "  edge [fontname=\"Helvetica\", fontsize=10];", ""]

def noteLine (id source : String) : String :=
  "  " ++ quote id ++ " [label=" ++ quote source ++
    ", shape=\"note\", style=\"filled\", fillcolor=\"lightyellow\"];"

/-- The line that ties one identifier to another by an edge that is not seen. -/
def tieLine (id first : String) : String :=
  "  " ++ quote id ++ " -> " ++ quote first ++ " [style=\"invis\"];"

/-- Lines that show the nodes and the edges of a graph and make up its drawing. With the note there
is one more line behind those of the nodes, and, if there is a node, one before those of the
edges. -/
structure Noted (graph : Graph) (source : String) (nodeLines edgeLines : List String) : Prop where
  nodes : List.Forall₂ (fun node line => Shows (.ofNode node) line) graph.nodes nodeLines
  edges : List.Forall₂ (fun edge line => Shows (.ofEdge edge) line) graph.edges edgeLines
  plain : Text.splitAt '\n' (draw graph false) =
    opening ++ nodeLines ++ [""] ++ edgeLines ++ ["\x7d", ""]
  noted : Text.splitAt '\n' (draw graph true) =
    opening ++ nodeLines ++ [noteLine (noteId graph) source, ""] ++
      graph.nodes.head?.toList.map (fun first => tieLine (noteId graph) first.id) ++
      edgeLines ++ ["\x7d", ""]
  note : Statement.ofLine? (noteLine (noteId graph) source).toList =
    some (.node (noteId graph) [("label", source), ("shape", "note"), ("style", "filled"),
      ("fillcolor", "lightyellow")])
  tie : ∀ first, Statement.ofLine? (tieLine (noteId graph) first).toList =
    some (.edge (noteId graph) first [("style", "invis")])

section Note

variable {modules : List Module} {edges : List Edge} {graph : Graph} {source : String}

/-- Each step is forced, so the search has one outcome. -/
theorem Search.unique {name found other : String} {m n : Nat} (h : Search graph name m found)
    (ho : Search graph name n other) : m = n ∧ found = other := by
  induction h generalizing n with
  | free node dangling =>
    cases ho with
    | free => exact ⟨rfl, rfl⟩
    | taken shown =>
      rcases shown with hs | hs
      · exact absurd node hs
      · exact absurd hs dangling
  | taken shown rest ih =>
    cases ho with
    | free node dangling =>
      rcases shown with hs | hs
      · exact absurd node hs
      · exact absurd hs dangling
    | taken shown more =>
      obtain ⟨rfl, rfl⟩ := ih more
      exact ⟨rfl, rfl⟩

theorem mem_shownIds_iff (h : graph.Represents modules edges) {id : String} :
    id ∈ graph.shownIds ↔ graph.node? id ≠ none ∨ id ∈ graph.danglingIds := by
  have hn : graph.node? id = none ↔ id ∉ graph.nodeIds := h.nodeIndex.find?_eq_none
  rw [Graph.shownIds, List.mem_append, ne_eq, hn, Decidable.not_not]

theorem noteId_eq (graph : Graph) :
    noteId graph = noteCandidate (freshIndex graph.shownIds noteCandidate) := rfl

theorem noteId_not_shown (graph : Graph) : noteId graph ∉ graph.shownIds :=
  freshName_not_mem graph.shownIds noteCandidate_injective

/-- The search from a candidate takes as many extensions as the candidate comes before the chosen
one. -/
theorem search_candidate (h : graph.Represents modules edges) (count : Nat)
    (hc : count ≤ freshIndex graph.shownIds noteCandidate) :
    Search graph (noteCandidate (freshIndex graph.shownIds noteCandidate - count)) count
      (noteId graph) := by
  -- By the distance from the end: the last candidate is free, and every earlier one is taken.
  induction count with
  | zero =>
    have hs := noteId_not_shown graph
    rw [mem_shownIds_iff h, not_or, ne_eq, Decidable.not_not] at hs
    rw [Nat.sub_zero, ← noteId_eq]
    exact .free hs.1 hs.2
  | succ count ih =>
    have next : freshIndex graph.shownIds noteCandidate - count =
        freshIndex graph.shownIds noteCandidate - (count + 1) + 1 := by omega
    have rest := ih (by omega)
    rw [next, noteCandidate_succ] at rest
    have shown : noteCandidate (freshIndex graph.shownIds noteCandidate - (count + 1)) ∈
        graph.shownIds := mem_of_lt_freshIndex (by omega)
    exact .taken ((mem_shownIds_iff h).mp shown) rest

theorem search_iff (h : graph.Represents modules edges) {count : Nat} {found : String} :
    Search graph "__source__" count found ↔
      count = freshIndex graph.shownIds noteCandidate ∧ found = noteId graph := by
  have start : noteCandidate 0 = "__source__" := by decide
  have outcome := search_candidate h _ (Nat.le_refl _)
  rw [Nat.sub_self, start] at outcome
  constructor
  · intro hs
    exact hs.unique outcome
  · rintro ⟨rfl, rfl⟩
    exact outcome

theorem noteStatement_legible (graph : Graph) (source : String) :
    (noteStatement graph source).Legible := by
  have hk : IsKey "label" ∧ IsKey "shape" ∧ IsKey "style" ∧ IsKey "fillcolor" := by decide
  simp [noteStatement, Statement.Legible, hk]

theorem tie_legible (id first : String) :
    (Statement.edge id first [("style", "invis")]).Legible := by
  have hk : IsKey "style" := by decide
  simp [Statement.Legible, hk]

theorem noteEdge_legible (graph : Graph) : ∀ s ∈ noteEdge graph, s.Legible := by
  intro s hs
  obtain ⟨first, -, rfl⟩ := List.mem_map.mp hs
  exact tie_legible (noteId graph) first.id

theorem statements_unnoted (hs : graph.source = none) :
    statements graph true = statements graph false := by
  simp [statements, hs]

theorem statements_noted (hs : graph.source = some source) :
    statements graph true =
      header ++ graph.nodes.map nodeStatement ++ noteStatement graph source :: .blank ::
        (noteEdge graph ++ graph.edges.map edgeStatement) := by
  simp [statements, hs, Option.filter_some]

theorem statements_noted_legible (hs : graph.source = some source) :
    ∀ s ∈ statements graph true, s.Legible := by
  have plain : ∀ s ∈ statements graph false, s.Legible := statements_legible graph
  rw [statements_plain] at plain
  intro s hm
  rw [statements_noted hs] at hm
  simp only [List.mem_append, List.mem_cons] at hm plain
  rcases hm with hm | rfl | rfl | hm | hm
  · exact plain s (.inl hm)
  · exact noteStatement_legible graph source
  · exact plain _ (.inr (.inl rfl))
  · exact noteEdge_legible graph s hm
  · exact plain s (.inr (.inr hm))

theorem lines_draw {annotate : Bool} (h : ∀ s ∈ statements graph annotate, s.Legible) :
    Text.splitAt '\n' (draw graph annotate) =
      "digraph ivr \x7b" :: (statements graph annotate).map Statement.line ++ ["\x7d", ""] := by
  rw [draw, splitAt_document (by decide) h, documentLines_ivr, List.append_assoc]
  rfl

theorem header_lines : "digraph ivr \x7b" :: header.map Statement.line = opening := by decide +kernel

theorem noteStatement_line (graph : Graph) (source : String) :
    (noteStatement graph source).line = noteLine (noteId graph) source := by
  have look : quote "note" = "\"note\"" ∧ quote "filled" = "\"filled\"" ∧
      quote "lightyellow" = "\"lightyellow\"" := by decide +kernel
  rw [← String.toList_inj]
  simp [noteStatement, noteLine, Statement.line, indent, Attributes.suffix, Attributes.text,
    Attributes.pairText, look]

theorem tie_line (id first : String) :
    (Statement.edge id first [("style", "invis")]).line = tieLine id first := by
  have look : quote "invis" = "\"invis\"" := by decide +kernel
  rw [← String.toList_inj]
  simp [tieLine, Statement.line, indent, Attributes.suffix, Attributes.text, Attributes.pairText,
    look]

theorem noteEdge_lines (graph : Graph) :
    (noteEdge graph).map Statement.line =
      graph.nodes.head?.toList.map fun first => tieLine (noteId graph) first.id := by
  rw [noteEdge, List.map_map]
  exact List.map_congr_left fun first _ => tie_line (noteId graph) first.id

theorem shows_line (element : Element) : Shows element element.statement.line := by
  rw [Shows, Statement.ofLine?_line element.statement_legible, Option.bind_some,
    element.elements?_statement]

theorem noted_lines (hs : graph.source = some source) :
    Noted graph source (graph.nodes.map fun node => (nodeStatement node).line)
      (graph.edges.map fun edge => (edgeStatement edge).line) where
  nodes := by
    rw [List.forall₂_map_right_iff, List.forall₂_same]
    exact fun node _ => shows_line (.ofNode node)
  edges := by
    rw [List.forall₂_map_right_iff, List.forall₂_same]
    exact fun edge _ => shows_line (.ofEdge edge)
  plain := by
    have hb : Statement.line .blank = "" := rfl
    rw [lines_draw (statements_legible graph), statements_plain, ← header_lines]
    simp [hb, Function.comp_def]
  noted := by
    have hb : Statement.line .blank = "" := rfl
    rw [lines_draw (statements_noted_legible hs), statements_noted hs, ← header_lines,
      ← noteStatement_line, ← noteEdge_lines]
    simp [hb, Function.comp_def]
  note := by
    rw [← noteStatement_line]
    exact Statement.ofLine?_line (noteStatement_legible graph source)
  tie := by
    intro first
    rw [← tie_line]
    exact Statement.ofLine?_line (tie_legible (noteId graph) first)

end Note

/-- The drawing of a graph with a source is the plain one with the line of the note behind the nodes
and, if there is a node, a line behind the blank one that ties the note to the first node. The
identifier of the note takes the fewest underscores with which it names no module and no end of an
edge. -/
theorem source_note_added (modules : List Module) (edges : List Edge) (source : String) :
    let bare := Graph.build modules edges
    let graph := bare.withSource source
    let used := modules.map Module.id ++ mentionedIds edges
    draw bare true = draw bare false ∧
    (∃ nodeLines edgeLines, Noted graph source nodeLines edgeLines) ∧
    noteId graph ∉ used ∧ quote (noteId graph) ∉ used.map quote ∧
    ∃ count ≤ graph.nodes.length + graph.danglingIds.length,
      noteId graph = "__source__" ++ String.ofList (List.replicate count '_') ∧
      (∀ steps found, Search graph "__source__" steps found ↔
        steps = count ∧ found = noteId graph) ∧
      ∀ fewer < count, "__source__" ++ String.ofList (List.replicate fewer '_') ∈ used := by
  intro bare graph used
  have h : graph.Represents modules edges :=
    (Graph.build_represents modules edges).withSource source
  have unknown : bare.source = none := (Graph.build_determined modules edges).source
  have shown : ∀ id, id ∈ graph.shownIds ↔ id ∈ used := by
    intro id
    rw [h.mem_shownIds, h.mem_nodeIds, h.mem_endpoints, List.mem_append]
  have fresh : noteId graph ∉ used := fun hu => noteId_not_shown graph ((shown _).mpr hu)
  refine ⟨?_, ⟨_, _, noted_lines rfl⟩, fresh, ?_, freshIndex graph.shownIds noteCandidate, ?_, rfl,
    fun _ _ => search_iff h, ?_⟩
  · rw [draw, draw, statements_unnoted unknown]
  · rwa [List.mem_map_of_injective quote_injective]
  · have bound := freshIndex_le graph.shownIds noteCandidate
    rwa [Graph.shownIds, List.length_append, Graph.nodeIds, List.length_map] at bound
  · intro fewer hf
    exact (shown _).mp (mem_of_lt_freshIndex hf)

/-- Both a module and the end of an edge are stepped around. -/
example :
    noteId (Graph.build
      [⟨"__source__", .play, "Intro", none, none, [], []⟩,
        ⟨"B", .hangup, "Bye", none, none, [], []⟩]
      [.plain "__source__" "B", .plain "B" "__source___"]) = "__source____" := by decide

end CallFlow.Diagram.Dot
