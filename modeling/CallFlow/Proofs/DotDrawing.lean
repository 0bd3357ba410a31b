import CallFlow.Proofs.ArrowReading
import CallFlow.Proofs.DotReading
import CallFlow.Proofs.MergedGraph

namespace CallFlow.Diagram.Dot

namespace Element

def isNode : Element → Bool
  | .node .. => true
  | .edge .. => false

def edgeAttributes (label : String) (isException : Bool) : Attributes :=
  (if label = "" then [] else [("label", label)]) ++
  (if isException then exceptionAttributes else [])

def statement : Element → Statement
  | .node id label shape =>
    .node id (("label", label) :: if shape = defaultShape then [] else [("shape", shape)])
  | .edge source target label isException =>
    .edge source target (edgeAttributes label isException)

section EdgeAttributes

variable (label : String) (isException : Bool)

theorem edgeAttributes_keyed : (edgeAttributes label isException).Keyed := by
  have hl : IsKey "label" := by decide
  have he : exceptionAttributes.Keyed := by
    unfold Attributes.Keyed
    decide
  by_cases h : label = "" <;> cases isException <;> simp [edgeAttributes, h, hl, he]

theorem edgeLook?_edgeAttributes :
    edgeLook? (edgeAttributes label isException) = some (label, isException) := by
  by_cases h : label = "" <;> cases isException <;>
    simp [edgeAttributes, h, edgeLook?, takeLabel, exceptionAttributes]

theorem any_label_edgeAttributes :
    (edgeAttributes label isException).any (·.1 = "label") = !decide (label = "") := by
  by_cases h : label = "" <;> cases isException <;> simp [edgeAttributes, h, exceptionAttributes]

end EdgeAttributes

theorem statement_legible (element : Element) : element.statement.Legible := by
  cases element with
  | node id label shape =>
    have hl : IsKey "label" := by decide
    have hs : IsKey "shape" := by decide
    by_cases h : shape = defaultShape <;> simp [statement, Statement.Legible, h, hl, hs]
  | edge source target label isException => exact edgeAttributes_keyed label isException

theorem elements?_statement (element : Element) :
    element.statement.elements? = some [element] := by
  cases element with
  | node id label shape =>
    by_cases h : shape = defaultShape
    · simp [statement, Statement.elements?, h, nodeLook?]
    · simp [statement, Statement.elements?, h, nodeLook?]
  | edge source target label isException =>
    simp [statement, Statement.elements?, edgeLook?_edgeAttributes]

end Element

theorem header_legible : ∀ s ∈ header, s.Legible := by
  have hk : IsKey "rankdir" := by decide
  simp [header, Statement.Legible, hk]

theorem statements_plain (graph : Graph) :
    statements graph false =
      header ++ graph.nodes.map nodeStatement ++ .blank :: graph.edges.map edgeStatement := by
  simp [statements]

theorem statements_eq (graph : Graph) :
    statements graph false = header ++ (graph.nodes.map Element.ofNode).map Element.statement ++
      .blank :: (graph.edges.map Element.ofEdge).map Element.statement := by
  rw [statements_plain, List.map_map, List.map_map]
  rfl

theorem statements_legible (graph : Graph) : ∀ s ∈ statements graph false, s.Legible := by
  intro s hs
  rw [statements_eq] at hs
  simp only [List.mem_append, List.mem_cons, List.mem_map] at hs
  rcases hs with (hs | ⟨element, -, rfl⟩) | rfl | ⟨element, -, rfl⟩
  · exact header_legible s hs
  · exact element.statement_legible
  · trivial
  · exact element.statement_legible

theorem read?_draw (graph : Graph) :
    read? (draw graph false) = some ("ivr", statements graph false) :=
  read?_document (by decide) (statements_legible graph)

theorem mapM_elements? (elements : List Element) :
    (elements.map Element.statement).mapM Statement.elements? = some (elements.map ([·])) := by
  induction elements with
  | nil => rfl
  | cons element more ih =>
    rw [List.map_cons, List.mapM_cons, element.elements?_statement, ih]
    rfl

theorem mapM_elements?_statements (graph : Graph) :
    (statements graph false).mapM Statement.elements? =
      some ([[], [], [], []] ++ (graph.nodes.map Element.ofNode).map ([·]) ++
        [] :: (graph.edges.map Element.ofEdge).map ([·])) := by
  have hh : header.mapM Statement.elements? = some [[], [], [], []] := rfl
  rw [statements_eq, List.mapM_append, List.mapM_append, List.mapM_cons, hh, mapM_elements?,
    mapM_elements?]
  rfl

theorem readElements?_draw (graph : Graph) :
    readElements? (draw graph false) =
      some (graph.nodes.map Element.ofNode ++ graph.edges.map Element.ofEdge) := by
  have hf : ∀ elements : List Element, (elements.map ([·])).flatten = elements := by
    intro elements
    simp [← List.flatMap_def]
  rw [readElements?, read?_draw]
  simp only [Option.bind_eq_bind, Option.bind_some, mapM_elements?_statements, List.flatten_append,
    List.flatten_cons, hf]
  rfl

section Apart

variable (nodes : List Node) (edges : List MergedEdge)

theorem isNode_of_mem : ∀ e ∈ nodes.map Element.ofNode, e.isNode = true := by
  simp [Element.ofNode, Element.isNode]

theorem not_isNode_of_mem : ∀ e ∈ edges.map Element.ofEdge, ¬ e.isNode = true := by
  simp [Element.ofEdge, Element.isNode]

theorem filter_isNode :
    (nodes.map Element.ofNode ++ edges.map Element.ofEdge).filter Element.isNode =
      nodes.map Element.ofNode := by
  rw [List.filter_append, List.filter_eq_self.mpr (isNode_of_mem nodes),
    List.filter_eq_nil_iff.mpr (not_isNode_of_mem edges), List.append_nil]

theorem filter_not_isNode :
    (nodes.map Element.ofNode ++ edges.map Element.ofEdge).filter (!·.isNode) =
      edges.map Element.ofEdge := by
  rw [List.filter_append, List.filter_eq_nil_iff.mpr, List.filter_eq_self.mpr, List.nil_append]
  · simpa using not_isNode_of_mem edges
  · simpa using isNode_of_mem nodes

end Apart

theorem elements_inj {nodes others : List Node} {edges more : List MergedEdge} :
    nodes.map Element.ofNode ++ edges.map Element.ofEdge =
        others.map Element.ofNode ++ more.map Element.ofEdge ↔
      nodes.map Element.ofNode = others.map Element.ofNode ∧
        edges.map Element.ofEdge = more.map Element.ofEdge := by
  constructor
  · intro h
    constructor
    · rw [← filter_isNode nodes edges, h, filter_isNode]
    · rw [← filter_not_isNode nodes edges, h, filter_not_isNode]
  · rintro ⟨hn, he⟩
    rw [hn, he]

theorem arrow?_line_node (id : String) (attributes : Attributes) :
    arrow? (Statement.line (.node id attributes)).toList = none := by
  have hl : (Statement.line (.node id attributes)).toList = (indent 1).toList ++
      ((quote id).toList ++ (attributes.suffix.toList ++ [';'])) := by
    simp [Statement.line]
  rw [arrow?, hl]
  simp only [after?_append, Option.bind_eq_bind, Option.bind_some, scanString_quote,
    after?_arrow_suffix]
  rfl

theorem arrow?_line_edge (source target label : String) (isException : Bool) :
    arrow? (Element.edge source target label isException).statement.line.toList =
      some ⟨quote source, quote target, isException, !decide (label = "")⟩ := by
  have hl : (Element.edge source target label isException).statement.line.toList =
      (indent 1).toList ++ ((quote source).toList ++ (" -> ".toList ++ ((quote target).toList ++
        ((Element.edgeAttributes label isException).suffix.toList ++ [';'])))) := by
    simp [Element.statement, Statement.line]
  rw [arrow?, hl]
  simp only [after?_append, Option.bind_eq_bind, Option.bind_some, scanString_quote,
    readSuffix_suffix (Element.edgeAttributes_keyed label isException),
    Element.edgeLook?_edgeAttributes, Element.any_label_edgeAttributes, ↓reduceIte]

def linesBeforeEdges (graph : Graph) : List String :=
  ("digraph ivr \x7b" :: header.map Statement.line) ++
    (graph.nodes.map Element.ofNode).map (fun element => element.statement.line) ++ [""]

theorem documentLines_ivr (statements : List Statement) :
    documentLines "ivr" statements =
      "digraph ivr \x7b" :: statements.map Statement.line ++ ["\x7d"] := by
  have hi : "digraph " ++ "ivr" ++ " \x7b" = "digraph ivr \x7b" := rfl
  rw [documentLines, hi]

theorem documentLines_eq (graph : Graph) :
    documentLines "ivr" (statements graph false) =
      linesBeforeEdges graph ++
        graph.edges.map (fun edge => (Element.ofEdge edge).statement.line) ++ ["\x7d"] := by
  have hb : Statement.line .blank = "" := rfl
  rw [documentLines_ivr, statements_eq]
  simp [linesBeforeEdges, hb, Function.comp_def]

theorem arrow?_before_edges (graph : Graph) :
    ∀ line ∈ linesBeforeEdges graph, '\n' ∉ line.toList ∧ arrow? line.toList = none := by
  have hh : ∀ line ∈ "digraph ivr \x7b" :: header.map Statement.line,
      '\n' ∉ line.toList ∧ arrow? line.toList = none := by decide
  intro line hm
  simp only [linesBeforeEdges, List.mem_append, List.mem_map, List.mem_singleton] at hm
  rcases hm with (hm | ⟨_, ⟨node, -, rfl⟩, rfl⟩) | rfl
  · exact hh line hm
  · exact ⟨Statement.line_break_not_mem (Element.ofNode node).statement_legible,
      arrow?_line_node _ _⟩
  · decide

theorem onLines_draw {modules : List Module} {edges : List Edge} {graph : Graph}
    (h : graph.Represents modules edges) :
    Arrow.onLines arrow? (draw graph false) = graph.edges.map (Arrow.ofEdge quote) := by
  rw [draw, document, documentLines_eq]
  apply Arrow.onLines_join rfl
  · intro line hm
    rcases List.mem_append.mp hm with hm | hm
    · exact arrow?_before_edges graph line hm
    · rw [List.mem_singleton.mp hm]
      decide
  · intro edge he
    refine ⟨Statement.line_break_not_mem (Element.ofEdge edge).statement_legible, ?_⟩
    rw [Element.ofEdge, arrow?_line_edge, ← h.isEmpty_labels he]
    rfl

/-- A drawing is read back as its nodes in order and then its edges in order. So two graphs that are
drawn alike agree on all that is drawn, and only then. -/
theorem drawing_read_back (graph : Graph) :
    readElements? (draw graph false) =
      some (graph.nodes.map Element.ofNode ++ graph.edges.map Element.ofEdge) ∧
    ∀ other : Graph, draw graph false = draw other false ↔
      graph.nodes.map Element.ofNode = other.nodes.map Element.ofNode ∧
        graph.edges.map Element.ofEdge = other.edges.map Element.ofEdge := by
  refine ⟨readElements?_draw graph, fun other => ?_⟩
  rw [← elements_inj]
  constructor
  · intro h
    have hr := readElements?_draw graph
    rw [h, readElements?_draw] at hr
    exact (Option.some.inj hr).symm
  · intro h
    obtain ⟨hn, he⟩ := elements_inj.mp h
    rw [draw, draw, statements_eq, statements_eq, hn, he]

end CallFlow.Diagram.Dot
