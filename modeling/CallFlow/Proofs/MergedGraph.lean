import CallFlow.Graph

namespace CallFlow

namespace MergedEdge

/-- The labels of raw edges without the empty ones, each at its first appearance. -/
def labelsOf (edges : List Edge) : List String :=
  distinct ((edges.filterMap Edge.label).filter (· ≠ ""))

/-- One exceptional raw edge is enough. -/
def styleOf (edges : List Edge) : EdgeStyle :=
  if edges.any (·.style = .exception) then .exception else .plain

/-- What the raw edges of a pair come to. -/
def ofPair (edges : List Edge) (pair : String × String) : MergedEdge :=
  { source := pair.1
    target := pair.2
    labels := labelsOf (edges.filter (·.ends = pair))
    style := styleOf (edges.filter (·.ends = pair)) }

@[simp]
theorem ends_ofPair (edges : List Edge) (pair : String × String) :
    (ofPair edges pair).ends = pair := rfl

theorem labelsOf_concat (edges : List Edge) (edge : Edge) :
    labelsOf (edges ++ [edge]) = addLabel (labelsOf edges) edge.label := by
  unfold labelsOf
  cases hl : edge.label with
  | none => simp [addLabel, List.filterMap_append, hl]
  | some label =>
    by_cases he : label = ""
    · simp [addLabel, List.filterMap_append, hl, he]
    · simp [addLabel, List.filterMap_append, hl, he, ← distinct_concat]

theorem styleOf_concat (edges : List Edge) (edge : Edge) :
    styleOf (edges ++ [edge]) = (styleOf edges).join edge.style := by
  unfold styleOf
  cases hs : edge.style <;> cases ha : edges.any (·.style = .exception) <;>
    simp [List.any_append, hs, ha, EdgeStyle.join]

/-- Taking in a raw edge of the pair keeps up with the raw edges. -/
theorem absorb_ofPair (edges : List Edge) (edge : Edge) :
    (ofPair edges edge.ends).absorb edge = ofPair (edges ++ [edge]) edge.ends := by
  simp [absorb, ofPair, List.filter_append, labelsOf_concat, styleOf_concat]

theorem ofPair_concat_of_ne {edges : List Edge} {edge : Edge} {pair : String × String}
    (hp : edge.ends ≠ pair) : ofPair (edges ++ [edge]) pair = ofPair edges pair := by
  simp [ofPair, List.filter_append, hp]

theorem ofPair_of_not_mem {edges : List Edge} {pair : String × String}
    (hp : pair ∉ edges.map Edge.ends) : ofPair edges pair = bare pair := by
  have hn : edges.filter (·.ends = pair) = [] := by
    apply List.filter_eq_nil_iff.mpr
    intro edge he hm
    exact hp (List.mem_map.mpr ⟨edge, he, by simpa using hm⟩)
  simp [ofPair, hn, bare, labelsOf, styleOf, distinct]

theorem ofEdge_eq_ofPair {edges : List Edge} {edge : Edge} (hp : edge.ends ∉ edges.map Edge.ends) :
    ofEdge edge = ofPair (edges ++ [edge]) edge.ends := by
  rw [← absorb_ofPair, ofPair_of_not_mem hp, ofEdge]

/-- Taking in a raw edge changes no pair. -/
theorem map_ends_modify (merged : List MergedEdge) (position : Nat) (edge : Edge) :
    (merged.modify position (·.absorb edge)).map ends = merged.map ends := by
  apply List.ext_getElem?
  intro i
  rw [List.getElem?_map, List.getElem?_map, List.getElem?_modify]
  cases merged[i]? with
  | none => rfl
  | some other =>
    by_cases hi : position = i
    · simp [hi, absorb, ends]
    · simp [hi]

theorem mem_labels_ofPair {edges : List Edge} {pair : String × String} {label : String} :
    label ∈ (ofPair edges pair).labels ↔
      ∃ edge ∈ edges, edge.ends = pair ∧ edge.label = some label ∧ label ≠ "" := by
  simp only [ofPair, labelsOf, mem_distinct, List.mem_filter, List.mem_filterMap,
    decide_eq_true_eq]
  constructor
  · rintro ⟨⟨edge, ⟨he, hp⟩, hl⟩, hn⟩
    exact ⟨edge, he, hp, hl, hn⟩
  · rintro ⟨edge, he, hp, hl, hn⟩
    exact ⟨⟨edge, ⟨he, hp⟩, hl⟩, hn⟩

theorem style_ofPair_eq_exception {edges : List Edge} {pair : String × String} :
    (ofPair edges pair).style = .exception ↔
      ∃ edge ∈ edges, edge.ends = pair ∧ edge.style = .exception := by
  simp only [ofPair, styleOf, List.any_filter]
  split
  · rename_i h
    simpa using h
  · rename_i h
    simpa using h

end MergedEdge

namespace Graph

/-- What holds of a graph that has been given these modules and raw edges, in this order. -/
structure Represents (graph : Graph) (modules : List Module) (edges : List Edge) : Prop where
  nodes : graph.nodes = (distinctBy Module.id modules).map Node.ofModule
  edges : graph.edges = (distinct (edges.map Edge.ends)).map (MergedEdge.ofPair edges)
  nodeIndex : graph.nodeIndex.Locates graph.nodeIds
  edgeIndex : graph.edgeIndex.Locates graph.edgeEnds

variable {graph : Graph} {modules : List Module} {edges : List Edge}

theorem Represents.empty : empty.Represents [] [] :=
  ⟨rfl, rfl, Index.Locates.empty, Index.Locates.empty⟩

theorem Represents.nodeIds_eq (h : graph.Represents modules edges) :
    graph.nodeIds = (distinctBy Module.id modules).map Module.id := by
  rw [nodeIds, h.nodes, List.map_map]
  rfl

theorem Represents.edgeEnds_eq (h : graph.Represents modules edges) :
    graph.edgeEnds = distinct (edges.map Edge.ends) := by
  rw [edgeEnds, h.edges, List.map_map]
  exact List.map_id _

theorem Represents.mem_nodeIds (h : graph.Represents modules edges) {id : String} :
    id ∈ graph.nodeIds ↔ id ∈ modules.map Module.id := by
  rw [h.nodeIds_eq, mem_map_distinctBy]

theorem Represents.mem_edgeEnds (h : graph.Represents modules edges) {pair : String × String} :
    pair ∈ graph.edgeEnds ↔ pair ∈ edges.map Edge.ends := by
  rw [h.edgeEnds_eq, mem_distinct]

theorem Represents.eq_ofPair (h : graph.Represents modules edges) {edge : MergedEdge}
    {pair : String × String} (he : edge ∈ graph.edges) (hp : edge.ends = pair) :
    edge = MergedEdge.ofPair edges pair := by
  rw [h.edges] at he
  obtain ⟨p, -, rfl⟩ := List.mem_map.mp he
  rw [← hp, MergedEdge.ends_ofPair]

theorem Represents.addModule (h : graph.Represents modules edges) (module : Module) :
    (graph.addModule module).Represents (modules ++ [module]) edges := by
  have hd := distinctBy_concat Module.id modules module
  cases hf : graph.nodeIndex.get? module.id with
  | some position =>
    have hm : module.id ∈ modules.map Module.id :=
      h.mem_nodeIds.mp (List.mem_of_getElem? ((h.nodeIndex _ _).mp hf))
    rw [if_pos hm] at hd
    rw [addModule_known hf]
    exact ⟨by rw [hd, h.nodes], h.edges, h.nodeIndex, h.edgeIndex⟩
  | none =>
    have hm : module.id ∉ modules.map Module.id :=
      fun hm => h.nodeIndex.get?_eq_none.mp hf (h.mem_nodeIds.mpr hm)
    rw [if_neg hm] at hd
    rw [addModule_new hf]
    refine ⟨by simp [hd, h.nodes], h.edges, ?_, h.edgeIndex⟩
    simpa [nodeIds, Node.ofModule] using h.nodeIndex.push hf

theorem Represents.modify_edges (h : graph.Represents modules edges) {edge : Edge}
    {position : Nat} (hf : graph.edgeIndex.get? edge.ends = some position) :
    graph.edges.modify position (·.absorb edge) =
      (distinct (edges.map Edge.ends)).map (MergedEdge.ofPair (edges ++ [edge])) := by
  apply List.ext_getElem?
  intro i
  -- By the index, `i` is the touched position exactly when the pair of the raw edge stands there.
  have hi := h.edgeIndex edge.ends i
  rw [hf, h.edgeEnds_eq, Option.some.injEq] at hi
  rw [List.getElem?_modify, h.edges, List.getElem?_map, List.getElem?_map]
  cases hp : (distinct (edges.map Edge.ends))[i]? with
  | none => rfl
  | some pair =>
    by_cases he : edge.ends = pair
    · subst he
      simp [hi.mpr hp, MergedEdge.absorb_ofPair]
    · have hne : position ≠ i := fun hpi => he (Option.some.inj (by rw [← hi.mp hpi, hp]))
      simp [hne, MergedEdge.ofPair_concat_of_ne he]

theorem Represents.push_edges (h : graph.Represents modules edges) {edge : Edge}
    (hn : edge.ends ∉ edges.map Edge.ends) :
    graph.edges ++ [MergedEdge.ofEdge edge] =
      (distinct (edges.map Edge.ends) ++ [edge.ends]).map
        (MergedEdge.ofPair (edges ++ [edge])) := by
  rw [List.map_append, List.map_singleton, h.edges, MergedEdge.ofEdge_eq_ofPair hn]
  congr 1
  apply List.map_congr_left
  intro pair hp
  have he : edge.ends ≠ pair := fun he => hn (he ▸ mem_distinct.mp hp)
  exact (MergedEdge.ofPair_concat_of_ne he).symm

theorem Represents.addEdge (h : graph.Represents modules edges) (edge : Edge) :
    (graph.addEdge edge).Represents modules (edges ++ [edge]) := by
  have hd := distinct_concat (edges.map Edge.ends) edge.ends
  simp only [addNew, mem_distinct] at hd
  cases hf : graph.edgeIndex.get? edge.ends with
  | some position =>
    have hm : edge.ends ∈ edges.map Edge.ends :=
      h.mem_edgeEnds.mp (List.mem_of_getElem? ((h.edgeIndex _ _).mp hf))
    have ha := h.modify_edges hf
    rw [if_pos hm] at hd
    rw [addEdge_known hf]
    refine ⟨h.nodes, ?_, h.nodeIndex, ?_⟩
    · rw [List.map_append, List.map_singleton, hd]
      exact ha
    · rw [edgeEnds, MergedEdge.map_ends_modify]
      exact h.edgeIndex
  | none =>
    have hm : edge.ends ∉ edges.map Edge.ends :=
      fun hm => h.edgeIndex.get?_eq_none.mp hf (h.mem_edgeEnds.mpr hm)
    rw [if_neg hm] at hd
    rw [addEdge_new hf]
    refine ⟨h.nodes, ?_, h.nodeIndex, ?_⟩
    · rw [List.map_append, List.map_singleton, hd]
      exact h.push_edges hm
    · simpa [edgeEnds] using h.edgeIndex.push hf

theorem Represents.foldl_addModule (h : graph.Represents modules edges) (more : List Module) :
    (more.foldl Graph.addModule graph).Represents (modules ++ more) edges := by
  induction more generalizing graph modules with
  | nil => simpa using h
  | cons module more ih => simpa using ih (h.addModule module)

theorem Represents.foldl_addEdge (h : graph.Represents modules edges) (more : List Edge) :
    (more.foldl Graph.addEdge graph).Represents modules (edges ++ more) := by
  induction more generalizing graph edges with
  | nil => simpa using h
  | cons edge more ih => simpa using ih (h.addEdge edge)

theorem build_represents (modules : List Module) (edges : List Edge) :
    (build modules edges).Represents modules edges :=
  (Represents.empty.foldl_addModule modules).foldl_addEdge edges

/-- Which document the graph stems from changes nothing in it. -/
theorem Represents.withSource (h : graph.Represents modules edges) (source : String) :
    (graph.withSource source).Represents modules edges :=
  ⟨h.nodes, h.edges, h.nodeIndex, h.edgeIndex⟩

theorem Represents.mem_danglingIds (h : graph.Represents modules edges) {id : String} :
    id ∈ graph.danglingIds ↔ id ∈ graph.endpoints ∧ id ∉ graph.nodeIds := by
  rw [danglingIds, mem_distinct, List.mem_filter, Option.isNone_iff_eq_none,
    h.nodeIndex.get?_eq_none]

theorem Represents.mem_shownIds (h : graph.Represents modules edges) {id : String} :
    id ∈ graph.shownIds ↔ id ∈ graph.nodeIds ∨ id ∈ graph.endpoints := by
  rw [shownIds, List.mem_append, h.mem_danglingIds]
  by_cases hn : id ∈ graph.nodeIds <;> simp [hn]

theorem Represents.nodup_shownIds (h : graph.Represents modules edges) : graph.shownIds.Nodup := by
  rw [shownIds, List.nodup_append]
  refine ⟨?_, nodup_distinct _, ?_⟩
  · rw [h.nodeIds_eq]
    exact nodup_map_distinctBy Module.id modules
  · rintro a ha b hb rfl
    exact (h.mem_danglingIds.mp hb).2 ha

/-- Since no label is empty, only an edge without labels shows none. -/
theorem Represents.label_eq_empty (h : graph.Represents modules edges) {edge : MergedEdge}
    (he : edge ∈ graph.edges) : edge.label = "" ↔ edge.labels = [] := by
  refine Text.join_eq_empty fun label hl => ?_
  rw [h.eq_ofPair he rfl] at hl
  obtain ⟨-, -, -, -, hn⟩ := MergedEdge.mem_labels_ofPair.mp hl
  exact hn

theorem Represents.isEmpty_labels (h : graph.Represents modules edges) {edge : MergedEdge}
    (he : edge ∈ graph.edges) : edge.labels.isEmpty = decide (edge.label = "") := by
  rw [Bool.eq_iff_iff, List.isEmpty_iff, decide_eq_true_iff]
  exact (h.label_eq_empty he).symm

theorem Represents.ends_shown (h : graph.Represents modules edges) {edge : MergedEdge}
    (he : edge ∈ graph.edges) : edge.source ∈ graph.shownIds ∧ edge.target ∈ graph.shownIds := by
  have hm : ∀ id ∈ [edge.source, edge.target], id ∈ graph.shownIds := fun id hi =>
    h.mem_shownIds.mpr (.inr (List.mem_flatMap.mpr ⟨edge, he, hi⟩))
  exact ⟨hm _ (by simp), hm _ (by simp)⟩

/-- Nodes and edges tell all the rest: no document is named, and the indexes have recorded each
position once, when it was filled. -/
structure Determined (graph : Graph) : Prop where
  source : graph.source = none
  nodeIndex : graph.nodeIndex = .ofKeys graph.nodeIds
  edgeIndex : graph.edgeIndex = .ofKeys graph.edgeEnds

theorem Determined.empty : empty.Determined := ⟨rfl, rfl, rfl⟩

theorem Determined.addModule (h : graph.Determined) (module : Module) :
    (graph.addModule module).Determined := by
  cases hf : graph.nodeIndex.get? module.id with
  | some position =>
    rw [addModule_known hf]
    exact h
  | none =>
    rw [addModule_new hf]
    refine ⟨h.source, ?_, h.edgeIndex⟩
    have hl : graph.nodes.length = graph.nodeIds.length := (List.length_map _).symm
    rw [nodeIds, List.map_append, List.map_singleton, h.nodeIndex, hl]
    exact (Index.ofKeys_concat graph.nodeIds module.id).symm

theorem Determined.addEdge (h : graph.Determined) (edge : Edge) :
    (graph.addEdge edge).Determined := by
  cases hf : graph.edgeIndex.get? edge.ends with
  | some position =>
    rw [addEdge_known hf]
    refine ⟨h.source, h.nodeIndex, ?_⟩
    rw [edgeEnds, MergedEdge.map_ends_modify]
    exact h.edgeIndex
  | none =>
    rw [addEdge_new hf]
    refine ⟨h.source, h.nodeIndex, ?_⟩
    have hl : graph.edges.length = graph.edgeEnds.length := (List.length_map _).symm
    rw [edgeEnds, List.map_append, List.map_singleton, h.edgeIndex, hl]
    exact (Index.ofKeys_concat graph.edgeEnds edge.ends).symm

theorem build_determined (modules : List Module) (edges : List Edge) :
    (build modules edges).Determined := by
  have nodes : (modules.foldl Graph.addModule Graph.empty).Determined :=
    List.foldlRecOn modules _ Determined.empty fun _ h module _ => h.addModule module
  exact List.foldlRecOn edges _ nodes fun _ h edge _ => h.addEdge edge

theorem Determined.ext {other : Graph} (h : graph.Determined) (ho : other.Determined)
    (hn : graph.nodes = other.nodes) (he : graph.edges = other.edges) : graph = other := by
  have source : graph.source = other.source := h.source.trans ho.source.symm
  have nodeIndex : graph.nodeIndex = other.nodeIndex := by
    rw [h.nodeIndex, ho.nodeIndex, nodeIds, nodeIds, hn]
  have edgeIndex : graph.edgeIndex = other.edgeIndex := by
    rw [h.edgeIndex, ho.edgeIndex, edgeEnds, edgeEnds, he]
  cases graph
  cases other
  rw [Graph.mk.injEq]
  exact ⟨source, hn, he, nodeIndex, edgeIndex⟩

/-- Nodes are the first modules of their identifiers and edges the distinct pairs of raw edges, in
order. Each index finds every entry at its own position and nothing else, so looking up gives the
one entry that is asked for, and nothing for what never occurred. -/
theorem build_nodes_edges_lookups (modules : List Module) (edges : List Edge) :
    let graph := build modules edges
    graph.nodes = (distinctBy Module.id modules).map Node.ofModule ∧
    graph.edges = (distinct (edges.map Edge.ends)).map (MergedEdge.ofPair edges) ∧
    (∀ id i, graph.nodeIndex.get? id = some i ↔
      ∃ hi : i < graph.nodes.length, graph.nodes[i].id = id) ∧
    (∀ a b i, graph.edgeIndex.get? (a, b) = some i ↔
      ∃ hi : i < graph.edges.length, graph.edges[i].ends = (a, b)) ∧
    (∀ id node, graph.node? id = some node ↔ node ∈ graph.nodes ∧ node.id = id) ∧
    (∀ a b edge, graph.edge? a b = some edge ↔ edge ∈ graph.edges ∧ edge.ends = (a, b)) ∧
    (∀ id, graph.node? id = none ↔ id ∉ modules.map Module.id) ∧
    (∀ a b, graph.edge? a b = none ↔ (a, b) ∉ edges.map Edge.ends) := by
  intro graph
  have h := build_represents modules edges
  refine ⟨h.nodes, h.edges, fun _ _ => h.nodeIndex.get?_eq_some, fun _ _ _ =>
    h.edgeIndex.get?_eq_some, fun _ _ => h.nodeIndex.find?_eq_some, fun _ _ _ =>
    h.edgeIndex.find?_eq_some, ?_, ?_⟩
  · intro id
    rw [← h.mem_nodeIds]
    exact h.nodeIndex.find?_eq_none
  · intro a b
    rw [← h.mem_edgeEnds]
    exact h.edgeIndex.find?_eq_none

end Graph

end CallFlow
