import CallFlow.Compilation
import CallFlow.Diagram
import CallFlow.Proofs.MergedGraph

namespace CallFlow

def Module.withAscendants (module : Module) (ids : List String) : Module :=
  { module with payload := { module.payload with ascendants := ids } }

/-- What makes a raw edge redundant between those before it and those after it. -/
structure Edge.Redundant (edge : Edge) (before after : List Edge) : Prop where
  pair : ∃ other ∈ before, other.ends = edge.ends
  label : edge.label = none ∨ edge.label = some "" ∨
    ∃ other ∈ before, other.ends = edge.ends ∧ other.label = edge.label
  style : edge.style = .plain ∨
    ∃ other ∈ before ++ after, other.ends = edge.ends ∧ other.style = edge.style

theorem Edge.redundant_of_mem {edge : Edge} {before : List Edge} (he : edge ∈ before)
    (after : List Edge) : edge.Redundant before after where
  pair := ⟨edge, he, rfl⟩
  label := .inr (.inr ⟨edge, he, rfl, rfl⟩)
  style := .inr ⟨edge, List.mem_append_left after he, rfl, rfl⟩

namespace MergedEdge

variable {before after : List Edge} {edge : Edge}

theorem labelsOf_insert (h : edge.label = none ∨ edge.label = some "" ∨
      ∃ other ∈ before, other.label = edge.label) :
    labelsOf (before ++ edge :: after) = labelsOf (before ++ after) := by
  unfold labelsOf
  rw [List.filterMap_append, List.filterMap_append, List.filter_append, List.filter_append]
  rcases h with hl | hl | ⟨other, ho, hl⟩
  · rw [List.filterMap_cons_none hl]
  · rw [List.filterMap_cons_some hl]
    rfl
  · cases he : edge.label with
    | none => rw [List.filterMap_cons_none he]
    | some label =>
      rw [List.filterMap_cons_some he]
      by_cases hn : label = ""
      · rw [List.filter_cons_of_neg (by simpa using hn)]
      · rw [List.filter_cons_of_pos (by simpa using hn)]
        have known : label ∈ before.filterMap Edge.label :=
          List.mem_filterMap.mpr ⟨other, ho, hl.trans he⟩
        exact distinct_append_cons_of_mem (List.mem_filter.mpr ⟨known, by simpa using hn⟩) _

theorem styleOf_insert
    (h : edge.style = .plain ∨ ∃ other ∈ before ++ after, other.style = edge.style) :
    styleOf (before ++ edge :: after) = styleOf (before ++ after) := by
  -- A style counts wherever it comes, so the raw edge that brings it may be a later one.
  have same : (before ++ edge :: after).any (·.style = .exception) =
      (before ++ after).any (·.style = .exception) := by
    rw [Bool.eq_iff_iff]
    simp only [List.any_eq_true, List.mem_append, List.mem_cons, decide_eq_true_eq]
    constructor
    · rintro ⟨other, ho | rfl | ho, hs⟩
      · exact ⟨other, .inl ho, hs⟩
      · rcases h with hp | ⟨known, hk, he⟩
        · rw [hp] at hs
          cases hs
        · exact ⟨known, List.mem_append.mp hk, he.trans hs⟩
      · exact ⟨other, .inr ho, hs⟩
    · rintro ⟨other, ho | ho, hs⟩
      · exact ⟨other, .inl ho, hs⟩
      · exact ⟨other, .inr (.inr ho), hs⟩
  rw [styleOf, styleOf, same]

/-- A redundant raw edge counts for nothing, neither for its own pair nor for another. -/
theorem ofPair_insert (h : edge.Redundant before after) (pair : String × String) :
    ofPair (before ++ edge :: after) pair = ofPair (before ++ after) pair := by
  by_cases hp : edge.ends = pair
  · subst hp
    have own : (before ++ edge :: after).filter (·.ends = edge.ends) =
        before.filter (·.ends = edge.ends) ++ edge :: after.filter (·.ends = edge.ends) := by
      simp [List.filter_append]
    have hl : edge.label = none ∨ edge.label = some "" ∨
        ∃ other ∈ before.filter (·.ends = edge.ends), other.label = edge.label := by
      refine h.label.imp_right (Or.imp_right ?_)
      rintro ⟨other, ho, he, hl⟩
      exact ⟨other, List.mem_filter.mpr ⟨ho, decide_eq_true he⟩, hl⟩
    have hs : edge.style = .plain ∨
        ∃ other ∈ before.filter (·.ends = edge.ends) ++ after.filter (·.ends = edge.ends),
          other.style = edge.style := by
      refine h.style.imp_right ?_
      rintro ⟨other, ho, he, hs⟩
      rw [← List.filter_append]
      exact ⟨other, List.mem_filter.mpr ⟨ho, decide_eq_true he⟩, hs⟩
    rw [ofPair, own, labelsOf_insert hl, styleOf_insert hs, ← List.filter_append]
    rfl
  · simp [ofPair, List.filter_append, hp]

end MergedEdge

namespace Graph

variable {modules others : List Module} {edges more before after : List Edge} {edge : Edge}

/-- Of a module only what is drawn goes into the graph. -/
theorem build_congr (hn : modules.map Node.ofModule = others.map Node.ofModule) :
    build modules edges = build others edges := by
  have h := build_represents modules edges
  have ho := build_represents others edges
  have drawn : ∀ ms : List Module, (distinctBy Module.id ms).map Node.ofModule =
      distinctBy Node.id (ms.map Node.ofModule) := fun ms =>
    (distinctBy_map Node.id Node.ofModule ms).symm
  refine (build_determined modules edges).ext (build_determined others edges) ?_ ?_
  · rw [h.nodes, ho.nodes, drawn, drawn, hn]
  · rw [h.edges, ho.edges]

theorem build_append_modules {repeated : List Module}
    (hs : repeated.map Module.id ⊆ modules.map Module.id) :
    build (modules ++ repeated) edges = build modules edges := by
  have h := build_represents modules edges
  have ha := build_represents (modules ++ repeated) edges
  refine (build_determined _ edges).ext (build_determined modules edges) ?_ ?_
  · rw [ha.nodes, h.nodes, distinctBy_append_of_subset hs]
  · rw [ha.edges, h.edges]

theorem build_insert (modules : List Module) (h : edge.Redundant before after) :
    build modules (before ++ edge :: after) = build modules (before ++ after) := by
  have hi := build_represents modules (before ++ edge :: after)
  have hb := build_represents modules (before ++ after)
  have known : edge.ends ∈ before.map Edge.ends := List.mem_map.mpr h.pair
  refine (build_determined _ _).ext (build_determined _ _) ?_ ?_
  · rw [hi.nodes, hb.nodes]
  · rw [hi.edges, hb.edges, List.map_append, List.map_cons, distinct_append_cons_of_mem known,
      ← List.map_append]
    exact List.map_congr_left fun pair _ => MergedEdge.ofPair_insert h pair

theorem build_append_edges (modules : List Module) (hs : more ⊆ edges) :
    build modules (edges ++ more) = build modules edges := by
  induction more with
  | nil => rw [List.append_nil]
  | cons edge more ih =>
    obtain ⟨he, hm⟩ := List.cons_subset.mp hs
    rw [build_insert modules (Edge.redundant_of_mem he more), ih hm]

end Graph

namespace Module

/-- Predecessors come after all that the module itself states. -/
theorem edges_withAscendants (module : Module) (ids : List String) :
    (module.withAscendants ids).edges =
      (module.withAscendants []).edges ++ ids.map (Edge.plain · module.id) := by
  have table : (module.withAscendants ids).branchTable = (module.withAscendants []).branchTable :=
    rfl
  rw [edges, edges, table]
  simp [withAscendants]

theorem deriveEdges_withAscendants (earlier later : List Module) (module : Module)
    (known more : List String) :
    deriveEdges (earlier ++ module.withAscendants (known ++ more) :: later) =
      deriveEdges (earlier ++ [module.withAscendants known]) ++
        (more.map (Edge.plain · module.id) ++ deriveEdges later) := by
  simp [deriveEdges, edges_withAscendants module (known ++ more), edges_withAscendants module known]

end Module

theorem graph_backReference {earlier : List Module} {module : Module} {known : List String}
    {id : String} (more : List String) (later : List Module)
    (recorded : (id, module.id) ∈
      (deriveEdges (earlier ++ [module.withAscendants known])).map Edge.ends) :
    (Compilation.ofModules
        (earlier ++ module.withAscendants (known ++ id :: more) :: later)).graph =
      (Compilation.ofModules
        (earlier ++ module.withAscendants (known ++ more) :: later)).graph := by
  have redundant : (Edge.plain id module.id).Redundant
      (deriveEdges (earlier ++ [module.withAscendants known]))
      (more.map (Edge.plain · module.id) ++ deriveEdges later) :=
    ⟨List.mem_map.mp recorded, .inl rfl, .inl rfl⟩
  have drawn : ∀ ids, (earlier ++ module.withAscendants ids :: later).map Node.ofModule =
      (earlier ++ module :: later).map Node.ofModule := by
    intro ids
    rw [List.map_append, List.map_append]
    rfl
  simp only [Compilation.ofModules, Module.deriveEdges_withAscendants, List.map_cons,
    List.cons_append]
  rw [Graph.build_insert _ redundant]
  exact Graph.build_congr ((drawn _).trans (drawn _).symm)

/-- The same graph comes, down to the recorded positions, when a redundant raw edge is inserted,
when a module of a known identifier is appended, when everything is said twice, and when a module
lists a predecessor whose transition was stated before; so the drawings stay the same too. -/
theorem redundant_references_dropped (modules : List Module) (edges : List Edge) :
    (∀ before edge after, edges = before ++ after → edge.Redundant before after →
      Graph.build modules (before ++ edge :: after) = Graph.build modules edges) ∧
    (∀ module : Module, module.id ∈ modules.map Module.id →
      Graph.build (modules ++ [module]) edges = Graph.build modules edges) ∧
    Graph.build (modules ++ modules) (edges ++ edges) = Graph.build modules edges ∧
    ∀ earlier module later known more id, modules = earlier ++ module :: later →
      module.payload.ascendants = known ++ more →
      (id, module.id) ∈ (deriveEdges (earlier ++ [module.withAscendants known])).map Edge.ends →
      let graph := (Compilation.ofModules modules).graph
      let listing := (Compilation.ofModules
        (earlier ++ module.withAscendants (known ++ id :: more) :: later)).graph
      listing = graph ∧ ∀ format annotate,
        listing.draw format annotate = graph.draw format annotate ∧
        ∀ source, (listing.withSource source).draw format annotate =
          (graph.withSource source).draw format annotate := by
  refine ⟨?_, ?_, ?_, ?_⟩
  · rintro before edge after rfl h
    exact Graph.build_insert modules h
  · intro module hm
    refine Graph.build_append_modules ?_
    rw [List.map_singleton]
    exact List.cons_subset.mpr ⟨hm, List.nil_subset _⟩
  · rw [Graph.build_append_modules (List.Subset.refl _),
      Graph.build_append_edges modules (List.Subset.refl _)]
  · rintro earlier module later known more id rfl listed recorded graph listing
    have self : module.withAscendants (known ++ more) = module := by
      rw [← listed]
      rfl
    have same : listing = graph := by
      have dropped := graph_backReference more later recorded
      rwa [self] at dropped
    rw [same]
    exact ⟨rfl, fun _ _ => ⟨rfl, fun _ => rfl⟩⟩

/-- A menu whose first branch and whose exception handler lead to one step. -/
def menuToBye : List Module :=
  [⟨"menu", .menu, "Main", none, some "bye", [⟨some "1", [], ["bye"]⟩], []⟩,
    ⟨"bye", .hangup, "Bye", none, none, [], []⟩]

/-- An exceptional raw edge without a label is redundant before the one that brings the style. -/
theorem menuToBye_redundant :
    let early : Edge := ⟨"menu", "bye", none, .exception⟩
    let branch : Edge := .labeled "menu" "bye" "1"
    let handler : Edge := .exception "menu" "bye"
    let listing : Module := ⟨"bye", .hangup, "Bye", none, none, [], ["menu"]⟩
    early.Redundant [branch] [handler] ∧
    Graph.build menuToBye [branch, early, handler] = Graph.build menuToBye [branch, handler] ∧
    listing.id ∈ menuToBye.map Module.id ∧
    Graph.build (menuToBye ++ [listing]) [branch, handler] =
      Graph.build menuToBye [branch, handler] ∧
    ("menu", "bye") ∈ (deriveEdges menuToBye).map Edge.ends ∧
    (Compilation.ofModules (menuToBye.dropLast ++ [listing])).graph =
      (Compilation.ofModules menuToBye).graph := by
  intro early branch handler listing
  have redundant : early.Redundant [branch] [handler] :=
    ⟨⟨branch, by decide⟩, .inl rfl, .inr ⟨handler, by decide⟩⟩
  have known : listing.id ∈ menuToBye.map Module.id := by decide
  have recorded : ("menu", "bye") ∈ (deriveEdges menuToBye).map Edge.ends := by decide
  obtain ⟨insert, append, -, list⟩ := redundant_references_dropped menuToBye [branch, handler]
  exact ⟨redundant, insert [branch] early [handler] rfl redundant, known, append listing known,
    recorded, (list menuToBye.dropLast _ [] [] [] "menu" rfl rfl recorded).1⟩

end CallFlow
