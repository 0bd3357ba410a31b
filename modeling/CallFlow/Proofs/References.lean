import CallFlow.Proofs.MergedGraph

namespace CallFlow

namespace BranchEntry

/-- The label that a row gives to its target at a position. A lone target goes by the key, then by
the first name. One of several goes by its own name, then by the first name, then by the key. -/
inductive Takes (entry : BranchEntry) (position : Nat) : String → Prop where
  | lone_key (one : entry.targets.length = 1) (key : entry.key = some label) :
      Takes entry position label
  | lone_name (one : entry.targets.length = 1) (key : entry.key = none)
      (first : entry.names.head? = some label) : Takes entry position label
  | lone_bare (one : entry.targets.length = 1) (key : entry.key = none)
      (first : entry.names.head? = none) : Takes entry position ""
  | own_name (several : 1 < entry.targets.length) (own : entry.names[position]? = some label) :
      Takes entry position label
  | first_name (several : 1 < entry.targets.length) (own : entry.names[position]? = none)
      (first : entry.names.head? = some label) : Takes entry position label
  | shared_key (several : 1 < entry.targets.length) (own : entry.names[position]? = none)
      (first : entry.names.head? = none) (key : entry.key = some label) :
      Takes entry position label
  | bare (several : 1 < entry.targets.length) (own : entry.names[position]? = none)
      (first : entry.names.head? = none) (key : entry.key = none) : Takes entry position ""

variable {entry : BranchEntry} {position : Nat} {label : String}

theorem labelAt_of_takes (h : entry.Takes position label) : entry.labelAt position = label := by
  unfold labelAt
  cases h with
  | lone_key one key => simp [one, key]
  | lone_name one key first => simp [one, key, first]
  | lone_bare one key first => simp [one, key, first]
  | own_name several own => simp [Nat.ne_of_gt several, own]
  | first_name several own first => simp [Nat.ne_of_gt several, own, first]
  | shared_key several own first key => simp [Nat.ne_of_gt several, own, first, key]
  | bare several own first key => simp [Nat.ne_of_gt several, own, first, key]

theorem exists_takes (hp : position < entry.targets.length) :
    ∃ label, entry.Takes position label := by
  by_cases one : entry.targets.length = 1
  · cases hk : entry.key with
    | some key => exact ⟨key, .lone_key one hk⟩
    | none =>
      cases hf : entry.names.head? with
      | some name => exact ⟨name, .lone_name one hk hf⟩
      | none => exact ⟨"", .lone_bare one hk hf⟩
  · have several : 1 < entry.targets.length := by omega
    cases ho : entry.names[position]? with
    | some name => exact ⟨name, .own_name several ho⟩
    | none =>
      cases hf : entry.names.head? with
      | some name => exact ⟨name, .first_name several ho hf⟩
      | none =>
        cases hk : entry.key with
        | some key => exact ⟨key, .shared_key several ho hf hk⟩
        | none => exact ⟨"", .bare several ho hf hk⟩

theorem takes_labelAt (hp : position < entry.targets.length) :
    entry.Takes position (entry.labelAt position) := by
  obtain ⟨label, h⟩ := exists_takes hp
  rw [labelAt_of_takes h]
  exact h

theorem mem_transitions {target : String} :
    (label, target) ∈ entry.transitions ↔
      ∃ i, entry.targets[i]? = some target ∧ entry.Takes i label := by
  simp only [transitions, List.mem_map, Prod.exists, List.mem_zipIdx_iff_getElem?, Prod.mk.injEq]
  constructor
  · rintro ⟨_, i, ht, rfl, rfl⟩
    exact ⟨i, ht, takes_labelAt (List.getElem?_eq_some_iff.mp ht).1⟩
  · rintro ⟨i, ht, hl⟩
    exact ⟨target, i, ht, labelAt_of_takes hl, rfl⟩

end BranchEntry

namespace Module

/-- The raw edges that the references of a module stand for. -/
inductive Refers (module : Module) : Edge → Prop where
  | successor (next : module.payload.singleNext = some target) :
      Refers module (.plain module.id target)
  | handler (next : module.payload.exceptionNext = some target) :
      Refers module (.exception module.id target)
  | branch (branching : module.kind.isBranching = true) (row : entry ∈ module.payload.branches)
      (occurs : entry.targets[i]? = some target) (takes : entry.Takes i label) :
      Refers module (.labeled module.id target label)
  | predecessor (listed : source ∈ module.payload.ascendants) :
      Refers module (.plain source module.id)

variable {module : Module}

theorem mem_branchTable {entry : BranchEntry} :
    entry ∈ module.branchTable ↔
      module.kind.isBranching = true ∧ entry ∈ module.payload.branches := by
  unfold branchTable
  split <;> simp [*]

theorem mem_edges {edge : Edge} : edge ∈ module.edges ↔ module.Refers edge := by
  simp only [edges, List.mem_append, Option.mem_toList, Option.map_eq_some_iff, List.mem_flatMap,
    Edge.ofBranch, List.mem_map, Prod.exists, mem_branchTable]
  constructor
  · rintro (((⟨target, ht, rfl⟩ | ⟨target, ht, rfl⟩) | ⟨entry, ⟨hk, he⟩, label, target, hm, rfl⟩) |
      ⟨source, hs, rfl⟩)
    · exact .successor ht
    · exact .handler ht
    · obtain ⟨i, ht, hl⟩ := BranchEntry.mem_transitions.mp hm
      exact .branch hk he ht hl
    · exact .predecessor hs
  · intro h
    cases h with
    | successor next => exact .inl (.inl (.inl ⟨_, next, rfl⟩))
    | handler next => exact .inl (.inl (.inr ⟨_, next, rfl⟩))
    | branch branching row occurs takes =>
      exact .inl (.inr ⟨_, ⟨branching, row⟩, _, _,
        BranchEntry.mem_transitions.mpr ⟨_, occurs, takes⟩, rfl⟩)
    | predecessor listed => exact .inr ⟨_, listed, rfl⟩

/-- The module refers to the target as its successor, as its exception handler, or in a branch
table that counts. -/
def LeadsTo (module : Module) (target : String) : Prop :=
  module.payload.singleNext = some target ∨ module.payload.exceptionNext = some target ∨
    module.kind.isBranching = true ∧ ∃ entry ∈ module.payload.branches, target ∈ entry.targets

/-- A row of a branch table that counts gives the label to an occurrence of the target. -/
def Labels (module : Module) (target label : String) : Prop :=
  module.kind.isBranching = true ∧ ∃ entry ∈ module.payload.branches,
    ∃ i, entry.targets[i]? = some target ∧ entry.Takes i label

variable {a b label : String}

theorem refers_ends_iff :
    (∃ edge, module.Refers edge ∧ edge.ends = (a, b)) ↔
      module.id = a ∧ module.LeadsTo b ∨ module.id = b ∧ a ∈ module.payload.ascendants := by
  constructor
  · rintro ⟨edge, hr, he⟩
    cases hr <;> obtain ⟨rfl, rfl⟩ := Prod.mk.inj he
    case successor next => exact .inl ⟨rfl, .inl next⟩
    case handler next => exact .inl ⟨rfl, .inr (.inl next)⟩
    case branch branching row occurs takes =>
      exact .inl ⟨rfl, .inr (.inr ⟨branching, _, row, List.mem_of_getElem? occurs⟩)⟩
    case predecessor listed => exact .inr ⟨rfl, listed⟩
  · rintro (⟨rfl, next | next | ⟨branching, entry, row, ht⟩⟩ | ⟨rfl, listed⟩)
    · exact ⟨_, .successor next, rfl⟩
    · exact ⟨_, .handler next, rfl⟩
    · obtain ⟨i, hi⟩ := List.mem_iff_getElem?.mp ht
      obtain ⟨label, hl⟩ := BranchEntry.exists_takes (List.getElem?_eq_some_iff.mp hi).1
      exact ⟨_, .branch branching row hi hl, rfl⟩
    · exact ⟨_, .predecessor listed, rfl⟩

theorem refers_exception_iff :
    (∃ edge, module.Refers edge ∧ edge.ends = (a, b) ∧ edge.style = .exception) ↔
      module.id = a ∧ module.payload.exceptionNext = some b := by
  constructor
  · rintro ⟨edge, hr, he, hs⟩
    cases hr with
    | handler next =>
      obtain ⟨rfl, rfl⟩ := Prod.mk.inj he
      exact ⟨rfl, next⟩
    | successor | branch | predecessor => cases hs
  · rintro ⟨rfl, next⟩
    exact ⟨_, .handler next, rfl, rfl⟩

theorem refers_label_iff :
    (∃ edge, module.Refers edge ∧ edge.ends = (a, b) ∧ edge.label = some label ∧ label ≠ "") ↔
      label = "Exception" ∧ module.id = a ∧ module.payload.exceptionNext = some b ∨
        label ≠ "" ∧ module.id = a ∧ module.Labels b label := by
  constructor
  · rintro ⟨edge, hr, he, hl, hn⟩
    cases hr with
    | handler next =>
      obtain ⟨rfl, rfl⟩ := Prod.mk.inj he
      exact .inl ⟨(Option.some.inj hl).symm, rfl, next⟩
    | branch branching row occurs takes =>
      obtain ⟨rfl, rfl⟩ := Prod.mk.inj he
      simp only [Edge.labeled, Option.ite_none_left_eq_some, Option.some.injEq] at hl
      obtain ⟨-, rfl⟩ := hl
      exact .inr ⟨hn, rfl, branching, _, row, _, occurs, takes⟩
    | successor | predecessor => cases hl
  · rintro (⟨rfl, rfl, next⟩ | ⟨hn, rfl, branching, entry, row, i, occurs, takes⟩)
    · exact ⟨_, .handler next, rfl, rfl, by decide⟩
    · exact ⟨_, .branch branching row occurs takes, rfl, by simp [Edge.labeled, hn], hn⟩

end Module

theorem mem_deriveEdges {modules : List Module} {edge : Edge} :
    edge ∈ deriveEdges modules ↔ ∃ module ∈ modules, module.Refers edge := by
  simp [deriveEdges, Module.mem_edges]

theorem exists_deriveEdges_iff {modules : List Module} {p : Edge → Prop} :
    (∃ edge ∈ deriveEdges modules, p edge) ↔
      ∃ module ∈ modules, ∃ edge, module.Refers edge ∧ p edge := by
  simp only [mem_deriveEdges]
  constructor
  · rintro ⟨edge, ⟨module, hm, hr⟩, hp⟩
    exact ⟨module, hm, edge, hr, hp⟩
  · rintro ⟨module, hm, edge, hr, hp⟩
    exact ⟨edge, ⟨module, hm, hr⟩, hp⟩

/-- The edges of a compiled graph, their styles and their labels are what the references of the
modules say. -/
theorem edges_of_references (modules : List Module) (a b : String) :
    let graph := Graph.build modules (deriveEdges modules)
    ((∃ edge ∈ graph.edges, edge.ends = (a, b)) ↔
      (∃ m ∈ modules, m.id = a ∧ m.LeadsTo b) ∨
        ∃ m ∈ modules, m.id = b ∧ a ∈ m.payload.ascendants) ∧
    ∀ edge ∈ graph.edges, edge.ends = (a, b) →
      (edge.style = .exception ↔ ∃ m ∈ modules, m.id = a ∧ m.payload.exceptionNext = some b) ∧
      ∀ label, label ∈ edge.labels ↔
        (label = "Exception" ∧ ∃ m ∈ modules, m.id = a ∧ m.payload.exceptionNext = some b) ∨
          label ≠ "" ∧ ∃ m ∈ modules, m.id = a ∧ m.Labels b label := by
  intro graph
  have h := Graph.build_represents modules (deriveEdges modules)
  constructor
  · have hm : (∃ edge ∈ graph.edges, edge.ends = (a, b)) ↔
        ∃ edge ∈ deriveEdges modules, edge.ends = (a, b) := by
      rw [← List.mem_map, ← List.mem_map]
      exact h.mem_edgeEnds
    rw [hm, exists_deriveEdges_iff]
    simp only [Module.refers_ends_iff, and_or_left, exists_or]
  · intro edge he hp
    have hq : edge = MergedEdge.ofPair (deriveEdges modules) (a, b) := h.eq_ofPair he hp
    subst hq
    refine ⟨?_, ?_⟩
    · rw [MergedEdge.style_ofPair_eq_exception, exists_deriveEdges_iff]
      simp only [Module.refers_exception_iff]
    · intro label
      rw [MergedEdge.mem_labels_ofPair, exists_deriveEdges_iff]
      simp only [Module.refers_label_iff]
      constructor
      · rintro ⟨m, hm, ⟨hl, hx⟩ | ⟨hn, hx⟩⟩
        · exact .inl ⟨hl, m, hm, hx⟩
        · exact .inr ⟨hn, m, hm, hx⟩
      · rintro (⟨hl, m, hm, hx⟩ | ⟨hn, m, hm, hx⟩)
        · exact ⟨m, hm, .inl ⟨hl, hx⟩⟩
        · exact ⟨m, hm, .inr ⟨hn, hx⟩⟩

/-- A menu that repeats, whose last step is a branch target, the exception handler and the lister of
its predecessor in one. -/
def menuAndBye : List Module :=
  [⟨"menu", .menu, "Main", some "menu", some "bye",
      [⟨some "1", ["Sales"], ["bye"]⟩, ⟨none, ["a"], ["bye", "menu"]⟩], []⟩,
    ⟨"bye", .hangup, "Bye", none, none, [], ["menu"]⟩]

theorem menu_bye_edge :
    let edge : MergedEdge := ⟨"menu", "bye", ["Exception", "1", "a"], .exception⟩
    edge ∈ (Graph.build menuAndBye (deriveEdges menuAndBye)).edges ∧
      (∃ m ∈ menuAndBye, m.id = "menu" ∧ m.payload.exceptionNext = some "bye") ∧
      (("1" : String) = "Exception" ∧
          (∃ m ∈ menuAndBye, m.id = "menu" ∧ m.payload.exceptionNext = some "bye") ∨
        "1" ≠ "" ∧ ∃ m ∈ menuAndBye, m.id = "menu" ∧ m.Labels "bye" "1") := by
  intro edge
  have hm : edge ∈ (Graph.build menuAndBye (deriveEdges menuAndBye)).edges := by decide
  obtain ⟨hs, hl⟩ := (edges_of_references menuAndBye "menu" "bye").2 edge hm rfl
  exact ⟨hm, hs.mp rfl, (hl "1").mp (by decide)⟩

end CallFlow
