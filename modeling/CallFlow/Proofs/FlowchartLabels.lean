import CallFlow.Compilation
import CallFlow.Proofs.ElementNames
import CallFlow.Proofs.FlowchartLines
import CallFlow.Proofs.ModuleList

namespace CallFlow

open Extraction (collected collectionField)

theorem exists_collection_of_compile {text : String} {graph : Graph} (h : compile text = .ok graph) :
    ∃ document collection, Xml.Document.parse text = .ok document ∧
      (document.named collectionField).head? = some collection ∧
      graph.Represents (collected (.ofDocument collection))
        (deriveEdges (collected (.ofDocument collection))) := by
  unfold compile at h
  cases ho : Compilation.ofText text with
  | error failure =>
    rw [ho] at h
    cases h
  | ok compilation =>
    rw [ho] at h
    cases h
    obtain ⟨document, hd, ho⟩ := bind_eq_ok.mp ho
    rw [Compilation.ofDocument, Extraction.modules, Xml.Element.first?_ofDocument] at ho
    cases hc : (document.named collectionField).head? with
    | none =>
      rw [hc] at ho
      cases ho
    | some collection =>
      rw [hc] at ho
      cases ho
      exact ⟨document, collection, hd, hc, Graph.build_represents _ _⟩

theorem compile_eq_ok {text : String} {document : Xml.Document} {modules : List Module}
    (hb : text.toList.head? ≠ some Text.byteOrderMark)
    (hd : Xml.Document.ofChars text.toList = .ok document)
    (hm : Extraction.modules (.ofDocument document) = .ok modules) :
    compile text = .ok (Graph.build modules (deriveEdges modules)) := by
  have ht : (Text.dropMarks text).toList = text.toList := by
    rw [Text.dropMarks, String.toList_ofList]
    cases hc : text.toList with
    | nil => rfl
    | cons c cs =>
      rw [hc] at hb
      exact List.dropWhile_cons_of_neg (by simpa using hb)
  unfold compile Compilation.ofText Xml.Document.parse
  dsimp only
  rw [ht, hd]
  change (Compilation.ofDocument document).map Compilation.graph = _
  rw [Compilation.ofDocument, hm]
  rfl

namespace Xml.Document

theorem IsNamed.elements {document element : Document} (hd : document.IsNamed)
    (he : element ∈ document.elements) : element.IsNamed := by
  obtain ⟨node, hn, hm⟩ := List.mem_filterMap.mp he
  cases hd.named node hn with
  | text content => cases hm
  | element name children is_name named =>
    cases hm
    exact ⟨is_name, named⟩

end Xml.Document

theorem isName_tag_of_compile {text : String} {graph : Graph} (h : compile text = .ok graph)
    {node : Node} (hn : node ∈ graph.nodes) : Xml.IsName node.kind.tag := by
  obtain ⟨document, collection, hp, hc, hr⟩ := exists_collection_of_compile h
  rw [hr.nodes] at hn
  obtain ⟨module, hm, rfl⟩ := List.mem_map.mp hn
  obtain ⟨element, he, hk⟩ :=
    Extraction.exists_describes_of_mem_collected (mem_of_mem_distinctBy hm)
  have hd := Xml.Document.isNamed_of_parse hp
  have hl : collection ∈ document.elements :=
    (List.mem_filter.mp (List.mem_of_mem_head? hc)).1
  have hi := ((hd.elements hl).elements he).is_name
  rw [← hk.tag] at hi
  exact hi

namespace Diagram.Mermaid

section Quoted

variable {cs ds : List Char} {labels more : List String}

/-- Characters that bring these labels, if no label is open before them, and leave none open. -/
def HoldsLabels (cs : List Char) (labels : List String) : Prop :=
  ∀ rest, quoted (Text.pieces '"' (cs ++ rest)) =
    labels.map String.toList ++ quoted (Text.pieces '"' rest)

/-- What stands before the first mark is in no label. -/
theorem holdsLabels_nil (h : '"' ∉ cs) : HoldsLabels cs [] := by
  intro rest
  rw [Text.pieces, Text.cut_append h, Text.pieces]
  dsimp only
  cases (Text.cut '"' rest).2 <;> rfl

theorem holdsLabels_singleton {label : String} (h : '"' ∉ label.toList) :
    HoldsLabels ('"' :: (label.toList ++ ['"'])) [label] := by
  intro rest
  rw [List.cons_append, List.append_assoc, Text.pieces_cons_sep, List.singleton_append,
    Text.pieces_append_sep h]
  rfl

theorem HoldsLabels.append (hc : HoldsLabels cs labels) (hd : HoldsLabels ds more) :
    HoldsLabels (cs ++ ds) (labels ++ more) := by
  intro rest
  rw [List.append_assoc, hc, hd, List.map_append, List.append_assoc]

theorem HoldsLabels.lines {α : Type} {line : α → String} {labelsOf : α → List String} {as : List α}
    (h : ∀ a ∈ as, HoldsLabels (line a).toList (labelsOf a)) :
    HoldsLabels ((as.map line).flatMap fun line => (line ++ "\n").toList) (as.flatMap labelsOf) := by
  induction as with
  | nil => exact holdsLabels_nil List.not_mem_nil
  | cons a rest ih =>
    obtain ⟨ha, hr⟩ := List.forall_mem_cons.mp h
    have hl : HoldsLabels (line a ++ "\n").toList (labelsOf a) := by
      rw [String.toList_append, ← List.append_nil (labelsOf a)]
      exact ha.append (holdsLabels_nil (by decide))
    exact hl.append (ih hr)

theorem HoldsLabels.labelTexts_eq {text : String} (h : HoldsLabels text.toList labels) :
    labelTexts text = labels := by
  have hl := h []
  rw [List.append_nil] at hl
  rw [labelTexts, hl, List.map_append, Text.map_ofList_toList]
  exact List.append_nil labels

end Quoted

section Lines

variable {names : Names} {edge : MergedEdge} {id : String}

theorem declaration_holdsLabels (hn : IsNodeName (names.resolve id)) (label : String) :
    HoldsLabels (declaration names id label).toList [escapeNode label] := by
  have hd : (declaration names id label).toList =
      (margin ++ names.resolve id ++ "[").toList ++
        ('"' :: ((escapeNode label).toList ++ ['"'])) ++ "]".toList := by
    simp [declaration]
  have hb : '"' ∉ (margin ++ names.resolve id ++ "[").toList := by
    have hr : '"' ∉ (names.resolve id).toList := hn.not_mem (by decide)
    simp [margin, hr]
  have hl : '"' ∉ (escapeNode label).toList := by simp [escapeNode, Text.mem_replace]
  rw [hd]
  exact ((holdsLabels_nil hb).append (holdsLabels_singleton hl)).append (holdsLabels_nil (by decide))

def edgeLabels (edge : MergedEdge) : List String :=
  if edge.label = "" then [] else [escapeEdge edge.label]

theorem link_holdsLabels (hs : IsNodeName (names.resolve edge.source))
    (ht : IsNodeName (names.resolve edge.target)) :
    HoldsLabels (link names edge).toList (edgeLabels edge) := by
  have hsq : '"' ∉ (names.resolve edge.source).toList := hs.not_mem (by decide)
  have htq : '"' ∉ (names.resolve edge.target).toList := ht.not_mem (by decide)
  have hk : '"' ∉ (if edge.isException then "-.->" else "-->").toList := by
    cases edge.isException <;> decide
  rw [edgeLabels]
  split
  · rename_i he
    refine holdsLabels_nil ?_
    simp [link, he, margin, hsq, htq, hk]
  · rename_i he
    have hd : (link names edge).toList =
        (margin ++ names.resolve edge.source ++ " " ++
          (if edge.isException then "-.->" else "-->") ++ "|").toList ++
          ('"' :: ((escapeEdge edge.label).toList ++ ['"'])) ++
          ("| " ++ names.resolve edge.target).toList := by
      simp [link, he]
    rw [hd]
    refine ((holdsLabels_nil ?_).append (holdsLabels_singleton (mark_not_mem_escapeEdge _))).append
      (holdsLabels_nil ?_)
    · simp [margin, hsq, hk]
    · simp [htq]

end Lines

section Drawing

variable {modules : List Module} {edges : List Edge} {graph : Graph}

theorem draw_holdsLabels (h : graph.Represents modules edges) :
    HoldsLabels (draw graph).toList
      (graph.nodes.map (escapeNode ·.label) ++ graph.danglingIds.map escapeNode ++
        graph.edges.flatMap edgeLabels) := by
  have hd : HoldsLabels
      ((declarations (names graph) graph).flatMap fun line => (line ++ "\n").toList)
      ((graph.shown Node.label).flatMap fun shown => [escapeNode shown.2]) :=
    .lines fun _ hs => declaration_holdsLabels (isNodeName_of_shown (Graph.fst_mem_shownIds hs)) _
  have hl : HoldsLabels ((links (names graph) graph).flatMap fun line => (line ++ "\n").toList)
      (graph.edges.flatMap edgeLabels) := by
    refine .lines fun edge he => ?_
    obtain ⟨hs, ht⟩ := h.ends_shown he
    exact link_holdsLabels (isNodeName_of_shown hs) (isNodeName_of_shown ht)
  have hs : HoldsLabels ((linkStyles graph).flatMap fun line => (line ++ "\n").toList)
      ((exceptionPositions graph.edges).flatMap fun _ => []) :=
    .lines fun position _ =>
      holdsLabels_nil (not_mem_linkStyle (by decide) (by decide) position)
  have hh : HoldsLabels ("flowchart TD" ++ "\n").toList [] := holdsLabels_nil (by decide)
  have ht : (draw graph).toList =
      ("flowchart TD" ++ "\n").toList ++
        (declarations (names graph) graph).flatMap (fun line => (line ++ "\n").toList) ++
        (links (names graph) graph).flatMap (fun line => (line ++ "\n").toList) ++
        (linkStyles graph).flatMap fun line => (line ++ "\n").toList := by
    rw [draw, String.toList_join, List.flatMap_map, drawingLines, List.flatMap_append,
      List.flatMap_append, List.flatMap_cons]
  have hn : (graph.shown Node.label).flatMap (fun shown => [escapeNode shown.2]) =
      graph.nodes.map (escapeNode ·.label) ++ graph.danglingIds.map escapeNode := by
    rw [← List.map_eq_flatMap, Graph.shown, List.map_append, List.map_map, List.map_map]
    rfl
  have he : (exceptionPositions graph.edges).flatMap (fun _ => ([] : List String)) = [] :=
    List.flatMap_eq_nil_iff.mpr fun _ _ => rfl
  have ha := ((hh.append hd).append hl).append hs
  rwa [← ht, hn, he, List.nil_append, List.append_nil] at ha

end Drawing

section Beginnings

variable {c m : Char} {text s label : String}

/-- Writing a text for one character brings no other character to the beginning. -/
theorem head?_replace (hc : c ≠ m) (ht : text ≠ "") (hm : text.toList.head? ≠ some m) :
    (Text.replace c text s).toList.head? = some m ↔ s.toList.head? = some m := by
  rw [Text.replace, Text.mapChars, String.toList_ofList]
  cases s.toList with
  | nil => rfl
  | cons d rest =>
    rw [List.flatMap_cons]
    split
    · rename_i hd
      have hn : d ≠ m := hd ▸ hc
      have he : text.toList ≠ [] := by simpa using ht
      simp [List.head?_append_of_ne_nil _ he, hm, hn]
    · rfl

theorem beginsMarkup_escapeNode : BeginsMarkup (escapeNode label) ↔ BeginsMarkup label := by
  rw [BeginsMarkup, escapeNode, head?_replace (by decide) (by decide) (by decide),
    head?_replace (by decide) (by decide) (by decide), BeginsMarkup]

theorem not_beginsMarkup_edgeLabels {edge : MergedEdge} (hl : label ∈ edgeLabels edge) :
    ¬BeginsMarkup label := by
  unfold edgeLabels at hl
  split at hl
  · cases hl
  · rw [List.mem_singleton.mp hl]
    intro hb
    have hm := List.mem_of_mem_head? hb
    simp [escapeEdge, Text.mem_replace] at hm

theorem not_beginsMarkup_label {node : Node} (hn : Xml.IsName node.kind.tag) :
    ¬BeginsMarkup node.label := by
  obtain ⟨c, cs, ht, hc⟩ := hn
  have hq : c ≠ '"' := by
    rintro rfl
    revert hc
    decide
  have hl : node.label.toList.head? = some c := by
    rw [Node.label, Text.erase, String.toList_ofList, String.toList_append, String.toList_append, ht]
    simp [hq]
  rw [BeginsMarkup, hl]
  rintro ⟨⟩
  revert hc
  decide

end Beginnings

/-- The quoted texts of a drawing are the labels of its steps, its dangling identifiers and the labels
of its edges. A backtick begins one of them exactly when it begins a dangling identifier. -/
theorem labels_plain_iff_dangling_plain {text : String} {graph : Graph}
    (h : compile text = .ok graph) :
    labelTexts (draw graph) =
      graph.nodes.map (escapeNode ·.label) ++ graph.danglingIds.map escapeNode ++
        graph.edges.flatMap edgeLabels ∧
    (∀ node ∈ graph.nodes, ¬BeginsMarkup (escapeNode node.label)) ∧
    (∀ edge ∈ graph.edges, ∀ label ∈ edgeLabels edge, ¬BeginsMarkup label) ∧
    ((∀ label ∈ labelTexts (draw graph), ¬BeginsMarkup label) ↔
      ∀ id ∈ graph.danglingIds, ¬BeginsMarkup id) := by
  obtain ⟨document, collection, -, -, hr⟩ := exists_collection_of_compile h
  have hl := (draw_holdsLabels hr).labelTexts_eq
  have hn : ∀ node ∈ graph.nodes, ¬BeginsMarkup (escapeNode node.label) := by
    intro node hm
    rw [beginsMarkup_escapeNode]
    exact not_beginsMarkup_label (isName_tag_of_compile h hm)
  have he : ∀ edge ∈ graph.edges, ∀ label ∈ edgeLabels edge, ¬BeginsMarkup label :=
    fun edge _ label => not_beginsMarkup_edgeLabels
  refine ⟨hl, hn, he, ?_⟩
  rw [hl]
  constructor
  · intro hp id hi
    rw [← beginsMarkup_escapeNode]
    exact hp _ (List.mem_append_left _ (List.mem_append_right _ (List.mem_map_of_mem hi)))
  · intro hp label hm
    rcases List.mem_append.mp hm with hm | hm
    · rcases List.mem_append.mp hm with hm | hm
      · obtain ⟨node, hd, rfl⟩ := List.mem_map.mp hm
        exact hn node hd
      · obtain ⟨id, hi, rfl⟩ := List.mem_map.mp hm
        rw [beginsMarkup_escapeNode]
        exact hp id hi
    · obtain ⟨edge, hd, hb⟩ := List.mem_flatMap.mp hm
      exact he edge hd label hb

def markedKey : String :=
  "<s><modules><menu><moduleId>M</moduleId><branches><entry><key>`1</key>" ++
    "<targetId>x</targetId></entry></branches></menu></modules></s>"

/-- The same with a backtick before the target of the row as well. -/
def markedTarget : String :=
  "<s><modules><menu><moduleId>M</moduleId><branches><entry><key>`1</key>" ++
    "<targetId>`x</targetId></entry></branches></menu></modules></s>"

def menuDocument (target : String) : Xml.Document :=
  ⟨"s", [.element "modules" [.element "menu" [.element "moduleId" [.text "M"],
    .element "branches" [.element "entry" [.element "key" [.text "`1"],
      .element "targetId" [.text target]]]]]]⟩

def menuModule (target : String) : Module :=
  ⟨"M", .menu, "menu", ⟨none, none, [⟨some "`1", [], [target]⟩], []⟩⟩

theorem backtick_of_key_replaced :
    ∃ graph, compile markedKey = .ok graph ∧
      labelTexts (draw graph) = ["menu<br/>menu", "x", "'1"] ∧
      ∀ label ∈ labelTexts (draw graph), ¬BeginsMarkup label := by
  have hd : Xml.Document.ofChars markedKey.toList = .ok (menuDocument "x") :=
    eq_ok_of_toOption (by decide +kernel)
  have hm : Extraction.modules (.ofDocument (menuDocument "x")) = .ok [menuModule "x"] := rfl
  have hc := compile_eq_ok (by decide +kernel) hd hm
  obtain ⟨hl, -, -, hp⟩ := labels_plain_iff_dangling_plain hc
  refine ⟨_, hc, ?_, hp.mpr (by decide +kernel)⟩
  rw [hl]
  decide +kernel

theorem backtick_of_target_kept :
    ∃ graph, compile markedTarget = .ok graph ∧
      labelTexts (draw graph) = ["menu<br/>menu", "`x", "'1"] ∧
      ∃ label ∈ labelTexts (draw graph), BeginsMarkup label := by
  have hd : Xml.Document.ofChars markedTarget.toList = .ok (menuDocument "`x") :=
    eq_ok_of_toOption (by decide +kernel)
  have hm : Extraction.modules (.ofDocument (menuDocument "`x")) = .ok [menuModule "`x"] := rfl
  have hl : labelTexts (draw (Graph.build [menuModule "`x"] (deriveEdges [menuModule "`x"]))) =
      ["menu<br/>menu", "`x", "'1"] := by
    decide +kernel
  refine ⟨_, compile_eq_ok (by decide +kernel) hd hm, hl, "`x", ?_, by decide⟩
  rw [hl]
  decide

end Diagram.Mermaid

end CallFlow
