import CallFlow.Xml.Element

namespace CallFlow.Xml

/-- An element that stands in a document at any depth, the document itself included. -/
inductive Document.Within (inner : Document) : Document → Prop where
  | itself : Within inner inner
  | child {outer child : Document} (stands : child ∈ outer.elements) (below : Within inner child) :
      Within inner outer

namespace Element

/-- An element that is held by the groups of another at any depth, the other itself included. -/
inductive Within (inner : Element) : Element → Prop where
  | itself : Within inner inner
  | member {outer child : Element} {group : String × List Element} (held : group ∈ outer.groups)
      (stands : child ∈ group.2) (below : Within inner child) : Within inner outer

/-- Puts an element behind those of its name, or in a group of its own behind all others. -/
def enter (element : Element) : List (String × List Element) → List (String × List Element)
  | [] => [(element.name, [element])]
  | (tag, members) :: rest =>
    if tag = element.name then (tag, members ++ [element]) :: rest
    else (tag, members) :: enter element rest

/-- Elements that are parted by name, each group and all groups in the order of arrival. -/
structure Parts (groups : List (String × List Element)) (elements : List Element) : Prop where
  tags_once : (groups.map Prod.fst).Nodup
  mem_tags : ∀ tag, tag ∈ groups.map Prod.fst ↔ tag ∈ elements.map name
  tags_by_arrival : (groups.map Prod.fst).Pairwise fun a b =>
    (elements.map name).idxOf a < (elements.map name).idxOf b
  not_empty : ∀ group ∈ groups, group.2 ≠ []
  members : ∀ group ∈ groups, group.2 = elements.filter (·.name = group.1)
  none_lost : (groups.flatMap Prod.snd).Perm elements

section Groups

variable {element : Element} {elements : List Element} {groups : List (String × List Element)}

theorem enter_of_not_mem (new : element.name ∉ groups.map Prod.fst) :
    element.enter groups = groups ++ [(element.name, [element])] := by
  induction groups with
  | nil => rfl
  | cons group rest ih =>
    obtain ⟨tag, members⟩ := group
    rw [List.map_cons, List.mem_cons, not_or] at new
    rw [enter, if_neg (Ne.symm new.1), ih new.2, List.cons_append]

theorem enter_of_mem (once : (groups.map Prod.fst).Nodup)
    (known : element.name ∈ groups.map Prod.fst) :
    element.enter groups = groups.map fun group =>
      if group.1 = element.name then (group.1, group.2 ++ [element]) else group := by
  induction groups with
  | nil => cases known
  | cons group rest ih =>
    obtain ⟨tag, members⟩ := group
    obtain ⟨alone, once⟩ := List.nodup_cons.mp once
    rw [List.map_cons]
    by_cases ht : tag = element.name
    · -- The group of the name is the only one, so the others stay.
      have others : (rest.map fun group =>
          if group.1 = element.name then (group.1, group.2 ++ [element]) else group) = rest := by
        refine (List.map_congr_left fun group hg => if_neg fun he => ?_).trans (List.map_id' rest)
        have hm := List.mem_map_of_mem (f := Prod.fst) hg
        rw [he, ← ht] at hm
        exact alone hm
      rw [enter, if_pos ht, if_pos ht, others]
    · have later : element.name ∈ rest.map Prod.fst :=
        (List.mem_cons.mp known).resolve_left (Ne.symm ht)
      rw [enter, if_neg ht, if_neg ht, ih once later]

theorem map_fst_groupByName (elements : List Element) :
    (groupByName elements).map Prod.fst = distinct (elements.map name) := by
  rw [groupByName, List.map_map]
  exact List.map_id _

theorem enter_groupByName (elements : List Element) (element : Element) :
    element.enter (groupByName elements) = groupByName (elements ++ [element]) := by
  have tags := map_fst_groupByName elements
  have once : ((groupByName elements).map Prod.fst).Nodup := tags ▸ nodup_distinct _
  have after : groupByName (elements ++ [element]) =
      (addNew (distinct (elements.map name)) element.name).map fun tag =>
        (tag, (elements ++ [element]).filter (·.name = tag)) := by
    rw [groupByName, List.map_append, List.map_singleton, distinct_concat]
  rw [after, addNew]
  by_cases known : element.name ∈ distinct (elements.map name)
  · rw [enter_of_mem once (tags ▸ known), if_pos known, groupByName, List.map_map]
    refine List.map_congr_left fun tag _ => ?_
    by_cases ht : tag = element.name
    · simp [ht]
    · simp [ht, Ne.symm ht]
  · have none_before : elements.filter (·.name = element.name) = [] := by
      refine List.filter_eq_nil_iff.mpr fun other ho => ?_
      rw [decide_eq_true_iff]
      exact fun he => known (mem_distinct.mpr (he ▸ List.mem_map_of_mem ho))
    rw [enter_of_not_mem (tags ▸ known), if_neg known, List.map_append, groupByName]
    congr 1
    · refine List.map_congr_left fun tag hm => ?_
      have ht : ¬element.name = tag := fun he => known (he ▸ hm)
      simp [ht]
    · simp [none_before]

theorem foldl_enter (before elements : List Element) :
    elements.foldl (fun groups element => element.enter groups) (groupByName before) =
      groupByName (before ++ elements) := by
  induction elements generalizing before with
  | nil => rw [List.append_nil, List.foldl_nil]
  | cons element rest ih =>
    rw [List.foldl_cons, enter_groupByName, ih, List.append_assoc, List.singleton_append]

theorem groupByName_parts (elements : List Element) : Parts (groupByName elements) elements where
  tags_once := by
    rw [map_fst_groupByName]
    exact nodup_distinct _
  mem_tags := fun tag => by rw [map_fst_groupByName, mem_distinct]
  tags_by_arrival := by
    rw [map_fst_groupByName]
    exact pairwise_idxOf_distinct _
  not_empty := by
    intro group hg
    obtain ⟨tag, ht, rfl⟩ := List.mem_map.mp hg
    obtain ⟨first, hf, rfl⟩ := List.mem_map.mp (mem_distinct.mp ht)
    exact List.ne_nil_of_mem (List.mem_filter.mpr ⟨hf, decide_eq_true rfl⟩)
  members := by
    intro group hg
    obtain ⟨tag, -, rfl⟩ := List.mem_map.mp hg
    rfl
  none_lost := by
    have perm := flatMap_filter_perm_filter name elements (nodup_distinct (elements.map name))
    have all : elements.filter (·.name ∈ distinct (elements.map name)) = elements :=
      List.filter_eq_self.mpr fun element he =>
        decide_eq_true (mem_distinct.mpr (List.mem_map_of_mem he))
    rw [all] at perm
    rwa [groupByName, List.flatMap_map]

end Groups

section Depth

variable {document inner : Document} {element : Element}

theorem mem_flatMap_groups :
    element ∈ (ofDocument document).groups.flatMap Prod.snd ↔
      element ∈ document.elements.map ofDocument := by
  rw [groups_ofDocument]
  exact (groupByName_parts _).none_lost.mem_iff

/-- Grouping loses no element at any depth. -/
theorem within_ofDocument (h : inner.Within document) :
    (ofDocument inner).Within (ofDocument document) := by
  induction h with
  | itself => exact .itself
  | child stands below ih =>
    obtain ⟨group, held, stands⟩ :=
      List.mem_flatMap.mp (mem_flatMap_groups.mpr (List.mem_map_of_mem stands))
    exact .member held stands ih

theorem exists_within (h : element.Within (ofDocument document)) :
    ∃ inner : Document, inner.Within document ∧ element = ofDocument inner := by
  generalize ho : ofDocument document = outer at h
  induction h generalizing document with
  | itself => exact ⟨document, .itself, ho.symm⟩
  | member held stands below ih =>
    subst ho
    obtain ⟨child, hc, rfl⟩ :=
      List.mem_map.mp (mem_flatMap_groups.mp (List.mem_flatMap.mpr ⟨_, held, stands⟩))
    obtain ⟨inner, hi, he⟩ := ih rfl
    exact ⟨inner, .child hc hi, he⟩

end Depth

/-- At every depth the children of an element are parted by name as they arrive, and the children of
any name are found in document order. -/
theorem children_grouped (document : Document) :
    (∀ inner : Document, inner.Within document →
      (ofDocument inner).Within (ofDocument document)) ∧
    ∀ element : Element, element.Within (ofDocument document) →
      ∃ inner : Document, inner.Within document ∧ element = ofDocument inner ∧
        element.groups = (inner.elements.map ofDocument).foldl
          (fun groups child => child.enter groups) [] ∧
        Parts element.groups (inner.elements.map ofDocument) ∧
        ∀ name, element.field name = (inner.elements.filter (·.name = name)).map ofDocument ∧
          (element.field name = [] ↔ name ∉ inner.elements.map Document.name) := by
  refine ⟨fun _ => within_ofDocument, fun element h => ?_⟩
  obtain ⟨inner, hi, rfl⟩ := exists_within h
  have grouped := groups_ofDocument inner
  refine ⟨inner, hi, rfl, ?_, ?_, fun name => ⟨field_ofDocument inner name, ?_⟩⟩
  · rw [grouped]
    exact (foldl_enter [] _).symm
  · rw [grouped]
    exact groupByName_parts _
  · rw [field_ofDocument, List.map_eq_nil_iff, Document.named, List.filter_eq_nil_iff]
    simp

def inTurn : Document :=
  { name := "a"
    children := [.element "x" [.text "1"], .element "y" [], .text " ", .element "x" [.text "2"]] }

def aroundInTurn : Document :=
  { name := "s", children := [.text "\n", .element inTurn.name inTurn.children] }

theorem inTurn_grouped :
    inTurn.Within aroundInTurn ∧ (ofDocument inTurn).Within (ofDocument aroundInTurn) ∧
      (ofDocument inTurn).groups.map Prod.fst = ["x", "y"] ∧
      ((ofDocument inTurn).field "x").map text = ["1", "2"] ∧
      ∃ inner : Document, inner.Within aroundInTurn ∧ ofDocument inTurn = ofDocument inner ∧
        Parts (ofDocument inTurn).groups (inner.elements.map ofDocument) := by
  have stands : inTurn.Within aroundInTurn := .child List.mem_cons_self .itself
  obtain ⟨kept, grouped⟩ := children_grouped aroundInTurn
  obtain ⟨inner, hi, he, -, parts, -⟩ := grouped _ (kept inTurn stands)
  refine ⟨stands, kept inTurn stands, ?_, ?_, inner, hi, he, parts⟩
  · rw [groups_ofDocument, map_fst_groupByName, List.map_map]
    change distinct (inTurn.elements.map Document.name) = ["x", "y"]
    decide
  · rw [field_ofDocument, List.map_map]
    change (inTurn.named "x").map Document.text = ["1", "2"]
    decide

end Element

end CallFlow.Xml
