import CallFlow.Extraction.Writing
import CallFlow.Proofs.ModuleList

namespace CallFlow.Extraction

open Xml (Document Element)

def leafOf (name text : String) : Document :=
  ⟨name, [.text text]⟩

section Leaves

variable {name tag text : String} {texts : List String} {element : Document}

theorem text_leafOf (ht : IsClean text) : (leafOf name text).text = text := by
  have hj : String.join (Xml.Node.ownTexts [.text text]) = text := by
    simp [Xml.Node.ownTexts]
  rw [Document.text, leafOf, hj, ht.2]

theorem text?_leafOf (ht : IsClean text) : (leafOf name text).text? = some text := by
  rw [Document.text?, text_leafOf ht, if_neg ht.1]

theorem elements_map_leaf (name : String) (texts : List String) :
    Xml.Node.elements (texts.map (leaf name)) = texts.map (leafOf name) := by
  induction texts with
  | nil => rfl
  | cons text rest ih => rw [List.map_cons, leaf, Xml.Node.elements_element, ih, List.map_cons, leafOf]

theorem texts_of_named (ht : ∀ text ∈ texts, IsClean text)
    (hn : element.named name = texts.map (leafOf name)) : element.texts name = texts := by
  have hr : ∀ text ∈ texts, (Document.text? ∘ leafOf name) text = some text := by
    intro text hm
    rw [Function.comp_apply, text?_leafOf (ht text hm)]
  rw [Document.texts, hn, List.filterMap_map, List.filterMap_congr hr, List.filterMap_some]

theorem firstText?_of_named {text? : Option String} (ht : ∀ text ∈ text?, IsClean text)
    (hn : element.named name = text?.toList.map (leafOf name)) : element.firstText? name = text? := by
  rw [Document.firstText?, hn]
  cases text? with
  | none => rfl
  | some text =>
    rw [Option.toList_some, List.map_singleton, List.head?_cons, Option.bind_some,
      text?_leafOf (ht text rfl)]

/-- Of members that all have the same name, that name finds all and any other finds none. -/
theorem filter_named {α : Type} {f : α → Document} (hf : ∀ a, (f a).name = tag) (as : List α)
    (name : String) :
    (as.map f).filter (·.name = name) = if tag = name then as.map f else [] := by
  split
  · rename_i h
    refine List.filter_eq_self.mpr fun element he => ?_
    obtain ⟨a, -, rfl⟩ := List.mem_map.mp he
    exact decide_eq_true ((hf a).trans h)
  · rename_i h
    refine List.filter_eq_nil_iff.mpr fun element he => ?_
    obtain ⟨a, -, rfl⟩ := List.mem_map.mp he
    rw [hf a, decide_eq_false h]
    exact Bool.false_ne_true

end Leaves

section Entries

variable {shape : EntryShape} {entry : BranchEntry} {name : String} {place other : FieldPlace}
  {texts : List String}

inductive IsField (shape : EntryShape) (entry : BranchEntry) :
    String → FieldPlace → List String → Prop where
  | key : IsField shape entry "key" shape.key entry.key.toList
  | names : IsField shape entry "name" shape.names entry.names
  | targets : IsField shape entry "targetId" shape.targets entry.targets

theorem IsField.clean (h : IsField shape entry name place texts) (he : entry.IsWritable) :
    ∀ text ∈ texts, IsClean text := by
  cases h with
  | key => exact fun text ht => he.key text (Option.mem_toList.mp ht)
  | names => exact he.names
  | targets => exact he.targets

theorem elements_fields (shape : EntryShape) (entry : BranchEntry) (place : FieldPlace) :
    Xml.Node.elements (shape.fields entry place) =
      (if shape.key = place then entry.key.toList else []).map (leafOf "key") ++
      (if shape.names = place then entry.names else []).map (leafOf "name") ++
      (if shape.targets = place then entry.targets else []).map (leafOf "targetId") := by
  have hl : ∀ (p : Prop) [Decidable p] (name : String) (texts : List String),
      Xml.Node.elements (if p then texts.map (leaf name) else []) =
        (if p then texts else []).map (leafOf name) := by
    intro p _ name texts
    split
    · exact elements_map_leaf name texts
    · rfl
  rw [EntryShape.fields, Xml.Node.elements_append, Xml.Node.elements_append, hl, hl, hl]

theorem IsField.filter_fields (h : IsField shape entry name place texts) (other : FieldPlace) :
    (Xml.Node.elements (shape.fields entry other)).filter (·.name = name) =
      (if place = other then texts else []).map (leafOf name) := by
  have hf : ∀ (tag name : String) (texts : List String), (texts.map (leafOf tag)).filter
      (·.name = name) = if tag = name then texts.map (leafOf tag) else [] :=
    fun tag name texts => filter_named (f := leafOf tag) (fun _ => rfl) texts name
  rw [elements_fields, List.filter_append, List.filter_append, hf, hf, hf]
  cases h <;> simp

def valueOf (shape : EntryShape) (entry : BranchEntry) : Document :=
  ⟨"value", shape.fields entry .value⟩

def entryOf (shape : EntryShape) (entry : BranchEntry) : Document :=
  ⟨"entry", shape.fields entry .entry ++
    if shape.hasValue then [.element "value" (shape.fields entry .value)] else []⟩

theorem IsField.ne_value (h : IsField shape entry name place texts) : "value" ≠ name := by
  cases h <;> decide

theorem IsField.hasValue (h : IsField shape entry name .value texts) : shape.hasValue = true := by
  generalize hp : FieldPlace.value = place at h
  cases h <;> simp [EntryShape.hasValue, ← hp]

theorem elements_entryOf (shape : EntryShape) (entry : BranchEntry) :
    (entryOf shape entry).elements = Xml.Node.elements (shape.fields entry .entry) ++
      if shape.hasValue then [valueOf shape entry] else [] := by
  rw [Document.elements, entryOf, Xml.Node.elements_append]
  split <;> rfl

theorem IsField.texts_entryOf (h : IsField shape entry name place texts) (he : entry.IsWritable) :
    (entryOf shape entry).texts name = if place = .entry then texts else [] := by
  have hv : (if shape.hasValue then [valueOf shape entry] else []).filter (·.name = name) = [] := by
    split
    · exact List.filter_cons_of_neg (by simp [valueOf, h.ne_value])
    · rfl
  refine texts_of_named ?_ ?_
  · split
    · exact h.clean he
    · exact fun text ht => absurd ht List.not_mem_nil
  · rw [Document.named, elements_entryOf, List.filter_append, h.filter_fields, hv, List.append_nil]

theorem IsField.texts_valueOf (h : IsField shape entry name place texts) (he : entry.IsWritable) :
    (valueOf shape entry).texts name = if place = .value then texts else [] := by
  refine texts_of_named ?_ ?_
  · split
    · exact h.clean he
    · exact fun text ht => absurd ht List.not_mem_nil
  · rw [Document.named, Document.elements, valueOf, h.filter_fields]

theorem named_value (shape : EntryShape) (entry : BranchEntry) :
    (entryOf shape entry).named "value" = if shape.hasValue then [valueOf shape entry] else [] := by
  have hf : (Xml.Node.elements (shape.fields entry .entry)).filter (·.name = "value") = [] := by
    refine List.filter_eq_nil_iff.mpr fun element hm => ?_
    rw [elements_fields] at hm
    simp only [List.mem_append, List.mem_map] at hm
    rcases hm with (⟨_, -, rfl⟩ | ⟨_, -, rfl⟩) | ⟨_, -, rfl⟩ <;> exact of_decide_eq_true rfl
  rw [Document.named, elements_entryOf, List.filter_append, hf, List.nil_append]
  split
  · exact List.filter_cons_of_pos (decide_eq_true rfl)
  · rfl

theorem IsField.texts_value (h : IsField shape entry name place texts) (he : entry.IsWritable) :
    (((Element.ofDocument (entryOf shape entry)).first? "value").map (·.textsOf name)).getD [] =
      if place = .value then texts else [] := by
  rw [Element.first?_ofDocument, named_value]
  cases hv : shape.hasValue with
  | true => simp [Element.textsOf_ofDocument, h.texts_valueOf he]
  | false =>
    have hp : place ≠ .value := by
      rintro rfl
      rw [h.hasValue] at hv
      cases hv
    rw [if_neg hp]
    rfl

theorem IsField.entryTexts (h : IsField shape entry name place texts) (he : entry.IsWritable) :
    entryTexts (.ofDocument (entryOf shape entry)) name = texts := by
  rw [Extraction.entryTexts, Element.textsOf_ofDocument, h.texts_entryOf he, h.texts_value he]
  cases place with
  | entry => cases texts <;> rfl
  | value => rfl

theorem branchEntry_entryOf (he : entry.IsWritable) :
    branchEntry (.ofDocument (entryOf shape entry)) = entry := by
  rw [branchEntry, IsField.key.entryTexts he, IsField.names.entryTexts he,
    IsField.targets.entryTexts he]
  cases entry with
  | mk key names targets => cases key <;> rfl

end Entries

section Listings

variable {tag : String} {elements : List Element}

theorem text_of_no_texts {element : Document} (h : Xml.Node.ownTexts element.children = []) :
    element.text? = none := by
  have ht : element.text = "" := by
    rw [Document.text, h]
    rfl
  rw [Document.text?, if_pos ht]

theorem referenceId?_ofDocument (element : Document) :
    referenceId? (.ofDocument element) = element.text?.or (element.firstText? idField) := by
  rw [referenceId?, Element.text?_ofDocument, Element.textOf?_ofDocument]

def mentionOf (tag : String) (mention : Mention) : Document :=
  ⟨tag, mention.children⟩

theorem referenceId?_mentionOf {mention : Mention} (hc : IsClean mention.id) (tag : String) :
    referenceId? (.ofDocument (mentionOf tag mention)) = some mention.id := by
  rw [referenceId?_ofDocument]
  cases mention with
  | plain id =>
    have ht : (mentionOf tag (.plain id)).text? = some id := text?_leafOf hc
    rw [ht]
    rfl
  | nested id =>
    have ht : (mentionOf tag (.nested id)).text? = none := text_of_no_texts rfl
    have hn : (mentionOf tag (.nested id)).named idField =
        (some id).toList.map (leafOf idField) := rfl
    have hf : (mentionOf tag (.nested id)).firstText? idField = some id :=
      firstText?_of_named (fun text h => Option.some.inj h ▸ hc) hn
    rw [ht, hf]
    rfl

theorem elements_mentions (tag : String) (mentions : List Mention) :
    Xml.Node.elements (mentions.map fun mention => .element tag mention.children) =
      mentions.map (mentionOf tag) := by
  induction mentions with
  | nil => rfl
  | cons mention rest ih => rw [List.map_cons, Xml.Node.elements_element, ih, List.map_cons, mentionOf]

theorem flatMap_groupByName_of_forall {β : Type} (f : List Element → List β) (hf : f [] = [])
    (h : ∀ element ∈ elements, element.name = tag) :
    (Element.groupByName elements).flatMap (fun group => f group.2) = f elements := by
  cases elements with
  | nil => exact hf.symm
  | cons first rest =>
    have hn : ∀ name ∈ (first :: rest).map Element.name, name = tag := by
      intro name hm
      obtain ⟨element, he, rfl⟩ := List.mem_map.mp hm
      exact h element he
    have hd : distinct ((first :: rest).map Element.name) = [tag] := by
      rw [List.map_cons, distinct_cons, h first List.mem_cons_self, List.filter_eq_nil_iff.mpr]
      intro name hm
      have := hn name (List.mem_cons_of_mem _ (mem_distinct.mp hm))
      simp [this]
    have hs : (first :: rest).filter (·.name = tag) = first :: rest :=
      List.filter_eq_self.mpr fun element he => decide_eq_true (h element he)
    rw [Element.groupByName, hd, List.map_singleton, List.flatMap_singleton, hs]

def listingOf (listing : Listing) : Document :=
  ⟨ascendantsField, listing.children⟩

theorem referenceId?_wrapper {other : tag ≠ idField} (mentions : List Mention) :
    referenceId? (.ofDocument (listingOf (.wrapper tag other mentions))) = none := by
  have ht : Xml.Node.ownTexts (mentions.map fun mention => .element tag mention.children) = [] := by
    rw [Xml.Node.ownTexts, List.filterMap_map]
    exact List.filterMap_eq_nil_iff.mpr fun mention _ => rfl
  have hn : (listingOf (.wrapper tag other mentions)).named idField = [] := by
    have hf := filter_named (f := mentionOf tag) (fun _ => rfl) mentions idField
    rw [if_neg other, ← elements_mentions] at hf
    exact hf
  rw [referenceId?_ofDocument, text_of_no_texts ht, Document.firstText?, hn]
  rfl

theorem predecessors_listingOf {listing : Listing} (hc : ∀ id ∈ listing.ids, IsClean id) :
    predecessors (.ofDocument (listingOf listing)) = listing.ids := by
  cases listing with
  | lone mention =>
    have hr : referenceId? (.ofDocument (listingOf (.lone mention))) = some mention.id :=
      referenceId?_mentionOf (hc mention.id (List.mem_singleton_self _)) ascendantsField
    rw [predecessors, hr]
    rfl
  | wrapper tag other mentions =>
    have hg : (Element.ofDocument (listingOf (.wrapper tag other mentions))).groups =
        Element.groupByName ((mentions.map (mentionOf tag)).map Element.ofDocument) := by
      rw [Element.groups_ofDocument, ← elements_mentions]
      rfl
    have hs : ∀ element ∈ (mentions.map (mentionOf tag)).map Element.ofDocument,
        element.name = tag := by
      intro element hm
      rw [List.map_map] at hm
      obtain ⟨mention, -, rfl⟩ := List.mem_map.mp hm
      rfl
    rw [predecessors, referenceId?_wrapper]
    dsimp only
    have hr : ∀ mention ∈ mentions,
        ((referenceId? ∘ Element.ofDocument) ∘ mentionOf tag) mention = some mention.id := by
      intro mention hm
      rw [Function.comp_apply, Function.comp_apply,
        referenceId?_mentionOf (hc mention.id (List.mem_map_of_mem hm)) tag]
    rw [hg, flatMap_groupByName_of_forall (List.filterMap referenceId?) rfl hs, List.filterMap_map,
      List.filterMap_map, List.filterMap_congr hr]
    exact congrFun List.filterMap_eq_map mentions

end Listings

section Modules

variable {module : Module} {shape : ModuleShape} {element : Document} {name : String}

/-- The element has the children of a written module, up to the order of different names. -/
def IsWritten (shape : ModuleShape) (module : Module) (element : Document) : Prop :=
  ∀ name, element.named name =
    (Xml.Node.elements (shape.children module)).filter (·.name = name)

def tableOf (shape : ModuleShape) (module : Module) : List Document :=
  Xml.Node.elements (shape.table.nodes (shape.rows module))

theorem elements_map_node (listings : List Listing) :
    Xml.Node.elements (listings.map Listing.node) = listings.map listingOf := by
  induction listings with
  | nil => rfl
  | cons listing rest ih =>
    rw [List.map_cons, Listing.node, Xml.Node.elements_element, ih, List.map_cons, listingOf]

theorem elements_children (shape : ModuleShape) (module : Module) :
    Xml.Node.elements (shape.children module) =
      [module.id].map (leafOf idField) ++ [module.displayName].map (leafOf nameField) ++
      module.payload.singleNext.toList.map (leafOf singleNextField) ++
      module.payload.exceptionNext.toList.map (leafOf exceptionNextField) ++
      tableOf shape module ++ shape.listings.map listingOf := by
  simp only [ModuleShape.children, Xml.Node.elements_append, elements_map_leaf, elements_map_node]
  rfl

theorem IsWritten.named (h : IsWritten shape module element) (name : String) :
    element.named name =
      (if idField = name then [module.id].map (leafOf idField) else []) ++
      (if nameField = name then [module.displayName].map (leafOf nameField) else []) ++
      (if singleNextField = name then
        module.payload.singleNext.toList.map (leafOf singleNextField) else []) ++
      (if exceptionNextField = name then
        module.payload.exceptionNext.toList.map (leafOf exceptionNextField) else []) ++
      (tableOf shape module).filter (·.name = name) ++
      (if ascendantsField = name then shape.listings.map listingOf else []) := by
  have hn : ∀ tag text : String, (leafOf tag text).name = tag := fun _ _ => rfl
  have hf : ∀ (tag : String) (texts : List String), (texts.map (leafOf tag)).filter
      (·.name = name) = if tag = name then texts.map (leafOf tag) else [] :=
    fun tag texts => filter_named (hn tag) texts name
  rw [h name, elements_children]
  simp only [List.filter_append, hf]
  have hl : ∀ listing, (listingOf listing).name = ascendantsField := fun _ => rfl
  rw [filter_named hl]

theorem filter_tableOf (hd : "data" ≠ name) (hb : "branches" ≠ name) :
    (tableOf shape module).filter (·.name = name) = [] := by
  unfold tableOf TablePlace.nodes
  cases shape.table <;> simp [hd, hb]

theorem IsWritten.named_of_leaf (h : IsWritten shape module element) :
    element.named idField = (some module.id).toList.map (leafOf idField) ∧
    element.named nameField = (some module.displayName).toList.map (leafOf nameField) ∧
    element.named singleNextField =
      module.payload.singleNext.toList.map (leafOf singleNextField) ∧
    element.named exceptionNextField =
      module.payload.exceptionNext.toList.map (leafOf exceptionNextField) ∧
    element.named ascendantsField = shape.listings.map listingOf := by
  refine ⟨?_, ?_, ?_, ?_, ?_⟩ <;>
  · rw [h.named, filter_tableOf (by decide) (by decide)]
    simp [idField, nameField, singleNextField, exceptionNextField, ascendantsField]

theorem IsWritten.named_of_table (h : IsWritten shape module element) :
    element.named "data" = (tableOf shape module).filter (·.name = "data") ∧
    element.named "branches" = (tableOf shape module).filter (·.name = "branches") := by
  refine ⟨?_, ?_⟩ <;>
  · rw [h.named]
    simp [idField, nameField, singleNextField, exceptionNextField, ascendantsField]

def rowsOf (shape : ModuleShape) (module : Module) : List Document :=
  module.payload.branches.zipIdx.map fun (entry, position) => entryOf (shape.entry position) entry

theorem elements_rows (shape : ModuleShape) (module : Module) :
    Xml.Node.elements (shape.rows module) = rowsOf shape module := by
  unfold ModuleShape.rows rowsOf
  induction module.payload.branches.zipIdx with
  | nil => rfl
  | cons row rest ih =>
    rw [List.map_cons, List.map_cons, ← ih]
    rfl

def branchesOf (shape : ModuleShape) (module : Module) : Document :=
  ⟨"branches", shape.rows module⟩

theorem branchTable?_written (h : IsWritten shape module element) :
    branchTable? (.ofDocument element) =
      if shape.table = .omitted then none else some (.ofDocument (branchesOf shape module)) := by
  have hpath : (Element.ofDocument element).path? ["data", "branches"] =
      ((element.named "data").head?.bind fun data => (data.named "branches").head?).map
        Element.ofDocument := by
    simp only [Element.path?, List.foldlM_cons, List.foldlM_nil, Element.first?_ofDocument]
    cases (element.named "data").head? with
    | none => rfl
    | some data =>
      simp [Element.first?_ofDocument]
  rw [branchTable?, hpath, Element.first?_ofDocument, h.named_of_table.1, h.named_of_table.2]
  unfold tableOf TablePlace.nodes
  cases shape.table <;> simp [Document.named, Document.elements, branchesOf]

theorem branches_written (h : IsWritten shape module element) (hf : shape.Fits module)
    (hm : module.IsWritable) : branches (.ofDocument element) = module.payload.branches := by
  rw [branches, branchTable?_written h]
  split
  · rename_i hn
    have ho : shape.table = .omitted := by
      by_contra ho
      rw [if_neg ho] at hn
      cases hn
    exact (hf.rows ho).symm
  · rename_i table hs
    have ho : shape.table ≠ .omitted := by
      intro ho
      rw [if_pos ho] at hs
      cases hs
    rw [if_neg ho] at hs
    obtain rfl := Option.some.inj hs
    have hn : (branchesOf shape module).named "entry" = rowsOf shape module := by
      have he : ∀ row : BranchEntry × Nat,
          (entryOf (shape.entry row.2) row.1).name = "entry" := fun _ => rfl
      have hr := filter_named he module.payload.branches.zipIdx "entry"
      rw [if_pos rfl] at hr
      rw [Document.named, Document.elements, branchesOf, elements_rows]
      exact hr
    have hb : ∀ row ∈ module.payload.branches.zipIdx,
        branchEntry (.ofDocument (entryOf (shape.entry row.2) row.1)) = row.1 :=
      fun row hr => branchEntry_entryOf (hm.branches row.1 (List.fst_mem_of_mem_zipIdx hr))
    rw [Element.field_ofDocument, hn, rowsOf, List.map_map, List.map_map]
    exact (List.map_congr_left hb).trans (List.zipIdx_map_fst 0 _)

theorem ascendants_written (h : IsWritten shape module element) (hf : shape.Fits module)
    (hm : module.IsWritable) : ascendants (.ofDocument element) = module.payload.ascendants := by
  have hl : ∀ listing ∈ shape.listings, ∀ id ∈ listing.ids, IsClean id := by
    intro listing hs id hi
    refine hm.ascendants id ?_
    rw [← hf.predecessors]
    exact List.mem_flatMap.mpr ⟨listing, hs, hi⟩
  rw [ascendants, Element.field_ofDocument, h.named_of_leaf.2.2.2.2, List.map_map, List.flatMap_map,
    ← hf.predecessors]
  exact List.flatMap_congr fun listing hs => predecessors_listingOf (hl listing hs)

theorem module?_written (h : IsWritten shape module element) (hf : shape.Fits module)
    (hm : module.IsWritable) :
    module? (.ofTag module.kind.tag) (.ofDocument element) = some module := by
  obtain ⟨hid, hname, hnext, hexception, -⟩ := h.named_of_leaf
  have hi := firstText?_of_named (fun text ht => Option.some.inj ht ▸ hm.id) hid
  have hd := firstText?_of_named (fun text ht => Option.some.inj ht ▸ hm.displayName) hname
  have hn := firstText?_of_named hm.singleNext hnext
  have he := firstText?_of_named hm.exceptionNext hexception
  rw [module?_ofDocument, hi, hd, payload, Element.textOf?_ofDocument, Element.textOf?_ofDocument, hn,
    he, branches_written h hf hm, ascendants_written h hf hm, ← hm.kind]
  rfl

end Modules

section Lists

variable {module : Module} {node : Xml.Node} {listed : List Module} {nodes : List Xml.Node}
  {elements : List Document}

/-- The element stands under the tag of the module and is read as the module. -/
def ReadsAs (module : Module) (element : Document) : Prop :=
  element.name = module.kind.tag ∧
    module? (.ofTag module.kind.tag) (.ofDocument element) = some module

theorem exists_readsAs (hw : Writes module node) (hm : module.IsWritable) :
    ∃ element, ReadsAs module element ∧
      ∀ rest, Xml.Node.elements (node :: rest) = element :: Xml.Node.elements rest := by
  obtain ⟨shape, children, hf, rfl, hs⟩ := hw
  exact ⟨⟨module.kind.tag, children⟩, ⟨rfl, module?_written hs hf hm⟩, fun rest => rfl⟩

theorem forall₂_readsAs (hw : List.Forall₂ Writes listed nodes)
    (hm : ∀ module ∈ listed, module.IsWritable) :
    List.Forall₂ ReadsAs listed (Xml.Node.elements nodes) := by
  induction hw with
  | nil => exact .nil
  | cons h _ ih =>
    obtain ⟨hc, hr⟩ := List.forall_mem_cons.mp hm
    obtain ⟨element, he, hn⟩ := exists_readsAs h hc
    rw [hn]
    exact .cons he (ih hr)

theorem map_name_of_readsAs (h : List.Forall₂ ReadsAs listed elements) :
    elements.map Document.name = listed.map (·.kind.tag) := by
  induction h with
  | nil => rfl
  | cons hr _ ih => rw [List.map_cons, List.map_cons, ih, hr.1]

theorem filterMap_of_readsAs (h : List.Forall₂ ReadsAs listed elements) (tag : String) :
    (elements.filter (·.name = tag)).filterMap
      (fun element => module? (.ofTag tag) (.ofDocument element)) =
      listed.filter (·.kind.tag = tag) := by
  induction h with
  | nil => rfl
  | @cons module element _ elements hr _ ih =>
    obtain ⟨hn, hm⟩ := hr
    by_cases ht : module.kind.tag = tag
    · subst ht
      have hf := List.filterMap_cons_some (l := elements.filter (·.name = module.kind.tag))
        (f := fun element => module? (.ofTag module.kind.tag) (.ofDocument element)) hm
      rw [List.filter_cons_of_pos (by simpa using hn), List.filter_cons_of_pos (by simp), hf, ih]
    · have hne : ¬element.name = tag := fun h => ht (hn.symm.trans h)
      rw [List.filter_cons_of_neg (by simpa using hne), List.filter_cons_of_neg (by simpa using ht), ih]

end Lists

/-- Modules are read back whatever the shapes in which they are written: all of them and no others, tag
by tag in the order in which the tags first appear. -/
theorem modules_of_written (root : String) {listed : List Module} {nodes : List Xml.Node}
    (hm : ∀ module ∈ listed, module.IsWritable) (hw : List.Forall₂ Writes listed nodes) :
    modules (.ofDocument ⟨root, [.element collectionField nodes]⟩) = .ok (regrouped listed) := by
  have hr := forall₂_readsAs hw hm
  have hc : collected (.ofDocument ⟨collectionField, nodes⟩) = regrouped listed := by
    rw [collected_ofDocument, regrouped, Document.elements, map_name_of_readsAs hr]
    exact List.flatMap_congr fun tag _ => filterMap_of_readsAs hr tag
  have hf : (Element.ofDocument ⟨root, [.element collectionField nodes]⟩).first? collectionField =
      some (.ofDocument ⟨collectionField, nodes⟩) := by
    rw [Element.first?_ofDocument]
    rfl
  rw [modules, hf]
  exact congrArg Except.ok hc

/-- A step between two menus. -/
def threeSteps : List Module :=
  [⟨"M1", .menu, "Main", none, some "X",
      [⟨some "1", ["Sales", "Help"], ["S", "H"]⟩, ⟨none, [], ["M2"]⟩], ["A", "B", "C"]⟩,
    ⟨"P", .unknown "queue", "Hold", some "M2", none, [], ["M1"]⟩,
    ⟨"M2", .menu, "Hours", none, none, [⟨some "0", [], []⟩], []⟩]

/-- Tables in both places and in none, fields in both, and predecessors named in every way. -/
def threeShapes : List ModuleShape :=
  [⟨.data, fun i => if i = 0 then ⟨.value, .entry, .value, false⟩ else ⟨.entry, .value, .entry, true⟩,
      [.lone (.nested "A"), .wrapper "step" (by decide) [.plain "B", .nested "C"]]⟩,
    ⟨.omitted, fun _ => ⟨.entry, .entry, .entry, false⟩, [.lone (.plain "M1")]⟩,
    ⟨.direct, fun _ => ⟨.value, .value, .value, false⟩, []⟩]

theorem threeSteps_readBack :
    let nodes := List.zipWith (fun (shape : ModuleShape) (module : Module) =>
      Xml.Node.element module.kind.tag (shape.children module)) threeShapes threeSteps
    (∀ module ∈ threeSteps, module.IsWritable) ∧ List.Forall₂ Writes threeSteps nodes ∧
      modules (.ofDocument ⟨"s", [.element collectionField nodes]⟩) = .ok (regrouped threeSteps) := by
  intro nodes
  have hm : ∀ module ∈ threeSteps, module.IsWritable := by decide
  have hw : List.Forall₂ Writes threeSteps nodes := by
    refine .cons ⟨_, _, ⟨?_, rfl⟩, rfl, fun _ => rfl⟩ (.cons ⟨_, _, ⟨?_, rfl⟩, rfl, fun _ => rfl⟩
      (.cons ⟨_, _, ⟨?_, rfl⟩, rfl, fun _ => rfl⟩ .nil))
    all_goals decide
  exact ⟨hm, hw, modules_of_written "s" hm hw⟩

end CallFlow.Extraction
