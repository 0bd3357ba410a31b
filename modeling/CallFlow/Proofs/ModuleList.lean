import CallFlow.Extraction
import Mathlib.Data.List.Forall2

namespace CallFlow.Extraction

open Xml (Document Element)

structure Describes (element : Document) (module : Module) : Prop where
  id : element.firstText? idField = some module.id
  kind : module.kind = .ofTag element.name
  tag : module.kind.tag = element.name
  displayName : module.displayName = (element.firstText? nameField).getD element.name

/-- Where a name first comes up among elements. -/
def firstPlace (elements : List Document) (name : String) : Nat :=
  (elements.map Document.name).idxOf name

/-- Of two elements with their positions, the first is listed earlier. -/
def Before (elements : List Document) (a b : Document × Nat) : Prop :=
  firstPlace elements a.1.name < firstPlace elements b.1.name ∨
    firstPlace elements a.1.name = firstPlace elements b.1.name ∧ a.2 < b.2

def identified (elements : List Document) : List (Document × Nat) :=
  elements.zipIdx.filter fun entry => (entry.1.firstText? idField).isSome

def AreListed (elements : List Document) (modules : List Module) : Prop :=
  ∃ entries : List (Document × Nat), entries.Perm (identified elements) ∧
    entries.Pairwise (Before elements) ∧
    List.Forall₂ (fun entry module => Describes entry.1 module) entries modules

section Instances

variable {element : Document} {module : Module}

theorem module?_ofDocument (kind : ModuleKind) (element : Document) :
    module? kind (.ofDocument element) =
      (element.firstText? idField).map fun id =>
        { id, kind
          displayName := (element.firstText? nameField).getD kind.tag
          payload := payload (.ofDocument element) } := by
  rw [module?, Element.textOf?_ofDocument, Element.textOf?_ofDocument]

theorem describes_of_module?
    (h : module? (.ofTag element.name) (.ofDocument element) = some module) :
    Describes element module := by
  rw [module?_ofDocument] at h
  obtain ⟨id, hid, rfl⟩ := Option.map_eq_some_iff.mp h
  exact ⟨hid, rfl, ModuleKind.tag_ofTag _, by rw [ModuleKind.tag_ofTag]⟩

theorem isSome_module? (kind : ModuleKind) (element : Document) :
    (module? kind (.ofDocument element)).isSome = (element.firstText? idField).isSome := by
  rw [module?_ofDocument, Option.isSome_map]

end Instances

section Groups

variable {elements : List Document}

def identifiedAs (elements : List Document) (tag : String) : List (Document × Nat) :=
  (identified elements).filter (·.1.name = tag)

theorem collected_ofDocument (collection : Document) :
    collected (.ofDocument collection) =
      (distinct (collection.elements.map Document.name)).flatMap fun tag =>
        (collection.elements.filter (·.name = tag)).filterMap fun element =>
          module? (.ofTag tag) (.ofDocument element) := by
  have hn : (collection.elements.map Element.ofDocument).map Element.name =
      collection.elements.map Document.name := by
    rw [List.map_map]
    rfl
  rw [collected, Element.groups_ofDocument, Element.groupByName, hn, List.flatMap_map]
  refine List.flatMap_congr fun tag _ => ?_
  rw [List.filter_map]
  exact List.filterMap_map

/-- Each member with an image is related to it, whatever else is left out. -/
theorem forall₂_filterMap {α β : Type} {R : α → β → Prop} {f : α → Option β} (as : List α)
    (h : ∀ a ∈ as, ∀ b, f a = some b → R a b) :
    List.Forall₂ R (as.filter fun a => (f a).isSome) (as.filterMap f) := by
  induction as with
  | nil => exact .nil
  | cons a rest ih =>
    obtain ⟨ha, hr⟩ := List.forall_mem_cons.mp h
    cases hf : f a with
    | none =>
      rw [List.filterMap_cons_none hf, List.filter_cons_of_neg (by rw [hf]; exact Bool.false_ne_true)]
      exact ih hr
    | some b =>
      rw [List.filterMap_cons_some hf, List.filter_cons_of_pos (by rw [hf]; rfl)]
      exact .cons (ha b hf) (ih hr)

theorem forall₂_flatMap {α β γ : Type} {R : β → γ → Prop} {f : α → List β} {g : α → List γ}
    (as : List α) (h : ∀ a, List.Forall₂ R (f a) (g a)) :
    List.Forall₂ R (as.flatMap f) (as.flatMap g) := by
  induction as with
  | nil => exact .nil
  | cons a rest ih =>
    rw [List.flatMap_cons, List.flatMap_cons]
    exact List.rel_append (h a) ih

theorem forall₂_identifiedAs (elements : List Document) (tag : String) :
    List.Forall₂ (fun entry module => Describes entry.1 module) (identifiedAs elements tag)
      ((elements.filter (·.name = tag)).filterMap fun element =>
        module? (.ofTag tag) (.ofDocument element)) := by
  have hz : elements.filter (·.name = tag) =
      (elements.zipIdx.filter fun entry => entry.1.name = tag).map Prod.fst := by
    have hm := List.filter_map (f := Prod.fst) (p := fun element : Document => element.name = tag)
      (l := elements.zipIdx)
    rw [List.zipIdx_map_fst] at hm
    exact hm
  have hi : identifiedAs elements tag =
      (elements.zipIdx.filter fun entry => entry.1.name = tag).filter fun entry =>
        (module? (.ofTag tag) (.ofDocument entry.1)).isSome := by
    simp only [isSome_module?]
    rw [identifiedAs, identified, List.filter_filter, List.filter_filter]
    exact List.filter_congr fun entry _ => Bool.and_comm _ _
  rw [hi, hz, List.filterMap_map]
  refine forall₂_filterMap _ fun entry he module hm => ?_
  obtain rfl : entry.1.name = tag := of_decide_eq_true (List.mem_filter.mp he).2
  exact describes_of_module? hm

theorem exists_describes_of_mem_collected {collection : Document} {module : Module}
    (hm : module ∈ collected (.ofDocument collection)) :
    ∃ element ∈ collection.elements, Describes element module := by
  rw [collected_ofDocument] at hm
  obtain ⟨tag, -, hm⟩ := List.mem_flatMap.mp hm
  obtain ⟨element, he, hm⟩ := List.mem_filterMap.mp hm
  obtain ⟨hc, ht⟩ := List.mem_filter.mp he
  obtain rfl : element.name = tag := of_decide_eq_true ht
  exact ⟨element, hc, describes_of_module? hm⟩

theorem zipIdx_pairwise (elements : List Document) :
    elements.zipIdx.Pairwise fun a b => a.2 < b.2 := by
  have hp : (elements.zipIdx.map Prod.snd).Pairwise (· < ·) := by
    rw [List.zipIdx_map_snd]
    exact List.pairwise_lt_range'
  exact List.pairwise_map.mp hp

/-- Group after group is the order of listing. -/
theorem pairwise_identified (elements : List Document) :
    ((distinct (elements.map Document.name)).flatMap (identifiedAs elements)).Pairwise
      (Before elements) := by
  refine List.pairwise_flatMap.mpr ⟨?_, ?_⟩
  · intro tag _
    have hs : (identifiedAs elements tag).Sublist elements.zipIdx :=
      List.filter_sublist.trans List.filter_sublist
    refine ((zipIdx_pairwise elements).sublist hs).imp_of_mem ?_
    intro a b ha hb h
    have hta : a.1.name = tag := of_decide_eq_true (List.mem_filter.mp ha).2
    have htb : b.1.name = tag := of_decide_eq_true (List.mem_filter.mp hb).2
    exact .inr ⟨by rw [hta, htb], h⟩
  · refine (pairwise_idxOf_distinct _).imp ?_
    intro tag other h a ha b hb
    have hta : a.1.name = tag := of_decide_eq_true (List.mem_filter.mp ha).2
    have htb : b.1.name = other := of_decide_eq_true (List.mem_filter.mp hb).2
    refine .inl ?_
    rw [hta, htb]
    exact h

theorem perm_identified (elements : List Document) :
    ((distinct (elements.map Document.name)).flatMap (identifiedAs elements)).Perm
      (identified elements) := by
  have hk : ∀ entry ∈ identified elements,
      entry.1.name ∈ distinct (elements.map Document.name) := by
    intro entry he
    have hm := List.fst_mem_of_mem_zipIdx (List.mem_filter.mp he).1
    exact mem_distinct.mpr (List.mem_map_of_mem hm)
  have hp := flatMap_filter_perm_filter (fun entry : Document × Nat => entry.1.name)
    (identified elements) (nodup_distinct (elements.map Document.name))
  rwa [List.filter_eq_self.mpr fun entry he => decide_eq_true (hk entry he)] at hp

theorem areListed_collected (collection : Document) :
    AreListed collection.elements (collected (.ofDocument collection)) := by
  refine ⟨_, perm_identified _, pairwise_identified _, ?_⟩
  rw [collected_ofDocument]
  exact forall₂_flatMap _ (forall₂_identifiedAs _)

end Groups

/-- A document without a collection is refused. Of any other, each child of the first collection that
has an identifier is listed exactly once, by the first place of its name and then by its own. -/
theorem modules_of_elements (document : Document) :
    ((∃ failure, modules (.ofDocument document) = .error failure ∧ failure.kind = .schemaError) ↔
      document.named collectionField = []) ∧
    ∀ collection, (document.named collectionField).head? = some collection →
      ∃ listed, modules (.ofDocument document) = .ok listed ∧
        AreListed collection.elements listed := by
  have hf := Element.first?_ofDocument document collectionField
  cases hc : document.named collectionField with
  | nil =>
    rw [hc] at hf
    have hm : ∃ failure, modules (.ofDocument document) = .error failure ∧
        failure.kind = .schemaError := by
      rw [modules, hf]
      exact ⟨_, rfl, rfl⟩
    refine ⟨⟨fun _ => rfl, fun _ => hm⟩, ?_⟩
    intro collection h
    cases h
  | cons collection rest =>
    rw [hc] at hf
    have hm : modules (.ofDocument document) = .ok (collected (.ofDocument collection)) := by
      rw [modules, hf]
      rfl
    refine ⟨⟨?_, fun h => absurd h (List.cons_ne_nil _ _)⟩, ?_⟩
    · rintro ⟨failure, he, -⟩
      rw [hm] at he
      cases he
    · intro other ho
      obtain rfl := Option.some.inj ho
      exact ⟨_, hm, areListed_collected collection⟩

/-- A collection in which names alternate, with a menu and a step that have no identifier. -/
def alternating : Document :=
  { name := "modules"
    children :=
      [.element "play" [.element idField [.text " P1 "], .element nameField [.text "Welcome"]],
        .text "\n", .element "menu" [.element nameField [.text "Nobody"]],
        .element "queue" [.element idField [.text "Q"], .element idField [.text "R"]],
        .element "play" [.element idField [.text " "]],
        .element "menu" [.element idField [.text "M"]],
        .element "play" [.element idField [.text "P2"]]] }

theorem alternating_listed :
    let document : Document := ⟨"s", [.element "modules" alternating.children]⟩
    (document.named collectionField).head? = some alternating ∧
      (modules (.ofDocument document)).toOption.map (·.map Module.id) =
        some ["P1", "P2", "M", "Q"] ∧
      ∃ listed, modules (.ofDocument document) = .ok listed ∧
        AreListed alternating.elements listed := by
  intro document
  have hc : (document.named collectionField).head? = some alternating := rfl
  refine ⟨hc, ?_, (modules_of_elements document).2 alternating hc⟩
  have hm : modules (.ofDocument document) = .ok (collected (.ofDocument alternating)) := by
    rw [modules, Element.first?_ofDocument, hc]
    rfl
  rw [hm, collected_ofDocument]
  simp only [module?_ofDocument]
  decide +kernel

end CallFlow.Extraction
