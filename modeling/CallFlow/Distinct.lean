namespace CallFlow

variable {α β : Type} [DecidableEq β]

/-- Keeps the first of all members with the same key. -/
def distinctBy (key : α → β) (as : List α) : List α :=
  as.foldr (fun a kept => a :: kept.filter (key · ≠ key a)) []

@[simp]
theorem distinctBy_nil (key : α → β) : distinctBy key [] = [] := rfl

theorem distinctBy_cons (key : α → β) (a : α) (rest : List α) :
    distinctBy key (a :: rest) = a :: (distinctBy key rest).filter (key · ≠ key a) := rfl

theorem mem_map_distinctBy {key : α → β} {b : β} {as : List α} :
    b ∈ (distinctBy key as).map key ↔ b ∈ as.map key := by
  induction as with
  | nil => simp
  | cons a rest ih =>
    by_cases h : b = key a
    · simp [distinctBy_cons, h]
    · have other : ∀ c, key c = b → key c ≠ key a := fun c hc ha => h (hc ▸ ha)
      simp only [List.mem_map] at ih
      simp only [distinctBy_cons, List.map_cons, List.mem_cons, h, false_or, List.mem_map,
        List.mem_filter, decide_eq_true_eq]
      constructor
      · rintro ⟨c, ⟨hc, -⟩, rfl⟩
        exact ih.mp ⟨c, hc, rfl⟩
      · intro found
        obtain ⟨c, hc, rfl⟩ := ih.mpr found
        exact ⟨c, ⟨hc, other c rfl⟩, rfl⟩

theorem mem_of_mem_distinctBy {key : α → β} {a : α} {as : List α} (ha : a ∈ distinctBy key as) :
    a ∈ as := by
  induction as with
  | nil => cases ha
  | cons b rest ih =>
    rw [distinctBy_cons] at ha
    rcases List.mem_cons.mp ha with rfl | ha
    · exact List.mem_cons_self
    · exact List.mem_cons_of_mem _ (ih (List.mem_filter.mp ha).1)

/-- The members that are kept are those before which none has their key. -/
theorem mem_distinctBy_iff {key : α → β} {a : α} {as : List α} :
    a ∈ distinctBy key as ↔
      ∃ before after, as = before ++ a :: after ∧ key a ∉ before.map key := by
  induction as with
  | nil => simp
  | cons b rest ih =>
    rw [distinctBy_cons, List.mem_cons, List.mem_filter, decide_eq_true_eq, ih]
    constructor
    · rintro (rfl | ⟨⟨before, after, rfl, new⟩, hn⟩)
      · exact ⟨[], rest, rfl, List.not_mem_nil⟩
      · exact ⟨b :: before, after, rfl, List.not_mem_cons_of_ne_of_not_mem hn new⟩
    · rintro ⟨before, after, split, new⟩
      cases before with
      | nil => exact .inl (List.cons.inj split).1.symm
      | cons c before =>
        obtain ⟨rfl, rfl⟩ := List.cons.inj split
        rw [List.map_cons, List.mem_cons, not_or] at new
        exact .inr ⟨⟨before, after, rfl, new.2⟩, new.1⟩

theorem nodup_map_distinctBy (key : α → β) (as : List α) : ((distinctBy key as).map key).Nodup := by
  induction as with
  | nil => simp
  | cons a rest ih =>
    refine List.nodup_cons.mpr ⟨by simp, ?_⟩
    exact ih.sublist (List.filter_sublist.map key)

theorem distinctBy_map {γ : Type} (key : α → β) (f : γ → α) (cs : List γ) :
    distinctBy key (cs.map f) = (distinctBy (fun c => key (f c)) cs).map f := by
  induction cs with
  | nil => rfl
  | cons c rest ih =>
    rw [List.map_cons, distinctBy_cons, distinctBy_cons, ih, List.filter_map, List.map_cons]
    rfl

/-- One further member at the end is kept exactly when its key is new. -/
theorem distinctBy_concat (key : α → β) (as : List α) (a : α) :
    distinctBy key (as ++ [a]) =
      if key a ∈ as.map key then distinctBy key as else distinctBy key as ++ [a] := by
  induction as with
  | nil => simp [distinctBy_cons]
  | cons b rest ih =>
    rw [List.cons_append, distinctBy_cons, distinctBy_cons, ih, List.map_cons]
    by_cases hm : key a ∈ rest.map key
    · rw [if_pos hm, if_pos (List.mem_cons_of_mem _ hm)]
    · rw [if_neg hm, List.filter_append]
      by_cases hb : key a = key b
      · simp [hb]
      · rw [if_neg (by simp only [List.mem_cons, hb, hm, or_self, not_false_eq_true])]
        simp [hb]

theorem distinctBy_append (key : α → β) (as bs : List α) :
    distinctBy key (as ++ bs) =
      distinctBy key as ++ (distinctBy key bs).filter (key · ∉ as.map key) := by
  induction as with
  | nil =>
    rw [List.nil_append, distinctBy_nil, List.nil_append, List.filter_eq_self.mpr]
    simp
  | cons a rest ih =>
    rw [List.cons_append, distinctBy_cons, distinctBy_cons, ih, List.filter_append,
      List.filter_filter, List.cons_append]
    congr 2
    refine List.filter_congr fun b _ => ?_
    simp [not_or]

/-- What is kept stays at the beginning when more members come. -/
theorem prefix_distinctBy (key : α → β) {as bs : List α} (h : as <+: bs) :
    distinctBy key as <+: distinctBy key bs := by
  obtain ⟨rest, rfl⟩ := h
  rw [distinctBy_append]
  exact List.prefix_append _ _

/-- Members whose keys are there already add nothing at the end. -/
theorem distinctBy_append_of_subset {key : α → β} {as bs : List α}
    (hs : bs.map key ⊆ as.map key) : distinctBy key (as ++ bs) = distinctBy key as := by
  have none_new : (distinctBy key bs).filter (key · ∉ as.map key) = [] := by
    refine List.filter_eq_nil_iff.mpr fun b hb => ?_
    have known := hs (List.mem_map_of_mem (mem_of_mem_distinctBy hb))
    simpa using known
  rw [distinctBy_append, none_new, List.append_nil]

theorem distinctBy_of_nodup {key : α → β} {as : List α} (hn : (as.map key).Nodup) :
    distinctBy key as = as := by
  induction as with
  | nil => rfl
  | cons a rest ih =>
    obtain ⟨ha, hr⟩ := List.nodup_cons.mp hn
    rw [distinctBy_cons, ih hr, List.filter_eq_self.mpr]
    intro b hb
    have hne : key b ≠ key a := fun he => ha (he ▸ List.mem_map_of_mem hb)
    exact decide_eq_true hne

variable [DecidableEq α]

/-- Keeps the first of all equal members. -/
def distinct (as : List α) : List α :=
  distinctBy id as

/-- Appends a member unless it is there. -/
def addNew (as : List α) (a : α) : List α :=
  if a ∈ as then as else as ++ [a]

@[simp]
theorem mem_distinct {a : α} {as : List α} : a ∈ distinct as ↔ a ∈ as := by
  have found : a ∈ (distinctBy id as).map id ↔ a ∈ as.map id := mem_map_distinctBy
  simpa [distinct] using found

theorem nodup_distinct (as : List α) : (distinct as).Nodup := by
  simpa [distinct] using nodup_map_distinctBy id as

theorem distinct_concat (as : List α) (a : α) : distinct (as ++ [a]) = addNew (distinct as) a := by
  simp only [addNew, mem_distinct]
  simpa [distinct] using distinctBy_concat id as a

theorem distinct_cons (a : α) (rest : List α) :
    distinct (a :: rest) = a :: (distinct rest).filter (· ≠ a) := rfl

theorem distinct_append (as bs : List α) :
    distinct (as ++ bs) = distinct as ++ (distinct bs).filter (· ∉ as) := by
  simpa [distinct] using distinctBy_append id as bs

theorem prefix_distinct {as bs : List α} (h : as <+: bs) : distinct as <+: distinct bs :=
  prefix_distinctBy id h

theorem distinct_append_of_subset {as bs : List α} (hs : bs ⊆ as) :
    distinct (as ++ bs) = distinct as :=
  distinctBy_append_of_subset (by simpa using hs)

/-- A member that occurs earlier is dropped wherever it stands. -/
theorem distinct_append_cons_of_mem {as : List α} {a : α} (ha : a ∈ as) (bs : List α) :
    distinct (as ++ a :: bs) = distinct (as ++ bs) := by
  have hs : distinct (as ++ [a]) = distinct as :=
    distinct_append_of_subset (List.cons_subset.mpr ⟨ha, List.nil_subset _⟩)
  rw [List.append_cons, distinct_append (as ++ [a]), hs, distinct_append]
  congr 1
  refine List.filter_congr fun b _ => ?_
  by_cases h : b = a
  · simp [h, ha]
  · simp [h]

theorem distinct_filter (p : α → Bool) (as : List α) :
    distinct (as.filter p) = (distinct as).filter p := by
  induction as with
  | nil => rfl
  | cons a rest ih =>
    rw [distinct_cons, List.filter_cons, List.filter_cons]
    split
    · rw [distinct_cons, ih, List.filter_filter, List.filter_filter]
      simp only [Bool.and_comm]
    · rename_i hp
      rw [ih, List.filter_filter]
      refine List.filter_congr fun b _ => ?_
      by_cases h : b = a
      · simp [h, hp]
      · simp [h]

theorem perm_distinct {as bs : List α} (h : as.Perm bs) : (distinct as).Perm (distinct bs) := by
  refine (List.perm_ext_iff_of_nodup (nodup_distinct as) (nodup_distinct bs)).mpr fun a => ?_
  rw [mem_distinct, mem_distinct]
  exact h.mem_iff

/-- Members are kept in the order of their first appearance. -/
theorem pairwise_idxOf_distinctBy (key : α → β) (as : List α) :
    (distinctBy key as).Pairwise fun a b => as.idxOf a < as.idxOf b := by
  induction as with
  | nil => exact .nil
  | cons a rest ih =>
    have later : ∀ b ∈ (distinctBy key rest).filter (key · ≠ key a),
        (a :: rest).idxOf b = rest.idxOf b + 1 := by
      intro b hb
      have hn : b ≠ a := fun he => of_decide_eq_true (List.mem_filter.mp hb).2 (congrArg key he)
      rw [List.idxOf_cons, beq_false_of_ne hn.symm]
      rfl
    rw [distinctBy_cons]
    refine List.pairwise_cons.mpr ⟨?_, ?_⟩
    · intro b hb
      rw [later b hb, List.idxOf_cons_self]
      exact Nat.succ_pos _
    · refine (List.Pairwise.filter _ ih).imp_of_mem ?_
      intro b c hb hc h
      rw [later b hb, later c hc]
      exact Nat.succ_lt_succ h

theorem pairwise_idxOf_distinct (as : List α) :
    (distinct as).Pairwise fun a b => as.idxOf a < as.idxOf b :=
  pairwise_idxOf_distinctBy id as

omit [DecidableEq α] in
/-- Members parted by keys are the members with one of these keys, group after group. -/
theorem flatMap_filter_perm_filter (key : α → β) (as : List α) {keys : List β} (hn : keys.Nodup) :
    (keys.flatMap fun b => as.filter (key · = b)).Perm (as.filter (key · ∈ keys)) := by
  induction keys with
  | nil => simp
  | cons b rest ih =>
    obtain ⟨hb, hr⟩ := List.nodup_cons.mp hn
    have own : (as.filter (key · ∈ b :: rest)).filter (key · = b) = as.filter (key · = b) := by
      rw [List.filter_filter]
      refine List.filter_congr fun a _ => ?_
      by_cases h : key a = b <;> simp [h]
    have others : (as.filter (key · ∈ b :: rest)).filter (fun a => !decide (key a = b)) =
        as.filter (key · ∈ rest) := by
      rw [List.filter_filter]
      refine List.filter_congr fun a _ => ?_
      by_cases h : key a = b
      · subst h
        simp [hb]
      · simp [h]
    have whole := List.filter_append_perm (fun a => key a = b) (as.filter (key · ∈ b :: rest))
    rw [own, others] at whole
    rw [List.flatMap_cons]
    exact ((ih hr).append_left _).trans whole

end CallFlow
