import CallFlow.Discovery
import CallFlow.Proofs.PathOrder
import CallFlow.Proofs.WalkedTrees

namespace CallFlow.Discovery

open Walk (IsWalk)

/-- The documents below a directory in the order of their paths: files with the extension of
documents that are not below a directory in which there never are any. -/
structure IsListing (shown : WalkEntry → Prop) (dir : String) (paths : List String) : Prop where
  mem : ∀ path, path ∈ paths ↔ ∃ entry, shown entry ∧ entry.isFile = true ∧
    path = pathOf dir entry ∧
    (∃ ending, Path.extension? path = some ending ∧ Text.asciiLower ending = "xml") ∧
    ∀ name ∈ entry.names.dropLast,
      Text.asciiLower name ∉ ["target", "build", "dist", "vendor", "node_modules"]
  sorted : paths.Pairwise Path.Before

section Listing

variable {shown : WalkEntry → Prop} {dir : String} {paths others : List String}
  {entries : List WalkEntry} {entry : WalkEntry}

theorem IsListing.nodup (h : IsListing shown dir paths) : paths.Nodup :=
  h.sorted.imp Path.Before.ne

/-- Membership and order tell the whole list. -/
theorem IsListing.unique (h : IsListing shown dir paths) (ho : IsListing shown dir others) :
    paths = others := by
  have hp : paths.Perm others := by
    refine (List.perm_ext_iff_of_nodup h.nodup ho.nodup).mpr fun path => ?_
    rw [h.mem, ho.mem]
  exact hp.eq_of_pairwise (fun _ _ _ _ hb hb' => absurd hb' hb.asymm) h.sorted ho.sorted

theorem isDocument_iff :
    isDocument dir entry = true ↔ entry.isFile = true ∧
      ∃ ending, Path.extension? (pathOf dir entry) = some ending ∧
        Text.asciiLower ending = "xml" := by
  have hs : ∀ ending, Text.sameWord ending documentExtension = true ↔
      Text.asciiLower ending = "xml" := by
    intro ending
    have hl : Text.asciiLower documentExtension = "xml" := by decide +kernel
    rw [Text.sameWord_iff, hl]
  rw [isDocument, Bool.and_eq_true, Option.any_eq_true]
  simp only [hs]

theorem not_isPassedOver_iff {name : String} :
    Walk.isPassedOver name = false ↔
      Text.asciiLower name ∉ ["target", "build", "dist", "vendor", "node_modules"] := by
  rw [Walk.isPassedOver, ← Bool.not_eq_true, List.contains_iff_mem]
  rfl

theorem isListing_documentsOf (h : IsWalk shown entries) :
    IsListing shown dir (documentsOf dir entries) where
  mem := by
    intro path
    simp only [documentsOf, List.mem_map, List.mem_mergeSort, List.mem_filter, isDocument_iff,
      ← not_isPassedOver_iff, ← Walk.forall_enters_iff]
    constructor
    · rintro ⟨entry, ⟨hm, hf, he⟩, rfl⟩
      obtain ⟨hs, way⟩ := (h.files entry hf).mp hm
      exact ⟨entry, hs, hf, rfl, he, way⟩
    · rintro ⟨entry, hs, hf, rfl, he, way⟩
      exact ⟨entry, ⟨(h.files entry hf).mpr ⟨hs, way⟩, hf, he⟩, rfl⟩
  sorted := by
    have perm := List.mergeSort_perm (entries.filter (isDocument dir)) inOrder
    have member : ∀ entry ∈ (entries.filter (isDocument dir)).mergeSort inOrder,
        entry ∈ entries := fun entry hm => (List.mem_filter.mp (perm.mem_iff.mp hm)).1
    have trans : ∀ a b c, inOrder a b = true → inOrder b c = true → inOrder a c = true :=
      fun _ _ _ => Path.lessOrEqual_trans
    have total : ∀ a b, (inOrder a b || inOrder b a) = true :=
      fun a b => Path.lessOrEqual_total a.names b.names
    have order := List.pairwise_mergeSort trans total (entries.filter (isDocument dir))
    have apart : ((entries.filter (isDocument dir)).mergeSort inOrder).Pairwise
        fun a b => a.names ≠ b.names := by
      refine List.pairwise_map.mp ((perm.map WalkEntry.names).nodup_iff.mpr ?_)
      exact h.once.sublist (List.filter_sublist.map _)
    refine List.pairwise_map.mpr ((order.and apart).imp_of_mem ?_)
    rintro a b ha hb ⟨ho, hn⟩
    exact Path.before_of_lessOrEqual dir (h.proper a (member a ha)) (h.proper b (member b hb)) ho hn

end Listing

/-- Of listed paths that are the same the first is kept, and what is kept stays in order. -/
structure KeepsFirst (listed kept : List String) : Prop where
  mem : ∀ path, path ∈ kept ↔ ∃ before after, listed = before ++ path :: after ∧
    Path.parts path ∉ before.map Path.parts
  ordered : kept.Pairwise fun p q => listed.idxOf p < listed.idxOf q

theorem keepsFirst_distinctBy (listed : List String) :
    KeepsFirst listed (distinctBy Path.parts listed) :=
  ⟨fun _ => mem_distinctBy_iff, pairwise_idxOf_distinctBy Path.parts listed⟩

section Walks

variable {walk other : String → Except Walk.Fault (List WalkEntry)} {dir : String}
  {files dirs paths : List String} {found : List (List String)}
  {shown : String → WalkEntry → Prop}

theorem documentsIn_eq_ok :
    documentsIn walk dir = .ok paths ↔
      ∃ entries, walk dir = .ok entries ∧ documentsOf dir entries = paths := by
  unfold documentsIn
  cases walk dir with
  | error fault => exact iff_of_false nofun nofun
  | ok entries =>
    constructor
    · intro h
      exact ⟨entries, rfl, Except.ok.inj h⟩
    · rintro ⟨_, h, rfl⟩
      rw [Except.ok.inj h]
      rfl

theorem documentsIn_eq_error {failure : Failure} :
    documentsIn walk dir = .error failure ↔
      ∃ fault, walk dir = .error fault ∧ unwalkable dir fault = failure := by
  unfold documentsIn
  cases walk dir with
  | ok entries => exact iff_of_false nofun nofun
  | error fault =>
    constructor
    · intro h
      exact ⟨fault, rfl, Except.error.inj h⟩
    · rintro ⟨_, h, rfl⟩
      rw [Except.error.inj h]
      rfl

theorem discover_of_found (h : dirs.mapM (documentsIn walk) = .ok found) :
    discover walk files dirs =
      if files ++ found.flatten = [] then .error nothingFound
      else .ok (distinctBy Path.parts (files ++ found.flatten)) := by
  rw [discover, h]
  simp only [bind, Except.bind]
  cases files ++ found.flatten with
  | nil => rfl
  | cons path rest => rfl

theorem discover_of_error {failure : Failure} (h : dirs.mapM (documentsIn walk) = .error failure) :
    discover walk files dirs = .error failure := by
  rw [discover, h]
  rfl

theorem isListing_documentsIn
    (hw : ∀ dir entries, walk dir = .ok entries → IsWalk (shown dir) entries)
    (h : documentsIn walk dir = .ok paths) : IsListing (shown dir) dir paths := by
  obtain ⟨entries, he, rfl⟩ := documentsIn_eq_ok.mp h
  exact isListing_documentsOf (hw dir entries he)

/-- Walks that make the same promise and cannot go through the same directories find the same. -/
theorem documentsIn_congr
    (hw : ∀ dir entries, walk dir = .ok entries → IsWalk (shown dir) entries)
    (ho : ∀ dir entries, other dir = .ok entries → IsWalk (shown dir) entries)
    (he : ∀ dir fault, other dir = .error fault ↔ walk dir = .error fault) :
    documentsIn other = documentsIn walk := by
  funext dir
  cases hd : documentsIn walk dir with
  | error failure =>
    obtain ⟨fault, hf, rfl⟩ := documentsIn_eq_error.mp hd
    exact documentsIn_eq_error.mpr ⟨fault, (he dir fault).mpr hf, rfl⟩
  | ok paths =>
    cases hd' : documentsIn other dir with
    | error failure =>
      obtain ⟨fault, hf, -⟩ := documentsIn_eq_error.mp hd'
      obtain ⟨entries, hk, -⟩ := documentsIn_eq_ok.mp hd
      rw [(he dir fault).mp hf] at hk
      cases hk
    | ok paths' =>
      rw [(isListing_documentsIn ho hd').unique (isListing_documentsIn hw hd)]

theorem exists_listings
    (hw : ∀ dir entries, walk dir = .ok entries → IsWalk (shown dir) entries)
    (hd : ∀ dir ∈ dirs, ∃ entries, walk dir = .ok entries) :
    ∃ listings, dirs.mapM (documentsIn walk) = .ok listings ∧
      List.Forall₂ (fun dir paths => IsListing (shown dir) dir paths) dirs listings := by
  have found : ∀ dir ∈ dirs, ∃ paths, documentsIn walk dir = .ok paths ∧ True := by
    intro dir hm
    obtain ⟨entries, he⟩ := hd dir hm
    exact ⟨documentsOf dir entries, documentsIn_eq_ok.mpr ⟨entries, he, rfl⟩, trivial⟩
  obtain ⟨listings, hl, -⟩ := exists_mapM_eq_ok found
  exact ⟨listings, hl, (mapM_eq_ok.mp hl).imp fun _ _ h => isListing_documentsIn hw h⟩

/-- A directory through which no walk can go is reported with a failure of its own kind. -/
theorem kind_of_mapM_eq_error {failure : Failure}
    (h : dirs.mapM (documentsIn walk) = .error failure) : failure.kind = .traversalFailed := by
  obtain ⟨-, dir, -, -, -, hd⟩ := mapM_eq_error.mp h
  obtain ⟨fault, -, rfl⟩ := documentsIn_eq_error.mp hd
  rfl

theorem invalidArgument_iff
    (hw : ∀ dir entries, walk dir = .ok entries → IsWalk (shown dir) entries) :
    (∃ failure, discover walk files dirs = .error failure ∧ failure.kind = .invalidArgument) ↔
      files = [] ∧ ∀ dir ∈ dirs, (∃ entries, walk dir = .ok entries) ∧
        IsListing (shown dir) dir [] := by
  cases hm : dirs.mapM (documentsIn walk) with
  | error failure =>
    refine iff_of_false ?_ ?_
    · rintro ⟨failure', hf, hk⟩
      rw [discover_of_error hm] at hf
      rw [← Except.error.inj hf, kind_of_mapM_eq_error hm] at hk
      cases hk
    · rintro ⟨-, hd⟩
      obtain ⟨listings, hl, -⟩ := exists_listings hw fun dir hm => (hd dir hm).1
      rw [hl] at hm
      cases hm
  | ok found =>
    have hf := mapM_eq_ok.mp hm
    rw [discover_of_found hm]
    constructor
    · rintro ⟨failure, h, -⟩
      split at h
      · rename_i none_left
        obtain ⟨rfl, none_found⟩ := List.append_eq_nil_iff.mp none_left
        refine ⟨rfl, fun dir hd => ?_⟩
        obtain ⟨i, hi, rfl⟩ := List.getElem_of_mem hd
        have hi' : i < found.length := hf.length_eq ▸ hi
        have hp := hf.get hi hi'
        have empty := List.flatten_eq_nil_iff.mp none_found _ (List.get_mem found ⟨i, hi'⟩)
        rw [empty] at hp
        obtain ⟨entries, he, -⟩ := documentsIn_eq_ok.mp hp
        exact ⟨⟨entries, he⟩, isListing_documentsIn hw hp⟩
      · cases h
    · rintro ⟨rfl, hd⟩
      have none_found : found.flatten = [] := by
        refine List.flatten_eq_nil_iff.mpr fun paths hp => ?_
        obtain ⟨i, hi, rfl⟩ := List.getElem_of_mem hp
        have listed := isListing_documentsIn hw (hf.get (hf.length_eq ▸ hi) hi)
        exact listed.unique (hd _ (List.getElem_mem _)).2
      rw [none_found]
      exact ⟨nothingFound, rfl, rfl⟩

/-- The documents of a run are the named files and then those of the directories, one directory
after another, each path where it comes first. The order in which the walks come upon the entries
has no part in it. -/
theorem discover_exact
    (hw : ∀ dir entries, walk dir = .ok entries → IsWalk (shown dir) entries)
    (files dirs : List String) :
    ((∀ dir ∈ dirs, ∃ entries, walk dir = .ok entries) →
      ∃ listings, List.Forall₂ (fun dir paths => IsListing (shown dir) dir paths) dirs listings ∧
        (files ++ listings.flatten = [] → discover walk files dirs = .error nothingFound) ∧
        (files ++ listings.flatten ≠ [] → ∃ sources, discover walk files dirs = .ok sources ∧
          KeepsFirst (files ++ listings.flatten) sources ∧ (sources.map Path.parts).Nodup)) ∧
    (∀ before dir after fault, dirs = before ++ dir :: after →
      (∀ earlier ∈ before, ∃ entries, walk earlier = .ok entries) → walk dir = .error fault →
      discover walk files dirs = .error (unwalkable dir fault)) ∧
    ((∃ failure, discover walk files dirs = .error failure ∧ failure.kind = .invalidArgument) ↔
      files = [] ∧ ∀ dir ∈ dirs, (∃ entries, walk dir = .ok entries) ∧
        IsListing (shown dir) dir []) ∧
    ∀ other : String → Except Walk.Fault (List WalkEntry),
      (∀ dir entries, other dir = .ok entries → IsWalk (shown dir) entries) →
      (∀ dir fault, other dir = .error fault ↔ walk dir = .error fault) →
      discover other files dirs = discover walk files dirs := by
  refine ⟨?walked, ?unwalkable, invalidArgument_iff hw, ?order⟩
  case walked =>
    intro hd
    obtain ⟨listings, hm, hl⟩ := exists_listings hw hd
    refine ⟨listings, hl, fun none_left => ?_, fun some_left => ?_⟩
    · rw [discover_of_found hm, if_pos none_left]
    · rw [discover_of_found hm, if_neg some_left]
      exact ⟨_, rfl, keepsFirst_distinctBy _, nodup_map_distinctBy Path.parts _⟩
  case unwalkable =>
    intro before dir after fault hd known hf
    refine discover_of_error (mapM_eq_error.mpr ⟨before, dir, after, hd, fun earlier hm => ?_, ?_⟩)
    · obtain ⟨entries, he⟩ := known earlier hm
      exact ⟨documentsOf earlier entries, documentsIn_eq_ok.mpr ⟨entries, he, rfl⟩⟩
    · exact documentsIn_eq_error.mpr ⟨fault, hf, rfl⟩
  case order =>
    intro other ho he
    rw [discover, discover, documentsIn_congr hw ho he]

theorem documentsIn_of_ordered {entries : List WalkEntry} (he : walk dir = .ok entries)
    (hp : (entries.filter (isDocument dir)).map (pathOf dir) = paths)
    (ho : (entries.filter (isDocument dir)).Pairwise fun a b => inOrder a b = true) :
    documentsIn walk dir = .ok paths := by
  refine documentsIn_eq_ok.mpr ⟨entries, he, ?_⟩
  rw [documentsOf, List.mergeSort_of_pairwise ho, hp]

/-- A directory inside another one, with documents in them and files that are none. -/
def nested : FileTree :=
  { items := [(["w"], .directory), (["w", "in"], .directory),
      (["w", "in", ".d.xml"], .file (.text "")), (["w", "in", "Target"], .directory),
      (["w", "in", "Target", "c.xml"], .file (.text "")), (["w", "in", "a.xml"], .file (.text "")),
      (["w", "in", "b.XML"], .file (.text "")), (["w", "in", "notes.txt"], .file (.text ""))]
    home := ["w"] }

/-- A walk the other way round finds the same documents in the same order. -/
theorem nested_discovered :
    let walk := Walk.entries nested
    let backwards := fun dir => (walk dir).map List.reverse
    (∀ dir entries, walk dir = .ok entries → IsWalk (Walk.Shows nested dir) entries) ∧
    (∀ dir entries, backwards dir = .ok entries → IsWalk (Walk.Shows nested dir) entries) ∧
    (∃ entries, walk "in" = .ok entries ∧ backwards "in" ≠ walk "in") ∧
    discover backwards ["gone.xml", "in/b.XML"] ["in", "in/Target", "./in"] =
      .ok ["gone.xml", "in/b.XML", "in/a.xml", "in/Target/c.xml", "./in/a.xml", "./in/b.XML"] := by
  intro walk backwards
  have sound : nested.IsSound := by decide +kernel
  have promise : ∀ dir entries, walk dir = .ok entries →
      IsWalk (Walk.Shows nested dir) entries := fun _ _ => Walk.isWalk_entries sound
  have reversed : ∀ dir entries, backwards dir = .ok entries →
      ∃ found, walk dir = .ok found ∧ found.reverse = entries := by
    intro dir entries h
    cases hf : walk dir with
    | error fault => simp [backwards, hf, Except.map] at h
    | ok found =>
      simp only [backwards, hf, Except.map, Except.ok.injEq] at h
      exact ⟨found, rfl, h⟩
  have kept : ∀ dir entries, backwards dir = .ok entries →
      IsWalk (Walk.Shows nested dir) entries := by
    intro dir entries h
    obtain ⟨found, hf, rfl⟩ := reversed dir entries h
    exact (promise dir found hf).of_perm found.reverse_perm.symm
  have faults : ∀ dir fault, backwards dir = .error fault ↔ walk dir = .error fault := by
    intro dir fault
    cases hf : walk dir <;> simp [backwards, hf, Except.map]
  obtain ⟨-, -, -, order⟩ :=
    discover_exact promise ["gone.xml", "in/b.XML"] ["in", "in/Target", "./in"]
  have above : ∀ dir ∈ ["in", "./in"], walk dir =
      .ok [⟨[], false⟩, ⟨["a.xml"], true⟩, ⟨["b.XML"], true⟩, ⟨["notes.txt"], true⟩] := by
    decide +kernel
  have inside : walk "in/Target" = .ok [⟨[], false⟩, ⟨["c.xml"], true⟩] := by decide +kernel
  have found : ["in", "in/Target", "./in"].mapM (documentsIn walk) =
      .ok [["in/a.xml", "in/b.XML"], ["in/Target/c.xml"], ["./in/a.xml", "./in/b.XML"]] :=
    mapM_eq_ok.mpr (.cons (documentsIn_of_ordered (above _ (by decide)) (by decide +kernel)
      (by decide +kernel)) (.cons (documentsIn_of_ordered inside (by decide +kernel)
        (by decide +kernel)) (.cons (documentsIn_of_ordered (above _ (by decide))
          (by decide +kernel) (by decide +kernel)) .nil)))
  refine ⟨promise, kept, ⟨_, above _ (by decide), by decide +kernel⟩, ?_⟩
  rw [order backwards kept faults, discover_of_found found]
  rfl

end Walks

end CallFlow.Discovery
