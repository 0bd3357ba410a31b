import CallFlow.Success
import CallFlow.Xml.Prolog

namespace CallFlow.Xml

/-- A name begins with a character that names begin with. -/
def IsName (name : String) : Prop :=
  ∃ c cs, name.toList = c :: cs ∧ isNameStart c = true

inductive Node.IsNamed : Node → Prop
  | text (content : String) : IsNamed (.text content)
  | element (name : String) (children : List Node) (is_name : IsName name)
      (named : ∀ child ∈ children, IsNamed child) : IsNamed (.element name children)

structure Document.IsNamed (document : Document) : Prop where
  is_name : IsName document.name
  named : ∀ child ∈ document.children, child.IsNamed

structure OpenElement.IsNamed (element : OpenElement) : Prop where
  is_name : IsName element.name.name
  named : ∀ child ∈ element.children, child.IsNamed

/-- What was read so far has names: the last tag, the open elements and the finished ones. -/
structure Scan.IsNamed (scan : Scan) : Prop where
  tag : ∀ tag ∈ scan.tag, IsName tag.name.name
  opened : ∀ element ∈ scan.opened, element.IsNamed
  finished : ∀ document ∈ scan.finished, document.IsNamed

namespace Reader

/-- What a reader reads has names, if what was read before has. -/
def Keeps {α : Type} (read : Reader α) : Prop :=
  ∀ scan result next, scan.IsNamed → read scan = .ok (result, next) → next.IsNamed

/-- A reader that never comes to an end. -/
def Fails {α : Type} (read : Reader α) : Prop :=
  ∀ scan, ∃ fault, read scan = .error fault

section Steps

variable {α β σ : Type} {read : Reader α} {more : α → Reader β}

theorem run_bind_eq_ok {scan next : Scan} {b : β} :
    (read >>= more) scan = .ok (b, next) ↔
      ∃ a between, read scan = .ok (a, between) ∧ more a between = .ok (b, next) :=
  bind_eq_ok.trans Prod.exists

theorem keeps_pure (a : α) : Keeps (pure a : Reader α) := by
  intro scan result next hs h
  cases h
  exact hs

theorem keeps_bind (hr : Keeps read) (hm : ∀ a, Keeps (more a)) : Keeps (read >>= more) := by
  intro scan result next hs h
  obtain ⟨a, between, hb, h⟩ := run_bind_eq_ok.mp h
  exact hm a _ _ _ (hr _ _ _ hs hb) h

theorem keeps_get_bind {more : Scan → Reader β} (hm : ∀ scan, scan.IsNamed → Keeps (more scan)) :
    Keeps (get >>= more) := by
  intro scan result next hs h
  exact hm scan hs scan result next hs h

theorem keeps_set {scan : Scan} (hs : scan.IsNamed) : Keeps (set scan : Reader Unit) := by
  intro before result next _ h
  cases h
  exact hs

theorem keeps_modify {change : Scan → Scan} (hc : ∀ scan, scan.IsNamed → (change scan).IsNamed) :
    Keeps (modify change : Reader Unit) := by
  intro scan result next hs h
  cases h
  exact hc scan hs

theorem keeps_discard (hr : Keeps read) : Keeps (discard read) := by
  intro scan result next hs h
  change (read scan >>= fun pair => pure ((), pair.2)) = _ at h
  obtain ⟨pair, hp, h⟩ := bind_eq_ok.mp h
  cases h
  exact hr _ _ _ hs hp

theorem keeps_ite {c : Prop} [Decidable c] {read' : Reader α} (hr : Keeps read)
    (hr' : Keeps read') : Keeps (if c then read else read') := by
  split
  · exact hr
  · exact hr'

theorem keeps_of_fails (hf : Fails read) : Keeps read := by
  intro scan result next _ h
  obtain ⟨fault, he⟩ := hf scan
  rw [he] at h
  cases h

theorem fails_bind (hf : Fails read) : Fails (read >>= more) := by
  intro scan
  obtain ⟨fault, he⟩ := hf scan
  refine ⟨fault, ?_⟩
  change (read scan >>= fun pair => more pair.1 pair.2) = _
  rw [he]
  rfl

theorem fails_failAt (offset : Nat) (cause : Cause) : Fails (failAt offset cause : Reader α) :=
  fun _ => ⟨_, rfl⟩

theorem fails_fail (cause : Cause) : Fails (fail cause : Reader α) :=
  fun _ => ⟨_, rfl⟩

/-- What follows a check is read only if there is nothing to be said against it. -/
theorem keeps_unless {c : Prop} [Decidable c] {stop : Reader Unit} {more : Unit → Reader β}
    (hf : Fails stop) (hm : Keeps (more ())) :
    Keeps (if c then stop >>= more else more ()) :=
  keeps_ite (keeps_of_fails (fails_bind hf)) hm

theorem keeps_when {c : Prop} [Decidable c] {first : Reader Unit} {more : Unit → Reader β}
    (hf : Keeps first) (hm : ∀ done, Keeps (more done)) :
    Keeps (if c then first >>= more else more ()) :=
  keeps_ite (keeps_bind hf hm) (hm ())

theorem keeps_loopAlong {step : σ → Reader (Turn σ)} (hs : ∀ state, Keeps (step state))
    {bound : List Char} {state last : σ} {scan next : Scan} (hn : scan.IsNamed)
    (h : loopAlong step bound state scan = .ok (last, next)) : next.IsNamed := by
  induction bound generalizing state scan with
  | nil =>
    cases h
    exact hn
  | cons c bound ih =>
    rw [loopAlong] at h
    split at h
    · cases h
      exact hn
    · split at h
      · cases h
      · rename_i hd
        cases h
        exact hs _ _ _ _ hn hd
      · rename_i ha
        have hnext := hs _ _ _ _ hn ha
        split at h
        · cases h
          exact hnext
        · exact ih hnext h

theorem keeps_loop {state : σ} {step : σ → Reader (Turn σ)} (hs : ∀ state, Keeps (step state)) :
    Keeps (loop state step) :=
  fun _ _ _ hn h => keeps_loopAlong hs hn h

end Steps

section Parts

variable {α : Type} {scan : Scan}

theorem keeps_offset : Keeps offset :=
  keeps_get_bind fun _ _ => keeps_pure _

theorem keeps_rest : Keeps rest :=
  keeps_get_bind fun _ _ => keeps_pure _

theorem keeps_peek? : Keeps peek? :=
  keeps_bind keeps_rest fun _ => keeps_pure _

theorem keeps_failAt (offset : Nat) (cause : Cause) : Keeps (failAt offset cause : Reader α) :=
  keeps_of_fails (fails_failAt offset cause)

theorem keeps_fail (cause : Cause) : Keeps (fail cause : Reader α) :=
  keeps_of_fails (fails_fail cause)

theorem keeps_peek : Keeps peek := by
  refine keeps_bind keeps_peek? fun c => ?_
  cases c with
  | none => exact keeps_fail _
  | some c => exact keeps_pure c

theorem keeps_setCursor (cursor : Cursor) : Keeps (setCursor cursor) :=
  keeps_modify fun _ hs => ⟨hs.tag, hs.opened, hs.finished⟩

theorem keeps_advance (count : Nat) : Keeps (advance count) :=
  keeps_modify fun _ hs => ⟨hs.tag, hs.opened, hs.finished⟩

theorem keeps_startsWith (text : String) : Keeps (startsWith text) :=
  keeps_bind keeps_rest fun _ => keeps_pure _

theorem keeps_takeWhile (p : Char → Bool) : Keeps (takeWhile p) :=
  keeps_bind keeps_rest fun _ => keeps_bind (keeps_advance _) fun _ => keeps_pure _

theorem keeps_skipSpaces : Keeps skipSpaces :=
  keeps_discard (keeps_takeWhile _)

theorem keeps_takeUntil (stop : List Char → Bool) : Keeps (takeUntil stop) := by
  refine keeps_bind keeps_rest fun chars => ?_
  dsimp only
  split
  · exact keeps_bind (keeps_advance _) fun _ => keeps_pure _
  · exact keeps_bind keeps_offset fun _ => keeps_failAt _ _

theorem keeps_expectText (text : String) : Keeps (expectText text) :=
  keeps_bind (keeps_startsWith text) fun _ => keeps_ite (keeps_advance _) (keeps_fail _)

theorem keeps_expectChar (c : Char) : Keeps (expectChar c) :=
  keeps_bind keeps_peek fun _ => keeps_ite (keeps_advance _) (keeps_fail _)

theorem keeps_expectSpaces : Keeps expectSpaces :=
  keeps_bind keeps_peek fun _ => keeps_ite keeps_skipSpaces (keeps_fail _)

theorem keeps_expectQuote : Keeps expectQuote :=
  keeps_bind keeps_peek fun _ =>
    keeps_ite (keeps_bind (keeps_advance _) fun _ => keeps_pure _) (keeps_fail _)

theorem keeps_skipName : Keeps skipName := by
  refine keeps_bind keeps_rest fun chars => ?_
  cases chars with
  | nil => exact keeps_pure []
  | cons c chars => exact keeps_ite (keeps_takeWhile _) (keeps_fail _)

theorem keeps_name : Keeps name :=
  keeps_bind keeps_offset fun _ => keeps_bind keeps_skipName fun _ =>
    keeps_ite (keeps_failAt _ _) (keeps_pure _)

theorem keeps_within {read : Reader α} (stretch : Cursor) (hr : Keeps read) :
    Keeps (within stretch read) :=
  keeps_get_bind fun _ _ => keeps_bind (keeps_setCursor _) fun _ => keeps_bind hr fun _ =>
    keeps_bind (keeps_setCursor _) fun _ => keeps_pure _

theorem keeps_literal : Keeps literal :=
  keeps_bind keeps_expectQuote fun _ => keeps_bind keeps_offset fun _ =>
    keeps_bind (keeps_takeWhile _) fun _ => keeps_bind (keeps_expectChar _) fun _ => keeps_pure _

theorem isName_of_splitName? {chars : List Char} {name : QualifiedName}
    (h : splitName? chars = some name) : IsName name.name := by
  have hc : ∀ space rest : List Char, splitName?.check space rest = some name →
      IsName name.name := by
    intro space rest h
    unfold splitName?.check at h
    split at h
    · rename_i hs
      cases h
      cases rest with
      | nil => simp at hs
      | cons c cs =>
        refine ⟨c, cs, String.toList_ofList, ?_⟩
        simpa using (Bool.and_eq_true_iff.mp hs).2
    · cases h
  unfold splitName? at h
  split at h
  · exact hc _ _ h
  · exact hc _ _ h
  · cases h

theorem keeps_qualifiedName_bind {more : QualifiedName → Reader α}
    (hm : ∀ name, IsName name.name → Keeps (more name)) : Keeps (qualifiedName >>= more) := by
  intro scan result next hs h
  obtain ⟨name, between, hq, h⟩ := run_bind_eq_ok.mp h
  unfold qualifiedName at hq
  obtain ⟨start, first, ho, hq⟩ := run_bind_eq_ok.mp hq
  obtain ⟨chars, second, ht, hq⟩ := run_bind_eq_ok.mp hq
  have hsecond := keeps_takeWhile _ _ _ _ (keeps_offset _ _ _ hs ho) ht
  cases hf : splitName? chars with
  | none =>
    rw [hf] at hq
    cases hq
  | some found =>
    rw [hf] at hq
    cases hq
    exact hm name (isName_of_splitName? hf) _ _ _ hsecond h

end Parts

section References

variable {α : Type}

theorem keeps_reference : Keeps reference := by
  refine keeps_bind keeps_offset fun start => keeps_bind keeps_rest fun chars => ?_
  split
  · exact keeps_bind (keeps_advance _) fun _ => keeps_pure _
  · exact keeps_failAt _ _

theorem keeps_entityNamed (name : String) (start : Nat) : Keeps (entityNamed name start) := by
  refine keeps_get_bind fun scan _ => ?_
  split
  · exact keeps_pure _
  · exact keeps_failAt _ _

/-- The tag before an entity is put back behind it. -/
theorem keeps_inEntity {read : Reader α} (levels : Nat) (value : Cursor) (hr : Keeps read) :
    Keeps (inEntity levels value read) := by
  refine keeps_get_bind fun outer ho => ?_
  have hread : Keeps (do
      modify fun scan => { scan with tag := none }
      let result ← within value read
      modify fun scan => { scan with tag := outer.tag }
      if levels = maxDepth then modify fun scan => { scan with references := 0 }
      return result) := by
    refine keeps_bind (keeps_modify fun _ hs => ⟨nofun, hs.opened, hs.finished⟩) fun _ => ?_
    refine keeps_bind (keeps_within value hr) fun _ => ?_
    refine keeps_bind (keeps_modify fun _ hs => ⟨ho.tag, hs.opened, hs.finished⟩) fun _ => ?_
    exact keeps_when (keeps_modify fun _ hs => ⟨hs.tag, hs.opened, hs.finished⟩) fun _ => keeps_pure _
  refine keeps_ite (keeps_unless (fails_fail _) ?_) hread
  exact keeps_bind (keeps_modify fun _ hs => ⟨hs.tag, hs.opened, hs.finished⟩) fun _ => hread

end References

section Tags

theorem keeps_value {expand : Cursor → Reader (List Char)} (nested : Bool)
    (he : ∀ stretch, Keeps (expand stretch)) : Keeps (value nested expand) := by
  refine keeps_loop fun before => keeps_bind keeps_peek? fun c => keeps_ite ?_ ?_
  · refine keeps_bind keeps_reference fun found => ?_
    split
    · exact keeps_bind (keeps_entityNamed _ _) fun _ => keeps_bind (he _) fun _ => keeps_pure _
    · exact keeps_ite (keeps_unless (fails_failAt _ _) (keeps_pure _)) (keeps_pure _)
  · exact keeps_bind (keeps_takeWhile _) fun _ => keeps_pure _

theorem keeps_entityValue (levels : Nat) (stretch : Cursor) : Keeps (entityValue levels stretch) := by
  induction levels generalizing stretch with
  | zero => exact keeps_fail _
  | succ levels ih => exact keeps_inEntity _ _ (keeps_value true ih)

theorem keeps_rawAttribute : Keeps rawAttribute := by
  refine keeps_qualifiedName_bind fun name _ => keeps_bind keeps_skipSpaces fun _ => ?_
  refine keeps_bind (keeps_expectChar _) fun _ => keeps_bind keeps_skipSpaces fun _ => ?_
  refine keeps_bind keeps_expectQuote fun _ => keeps_bind keeps_offset fun _ => ?_
  exact keeps_bind (keeps_takeUntil _) fun _ => keeps_bind (keeps_expectChar _) fun _ => keeps_pure _

theorem keeps_declarePrefix (start : Nat) (space uri : String) :
    Keeps (declarePrefix start space uri) := by
  unfold declarePrefix
  refine keeps_unless (fails_failAt _ _) ?_
  refine keeps_ite (keeps_ite (keeps_failAt _ _) (keeps_pure _)) ?_
  refine keeps_unless (fails_failAt _ _) ?_
  refine keeps_get_bind fun _ _ => keeps_unless (fails_failAt _ _) ?_
  exact keeps_modify fun _ hs => ⟨hs.tag, hs.opened, hs.finished⟩

theorem keeps_declareDefault (start : Nat) (uri : String) : Keeps (declareDefault start uri) := by
  unfold declareDefault
  refine keeps_unless (fails_failAt _ _) ?_
  exact keeps_ite (keeps_failAt _ _) (keeps_pure _)

theorem keeps_readAttribute (levels : Nat) : Keeps (readAttribute levels) := by
  refine keeps_bind keeps_offset fun start => keeps_bind keeps_rawAttribute fun raw => ?_
  refine keeps_bind (keeps_within _ (keeps_value _ (keeps_entityValue levels))) fun _ => ?_
  refine keeps_ite (keeps_declarePrefix _ _ _) (keeps_ite (keeps_declareDefault _ _) ?_)
  exact keeps_modify fun _ hs => ⟨hs.tag, hs.opened, hs.finished⟩

theorem keeps_bindings : Keeps bindings :=
  keeps_get_bind fun _ _ => keeps_pure _

theorem keeps_attributeSpace (bindings : List (String × String)) (attr : PlacedName) :
    Keeps (attributeSpace bindings attr) := by
  refine keeps_ite (keeps_pure _) (keeps_ite (keeps_pure _) ?_)
  split
  · exact keeps_pure _
  · exact keeps_failAt _ _

theorem keeps_checkAttributes (bindings : List (String × String))
    (seen : List (Option String × String)) (attributes : List PlacedName) :
    Keeps (checkAttributes bindings seen attributes) := by
  induction attributes generalizing seen with
  | nil => exact keeps_pure ()
  | cons attr rest ih =>
    exact keeps_bind (keeps_attributeSpace _ _) fun _ => keeps_unless (fails_failAt _ _) (ih _)

theorem keeps_close {name : String} {children : List Node} (hn : IsName name)
    (hc : ∀ child ∈ children, child.IsNamed) : Keeps (close name children) := by
  refine keeps_modify fun scan hs => ?_
  split
  · refine ⟨hs.tag, hs.opened, fun document hm => ?_⟩
    rcases List.mem_append.mp hm with hm | hm
    · exact hs.finished document hm
    · rw [List.mem_singleton.mp hm]
      exact ⟨hn, hc⟩
  · rename_i parent others ho
    obtain ⟨hp, hothers⟩ := List.forall_mem_cons.mp (ho ▸ hs.opened)
    refine ⟨hs.tag, List.forall_mem_cons.mpr ⟨⟨hp.is_name, ?_⟩, hothers⟩, hs.finished⟩
    exact List.forall_mem_cons.mpr ⟨.element name children hn hc, hp.named⟩

theorem keeps_settle : Keeps settle :=
  keeps_get_bind fun _ hs => keeps_bind keeps_bindings fun _ =>
    keeps_bind (keeps_set ⟨hs.tag, hs.opened, hs.finished⟩) fun _ =>
      keeps_bind (keeps_checkAttributes _ _ _) fun _ => keeps_pure _

theorem keeps_endStartTag (isEmpty : Bool) : Keeps (endStartTag isEmpty) := by
  refine keeps_get_bind fun scan hs => keeps_bind keeps_settle fun bindings => ?_
  split
  · exact keeps_pure ()
  · rename_i tag ht
    have hn := hs.tag tag ht
    refine keeps_unless (fails_failAt _ _) (keeps_ite ?_ ?_)
    · exact keeps_close hn fun _ hm => absurd hm List.not_mem_nil
    · refine keeps_modify fun scan hs => ⟨hs.tag, ?_, hs.finished⟩
      exact List.forall_mem_cons.mpr ⟨⟨hn, fun _ hm => absurd hm List.not_mem_nil⟩, hs.opened⟩

theorem keeps_startTag (levels : Nat) : Keeps (startTag levels) := by
  refine keeps_bind (keeps_advance 1) fun _ => keeps_bind keeps_offset fun start => ?_
  refine keeps_qualifiedName_bind fun name hn => keeps_unless (fails_failAt _ _) ?_
  have htag : ∀ tag ∈ some (PlacedName.mk name start), IsName tag.name.name := by
    intro tag hm
    cases hm
    exact hn
  refine keeps_bind (keeps_modify fun _ hs => ⟨htag, hs.opened, hs.finished⟩) fun _ => ?_
  refine keeps_loop fun _ => keeps_bind keeps_peek? fun _ => keeps_bind keeps_skipSpaces fun _ => ?_
  refine keeps_bind keeps_peek fun c => keeps_ite ?_ (keeps_ite ?_ (keeps_ite ?_ (keeps_fail _)))
  · exact keeps_bind (keeps_advance 1) fun _ => keeps_bind (keeps_expectChar _) fun _ =>
      keeps_bind (keeps_endStartTag _) fun _ => keeps_pure _
  · exact keeps_bind (keeps_advance 1) fun _ => keeps_bind (keeps_endStartTag _) fun _ =>
      keeps_pure _
  · exact keeps_bind (keeps_readAttribute levels) fun _ => keeps_pure _

theorem keeps_closeTag : Keeps closeTag := by
  refine keeps_bind keeps_offset fun start => keeps_bind (keeps_advance 2) fun _ => ?_
  refine keeps_qualifiedName_bind fun name _ => keeps_bind keeps_skipSpaces fun _ => ?_
  refine keeps_bind (keeps_expectChar _) fun _ => keeps_get_bind fun scan _ => ?_
  refine keeps_unless (fails_failAt _ _) (keeps_bind (keeps_discard keeps_settle) fun _ => ?_)
  refine keeps_get_bind fun scan hs => ?_
  split
  · exact keeps_failAt _ _
  · rename_i element others ho
    obtain ⟨he, hothers⟩ := List.forall_mem_cons.mp (ho ▸ hs.opened)
    refine keeps_unless (fails_failAt _ _) (keeps_bind (keeps_set ⟨hs.tag, hothers, hs.finished⟩) ?_)
    exact fun _ => keeps_close he.is_name fun child hm => he.named child (List.mem_reverse.mp hm)

end Tags

section Contents

theorem keeps_comment : Keeps comment := by
  refine keeps_bind keeps_offset fun start => keeps_bind (keeps_advance 4) fun _ => ?_
  refine keeps_bind (keeps_takeUntil _) fun _ => keeps_bind (keeps_expectText _) fun _ => ?_
  exact keeps_ite (keeps_failAt _ _) (keeps_pure _)

theorem keeps_instruction : Keeps instruction := by
  refine keeps_bind (keeps_startsWith _) fun _ => keeps_unless (fails_fail _) ?_
  refine keeps_bind (keeps_advance 2) fun _ => keeps_bind (keeps_discard keeps_name) fun _ => ?_
  refine keeps_bind keeps_skipSpaces fun _ => ?_
  exact keeps_bind (keeps_discard (keeps_takeUntil _)) fun _ => keeps_expectText _

theorem keeps_miscellany : Keeps miscellany := by
  refine keeps_loop fun _ => keeps_bind keeps_skipSpaces fun _ => ?_
  refine keeps_bind (keeps_startsWith _) fun _ => keeps_ite ?_ ?_
  · exact keeps_bind keeps_comment fun _ => keeps_pure _
  · refine keeps_bind (keeps_startsWith _) fun _ => keeps_ite ?_ (keeps_pure _)
    exact keeps_bind keeps_instruction fun _ => keeps_pure _

theorem keeps_addText (chars : List Char) : Keeps (addText chars) := by
  refine keeps_modify fun scan hs => ?_
  split
  · exact hs
  · rename_i parent others ho
    obtain ⟨hp, hothers⟩ := List.forall_mem_cons.mp (ho ▸ hs.opened)
    refine ⟨hs.tag, List.forall_mem_cons.mpr ⟨⟨hp.is_name, ?_⟩, hothers⟩, hs.finished⟩
    exact List.forall_mem_cons.mpr ⟨.text _, hp.named⟩

theorem keeps_characterData : Keeps characterData :=
  keeps_bind (keeps_advance 9) fun _ => keeps_bind (keeps_takeUntil _) fun _ =>
    keeps_bind (keeps_expectText _) fun _ => keeps_addText _

theorem keeps_text {expand : Cursor → Reader Unit} (nested : Bool)
    (he : ∀ stretch, Keeps (expand stretch)) : Keeps (text nested expand) := by
  refine keeps_bind keeps_offset fun start => keeps_bind (keeps_takeUntil _) fun chars => ?_
  refine keeps_unless (fails_fail _) (keeps_within _ ?_)
  refine keeps_bind (keeps_loop fun run => ?_) fun _ => keeps_addText _
  refine keeps_bind keeps_peek? fun c => keeps_ite ?_ ?_
  · refine keeps_bind keeps_reference fun found => ?_
    split
    · exact keeps_bind (keeps_addText _) fun _ => keeps_bind (keeps_entityNamed _ _) fun _ =>
        keeps_bind (he _) fun _ => keeps_pure _
    · exact keeps_ite (keeps_bind keeps_rest fun _ => keeps_pure _) (keeps_pure _)
  · exact keeps_bind (keeps_takeWhile _) fun _ => keeps_bind keeps_rest fun _ => keeps_pure _

theorem keeps_content {expand : Cursor → Reader Unit} (levels : Nat)
    (he : ∀ stretch, Keeps (expand stretch)) : Keeps (content levels expand) := by
  refine keeps_discard (keeps_loop fun missing => ?_)
  refine keeps_bind (keeps_startsWith _) fun _ => keeps_ite ?_ ?_
  · exact keeps_bind keeps_comment fun _ => keeps_pure _
  refine keeps_bind (keeps_startsWith _) fun _ => keeps_ite ?_ ?_
  · exact keeps_bind keeps_characterData fun _ => keeps_pure _
  refine keeps_bind (keeps_startsWith _) fun _ => keeps_ite (keeps_fail _) ?_
  refine keeps_bind (keeps_startsWith _) fun _ => keeps_ite ?_ ?_
  · exact keeps_bind keeps_instruction fun _ => keeps_pure _
  refine keeps_bind (keeps_startsWith _) fun _ => keeps_ite ?_ ?_
  · exact keeps_bind keeps_closeTag fun _ => keeps_pure _
  refine keeps_bind (keeps_startsWith _) fun _ => keeps_ite ?_ ?_
  · refine keeps_bind keeps_rest fun _ => keeps_unless (fails_fail _) ?_
    exact keeps_bind (keeps_startTag levels) fun _ => keeps_pure _
  · exact keeps_bind (keeps_text _ he) fun _ => keeps_pure _

theorem keeps_entityContent (levels : Nat) (value : Cursor) : Keeps (entityContent levels value) := by
  induction levels generalizing value with
  | zero => exact keeps_fail _
  | succ levels ih => exact keeps_inEntity _ _ (keeps_content _ ih)

theorem keeps_element : Keeps element :=
  keeps_bind (keeps_startTag _) fun _ =>
    keeps_ite (keeps_content _ (keeps_entityContent _)) (keeps_pure _)

end Contents

section Documents

theorem keeps_declarationSpaces : Keeps declarationSpaces := by
  refine keeps_bind keeps_peek? fun c => ?_
  cases c with
  | none => exact keeps_pure ()
  | some c =>
    refine keeps_ite keeps_skipSpaces (keeps_bind (keeps_startsWith _) fun _ => ?_)
    exact keeps_ite (keeps_fail _) (keeps_pure _)

theorem keeps_declaration : Keeps declaration := by
  have hend : Keeps (do
      if ← startsWith "standalone" then discard rawAttribute
      skipSpaces
      expectText "?>") := by
    refine keeps_bind (keeps_startsWith _) fun _ => keeps_when (keeps_discard keeps_rawAttribute) ?_
    exact fun _ => keeps_bind keeps_skipSpaces fun _ => keeps_expectText _
  refine keeps_bind (keeps_advance 5) fun _ => keeps_bind keeps_declarationSpaces fun _ => ?_
  refine keeps_bind (keeps_startsWith _) fun _ => keeps_when (keeps_expectText _) fun _ => ?_
  refine keeps_bind (keeps_discard keeps_rawAttribute) fun _ => ?_
  refine keeps_bind keeps_declarationSpaces fun _ => keeps_bind (keeps_startsWith _) fun _ => ?_
  refine keeps_ite (keeps_bind (keeps_discard keeps_rawAttribute) fun _ => ?_) hend
  exact keeps_bind keeps_declarationSpaces fun _ => hend

theorem keeps_externalId? : Keeps externalId? := by
  refine keeps_bind (keeps_startsWith _) fun isPublic => keeps_bind (keeps_startsWith _) fun _ => ?_
  refine keeps_ite (keeps_bind (keeps_advance 6) fun _ => ?_) (keeps_pure _)
  refine keeps_bind keeps_expectSpaces fun _ => keeps_bind (keeps_discard keeps_literal) fun _ => ?_
  refine keeps_ite (keeps_bind keeps_expectSpaces fun _ => ?_) (keeps_pure _)
  exact keeps_bind (keeps_discard keeps_literal) fun _ => keeps_pure _

theorem keeps_entityDefinition (isGeneral : Bool) : Keeps (entityDefinition isGeneral) := by
  refine keeps_bind keeps_peek fun c => keeps_ite (keeps_bind keeps_literal fun _ => keeps_pure _) ?_
  refine keeps_ite (keeps_bind keeps_externalId? fun _ => ?_) (keeps_fail _)
  refine keeps_unless (fails_fail _) (keeps_ite ?_ (keeps_pure _))
  refine keeps_bind keeps_skipSpaces fun _ => keeps_bind (keeps_startsWith _) fun _ => ?_
  refine keeps_ite (keeps_bind (keeps_advance 5) fun _ => ?_) (keeps_pure _)
  exact keeps_bind keeps_expectSpaces fun _ => keeps_bind (keeps_discard keeps_skipName) fun _ =>
    keeps_pure _

theorem keeps_entityDeclaration : Keeps entityDeclaration := by
  have hclose : Keeps (do skipSpaces; expectChar '>') :=
    keeps_bind keeps_skipSpaces fun _ => keeps_expectChar _
  refine keeps_bind (keeps_advance 8) fun _ => keeps_bind keeps_expectSpaces fun _ => ?_
  refine keeps_bind keeps_peek? fun c => keeps_ite
    (keeps_bind (keeps_advance 1) fun _ => keeps_bind keeps_expectSpaces fun _ => ?_) ?_
  -- The rest of the declaration is the same for both kinds of entities.
  all_goals
    refine keeps_bind keeps_name fun name => keeps_bind keeps_expectSpaces fun _ => ?_
    refine keeps_bind (keeps_entityDefinition _) fun value => ?_
    cases value with
    | none => exact hclose
    | some value =>
      exact keeps_bind (keeps_modify fun _ hs => ⟨hs.tag, hs.opened, hs.finished⟩) fun _ => hclose

theorem keeps_skippedDeclaration (start : Nat) : Keeps (skippedDeclaration start) := by
  refine keeps_bind (keeps_discard (keeps_takeWhile _)) fun _ => keeps_bind keeps_peek? fun _ => ?_
  exact keeps_unless (fails_failAt _ _) (keeps_advance 1)

theorem keeps_internalSubset (start : Nat) : Keeps (internalSubset start) := by
  refine keeps_loop fun _ => keeps_bind keeps_skipSpaces fun _ => ?_
  refine keeps_bind (keeps_startsWith _) fun _ => keeps_ite ?_ ?_
  · exact keeps_bind keeps_entityDeclaration fun _ => keeps_pure _
  refine keeps_bind (keeps_startsWith _) fun _ => keeps_ite ?_ ?_
  · exact keeps_bind keeps_comment fun _ => keeps_pure _
  refine keeps_bind (keeps_startsWith _) fun _ => keeps_ite ?_ ?_
  · exact keeps_bind keeps_instruction fun _ => keeps_pure _
  refine keeps_bind (keeps_startsWith _) fun _ => keeps_ite ?_ ?_
  · refine keeps_bind (keeps_advance 1) fun _ => keeps_bind keeps_skipSpaces fun _ => ?_
    refine keeps_bind keeps_peek fun c => keeps_unless (fails_fail _) ?_
    exact keeps_bind (keeps_advance 1) fun _ => keeps_pure _
  refine keeps_bind (keeps_startsWith _) fun _ => keeps_bind (keeps_startsWith _) fun _ => ?_
  refine keeps_bind (keeps_startsWith _) fun _ => keeps_ite ?_ (keeps_fail _)
  exact keeps_bind (keeps_skippedDeclaration start) fun _ => keeps_pure _

theorem keeps_documentType : Keeps documentType := by
  refine keeps_bind keeps_offset fun start => keeps_bind (keeps_advance 9) fun _ => ?_
  refine keeps_bind keeps_expectSpaces fun _ => keeps_bind (keeps_discard keeps_skipName) fun _ => ?_
  refine keeps_bind keeps_skipSpaces fun _ => keeps_bind (keeps_discard keeps_externalId?) fun _ => ?_
  refine keeps_bind keeps_skipSpaces fun _ => keeps_bind keeps_peek fun c => ?_
  refine keeps_unless (fails_fail _) (keeps_bind (keeps_advance 1) fun _ => ?_)
  exact keeps_ite (keeps_internalSubset start) (keeps_pure _)

theorem keeps_document : Keeps document := by
  have hend : Keeps (do
      skipSpaces
      if ← startsWith "<" then element
      miscellany
      if (← peek?).isSome then fail .unknownToken) := by
    refine keeps_bind keeps_skipSpaces fun _ => keeps_bind (keeps_startsWith _) fun _ => ?_
    refine keeps_when keeps_element fun _ => keeps_bind keeps_miscellany fun _ => ?_
    exact keeps_bind keeps_peek? fun _ => keeps_ite (keeps_fail _) (keeps_pure _)
  refine keeps_bind (keeps_startsWith _) fun _ => keeps_when keeps_declaration fun _ => ?_
  refine keeps_bind keeps_miscellany fun _ => keeps_bind keeps_skipSpaces fun _ => ?_
  refine keeps_bind (keeps_startsWith _) fun _ => keeps_ite ?_ hend
  exact keeps_bind keeps_documentType fun _ => keeps_bind keeps_miscellany fun _ => hend

end Documents

end Reader

namespace Document

theorem isNamed_start (text : List Char) : (start text).IsNamed :=
  ⟨nofun, fun _ hm => absurd hm List.not_mem_nil, fun _ hm => absurd hm List.not_mem_nil⟩

theorem isNamed_of_parse {text : String} {document : Document} (h : parse text = .ok document) :
    document.IsNamed := by
  unfold parse at h
  dsimp only at h
  split at h
  · rename_i found hf
    cases h
    unfold ofChars at hf
    obtain ⟨⟨⟨⟩, scan⟩, hs, hf⟩ := bind_eq_ok.mp hf
    have hn := Reader.keeps_document _ _ _ (isNamed_start _) hs
    dsimp only at hf
    split at hf
    · rename_i hfin
      cases hf
      exact hn.finished _ (hfin ▸ List.mem_cons_self)
    · cases hf
    · cases hf
  · cases h

end Document

end CallFlow.Xml
