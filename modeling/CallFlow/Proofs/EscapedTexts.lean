import CallFlow.Proofs.DotReading

namespace CallFlow.Diagram.Dot

/-- A scan that has come to its end does not look at what follows. -/
theorem scanFrom_append {behindBackslash : Bool} {cs scanned left : List Char}
    (h : scanFrom behindBackslash cs = some (scanned, left)) (more : List Char) :
    scanFrom behindBackslash (cs ++ more) = some (scanned, left ++ more) := by
  induction cs generalizing behindBackslash scanned with
  | nil => cases h
  | cons c cs ih =>
    have goes_on : ∀ behind, (scanFrom behind cs).map (prepend c) = some (scanned, left) →
        (scanFrom behind (cs ++ more)).map (prepend c) = some (scanned, left ++ more) := by
      intro behind hb
      obtain ⟨⟨before, after⟩, hs, he⟩ := Option.map_eq_some_iff.mp hb
      obtain ⟨rfl, rfl⟩ := Prod.mk.inj he
      rw [ih hs]
      rfl
    rw [List.cons_append]
    simp only [scanFrom] at h ⊢
    split
    · rename_i escaped
      rw [if_pos escaped] at h
      exact goes_on false h
    · rename_i plain
      rw [if_neg plain] at h
      split
      · rename_i mark
        rw [if_pos mark] at h
        cases h
        rfl
      · rename_i noMark
        rw [if_neg noMark] at h
        exact goes_on _ h

theorem scanQuoted_closed (text rest : String) :
    scanQuoted (escape text ++ "\"" ++ rest).toList = some ((escape text).toList, rest.toList) := by
  have hl : (escape text ++ "\"" ++ rest).toList =
      text.toList.flatMap escapeChar ++ '"' :: rest.toList := by
    simp [toList_escape]
  rw [hl, scanQuoted_escape, toList_escape]

/-- No beginning of an escaped text is taken for a whole one. -/
theorem scanQuoted_of_isPrefix {text : String} {shorter : List Char}
    (h : shorter <+: (escape text).toList) : scanQuoted shorter = none := by
  cases hs : scanQuoted shorter with
  | none => rfl
  | some found =>
    obtain ⟨left, hl⟩ := h
    have whole := scanQuoted_closed text ""
    have early := scanFrom_append hs (left ++ "\"".toList)
    rw [String.toList_append, String.toList_append, ← hl, List.append_assoc, List.append_assoc,
      String.toList_empty, List.append_nil, scanQuoted, early] at whole
    -- The scan would leave the closing mark over.
    have none_left := congrArg Prod.snd (Option.some.inj whole)
    simp at none_left

theorem unescape?_toList_escape (text : String) :
    unescape? (escape text).toList = some text.toList := by
  rw [toList_escape, unescape?_escape]

theorem escape_injective : Function.Injective escape := by
  intro a b h
  have ha := unescape?_toList_escape a
  rw [h, unescape?_toList_escape] at ha
  exact (String.toList_inj.mp (Option.some.inj ha)).symm

/-- Behind its opening mark a quoted text is found and read back with any continuation, on one line,
so no text can end its quotation early or go on behind the closing mark. -/
theorem escape_prefix_decodable (text rest : String) :
    scanQuoted (escape text ++ "\"" ++ rest).toList =
      some ((escape text).toList, rest.toList) ∧
    unescape? (escape text).toList = some text.toList ∧
    '\n' ∉ (escape text).toList ∧
    (∀ shorter, shorter <+: (escape text).toList → scanQuoted shorter = none) ∧
    Function.Injective escape ∧ Function.Injective quote ∧
    ∀ other more, quote text ++ rest = quote other ++ more → text = other ∧ rest = more := by
  refine ⟨scanQuoted_closed text rest, unescape?_toList_escape text, ?_,
    fun _ => scanQuoted_of_isPrefix, escape_injective, quote_injective, ?_⟩
  · simp [escape, Text.mem_replace]
  · intro other more h
    have read := readString_quote text rest.toList
    rw [← String.toList_append, h, String.toList_append, readString_quote] at read
    obtain ⟨rfl, hr⟩ := Prod.mk.inj (Option.some.inj read)
    exact ⟨rfl, String.toList_inj.mp hr.symm⟩

/-- A backslash at the end does not swallow the closing mark, nor does a mark behind it end the text. -/
example : scanQuoted (escape "a\\\"" ++ "\"" ++ "\\\" b").toList =
    some ("a\\\\\\\"".toList, "\\\" b".toList) := by
  decide +kernel

end CallFlow.Diagram.Dot
