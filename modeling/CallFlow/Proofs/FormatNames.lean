import CallFlow.Options
import CallFlow.Success

namespace CallFlow

namespace OutputFormat

variable {name word : String} {names : List String} {format other : OutputFormat}
  {formats : List OutputFormat}

def words : OutputFormat → List String
  | text .dot => ["dot", "gv"]
  | svg => ["svg"]
  | text .mermaid => ["mermaid", "mmd"]
  | text .plantUml => ["plantuml", "puml", "uml"]

/-- A name stands for a format in any letter case, and with blanks around it. -/
def Denotes (name : String) (format : OutputFormat) : Prop :=
  Text.asciiLower (Text.trim name) ∈ format.words

def IsKnown (name : String) : Prop :=
  ∃ format, Denotes name format

theorem eq_of_mem_words (hf : word ∈ format.words) (ho : word ∈ other.words) : format = other := by
  have apart : ∀ word ∈ format.words, word ∈ other.words → format = other := by
    rcases format with (_ | _ | _) | _ <;> rcases other with (_ | _ | _) | _ <;> decide
  exact apart word hf ho

theorem Denotes.unique (hf : Denotes name format) (ho : Denotes name other) : format = other :=
  eq_of_mem_words hf ho

theorem denotes_name (format : OutputFormat) : Denotes format.name format := by
  unfold Denotes
  rcases format with (_ | _ | _) | _ <;> decide +kernel

theorem named?_isSome_of_denotes {format : TextFormat} (h : Denotes name (.text format)) :
    (TextFormat.named? name).isSome := by
  have own : ∀ word ∈ (text format).words,
      ∃ spelling ∈ format.name :: format.aliases, Text.asciiLower spelling = word := by
    cases format <;> decide +kernel
  obtain ⟨spelling, hm, he⟩ := own _ h
  refine List.find?_isSome.mpr ⟨format, by cases format <;> decide, ?_⟩
  exact List.any_eq_true.mpr ⟨spelling, hm, Text.sameWord_iff.mpr he⟩

theorem denotes_of_named? {format : TextFormat} (h : TextFormat.named? name = some format) :
    Denotes name (.text format) := by
  have own : ∀ spelling ∈ format.name :: format.aliases,
      Text.asciiLower spelling ∈ (text format).words := by
    cases format <;> decide +kernel
  unfold TextFormat.named? at h
  have found := List.find?_some h
  obtain ⟨spelling, hm, hs⟩ := List.any_eq_true.mp found
  have he := own spelling hm
  rwa [Text.sameWord_iff.mp hs] at he

def refusal (name : String) : Failure :=
  (Failure.unsupportedFormat name).withOperation "emit::parse_format"

theorem svg_iff : Text.sameWord (Text.trim name) "svg" = true ↔ Denotes name svg := by
  have hl : Text.asciiLower "svg" = "svg" := by decide +kernel
  rw [Text.sameWord_iff, hl, Denotes, words, List.mem_singleton]

theorem parse_spec (name : String) :
    (∃ format, Denotes name format ∧ parse name = .ok format) ∨
      ¬IsKnown name ∧ parse name = .error (refusal name) := by
  unfold parse
  by_cases hs : Text.sameWord (Text.trim name) "svg" = true
  · rw [if_pos hs]
    exact .inl ⟨svg, svg_iff.mp hs, rfl⟩
  · rw [if_neg hs, TextFormat.parse]
    cases hn : TextFormat.named? name with
    | some format => exact .inl ⟨text format, denotes_of_named? hn, rfl⟩
    | none =>
      refine .inr ⟨?_, rfl⟩
      rintro ⟨format, hd⟩
      cases format with
      | text format =>
        have := named?_isSome_of_denotes hd
        rw [hn] at this
        cases this
      | svg => exact hs (svg_iff.mpr hd)

theorem parse_eq_ok : parse name = .ok format ↔ Denotes name format := by
  rcases parse_spec name with ⟨found, hd, hp⟩ | ⟨unknown, hp⟩
  · rw [hp, Except.ok.injEq]
    exact ⟨fun h => h ▸ hd, hd.unique⟩
  · rw [hp]
    exact iff_of_false nofun fun hd => unknown ⟨format, hd⟩

theorem parse_eq_error {failure : Failure} :
    parse name = .error failure ↔ ¬IsKnown name ∧ failure = refusal name := by
  rcases parse_spec name with ⟨found, hd, hp⟩ | ⟨unknown, hp⟩
  · rw [hp]
    exact iff_of_false nofun fun h => h.1 ⟨found, hd⟩
  · rw [hp, Except.error.injEq, eq_comm, and_iff_right unknown]

theorem parseAll_eq_ok :
    parseAll names = .ok formats ↔
      ∃ mentioned, List.Forall₂ Denotes names mentioned ∧ formats = distinct mentioned := by
  have hd : (fun name format => parse name = .ok format) = Denotes :=
    funext fun _ => funext fun _ => propext parse_eq_ok
  unfold parseAll
  cases hm : names.mapM parse with
  | error failure =>
    refine iff_of_false nofun ?_
    rintro ⟨mentioned, h, -⟩
    rw [← hd, ← mapM_eq_ok, hm] at h
    cases h
  | ok parsed =>
    have hp := mapM_eq_ok.mp hm
    rw [hd] at hp
    constructor
    · intro h
      exact ⟨parsed, hp, (Except.ok.inj h).symm⟩
    · rintro ⟨mentioned, h, rfl⟩
      rw [← hd, ← mapM_eq_ok, hm] at h
      rw [Except.ok.inj h]
      rfl

theorem parseAll_eq_error {failure : Failure} :
    parseAll names = .error failure ↔ ∃ before bad after, names = before ++ bad :: after ∧
      (∀ name ∈ before, IsKnown name) ∧ ¬IsKnown bad ∧ failure = refusal bad := by
  have hk : ∀ name, (∃ format, parse name = .ok format) ↔ IsKnown name := fun name =>
    exists_congr fun _ => parse_eq_ok
  have he : parseAll names = .error failure ↔ names.mapM parse = .error failure := by
    unfold parseAll
    cases names.mapM parse with
    | error fault => exact Iff.rfl
    | ok parsed => exact iff_of_false nofun nofun
  rw [he, mapM_eq_error]
  simp only [hk, parse_eq_error]

theorem exists_parseAll_eq_error :
    (∃ failure, parseAll names = .error failure) ↔ ∃ name ∈ names, ¬IsKnown name := by
  constructor
  · rintro ⟨failure, h⟩
    obtain ⟨before, bad, after, rfl, -, unknown, -⟩ := parseAll_eq_error.mp h
    exact ⟨bad, by simp, unknown⟩
  · rintro ⟨bad, hb, unknown⟩
    cases hp : parseAll names with
    | error failure => exact ⟨failure, rfl⟩
    | ok formats =>
      obtain ⟨mentioned, h, -⟩ := parseAll_eq_ok.mp hp
      obtain ⟨i, hi, rfl⟩ := List.getElem_of_mem hb
      exact absurd ⟨_, h.get hi (h.length_eq ▸ hi)⟩ unknown

theorem parseAll_mentioned (h : parseAll names = .ok formats) :
    formats.Nodup ∧ ∃ mentioned, List.Forall₂ Denotes names mentioned ∧
      (∀ format, format ∈ formats ↔ format ∈ mentioned) ∧
      formats.Pairwise fun f g => mentioned.idxOf f < mentioned.idxOf g := by
  obtain ⟨mentioned, hm, rfl⟩ := parseAll_eq_ok.mp h
  exact ⟨nodup_distinct mentioned, mentioned, hm, fun _ => mem_distinct,
    pairwise_idxOf_distinct mentioned⟩

example : parseAll ["mmd", " SVG", "Mermaid", "gv"] = .ok [text .mermaid, svg, text .dot] := rfl

theorem names_eq_nil_of_parseAll (h : parseAll names = .ok []) : names = [] := by
  obtain ⟨mentioned, hm, he⟩ := parseAll_eq_ok.mp h
  cases hm with
  | nil => rfl
  | cons hd hr => cases he

theorem parseAll_map_name (hn : formats.Nodup) :
    parseAll (formats.map OutputFormat.name) = .ok formats := by
  have hs : distinct formats = formats := distinctBy_of_nodup (by simpa using hn)
  refine parseAll_eq_ok.mpr ⟨formats, ?_, hs.symm⟩
  rw [List.forall₂_map_left_iff, List.forall₂_same]
  exact fun format _ => denotes_name format

end OutputFormat

namespace Options

open OutputFormat (Denotes IsKnown parseAll names_eq_nil_of_parseAll)

variable {values : CommandValues} {config : FileConfig} {formats : List OutputFormat}

/-- The names that count: those on the command line if there are any, else those in the file if it
lists any formats, else those of the defaults. -/
def formatNames (values : CommandValues) (config : FileConfig) : List String :=
  if values.formats ≠ [] then values.formats
  else config.formats.getD (OutputFormat.defaults.map OutputFormat.name)

theorem parseAll_defaults :
    parseAll (OutputFormat.defaults.map OutputFormat.name) = .ok OutputFormat.defaults :=
  OutputFormat.parseAll_map_name (by decide)

theorem chosenFormats_eq_ok :
    chosenFormats values config = .ok formats ↔
      parseAll (formatNames values config) = .ok formats := by
  unfold chosenFormats formatNames
  split
  · exact Iff.rfl
  · cases hf : config.formats with
    | none => exact iff_of_eq (congrArg (· = _) parseAll_defaults.symm)
    | some names =>
      change (parseAll names).mapError _ = _ ↔ parseAll names = _
      cases parseAll names with
      | error failure => exact iff_of_false nofun nofun
      | ok parsed => exact Iff.rfl

/-- A failure of the command line is reported as it is, and one of the file as a bad setting. -/
theorem chosenFormats_of_error {failure : Failure}
    (h : parseAll (formatNames values config) = .error failure) :
    chosenFormats values config =
      .error (if values.formats ≠ [] then failure else badFormats failure.message) := by
  unfold chosenFormats
  unfold formatNames at h
  by_cases hv : values.formats ≠ []
  · rw [if_pos hv] at h
    rw [if_pos hv, if_pos hv, h]
  · rw [if_neg hv] at h
    rw [if_neg hv, if_neg hv]
    cases hf : config.formats with
    | none =>
      rw [hf] at h
      cases parseAll_defaults.symm.trans h
    | some names =>
      rw [hf] at h
      have hp : parseAll names = .error failure := h
      simp only [hp]
      rfl

theorem resolve_of_error {failure : Failure} (h : chosenFormats values config = .error failure) :
    resolve values config = .error failure := by
  rw [resolve, h]
  rfl

theorem resolve_of_empty (h : chosenFormats values config = .ok []) :
    resolve values config = .error (badFormats "at least one output format is required") := by
  rw [resolve, h]
  rfl

theorem formatNames_eq_nil :
    formatNames values config = [] ↔ values.formats = [] ∧ config.formats = some [] := by
  unfold formatNames
  by_cases hv : values.formats = []
  · rw [if_neg (not_not_intro hv), and_iff_right hv]
    cases config.formats with
    | none => exact iff_of_false (by decide) nofun
    | some names => exact Option.some_inj.symm
  · rw [if_pos hv]
    exact iff_of_false hv fun h => hv h.1

theorem resolve_of_formats (h : chosenFormats values config = .ok formats) (hn : formats ≠ []) :
    ∃ options, resolve values config = .ok options ∧ options.formats = formats := by
  rw [resolve, h]
  simp only [bind, Except.bind, if_neg hn]
  exact ⟨_, rfl, rfl⟩

theorem resolve_cases (values : CommandValues) (config : FileConfig) :
    (∃ failure, parseAll (formatNames values config) = .error failure ∧
      resolve values config =
        .error (if values.formats ≠ [] then failure else badFormats failure.message)) ∨
    (formatNames values config = [] ∧
      resolve values config = .error (badFormats "at least one output format is required")) ∨
    ∃ options, resolve values config = .ok options ∧
      parseAll (formatNames values config) = .ok options.formats ∧ options.formats ≠ [] := by
  cases hp : parseAll (formatNames values config) with
  | error failure => exact .inl ⟨failure, rfl, resolve_of_error (chosenFormats_of_error hp)⟩
  | ok formats =>
    have hc := chosenFormats_eq_ok.mpr hp
    by_cases hn : formats = []
    · subst hn
      exact .inr (.inl ⟨names_eq_nil_of_parseAll hp, resolve_of_empty hc⟩)
    · obtain ⟨options, ho, hf⟩ := resolve_of_formats hc hn
      exact .inr (.inr ⟨options, ho, congrArg Except.ok hf.symm, hf ▸ hn⟩)

/-- To resolve options fails if and only if a name stands for no format, or the file lists none at
all. The first such name is reported, as an unsupported format if it came from the command line and
as a bad setting if it came from the file, which is not looked at if the command line names formats.
Otherwise each format is kept once, in the order of first mention, and the names of the formats lead
to the same formats again. -/
theorem resolve_formats (values : CommandValues) (config : FileConfig) :
    let names := formatNames values config
    ((∃ failure, resolve values config = .error failure) ↔
      (∃ name ∈ names, ¬IsKnown name) ∨ values.formats = [] ∧ config.formats = some []) ∧
    (∀ before bad after, names = before ++ bad :: after →
      (∀ name ∈ before, IsKnown name) → ¬IsKnown bad →
      ∃ failure, resolve values config = .error failure ∧
        failure.message = "output format '" ++ bad ++ "' is not supported" ∧
        (values.formats ≠ [] →
          failure.kind = .unsupportedFormat ∧ failure.contextValue "format" = some bad) ∧
        (values.formats = [] →
          failure.kind = .configInvalid ∧ failure.contextValue "key" = some "formats")) ∧
    (values.formats = [] → config.formats = some [] →
      ∃ failure, resolve values config = .error failure ∧
        failure.message = "at least one output format is required" ∧
        failure.kind = .configInvalid ∧ failure.contextValue "key" = some "formats") ∧
    (values.formats ≠ [] → ∀ formats,
      resolve values { config with formats } = resolve values config) ∧
    ∀ options, resolve values config = .ok options →
      options.formats ≠ [] ∧ options.formats.Nodup ∧
      (∃ mentioned, List.Forall₂ Denotes names mentioned ∧
        (∀ format, format ∈ options.formats ↔ format ∈ mentioned) ∧
        options.formats.Pairwise fun f g => mentioned.idxOf f < mentioned.idxOf g) ∧
      parseAll (options.formats.map OutputFormat.name) = .ok options.formats := by
  intro names
  have empty (he : names = []) :
      resolve values config = .error (badFormats "at least one output format is required") := by
    refine resolve_of_empty (chosenFormats_eq_ok.mpr ?_)
    change parseAll names = .ok []
    rw [he]
    rfl
  have none_listed : names = [] ↔ values.formats = [] ∧ config.formats = some [] :=
    formatNames_eq_nil
  refine ⟨⟨?_, ?_⟩, ?_, ?_, ?_, ?_⟩
  · rintro ⟨failure, h⟩
    rcases resolve_cases values config with ⟨fault, hp, -⟩ | ⟨he, -⟩ | ⟨options, ho, -⟩
    · exact .inl (OutputFormat.exists_parseAll_eq_error.mp ⟨fault, hp⟩)
    · exact .inr (none_listed.mp he)
    · cases ho.symm.trans h
  · rintro (unknown | hn)
    · obtain ⟨failure, hp⟩ := OutputFormat.exists_parseAll_eq_error.mpr unknown
      exact ⟨_, resolve_of_error (chosenFormats_of_error hp)⟩
    · exact ⟨_, empty (none_listed.mpr hn)⟩
  · intro before bad after split known unknown
    have hp := OutputFormat.parseAll_eq_error.mpr ⟨before, bad, after, split, known, unknown, rfl⟩
    refine ⟨_, resolve_of_error (chosenFormats_of_error hp), ?_⟩
    by_cases hv : values.formats = []
    · rw [if_neg (not_not_intro hv)]
      exact ⟨rfl, fun hn => absurd hv hn, fun _ => ⟨rfl, rfl⟩⟩
    · rw [if_pos hv]
      exact ⟨rfl, fun _ => ⟨rfl, rfl⟩, fun he => absurd he hv⟩
  · exact fun hv hc => ⟨_, empty (none_listed.mpr ⟨hv, hc⟩), rfl, rfl, rfl⟩
  · intro hv formats
    simp only [resolve, chosenFormats, if_pos hv]
  · intro options h
    rcases resolve_cases values config with ⟨fault, -, hr⟩ | ⟨-, hr⟩ | ⟨found, hf, hp, hn⟩
    · cases hr.symm.trans h
    · cases hr.symm.trans h
    · obtain rfl := Except.ok.inj (hf.symm.trans h)
      obtain ⟨once, mentioned⟩ := OutputFormat.parseAll_mentioned hp
      exact ⟨hn, once, mentioned, OutputFormat.parseAll_map_name once⟩

end Options

end CallFlow
