import CallFlow.Corpus.Verdict
import CallFlow.Proofs.CaseLines
import CallFlow.Proofs.StateDiagramLines

namespace CallFlow.Corpus

/-- A text whose lines are all ended. -/
def IsEnded (text : String) : Prop :=
  text = "" ∨ text.toList.getLast? = some '\n'

section Ended

variable {text more : String} {texts : List String}

theorem isEnded_line (text : String) : IsEnded (text ++ "\n") :=
  .inr (by simp)

theorem IsEnded.append (ht : IsEnded text) (hm : IsEnded more) : IsEnded (text ++ more) := by
  rcases hm with rfl | hm
  · rwa [String.append_empty]
  · refine .inr ?_
    rw [String.toList_append, List.getLast?_append, hm, Option.some_or]

theorem isEnded_join (h : ∀ text ∈ texts, IsEnded text) : IsEnded (String.join texts) := by
  induction texts with
  | nil => exact .inl rfl
  | cons text rest ih =>
    obtain ⟨ht, hr⟩ := List.forall_mem_cons.mp h
    rw [String.join_cons]
    exact ht.append (ih hr)

theorem isEnded_allLines (lines : List String) : IsEnded (allLines lines) := by
  refine isEnded_join fun text hm => ?_
  obtain ⟨line, -, rfl⟩ := List.mem_map.mp hm
  exact isEnded_line line

theorem isEnded_terminated (text : String) : IsEnded (terminated text) := by
  unfold terminated
  split
  · rename_i h
    exact .inr h
  · exact isEnded_line text

theorem IsEnded.terminated (h : IsEnded text) :
    Corpus.terminated text = text ∨ text = "" ∧ Corpus.terminated text = "\n" := by
  rcases h with rfl | h
  · exact .inr ⟨rfl, rfl⟩
  · exact .inl (if_pos h)

end Ended

theorem isEnded_draw (graph : Graph) (format : TextFormat) (annotate : Bool) :
    IsEnded (graph.draw format annotate) := by
  cases format with
  | dot =>
    exact isEnded_allLines
      (Diagram.Dot.documentLines "ivr" (Diagram.Dot.statements graph annotate))
  | mermaid => exact isEnded_allLines (Diagram.Mermaid.drawingLines graph)
  | plantUml =>
    change IsEnded (Diagram.PlantUml.draw graph)
    rw [Diagram.PlantUml.draw, Diagram.PlantUml.finalize_drawing]
    exact isEnded_allLines (Diagram.PlantUml.drawingLines graph)

theorem isEnded_yieldOf (compilation : Compilation) (source : String) (kind : Kind) :
    IsEnded (yieldOf compilation source kind) := by
  cases kind with
  | modules => exact isEnded_allLines _
  | edges => exact isEnded_allLines _
  | graph => exact isEnded_line _
  | diagram format => exact isEnded_draw compilation.graph format false
  | annotated => exact isEnded_draw (compilation.graph.withSource source) .dot true
  | error => exact isEnded_line "ok"

theorem isEnded_yieldOfFailure (failure : Failure) (kind : Kind) :
    IsEnded (yieldOfFailure failure kind) := by
  cases kind <;> exact isEnded_line _

theorem isEnded_yieldOfDocument (source : Option String) (kind : Kind) (document : Document) :
    IsEnded (yieldOfDocument source kind document) := by
  unfold yieldOfDocument
  split
  · exact isEnded_yieldOfFailure _ kind
  · exact isEnded_yieldOf _ _ kind

theorem isEnded_yieldOfAll (source : Option String) (kind : Kind) (documents : List Document) :
    IsEnded (yieldOfAll source kind documents) := by
  refine isEnded_join fun text hm => ?_
  obtain ⟨document, -, rfl⟩ := List.mem_map.mp hm
  refine IsEnded.append ?_ (isEnded_yieldOfDocument source kind document)
  split
  · exact isEnded_line _
  · exact .inl rfl

theorem parse_of_noRoot {text : String} {chars : List Char}
    (ht : (Text.dropMarks text).toList = chars)
    (hc : Xml.Document.ofChars chars = .error { cause := .noRoot, offset := 0 }) :
    Xml.Document.parse text = .error (Xml.Fault.toFailure { cause := .noRoot, offset := 0 } []) := by
  unfold Xml.Document.parse
  simp only [ht, hc]
  rfl

theorem ofChars_newline :
    Xml.Document.ofChars ['\n'] = .error { cause := .noRoot, offset := 0 } := rfl

theorem ofChars_nil : Xml.Document.ofChars [] = .error { cause := .noRoot, offset := 0 } := rfl

/-- Neither is a document, and both fail alike. -/
theorem ofText_newline : Compilation.ofText "\n" = Compilation.ofText "" := by
  have hn : Xml.Document.parse "\n" = _ := parse_of_noRoot (by decide) ofChars_newline
  have he : Xml.Document.parse "" = _ := parse_of_noRoot (by decide) ofChars_nil
  unfold Compilation.ofText
  rw [hn, he]

def Document.ended (document : Document) : Document :=
  { document with contents := terminated document.contents }

theorem yieldOfDocument_congr (source : Option String) (kind : Kind) {document other : Document}
    (hp : other.path = document.path)
    (hc : Compilation.ofText other.contents = Compilation.ofText document.contents) :
    yieldOfDocument source kind other = yieldOfDocument source kind document := by
  unfold yieldOfDocument
  rw [hc, hp]

theorem yieldOfDocument_ended (source : Option String) (kind : Kind) {document : Document}
    (h : IsEnded document.contents) :
    yieldOfDocument source kind document.ended = yieldOfDocument source kind document := by
  refine yieldOfDocument_congr source kind rfl ?_
  unfold Document.ended
  rcases h.terminated with he | ⟨he, hn⟩
  · rw [he]
  · rw [hn, he, ofText_newline]

/-- Ending the documents that were read changes nothing of what they yield. -/
theorem yieldOfAll_ended (source : Option String) (kind : Kind) {documents : List Document}
    (h : ∀ document ∈ documents, IsEnded document.contents) :
    yieldOfAll source kind (documents.map Document.ended) = yieldOfAll source kind documents := by
  unfold yieldOfAll
  rw [List.map_map, List.length_map]
  refine congrArg String.join (List.map_congr_left fun document hm => ?_)
  rw [Function.comp_apply, yieldOfDocument_ended source kind (h document hm)]
  rfl

end CallFlow.Corpus
