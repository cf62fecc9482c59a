import PinsSyntax.Check
import PinsSyntax.Proofs.Recognizer.Outcome
import PinsSyntax.Proofs.Trace.Writer

/-!
# Traces

A sink is told of the productions that a run applies, one after another, and has no say in the
verdict: this is so for runs (`recognizeInto_eq_foldl`) and for checks of a text (`check_eq_foldl`).
So a trace writer does not change a verdict whatever becomes of its device, and it writes the texts
of the productions (`recognizeInto_writer`, `check_writer`).
-/

namespace PinsSyntax

variable {σ : Type}

/-- The productions that a check of a text applies up to the end or the error, in order. -/
def checkedProductions (source : String) : List Production := (check .record source #[]).2.toList

/-- The verdict of a run does not depend on its sink, and the sink goes through the productions. -/
lemma recognizeInto_eq_foldl (sink : TraceSink σ) (entry : Entry) (tokens : List Token) (init : σ) :
    recognizeInto sink entry tokens init =
      (recognize entry tokens, (productions entry tokens).foldl (fun s p => sink p s) init) := by
  by_cases h : Token.Closed tokens
  · obtain ⟨r⟩ := Reading.exists_of_closed entry h
    rw [r.recognizeInto_eq h, r.recognize_eq h, r.productions_eq h]
  · simp only [recognizeInto, recognize, productions, run_of_not_closed _ _ h, List.foldl_nil]

/-- A check tells its sink of nothing if the text cannot be scanned, and otherwise of the
productions of its tokens. -/
lemma check_eq (sink : TraceSink σ) (source : String) (init : σ) :
    check sink source init =
      (checkUntraced source,
        match scan source with
        | .error _ => init
        | .ok tokens => (productions .program tokens).foldl (fun s p => sink p s) init) := by
  unfold check checkUntraced
  cases scan source with
  | error e => rfl
  | ok tokens =>
    simp only [recognizeInto_eq_foldl]

/-- The productions of a check are those of the tokens, and there are none without tokens. -/
lemma checkedProductions_eq (source : String) :
    checkedProductions source =
      match scan source with
      | .error _ => []
      | .ok tokens => productions .program tokens := by
  unfold checkedProductions
  rw [check_eq]
  cases scan source with
  | error e => rfl
  | ok tokens => simp [TraceSink.record]

/-- The verdict of a check does not depend on its sink, and the sink goes through the
productions. -/
lemma check_eq_foldl (sink : TraceSink σ) (source : String) (init : σ) :
    check sink source init =
      (checkUntraced source, (checkedProductions source).foldl (fun s p => sink p s) init) := by
  rw [check_eq, checkedProductions_eq]
  cases scan source <;> rfl

/-! ### Trace writers -/

/-- A trace writer that goes through productions writes their texts. -/
lemma TraceWriter.foldl_sink (w : TraceWriter) (ps : List Production) :
    ps.foldl (fun w p => TraceWriter.sink p w) w = w.writeLines (ps.map Production.text) := by
  rw [writeLines, List.foldl_map]
  rfl

/-- A trace writer writes the texts of the productions and gives the verdict of a run without it. -/
lemma recognizeInto_writer (w : TraceWriter) (entry : Entry) (tokens : List Token) :
    recognizeInto TraceWriter.sink entry tokens w =
      (recognize entry tokens, w.writeLines ((productions entry tokens).map Production.text)) := by
  rw [recognizeInto_eq_foldl, TraceWriter.foldl_sink]

/-- A trace writer writes the texts of the productions and gives the verdict of a check without
it. -/
lemma check_writer (w : TraceWriter) (source : String) :
    check TraceWriter.sink source w =
      (checkUntraced source, w.writeLines ((checkedProductions source).map Production.text)) := by
  rw [check_eq_foldl, TraceWriter.foldl_sink]

/-- Whatever a sink makes of the productions, runs and checks give their verdicts without it, and it
goes through the productions that are recorded. A text that cannot be scanned leaves its state
alone. In particular the device of a trace writer may fail at any time. -/
theorem sink_folds_productions (sink : TraceSink σ) (init : σ) :
    (∀ entry tokens, recognizeInto sink entry tokens init =
      (recognize entry tokens, (productions entry tokens).foldl (fun s p => sink p s) init)) ∧
    (∀ source, check sink source init =
      (checkUntraced source, (checkedProductions source).foldl (fun s p => sink p s) init)) ∧
    (∀ source,
      match scan source with
      | .error e => check sink source init = (.error (.lexical e), init)
      | .ok tokens => checkedProductions source = productions .program tokens) ∧
    ∀ (w : TraceWriter) entry tokens source,
      (recognizeInto TraceWriter.sink entry tokens w).1 = recognize entry tokens ∧
      (check TraceWriter.sink source w).1 = checkUntraced source := by
  refine ⟨fun entry tokens => recognizeInto_eq_foldl sink entry tokens init,
    fun source => check_eq_foldl sink source init, fun source => ?_,
    fun w entry tokens source => ?_⟩
  · have hp := checkedProductions_eq source
    cases hs : scan source with
    | error e => simp only [check, hs]
    | ok tokens =>
      rw [hs] at hp
      exact hp
  · rw [recognizeInto_writer, check_writer]
    exact ⟨rfl, rfl⟩

end PinsSyntax
