import PinsSyntax.Proofs.CommandLine.Agreement
import PinsSyntax.Proofs.Recognizer.ErrorPlace
import PinsSyntax.Proofs.Token.Scanning

/-!
# Scanned tokens are closed

What a scanner yields ends with the end of input or an error and goes on with nothing
(`scanner_yields_closed`), so the tokens of a text are closed (`closed_of_scan_ok`) and a cursor can
be made of them. The recognizer complains about tokens that are not closed only if it is given such
tokens (`recognize_ne_missingEndOfInput`). So a check of a text never does, and no response of the
command line reads as if it did (`Diagnostic.exists_of_report_eq`).
-/

namespace PinsSyntax

open Token (Closed)

variable {source : String} {tokens : List Token}

/-- The tokens of pieces are closed by an end of input. -/
lemma Piece.closed_tokensBehind (before : List Char) (ps : List Piece) (location : Location) :
    Closed (tokensBehind before ps ++ [Token.endAt location]) :=
  (Closed.last rfl).append fun _ => isEnd_eq_false_of_mem_tokensBehind

lemma closed_of_scan_ok (h : scan source = .ok tokens) : Closed tokens := by
  obtain ⟨ps, gap, -, -, -, rfl⟩ := exists_pieces_of_scan_ok h
  exact Piece.closed_tokensBehind [] ps _

/-- Closed tokens are not complained about as if they were not. -/
lemma recognize_ne_missingEndOfInput (entry : Entry) (h : Closed tokens) (span : Span) :
    recognize entry tokens ≠ .error ⟨span, .missingEndOfInput⟩ := by
  intro he
  obtain ⟨r⟩ := Reading.exists_of_closed entry h
  rw [r.recognize_eq h] at he
  have hf := (r.error_eq he).2
  cases hf

lemma checkUntraced_ne_missingEndOfInput (source : String) (span : Span) :
    checkUntraced source ≠ .error (.syntactic ⟨span, .missingEndOfInput⟩) := by
  intro he
  unfold checkUntraced at he
  cases hs : scan source with
  | error e =>
    rw [hs] at he
    cases he
  | ok tokens =>
    have hn := recognize_ne_missingEndOfInput .program (closed_of_scan_ok hs) span
    rw [hs] at he
    cases hr : recognize .program tokens with
    | ok =>
      simp only [hr] at he
      cases he
    | error e =>
      simp only [hr] at he
      cases he
      exact hn hr

/-- The report of a diagnostic says that tokens are not closed only if the diagnostic does. -/
lemma Diagnostic.exists_of_report_eq {d : Diagnostic} {span : Span}
    (h : d.report = (syntactic ⟨span, .missingEndOfInput⟩).report) :
    ∃ span', d = .syntactic ⟨span', .missingEndOfInput⟩ := by
  have h := congrArg String.toList h
  cases d with
  | lexical e =>
    -- The names of the phases tell the reports apart.
    have h := congrArg List.head? h
    simp [report, phaseName] at h
  | syntactic e =>
    obtain ⟨span', fault⟩ := e
    have h : span'.render.toList ++ ':' :: ' ' :: fault.message.toList =
        span.render.toList ++ ':' :: ' ' :: SyntaxFault.missingEndOfInput.message.toList := by
      simpa [report, phaseName, Diagnostic.span, message] using h
    -- The message starts behind the first space that follows the span.
    have hm := congrArg (List.dropWhile (· != ' ')) h
    rw [Span.dropWhile_render_append, Span.dropWhile_render_append] at hm
    have hm : fault.message.toList.head? = some 't' :=
      (congrArg (·.tail.head?) hm).trans (by simp [SyntaxFault.message])
    cases fault with
    | unexpectedToken => simp [SyntaxFault.message] at hm
    | trailingInput => simp [SyntaxFault.message] at hm
    | missingEndOfInput => exact ⟨span', rfl⟩

/-- A response reports tokens that are not closed. -/
def Response.ReportsUnclosed (r : Response) : Prop :=
  ∃ span, r.stderr = (Diagnostic.syntactic ⟨span, .missingEndOfInput⟩).report ++ "\n"

lemma Response.not_reportsUnclosed_of_head? {r : Response} (h : r.stderr.toList.head? ≠ some 's') :
    ¬r.ReportsUnclosed := by
  rintro ⟨span, hs⟩
  refine h ?_
  rw [hs]
  simp [Diagnostic.report, Diagnostic.phaseName]

/-- No source makes the program report tokens that are not closed. -/
lemma Options.not_reportsUnclosed (o : Options) (read : Except ReadFault String) :
    ¬(o.respond read).ReportsUnclosed := by
  cases read with
  | error fault =>
    refine Response.not_reportsUnclosed_of_head? ?_
    simp [respond, Response.ofReadFault]
  | ok source =>
    show ¬(o.respondTo source).ReportsUnclosed
    rw [respondTo_eq]
    cases hd : o.exec.diagnose source with
    | ok => exact Response.not_reportsUnclosed_of_head? (by simp)
    | error d =>
      rintro ⟨span, hs⟩
      have hr := (String.append_left_inj "\n").1 hs
      obtain ⟨span', rfl⟩ := Diagnostic.exists_of_report_eq hr
      exact checkUntraced_ne_missingEndOfInput source span' (Phase.check_of_diagnose hd)

/-- A scanner yields tokens, no more than the text has characters and none of them an end of input,
then one last item, which is the end of input or an error, and then nothing any more. `scan` gives
the tokens with the end of input, of which a cursor can be made, or the error. So neither a check
nor the program with any options reports that tokens are not closed. -/
theorem scanner_yields_closed (source : String) :
    ∃ (tokens : List Token) (last : Item),
      (Scanner.ofString source).Yields (tokens.map .ok ++ [last]) ∧
      tokens.length ≤ source.length ∧ (∀ t ∈ tokens, t.kind ≠ .endOfInput) ∧
      ((∃ t c, last = .ok t ∧ t.kind = .endOfInput ∧ scan source = .ok (tokens ++ [t]) ∧
          Cursor.ofTokens (tokens ++ [t]) = .ok c ∧ c.remaining = tokens ++ [t]) ∨
        ∃ e, last = .error e ∧ scan source = .error e) ∧
      (∀ span, checkUntraced source ≠ .error (.syntactic ⟨span, .missingEndOfInput⟩)) ∧
      (∀ {σ : Type} (sink : TraceSink σ) (init : σ) span,
        (check sink source init).1 ≠ .error (.syntactic ⟨span, .missingEndOfInput⟩)) ∧
      ∀ o : Options, ¬(o.respond (.ok source)).ReportsUnclosed := by
  obtain ⟨l⟩ := exists_layout source.toList
  refine ⟨l.tokens, l.last, l.yields, ?_, fun t ht => ?_, ?_,
    checkUntraced_ne_missingEndOfInput source, fun sink init span => ?_,
    fun o => o.not_reportsUnclosed _⟩
  · rw [← String.length_toList]
    exact l.length_tokens_le
  · exact ne_of_beq_false (Piece.isEnd_eq_false_of_mem_tokensBehind ht)
  · rw [l.scan_eq]
    obtain hl | ⟨e, hl⟩ := l.last_cases
    · obtain ⟨c, hc, -, hr⟩ := Cursor.ofTokens_of_closed (Piece.closed_tokensBehind [] l.pieces _)
      exact .inl ⟨_, c, hl, rfl, by rw [hl]; rfl, hc, hr⟩
    · exact .inr ⟨e, hl, by rw [hl]; rfl⟩
  · rw [check_eq]
    exact checkUntraced_ne_missingEndOfInput source span

end PinsSyntax
