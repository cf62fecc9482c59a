import PinsSyntax.Proofs.CommandLine.Logging

/-!
# The command line and the check

The program responds to a source that it has read as a check of that source does
(`Options.respond_agrees_with_check`). Its dumps are lines with a line feed behind each (`unlines`),
and the dump of the productions is what a trace writer gives to a device that takes everything
(`recognizeInto_lines_eq_written`). The dumps make no difference to the log
(`Options.respondTo_eq`).
-/

namespace PinsSyntax

/-- Lines one after another, with a line feed behind each. -/
def unlines (lines : List String) : String := String.join (lines.map (· ++ "\n"))

variable {entry : Entry} {tokens : List Token} {source : String}

lemma unlines_cons (line : String) (lines : List String) :
    unlines (line :: lines) = line ++ "\n" ++ unlines lines :=
  String.join_cons

/-- A text that lines are added to one after another. -/
lemma foldl_lines {α : Type} (line : α → String) (xs : List α) (text : String) :
    xs.foldl (fun text x => text ++ line x ++ "\n") text = text ++ unlines (xs.map line) := by
  induction xs generalizing text with
  | nil => exact String.append_empty.symm
  | cons x xs ih =>
    rw [List.foldl_cons, ih, List.map_cons, unlines_cons]
    simp only [String.append_assoc]

lemma utf8Bytes_unlines (lines : List String) :
    utf8Bytes (unlines lines) = TraceWriter.linesBytes lines := by
  induction lines with
  | nil => rfl
  | cons line lines ih =>
    rw [unlines_cons, utf8Bytes_append, ih]
    rfl

/-! ### Dumps -/

lemma dumpTokens_eq (tokens : List Token) :
    dumpTokens tokens = unlines (tokens.map Token.render) := by
  rw [dumpTokens, foldl_lines, String.empty_append]

/-- The dump of the productions is added to what has been printed. -/
lemma recognizeInto_lines (entry : Entry) (tokens : List Token) (text : String) :
    recognizeInto .lines entry tokens text =
      (recognize entry tokens,
        text ++ unlines ((productions entry tokens).map Production.text)) := by
  rw [recognizeInto_eq_foldl]
  exact congrArg _ (foldl_lines _ _ _)

/-- The dump of the productions has the bytes that a trace writer gives to a device that takes
everything, and that device reports no failure. -/
lemma recognizeInto_lines_eq_written (entry : Entry) (tokens : List Token) :
    let w := (recognizeInto TraceWriter.sink entry tokens (.ofDevice .unlimited)).2
    w.device.contents.toList = utf8Bytes (recognizeInto .lines entry tokens "").2 ∧
      w.finish = .ok () := by
  rw [recognizeInto_writer, recognizeInto_lines, String.empty_append, utf8Bytes_unlines]
  simp only [TraceWriter.writeLines_eq_writeBytes]
  exact TraceWriter.writeBytes_of_complete (.inr rfl)

/-! ### Responses -/

/-- What a check finds that ends with the given phase. -/
def Phase.diagnose (last : Phase) (source : String) : Except Diagnostic Unit :=
  match last, scan source with
  | .lexical, .ok _ => .ok ()
  | _, _ => checkUntraced source

/-- A check that ends with scanning only does not find what is wrong with the tokens. -/
lemma Phase.diagnose_eq_ok_iff {last : Phase} :
    last.diagnose source = .ok () ↔
      (∃ tokens, scan source = .ok tokens) ∧ (last = .lexical ∨ checkUntraced source = .ok ()) := by
  cases hs : scan source with
  | error e => cases last <;> simp [diagnose, checkUntraced, hs]
  | ok tokens => cases last <;> simp [diagnose, hs]

lemma Phase.check_of_diagnose {last : Phase} {d : Diagnostic}
    (h : last.diagnose source = .error d) : checkUntraced source = .error d := by
  unfold diagnose at h
  split at h
  · cases h
  · exact h

/-- What a check that ends with the given phase tells the log. -/
def Phase.log (last : Phase) (source : String) : List LogEvent :=
  match last, scan source with
  | .syntactic, .ok tokens => scanLog source ++ programLog tokens
  | _, _ => scanLog source

namespace Options

/-- What the options print of a source: nothing if it cannot be scanned, and otherwise the dump of
its tokens and that of its productions, as far as they are asked for. -/
def printed (o : Options) (source : String) : String :=
  match scan source with
  | .error _ => ""
  | .ok tokens =>
    (if .lexical ∈ o.dumps then unlines (tokens.map Token.render) else "") ++
      if o.exec = .syntactic ∧ .syntactic ∈ o.dumps then
        unlines ((checkedProductions source).map Production.text)
      else ""

/-- The response to a source with tokens, where the recognizer is run only if the options say so. -/
lemma respondTo_of_scan (o : Options) {tokens : List Token} (h : scan source = .ok tokens) :
    o.respondTo source =
      match o.exec with
      | .lexical => ⟨0, o.printed source, "", scanLog source⟩
      | .syntactic =>
        .ofVerdict (o.printed source) (scanLog source ++ programLog tokens)
          (recognize .program tokens) := by
  have hp : checkedProductions source = productions .program tokens := by
    rw [checkedProductions_eq, h]
  cases he : o.exec with
  | lexical => simp [respondTo, printed, h, he, dumpTokens_eq]
  | syntactic =>
    by_cases hs : .syntactic ∈ o.dumps
    · simp [respondTo, printed, h, he, hp, hs, dumpTokens_eq, recognizeInto_lines]
    · simp [respondTo, printed, h, he, hs, dumpTokens_eq]

/-- The response to a source: the dumps are printed, and the diagnosis is reported. What the log is
told depends on the last phase alone. -/
lemma respondTo_eq (o : Options) (source : String) :
    o.respondTo source =
      match o.exec.diagnose source with
      | .ok () => ⟨0, o.printed source, "", o.exec.log source⟩
      | .error d => .ofDiagnostic (o.printed source) (o.exec.log source) d := by
  cases hs : scan source with
  | error e =>
    have hd : o.exec.diagnose source = .error (.lexical e) := by
      cases o.exec <;> simp only [Phase.diagnose, checkUntraced, hs]
    have hl : o.exec.log source = scanLog source := by
      cases o.exec <;> simp only [Phase.log, hs]
    rw [hd, hl]
    simp only [respondTo, printed, hs]
  | ok tokens =>
    rw [respondTo_of_scan o hs]
    cases he : o.exec with
    | lexical => simp only [Phase.diagnose, Phase.log, hs]
    | syntactic =>
      simp only [Phase.diagnose, Phase.log, checkUntraced, hs]
      cases recognize .program tokens <;> rfl

/-- Dumps are only looked up, so their order and number are of no account. -/
lemma printed_of_mem_iff (o : Options) {dumps : List Phase} (h : ∀ p, p ∈ dumps ↔ p ∈ o.dumps)
    (source : String) : { o with dumps := dumps }.printed source = o.printed source := by
  simp only [printed, h]

/-- A program that has read its source exits with 0 and nothing on standard error if the source can
be scanned and either that was all to be done or the check accepts it. Otherwise it exits with 1 and
reports the diagnostic of the check there. What it prints are the dumps that are asked for, each
once, and the dumps make no other difference. Standard error holds no log, for no filter is set in
the environment. -/
theorem respond_agrees_with_check (o : Options) (source : String) (logging : Logging)
    (unset : logging.filter? = none) :
    let r := o.respond (.ok source)
    let accepted := (∃ tokens, scan source = .ok tokens) ∧
      (o.exec = .lexical ∨ checkUntraced source = .ok ())
    (r.code = 0 ∧ r.errorOutput logging = "" ↔ accepted) ∧
    (¬accepted → ∃ d, checkUntraced source = .error d ∧ r.code = 1 ∧
      r.errorOutput logging =
        d.phaseName ++ " error at " ++ d.span.render ++ ": " ++ d.message ++ "\n") ∧
    (r.stdout =
      match scan source with
      | .error _ => ""
      | .ok tokens =>
        (if .lexical ∈ o.dumps then unlines (tokens.map Token.render) else "") ++
          if o.exec = .syntactic ∧ .syntactic ∈ o.dumps then
            unlines ((checkedProductions source).map Production.text)
          else "") ∧
    ∀ dumps : List Phase,
      let r' := { o with dumps := dumps }.respond (.ok source)
      r'.code = r.code ∧ (∀ l, r'.errorOutput l = r.errorOutput l) ∧
        ((∀ p, p ∈ dumps ↔ p ∈ o.dumps) → r'.stdout = r.stdout) := by
  intro r accepted
  have hr (o : Options) : o.respond (.ok source) = o.respondTo source := rfl
  have hd : accepted ↔ o.exec.diagnose source = .ok () := Phase.diagnose_eq_ok_iff.symm
  have hp {dumps : List Phase} (h : ∀ p, p ∈ dumps ↔ p ∈ o.dumps) := o.printed_of_mem_iff h source
  simp only [r, hd, hr, respondTo_eq, Response.errorOutput_of_unset unset]
  cases h : o.exec.diagnose source with
  | ok => exact ⟨by simp, by simp, rfl, fun dumps => ⟨rfl, fun _ => rfl, hp⟩⟩
  | error d =>
    refine ⟨?_, fun _ => ⟨d, Phase.check_of_diagnose h, rfl, rfl⟩, rfl,
      fun dumps => ⟨rfl, fun _ => rfl, hp⟩⟩
    simp [Response.ofDiagnostic]

/-- A variable without a type is reported behind both dumps, in whatever order they are asked for
and however often. -/
theorem respond_agrees_with_check_noType :
    let o : Options := ⟨"input.pins", .syntactic, [.lexical, .syntactic, .lexical]⟩
    let logging : Logging := ⟨none, fun _ events => unlines (events.map LogEvent.message)⟩
    let r := o.respond (.ok "var x")
    logging.filter? = none ∧ r.code = 1 ∧
    r.errorOutput logging = "syntax error at 1:6-1:6: unexpected end of input, expected `:`\n" ∧
    r.stdout = unlines ["[1:1-1:4] Var var", "[1:5-1:6] Identifier x", "[1:6-1:6] Eof $",
      "definitions -> definition definitions2", "definition -> variable_definition",
      "variable_definition -> var identifier : type"] ∧
    (∀ p, p ∈ [.syntactic, .lexical] ↔ p ∈ o.dumps) ∧
    ({ o with dumps := [.syntactic, .lexical] }.respond (.ok "var x")).stdout = r.stdout := by
  intro o logging r
  obtain ⟨-, hreject, hprinted, hdumps⟩ := respond_agrees_with_check o "var x" logging rfl
  let pieces : List Piece := [
    ⟨[], .varWord, "var", .nil, by decide⟩,
    ⟨[' '], .identifier, "x", .blank rfl .nil, by decide⟩]
  let l : Layout "var x".toList := ⟨pieces, [], _, by decide, by decide, .endOfInput (.closed .nil)⟩
  let e := SyntaxError.unexpected (Token.endAt ⟨1, 6⟩) (.token .colon)
  have hs : scan "var x" = .ok (l.tokens ++ [Token.endAt ⟨1, 6⟩]) := l.scan_eq
  have hc : checkUntraced "var x" = .error (.syntactic e) := by
    rw [checkUntraced, hs]
    rfl
  have hps : checkedProductions "var x" =
      [.definitions, .definition .ofVariable, .variableDefinition] := by
    rw [checkedProductions_eq, hs]
    rfl
  have hn : ¬((∃ tokens, scan "var x" = .ok tokens) ∧
      (o.exec = .lexical ∨ checkUntraced "var x" = .ok ())) := by
    rintro ⟨-, h | h⟩
    · cases h
    · rw [hc] at h
      cases h
  obtain ⟨d, hd, hcode, hstderr⟩ := hreject hn
  obtain rfl : .syntactic e = d := Except.error.inj (hc.symm.trans hd)
  rw [hs, hps] at hprinted
  have hp : ∀ p, p ∈ [.syntactic, .lexical] ↔ p ∈ o.dumps := by
    intro p
    cases p <;> decide
  exact ⟨rfl, hcode, hstderr.trans (by decide +kernel), hprinted.trans (by decide +kernel), hp,
    (hdumps _).2.2 hp⟩

end Options

end PinsSyntax
