import PinsSyntax.Proofs.Recognizer.Procedures

/-!
# The outcome of a run

Every closed sequence of tokens has one reading by the nonterminal that an entry starts from
(`Reading.exists_of_closed`), and a run of the recognizer ends as this reading does: with its verdict
(`Reading.recognize_eq`), at its token (`Reading.taken_eq`), and with its productions told to the
sink (`Reading.recognizeInto_eq`). The bound on repetitions is never reached: more of it makes no
difference (`Reading.whole_eq`). A run on any other sequence is over before it begins
(`run_of_not_closed`).
-/

namespace PinsSyntax

variable {σ : Type}

namespace Recognizer

variable {env : Surroundings σ} {s : Progress σ} {x : Recognizer σ Unit} {form : Form}

/-- Whether the end of input comes next decides the end of a run. -/
lemma expectEnd_run (env : Surroundings σ) (s : Progress σ) :
    expectEnd env s =
      if s.cursor.peek.isEnd then .ok () s else .error (.trailing s.cursor.peek) s := by
  show (if s.cursor.peek.isEnd then pure () else throw (.trailing s.cursor.peek) :
    Recognizer σ Unit) env s = _
  split <;> rfl

/-- How a run ends that gives the verdict `v` after the events of a log. -/
def ending (env : Surroundings σ) (s : Progress σ) (log : List Event) :
    Except SyntaxError Unit → EStateM.Result SyntaxError (Progress σ) Unit
  | .ok () => .ok () (s.after env log)
  | .error e => .error e (s.after env log)

/-- A recognizer that follows a form, with the end of input expected behind it, carries out a reading
of the form and gives its verdict. -/
lemma Follows.exists_reading (hx : Follows env x form s) :
    ∃ r : Reading form s.cursor.remaining,
      (s.after env r.events).cursor.position = s.cursor.position + r.before.length ∧
      (x >>= fun _ => expectEnd) env s = ending env s r.events r.verdict := by
  cases hx with
  | reads log s' hs hx hr =>
    have hv : Form.verdict? [] s'.cursor.peek =
        some (if s'.cursor.peek.isEnd then .ok () else .error (.trailing s'.cursor.peek)) := rfl
    have ha : s.after env (Event.told log ++ Form.announcement []) = s' := by
      rw [Progress.after_append, hs]
      rfl
    refine ⟨⟨_, _, _, _, _, hr, hv⟩, ?_, ?_⟩
    · rw [← ha] at hr
      exact Progress.position_of_reads hr
    · simp only [bind_run, hx, expectEnd_run, Reading.events]
      split <;> simp only [ending, ha]
  | fails log s' form' e hs hx hr he =>
    have hv : form'.verdict? s'.cursor.peek = some (.error (.unexpected s'.cursor.peek e)) := by
      cases form' with
      | nil => cases he
      | cons a form' => exact congrArg (Option.map _) he
    have ha : s.after env (Event.told log ++ form'.announcement) =
        s'.after env form'.announcement := by
      rw [Progress.after_append, hs]
    refine ⟨⟨_, _, _, _, _, hr, hv⟩, ?_, ?_⟩
    · rw [← s'.cursor_after_form_announcement env form', ← ha] at hr
      exact Progress.position_of_reads hr
    · simp only [bind_run, hx, ending, Reading.events, ha]

/-- The whole recognizer carries out a reading of the nonterminal that its entry starts from. -/
lemma whole_run (entry : Entry) (env : Surroundings σ) (s : Progress σ) (hs : s.Within env.bound) :
    ∃ r : Reading [.rule entry.start] s.cursor.remaining,
      (s.after env r.events).cursor.position = s.cursor.position + r.before.length ∧
      whole entry env s = ending env s r.events r.verdict := by
  have hx : Runs env env.bound (expression env.bound) [.rule .expression] :=
    expression_runs (Nat.le_refl _)
  cases entry with
  | program => exact (definitions_runs (Nat.le_refl _) hx s hs).exists_reading
  | expression => exact (hx s hs).exists_reading

end Recognizer

/-- The observer of a sink hands on the productions of a log. -/
lemma TraceSink.foldl_observe (sink : TraceSink σ) (log : List Event) (init : σ) :
    log.foldl (fun x e => sink.observe e x) init =
      (Event.productions log).foldl (fun x p => sink p x) init := by
  induction log generalizing init with
  | nil => rfl
  | cons e log ih => cases e <;> exact ih _

variable {entry : Entry} {tokens : List Token}

/-- A run of the recognizer carries out a reading. -/
lemma exists_run_eq (observe : Event → σ → σ) (entry : Entry) (h : Token.Closed tokens) (init : σ) :
    ∃ r : Reading [.rule entry.start] tokens,
      run observe entry tokens init =
        ⟨r.verdict, r.events.foldl (fun x e => observe e x) init, r.before.length⟩ := by
  obtain ⟨c, hc, hp, rfl⟩ := Cursor.ofTokens_of_closed h
  obtain ⟨r, hlen, hw⟩ :=
    Recognizer.whole_run entry ⟨observe, c.remaining.length⟩ ⟨c, init⟩ ⟨h, Nat.le_refl _⟩
  refine ⟨r, ?_⟩
  rw [hp, Nat.zero_add] at hlen
  simp only [run, hc, hw]
  rcases r.verdict with e | ⟨⟩ <;>
    simp only [Recognizer.ending, Progress.observed_after, hlen]

/-- A run on tokens that are not closed blames one of them, and the observer is told of nothing. -/
lemma run_of_not_closed (observe : Event → σ → σ) (entry : Entry) (h : ¬Token.Closed tokens)
    (init : σ) :
    run observe entry tokens init =
      ⟨.error ⟨(tokens[Token.unclosedIndex tokens]?.map Token.span).getD .origin,
        .missingEndOfInput⟩, init, 0⟩ := by
  simp only [run, Cursor.ofTokens_of_not_closed h]

namespace Reading

/-- A closed sequence has a reading. -/
lemma exists_of_closed (entry : Entry) (h : Token.Closed tokens) :
    Nonempty (Reading [.rule entry.start] tokens) := by
  obtain ⟨r, -⟩ := exists_run_eq (fun _ => id) entry h ()
  exact ⟨r⟩

/-- A run carries out the reading. -/
lemma run_eq (r : Reading [.rule entry.start] tokens) (h : Token.Closed tokens)
    (observe : Event → σ → σ) (init : σ) :
    run observe entry tokens init =
      ⟨r.verdict, r.events.foldl (fun x e => observe e x) init, r.before.length⟩ := by
  obtain ⟨r', hr⟩ := exists_run_eq observe entry h init
  rw [hr, Subsingleton.elim r' r]

/-- The recognizer gives the verdict of the reading. -/
lemma recognize_eq (r : Reading [.rule entry.start] tokens) (h : Token.Closed tokens) :
    recognize entry tokens = r.verdict := by
  rw [recognize, r.run_eq h]

/-- The recognizer comes to the token that the reading ends at. -/
lemma taken_eq (r : Reading [.rule entry.start] tokens) (h : Token.Closed tokens)
    (observe : Event → σ → σ) (init : σ) :
    (run observe entry tokens init).taken = r.before.length := by
  rw [r.run_eq h]

/-- A sink is told of the productions of the reading, one after another. -/
lemma recognizeInto_eq (r : Reading [.rule entry.start] tokens) (h : Token.Closed tokens)
    (sink : TraceSink σ) (init : σ) :
    recognizeInto sink entry tokens init =
      (r.verdict, r.productions.foldl (fun x p => sink p x) init) := by
  rw [recognizeInto, r.run_eq h, sink.foldl_observe, r.productions_events]

/-- The productions of the recognizer are those of the reading. -/
lemma productions_eq (r : Reading [.rule entry.start] tokens) (h : Token.Closed tokens) :
    PinsSyntax.productions entry tokens = r.productions := by
  rw [PinsSyntax.productions, r.recognizeInto_eq h]
  simp [TraceSink.record]

/-- An observer is told of what is told of the reading. -/
lemma events_eq (r : Reading [.rule entry.start] tokens) (h : Token.Closed tokens) :
    PinsSyntax.events entry tokens = r.events := by
  rw [PinsSyntax.events, r.run_eq h]
  simp

/-- The whole recognizer ends in the same way with every bound that is enough for the tokens left. -/
lemma whole_eq {env : Surroundings σ} {s : Progress σ}
    (r : Reading [.rule entry.start] s.cursor.remaining) (hs : s.Within env.bound) :
    Recognizer.whole entry env s = Recognizer.ending env s r.events r.verdict := by
  obtain ⟨r', -, hw⟩ := Recognizer.whole_run entry env s hs
  rw [hw, Subsingleton.elim r' r]

end Reading

/-- Where a reading comes to a verdict, the recognizer gives it. -/
lemma recognize_eq_of_verdict (entry : Entry) {form : Form} {log : List Event} {t : Token}
    {behind : List Token} {v : Except SyntaxError Unit} (h : Token.Closed tokens)
    (hr : Form.Reads [.rule entry.start] tokens log form (t :: behind))
    (hv : form.verdict? t = some v) :
    recognize entry tokens = v ∧ productions entry tokens = Event.productions log := by
  let r : Reading [.rule entry.start] tokens := ⟨log, form, t, behind, v, hr, hv⟩
  exact ⟨r.recognize_eq h, r.productions_eq h⟩

end PinsSyntax
