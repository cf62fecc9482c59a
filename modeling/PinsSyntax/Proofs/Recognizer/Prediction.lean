import PinsSyntax.Proofs.Grammar.Productive
import PinsSyntax.Proofs.Recognizer.Outcome
import PinsSyntax.Recognizer.Predictive

/-!
# The recognizer without repetitions

The plain predictive parser and the recognizer with its loops do the same on every sequence of tokens
(`predict_eq_recognizeInto`): both carry out the reading of the sequence. For the predictive parser
this holds as soon as its depth is enough (`Recognizer.predictive_runs`): in front of one token,
nonterminals only replace each other by such of a smaller `Nonterminal.level`, and behind the next
token there is one token less.
-/

namespace PinsSyntax

variable {σ : Type}

/-- No nonterminal stands higher than what one token has levels for. -/
lemma Nonterminal.level_le (n : Nonterminal) : n.level ≤ levelsPerToken := by
  revert n
  decide +kernel

namespace Recognizer

variable {env : Surroundings σ} {m : Nat} {form : Form} {rule : Nonterminal → Recognizer σ Unit}

/-- The symbols of a form one after another, where all nonterminals can be recognized. -/
lemma Runs.symbols (hf : .token .endOfInput ∉ form) (h : ∀ n, Runs env m (rule n) [.rule n]) :
    Runs env m (form.forM (symbol rule)) form := by
  induction form with
  | nil => exact .of_at fun _ => .done
  | cons a form ih =>
    rw [List.mem_cons, not_or] at hf
    refine .bind ?_ (ih hf.2)
    cases a with
    | token k => exact .expect fun e => hf.1 (congrArg _ e.symm)
    | rule n => exact h n

/-- The symbols of a form one after another, where those that come before its first token can be
recognized now, and all of them when one token less is left. -/
lemma Runs.symbols_succ (hf : .token .endOfInput ∉ form)
    (hl : ∀ n ∈ form.leading, Runs env (m + 1) (rule n) [.rule n])
    (h : ∀ n, Runs env m (rule n) [.rule n]) :
    Runs env (m + 1) (form.forM (symbol rule)) form := by
  induction form with
  | nil => exact .of_at fun _ => .done
  | cons a form ih =>
    rw [List.mem_cons, not_or] at hf
    cases a with
    | token k => exact .expect_bind (fun e => hf.1 (congrArg _ e.symm)) (.symbols hf.2 h)
    | rule n =>
      exact .bind (hl n List.mem_cons_self) (ih hf.2 fun n hn => hl n (List.mem_cons_of_mem _ hn))

/-- An observer that does not care for stages does not notice an announcement. -/
lemma after_announcement (hobs : ∀ st o, env.observe (.began st) o = o) (s : Progress σ)
    (n : Nonterminal) : s.after env n.announcement = s := by
  cases hs : n.stage? with
  | none => rw [Nonterminal.announcement_of_none hs, Progress.after, List.foldl_nil]
  | some st =>
    rw [Nonterminal.announcement_of_some hs, Progress.after, List.foldl_cons, hobs, List.foldl_nil]
    rfl

/-- A nonterminal that is replaced deeply enough is read. Nothing is told of stages, so this is so
for observers that do not care for them. -/
lemma predictive_runs (hobs : ∀ st o, env.observe (.began st) o = o) {depth : Nat}
    {n : Nonterminal} (h : n.level + levelsPerToken * m ≤ depth) :
    Runs env (m + 1) (predictive depth n) [.rule n] := by
  induction depth generalizing m n with
  | zero => exact absurd n.level_pos (by omega)
  | succ depth ih =>
    have hn := n.level_pos
    -- Any nonterminal has levels enough when one token less is left.
    have hless : ∀ n, Runs env m (predictive depth n) [.rule n] := by
      intro n
      cases m with
      | zero => exact .zero
      | succ m =>
        have hle := n.level_le
        rw [Nat.mul_succ] at h
        exact ih (by omega)
    refine .of_at fun k => .peek fun t ht => ?_
    rw [ht]
    cases hc : n.choose k with
    | error e => exact .of_unexpected hc fun s => by rw [after_announcement hobs]; rfl
    | ok p =>
      refine .of_applied hc (fun s => by rw [Progress.after_append, after_announcement hobs]; rfl)
        (Runs.at (.symbols_succ p.endOfInput_notMem_rhs (fun l hl => ?_) hless))
      have hlt := p.level_lt_of_mem_leading l hl
      rw [Nonterminal.lhs_of_choose hc] at hlt
      exact ih (by omega)

end Recognizer

/-- On a closed sequence the plain predictive parser carries out the reading, as the recognizer does. -/
lemma predict_of_closed {entry : Entry} {tokens : List Token} {depth : Nat}
    (h : Token.Closed tokens) (hd : levelsPerToken * tokens.length ≤ depth) (sink : TraceSink σ)
    (init : σ) :
    predict depth sink entry tokens init = recognizeInto sink entry tokens init := by
  obtain ⟨c, hc, -, rfl⟩ := Cursor.ofTokens_of_closed h
  have hle := entry.start.level_le
  simp only [Cursor.remaining, List.length_cons, Nat.mul_succ] at hd
  have hx : Recognizer.Runs ⟨sink.observe, c.remaining.length⟩ (c.behind.length + 1)
      (Recognizer.predictive depth entry.start) [.rule entry.start] :=
    Recognizer.predictive_runs (fun _ _ => rfl) (by omega)
  obtain ⟨r, -, he⟩ := (hx ⟨c, init⟩ ⟨h, Nat.le_refl _⟩).exists_reading
  rw [r.recognizeInto_eq h, ← r.productions_events, ← sink.foldl_observe]
  simp only [predict, hc, he]
  rcases r.verdict with e | ⟨⟩ <;>
    simp only [Recognizer.ending, Progress.observed_after]

/-- The plain predictive parser gives the verdict of the recognizer, and tells every sink of the same
productions. More depth than `levelsPerToken` for each token makes no difference. -/
theorem predict_eq_recognizeInto (sink : TraceSink σ) (entry : Entry) (tokens : List Token)
    (init : σ) (extra : Nat) :
    predict (levelsPerToken * tokens.length + extra) sink entry tokens init =
      recognizeInto sink entry tokens init := by
  by_cases h : Token.Closed tokens
  · exact predict_of_closed h (Nat.le_add_right _ _) sink init
  · cases hc : Cursor.ofTokens tokens with
    | error e => simp only [predict, recognizeInto, run, hc]
    | ok c => exact absurd (Cursor.ofTokens_eq_ok_iff.1 hc).1 h

end PinsSyntax
