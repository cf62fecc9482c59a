import PinsSyntax.Proofs.Recognizer.Reading
import PinsSyntax.Recognizer.Lemmas

/-!
# Recognizers that follow the grammar

A recognizer follows a form (`Recognizer.Follows`) if what it does is a reading of the form: it ends
without an error where the form is read to its end, it fails where the form cannot go on and with
what the form expects there, and the events that it tells of are those that are told with the steps
of the reading (`Event.told`).

`Recognizer.Runs` says this of all places of a closed sequence with at most `n` tokens left, and
`Recognizer.RunsAt` of those where the next token is of a given kind. There is one lemma for each way
in which recognizers are made. Where a production of a nonterminal with a stage is applied, the
beginning of the stage has just been told (`Recognizer.RunsAt.began_apply`). A loop needs one round
only (`Recognizer.Runs.loop`): a round that asks for another one has taken a token, so the rest of
the loop may be supposed to follow the form on fewer tokens.
-/

namespace PinsSyntax

/-- The cursor behind an event: the event of a taken token moves it. -/
def Cursor.behindEvent (c : Cursor) : Event → Cursor
  | .taken _ => c.advance
  | _ => c

namespace Progress

variable {σ : Type} {env : Surroundings σ} {s : Progress σ} {n : Nat}

/-- The progress that is made with the events of a log. -/
def after (env : Surroundings σ) (s : Progress σ) (log : List Event) : Progress σ :=
  log.foldl (fun s e => ⟨s.cursor.behindEvent e, env.observe e s.observed⟩) s

/-- The tokens left are closed, and there are at most `n` of them. -/
def Within (s : Progress σ) (n : Nat) : Prop :=
  Token.Closed s.cursor.remaining ∧ s.cursor.remaining.length ≤ n

lemma after_append (log log' : List Event) :
    s.after env (log ++ log') = (s.after env log).after env log' :=
  List.foldl_append

/-- The observer has been told of the events one after another. -/
lemma observed_after (env : Surroundings σ) (s : Progress σ) (log : List Event) :
    (s.after env log).observed = log.foldl (fun x e => env.observe e x) s.observed := by
  induction log generalizing s with
  | nil => rfl
  | cons e log ih => exact ih _

/-- What the position gains, the tokens left lose. -/
lemma position_after (env : Surroundings σ) (s : Progress σ) (log : List Event) :
    (s.after env log).cursor.position + (s.after env log).cursor.remaining.length =
      s.cursor.position + s.cursor.remaining.length := by
  induction log generalizing s with
  | nil => rfl
  | cons e log ih =>
    have ih := ih ⟨s.cursor.behindEvent e, env.observe e s.observed⟩
    cases e with
    | taken t => exact ih.trans s.cursor.position_advance
    | applied p => exact ih
    | began st => exact ih

/-- An announcement leaves the cursor where it is. -/
@[simp] lemma cursor_after_announcement (env : Surroundings σ) (s : Progress σ) (n : Nonterminal) :
    (s.after env n.announcement).cursor = s.cursor := by
  cases hs : n.stage? with
  | none => rw [Nonterminal.announcement_of_none hs, after, List.foldl_nil]
  | some st => rw [Nonterminal.announcement_of_some hs]; rfl

@[simp] lemma cursor_after_form_announcement (env : Surroundings σ) (s : Progress σ) (form : Form) :
    (s.after env form.announcement).cursor = s.cursor := by
  cases form with
  | nil => rfl
  | cons a form =>
    cases a with
    | token _ => rfl
    | rule n => exact cursor_after_announcement env s n

/-- A reading moves the position by the number of its tokens. -/
lemma position_of_reads {form form' : Form} {log steps : List Event}
    (hr : form.Reads s.cursor.remaining steps form' (s.after env log).cursor.remaining) :
    (s.after env log).cursor.position = s.cursor.position + (Event.tokens steps).length := by
  have hp := position_after env s log
  have hl := congrArg List.length hr.tokens_eq
  rw [List.length_append] at hl
  omega

lemma Within.mono {m : Nat} (h : s.Within n) (hnm : n ≤ m) : s.Within m :=
  ⟨h.1, Nat.le_trans h.2 hnm⟩

/-- There is always a token left. -/
lemma Within.pos (h : s.Within n) : 0 < n :=
  Nat.lt_of_lt_of_le (Nat.succ_pos _) h.2

/-- No more tokens are left after a reading than before it. -/
lemma Within.after {form form' : Form} {log steps : List Event} (h : s.Within n)
    (hr : form.Reads s.cursor.remaining steps form' (s.after env log).cursor.remaining) :
    (s.after env log).Within n := by
  obtain ⟨hc, hl⟩ := h
  rw [hr.tokens_eq] at hc hl
  refine ⟨(hc.of_append (by simp [Cursor.remaining])).1, ?_⟩
  rw [List.length_append] at hl
  omega

/-- The next token stands in front of what is left when it is taken. -/
lemma Within.remaining_eq (h : s.Within n) (he : s.cursor.peek.isEnd = false) :
    s.cursor.remaining =
      s.cursor.peek :: (s.after env [.taken s.cursor.peek]).cursor.remaining :=
  Cursor.remaining_eq_cons h.1 he

/-- Taking a token that is not the end of input leaves one token less. -/
lemma Within.take (h : s.Within (n + 1)) (he : s.cursor.peek.isEnd = false) :
    (s.after env [.taken s.cursor.peek]).Within n := by
  obtain ⟨hc, hl⟩ := h
  have hrem : s.cursor.remaining =
      s.cursor.peek :: (s.after env [.taken s.cursor.peek]).cursor.remaining :=
    Within.remaining_eq ⟨hc, hl⟩ he
  rw [hrem] at hc hl
  exact ⟨hc.tail he, Nat.le_of_succ_le_succ hl⟩

end Progress

namespace Recognizer

variable {σ : Type} {env : Surroundings σ} {s : Progress σ} {x y : Recognizer σ Unit}
  {form form' rest : Form} {log : List Event} {m n : Nat}

/-- A recognizer that starts from `s` reads a form to its end, or up to where it cannot go on. There,
the nonterminal in front is announced before the recognizer fails. -/
inductive Follows (env : Surroundings σ) (x : Recognizer σ Unit) (form : Form) (s : Progress σ) :
    Prop where
  | reads (log : List Event) (s' : Progress σ) :
    s.after env (Event.told log) = s' →
    x env s = .ok () s' →
    form.Reads s.cursor.remaining log [] s'.cursor.remaining →
    Follows env x form s
  | fails (log : List Event) (s' : Progress σ) (form' : Form) (e : Expectation) :
    s.after env (Event.told log) = s' →
    x env s = .error (.unexpected s'.cursor.peek e) (s'.after env form'.announcement) →
    form.Reads s.cursor.remaining log form' s'.cursor.remaining →
    form'.expected? s'.cursor.peek.kind = some e →
    Follows env x form s

/-- A form goes on expecting what it expects when more comes behind it. -/
lemma expected?_append {k : Kind} {e : Expectation} (h : form.expected? k = some e) (rest : Form) :
    (form ++ rest).expected? k = some e := by
  cases form with
  | nil => cases h
  | cons s form => cases s <;> exact h

/-- A form that expects something announces the same when more comes behind it. -/
lemma announcement_append {k : Kind} {e : Expectation} (h : form.expected? k = some e)
    (rest : Form) : (form ++ rest).announcement = form.announcement := by
  cases form with
  | nil => cases h
  | cons s form => cases s <;> rfl

/-- Whether a recognizer follows a form depends on what it does only. -/
lemma Follows.congr (h : x env s = y env s) (hy : Follows env y form s) : Follows env x form s := by
  cases hy with
  | reads log s' hs hy hr => exact .reads log s' hs (h.trans hy) hr
  | fails log s' form' e hs hy hr he => exact .fails log s' form' e hs (h.trans hy) hr he

/-- A recognizer that goes on as `y` does, when the form has been read up to some place. -/
lemma Follows.of_reads {s' : Progress σ} (log : List Event)
    (hs : s.after env (Event.told log) = s') (hx : x env s = y env s')
    (hr : form.Reads s.cursor.remaining log form' s'.cursor.remaining)
    (hy : Follows env y form' s') : Follows env x form s := by
  cases hy with
  | reads log' s'' hs' hy hr' =>
    refine .reads (log ++ log') s'' ?_ (hx.trans hy) (hr.trans hr')
    rw [Event.told_append, Progress.after_append, hs, hs']
  | fails log' s'' form'' e hs' hy hr' he =>
    refine .fails (log ++ log') s'' form'' e ?_ (hx.trans hy) (hr.trans hr') he
    rw [Event.told_append, Progress.after_append, hs, hs']

/-- One recognizer after another follows both forms in a row. -/
lemma Follows.bind (hx : Follows env x form s)
    (hy : ∀ log s', s.after env (Event.told log) = s' →
      form.Reads s.cursor.remaining log [] s'.cursor.remaining → Follows env y rest s') :
    Follows env (x >>= fun _ => y) (form ++ rest) s := by
  cases hx with
  | reads log s' hs hx hr =>
    refine .of_reads log hs ?_ (hr.append rest) (hy log s' hs hr)
    simp only [bind_run, hx]
  | fails log s' form' e hs hx hr he =>
    refine .fails log s' (form' ++ rest) e hs ?_ (hr.append rest) (expected?_append he rest)
    simp only [bind_run, hx, announcement_append he]

/-- A recognizer follows a form wherever at most `n` tokens of a closed sequence are left. -/
def Runs (env : Surroundings σ) (n : Nat) (x : Recognizer σ Unit) (form : Form) : Prop :=
  ∀ s : Progress σ, s.Within n → Follows env x form s

/-- A recognizer follows a form wherever at most `n` tokens of a closed sequence are left, the first
of which is of the kind `k`. -/
def RunsAt (env : Surroundings σ) (n : Nat) (k : Kind) (x : Recognizer σ Unit) (form : Form) :
    Prop :=
  ∀ s : Progress σ, s.Within n → s.cursor.peek.kind = k → Follows env x form s

variable {k : Kind} {nt : Nonterminal} {p : Production} {e : Expectation}

lemma Runs.mono (h : Runs env n x form) (hmn : m ≤ n) : Runs env m x form :=
  fun s hs => h s (hs.mono hmn)

lemma RunsAt.mono (h : RunsAt env n k x form) (hmn : m ≤ n) : RunsAt env m k x form :=
  fun s hs hk => h s (hs.mono hmn) hk

/-- What holds anywhere holds in front of every kind. -/
lemma Runs.at (h : Runs env n x form) : RunsAt env n k x form :=
  fun s hs _ => h s hs

/-- What holds in front of every kind holds anywhere. -/
lemma Runs.of_at (h : ∀ k, RunsAt env n k x form) : Runs env n x form :=
  fun s hs => h _ s hs rfl

/-- Where no tokens can be left, anything goes. -/
lemma Runs.zero : Runs env 0 x form :=
  fun _ hs => absurd hs.pos (Nat.lt_irrefl 0)

/-- A recognizer of the first symbol of a form, and then one of the rest. -/
lemma Runs.bind {a : GrammarSymbol} (hx : Runs env n x [a]) (hy : Runs env n y form) :
    Runs env n (x >>= fun _ => y) (a :: form) :=
  fun s hs => (hx s hs).bind fun _ _ he hr => hy _ (he ▸ hs.after (he ▸ hr))

/-- Looking at the next token shows one of the kind that is there. -/
lemma RunsAt.peek {f : Token → Recognizer σ Unit}
    (h : ∀ t : Token, t.kind = k → RunsAt env n k (f t) form) :
    RunsAt env n k (peek >>= f) form :=
  fun s hs hk => .congr (y := f s.cursor.peek) rfl (h s.cursor.peek hk s hs hk)

/-- Looking at the next token makes no difference to the stage that has begun. -/
lemma RunsAt.began_peek {st : Stage} {f : Token → Recognizer σ Unit}
    (h : ∀ t : Token, t.kind = k → RunsAt env n k (tell (.began st) >>= fun _ => f t) form) :
    RunsAt env n k (tell (.began st) >>= fun _ => Recognizer.peek >>= f) form :=
  fun s hs hk => .congr (y := tell (.began st) >>= fun _ => f s.cursor.peek) rfl
    (h s.cursor.peek hk s hs hk)

/-- Nothing is left to be done where nothing is left of the form. -/
lemma RunsAt.done : RunsAt env n k (pure ()) [] :=
  fun s _ _ => .reads [] s rfl rfl .refl

/-- What goes on as `y` does when a nonterminal has been announced and the production that the next
token chooses has been applied, follows the nonterminal if `y` reads what replaces it. -/
lemma RunsAt.of_applied (hc : nt.choose k = .ok p)
    (hx : ∀ s, x env s = y env (s.after env (nt.announcement ++ [.applied p])))
    (hy : RunsAt env n k y p.rhs) : RunsAt env n k x [.rule nt] := by
  intro s hs hk
  have hcur : (s.after env (nt.announcement ++ [.applied p])).cursor = s.cursor := by
    rw [Progress.after_append]
    exact s.cursor_after_announcement env nt
  have hreads : Form.Reads [.rule nt] s.cursor.remaining [.applied p] p.rhs
      (s.after env (nt.announcement ++ [.applied p])).cursor.remaining := by
    -- Nothing stands behind the nonterminal, so the whole form is now what replaces it.
    have hr : Form.Reads [.rule nt] s.cursor.remaining [.applied p] (p.rhs ++ [])
        s.cursor.remaining := .rule (hk ▸ hc) .refl
    rwa [hcur, ← List.append_nil p.rhs]
  refine .of_reads [.applied p] (by rw [Event.told_applied hc]) (hx s) hreads (hy _ ?_ ?_)
  · rwa [Progress.Within, hcur]
  · rwa [hcur]

/-- What fails when a nonterminal has been announced follows the nonterminal, if the next token
chooses no production. -/
lemma RunsAt.of_unexpected (hc : nt.choose k = .error e)
    (hx : ∀ s, x env s = .error (.unexpected s.cursor.peek e) (s.after env nt.announcement)) :
    RunsAt env n k x [.rule nt] := by
  intro s hs hk
  refine .fails [] s [.rule nt] e rfl (hx s) .refl ?_
  simp only [hk, Form.expected?, hc]

section

variable (hn : nt.stage? = none)

include hn

/-- A production that the next token chooses is applied, and what it puts in the place of its
nonterminal is read. -/
lemma RunsAt.apply (hc : nt.choose k = .ok p) (hy : RunsAt env n k y p.rhs) :
    RunsAt env n k (apply p >>= fun _ => y) [.rule nt] :=
  .of_applied hc (fun s => by rw [Nonterminal.announcement_of_none hn]; rfl) hy

/-- A production that puts nothing in the place of its nonterminal. -/
lemma RunsAt.apply_nil (hc : nt.choose k = .ok p) (hp : p.rhs = []) :
    RunsAt env n k (Recognizer.apply p) [.rule nt] :=
  .apply (y := pure ()) hn hc (hp ▸ .done)

/-- A production that is chosen by every token. -/
lemma Runs.apply (hc : ∀ k, nt.choose k = .ok p) (hy : Runs env n y p.rhs) :
    Runs env n (Recognizer.apply p >>= fun _ => y) [.rule nt] :=
  .of_at fun k => .apply hn (hc k) hy.at

/-- A token that chooses no production is an error. -/
lemma RunsAt.unexpected (hc : nt.choose k = .error e) :
    RunsAt env n k (unexpected e) [.rule nt] :=
  .of_unexpected hc fun s => by rw [Nonterminal.announcement_of_none hn]; rfl

end

section

variable {st : Stage} (hn : nt.stage? = some st)

include hn

/-- A production of a nonterminal whose stage has begun. -/
lemma RunsAt.began_apply (hc : nt.choose k = .ok p) (hy : RunsAt env n k y p.rhs) :
    RunsAt env n k (tell (.began st) >>= fun _ => Recognizer.apply p >>= fun _ => y) [.rule nt] :=
  .of_applied hc (fun s => by rw [Nonterminal.announcement_of_some hn]; rfl) hy

/-- A production that puts nothing in the place of a nonterminal whose stage has begun. -/
lemma RunsAt.began_apply_nil (hc : nt.choose k = .ok p) (hp : p.rhs = []) :
    RunsAt env n k (tell (.began st) >>= fun _ => Recognizer.apply p) [.rule nt] :=
  .began_apply (y := pure ()) hn hc (hp ▸ .done)

/-- A production that is chosen by every token, of a nonterminal whose stage has begun. -/
lemma Runs.began_apply (hc : ∀ k, nt.choose k = .ok p) (hy : Runs env n y p.rhs) :
    Runs env n (tell (.began st) >>= fun _ => Recognizer.apply p >>= fun _ => y) [.rule nt] :=
  .of_at fun k => .began_apply hn (hc k) hy.at

/-- A token that chooses no production of a nonterminal whose stage has begun. -/
lemma RunsAt.began_unexpected (hc : nt.choose k = .error e) :
    RunsAt env n k (tell (.began st) >>= fun _ => Recognizer.unexpected e) [.rule nt] :=
  .of_unexpected hc fun s => by rw [Nonterminal.announcement_of_some hn]; rfl

end

/-- The next token is taken, which leaves one less. -/
lemma RunsAt.take (hk : k ≠ .endOfInput) (hy : Runs env n y form) :
    RunsAt env (n + 1) k (take >>= fun _ => y) (.token k :: form) := by
  intro s hs h
  have he : s.cursor.peek.isEnd = false := beq_false_of_ne (h ▸ hk)
  refine .of_reads [.taken s.cursor.peek] rfl rfl ?_ (hy _ (hs.take he))
  rw [hs.remaining_eq he]
  exact .token h .refl

/-- The next token is taken, and what comes behind it could be done with as many tokens left. -/
lemma RunsAt.take_bind (hk : k ≠ .endOfInput) (hy : Runs env n y form) :
    RunsAt env n k (Recognizer.take >>= fun _ => y) (.token k :: form) :=
  (RunsAt.take hk hy).mono (Nat.le_succ n)

/-- The next token is taken, and nothing else is to be done. -/
lemma RunsAt.take_nil (hk : k ≠ .endOfInput) : RunsAt env n k Recognizer.take [.token k] := by
  intro s hs h
  have he : s.cursor.peek.isEnd = false := beq_false_of_ne (h ▸ hk)
  refine .reads [.taken s.cursor.peek] _ rfl rfl ?_
  rw [hs.remaining_eq he]
  exact .token h .refl

/-- A token of a kind is expected: it is taken if it is there. -/
lemma Runs.expect (hk : k ≠ .endOfInput) : Runs env n (expect k) [.token k] := by
  intro s hs
  by_cases h : s.cursor.peek.kind = k
  · apply (RunsAt.take_nil hk s hs h).congr
    rw [expect_run, if_pos h]
  · refine .fails [] s [.token k] (.token k) rfl ?_ .refl (if_neg h)
    rw [expect_run, if_neg h]
    rfl

/-- What comes behind a token that is expected is done when one token less is left. -/
lemma Runs.expect_bind (hk : k ≠ .endOfInput) (hy : Runs env n y form) :
    Runs env (n + 1) (Recognizer.expect k >>= fun _ => y) (.token k :: form) := by
  intro s hs
  by_cases h : s.cursor.peek.kind = k
  · apply (RunsAt.take hk hy s hs h).congr
    simp only [bind_run, expect_run, if_pos h]
  · refine .fails [] s (.token k :: form) (.token k) rfl ?_ .refl (if_neg h)
    simp only [bind_run, expect_run, if_neg h, unexpected_run]
    rfl

/-- One round of a loop, and what comes behind it. -/
lemma rounds_succ_bind (stage : Stage) (round : Recognizer σ Bool) (bound : Nat)
    (final : Recognizer σ Unit) :
    (rounds stage round (bound + 1) >>= fun _ => final) =
      tell (.began stage) >>= fun _ => round >>= fun more =>
        if more then rounds stage round bound >>= fun _ => final else final := by
  simp only [rounds, bind_assoc]
  congr
  funext _
  congr
  funext more
  cases more
  · simp only [Bool.false_eq_true, if_false, pure_bind]
  · simp only [if_true]

/-- A loop follows a form if each round does that is followed by the rest of the loop. -/
lemma Runs.rounds {stage : Stage} {round : Recognizer σ Bool} {final : Recognizer σ Unit}
    (h : ∀ m < n, ∀ again : Recognizer σ Unit, Runs env m again form →
      Runs env (m + 1) (tell (.began stage) >>= fun _ => round >>= fun more =>
        if more then again else final) form)
    {bound : Nat} (hb : n ≤ bound) :
    Runs env n (Recognizer.rounds stage round bound >>= fun _ => final) form := by
  induction n generalizing bound with
  | zero => exact .zero
  | succ n ih =>
    -- There is a round left, and the rest of the loop is what follows it on fewer tokens.
    obtain ⟨bound, rfl⟩ : ∃ b, bound = b + 1 := ⟨bound - 1, by omega⟩
    have hr := h n (Nat.lt_succ_self n) _
      (ih (fun m hm => h m (Nat.lt_succ_of_lt hm)) (Nat.le_of_succ_le_succ hb))
    rw [rounds_succ_bind]
    exact hr

/-- A loop with something behind it. -/
lemma Runs.loop_bind {stage : Stage} {round : Recognizer σ Bool} {final : Recognizer σ Unit}
    (hb : n ≤ env.bound)
    (h : ∀ m < n, ∀ again : Recognizer σ Unit, Runs env m again form →
      Runs env (m + 1) (tell (.began stage) >>= fun _ => round >>= fun more =>
        if more then again else final) form) :
    Runs env n (Recognizer.loop stage round >>= fun _ => final) form := by
  have hr : Runs env n (Recognizer.rounds stage round env.bound >>= fun _ => final) form :=
    .rounds h hb
  intro s hs
  apply (hr s hs).congr
  simp only [bind_run, loop_run]

/-- A loop with nothing behind it. -/
lemma Runs.loop {stage : Stage} {round : Recognizer σ Bool} (hb : n ≤ env.bound)
    (h : ∀ m < n, ∀ again : Recognizer σ Unit, Runs env m again form →
      Runs env (m + 1) (tell (.began stage) >>= fun _ => round >>= fun more =>
        if more then again else pure ()) form) :
    Runs env n (Recognizer.loop stage round) form := by
  have hr : Runs env n (Recognizer.loop stage round >>= fun _ => pure ()) form := .loop_bind hb h
  rwa [bind_pure_unit] at hr

end Recognizer

end PinsSyntax
