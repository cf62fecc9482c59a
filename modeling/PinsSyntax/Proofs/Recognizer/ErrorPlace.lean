import PinsSyntax.Proofs.Recognizer.Language

/-!
# The place of an error

A closed sequence of tokens that is not accepted fails at one of its tokens, and this is the first
one that is wrong (`recognize_error_place`): what stands before it can be completed
(`Reading.exists_completion`), and nothing that goes on with it is accepted
(`Reading.not_accepted_of_prefix`). What stands behind it is never looked at: every closed sequence
that agrees up to and with it fails in the same way and with the same trace
(`recognize_eq_of_take_eq`).
-/

namespace PinsSyntax

open Token (Closed bodyKinds)

variable {entry : Entry} {form : Form} {tokens tokens' before : List Token} {e : SyntaxError}

/-- How a fault names the token that was found, if it is about one. -/
def SyntaxFault.found? : SyntaxFault → Option String
  | unexpectedToken found _ => some found
  | trailingInput found => some found
  | missingEndOfInput => none

/-- Accepted sequences are closed. -/
lemma closed_of_recognize_ok (ok : recognize entry tokens = .ok ()) : Closed tokens := by
  cases hc : Cursor.ofTokens tokens with
  | ok c => exact (Cursor.ofTokens_eq_ok_iff.1 hc).1
  | error e =>
    simp only [recognize, run, hc] at ok
    cases ok

/-- Tokens whose kinds are the first ones that the start of an entry yields can be completed to a
sequence that is accepted. -/
lemma Form.Yields.exists_recognize_ok {ps : List Production} {kinds : List Kind}
    (h : Form.Yields [.rule entry.start] ps (before.map Token.kind ++ kinds))
    (hb : ∀ t ∈ before, t.isEnd = false) :
    ∃ rest, recognize entry (before ++ rest) = .ok () := by
  have hn := h.endOfInput_notMem_start
  rw [List.mem_append, not_or] at hn
  refine ⟨Token.ofKinds kinds, ?_⟩
  rw [recognize_eq_ok_iff_yields ((Token.closed_ofKinds hn.2).append hb),
    Token.bodyKinds_append_ofKinds]
  exact ⟨ps, h⟩

namespace Reading

/-- A reading that does not accept blames the token that it ends at. -/
lemma error_eq (r : Reading form tokens) (he : r.verdict = .error e) :
    e.span = r.front.span ∧ e.fault.found? = some r.front.describe := by
  obtain ⟨log, rest, front, behind, verdict, reads, ends⟩ := r
  subst he
  cases rest with
  | nil =>
    cases ht : front.isEnd with
    | true => simp [Form.verdict?, ht] at ends
    | false =>
      simp only [Form.verdict?, ht, Bool.false_eq_true, if_false, Option.some.injEq,
        Except.error.injEq] at ends
      subst ends
      exact ⟨rfl, rfl⟩
  | cons s rest =>
    obtain ⟨ex, -, hv⟩ := Option.map_eq_some_iff.1 ends
    cases hv
    exact ⟨rfl, rfl⟩

/-- What a reading has gone past can be completed to a sequence that is accepted, by what is left of
the form. -/
lemma exists_completion (r : Reading [.rule entry.start] tokens) (h : Closed tokens) :
    ∃ rest, recognize entry (r.before ++ rest) = .ok () := by
  -- What is left of the form yields some kinds; tokens of these kinds are the completion.
  obtain ⟨ps, kinds, hy⟩ := Form.exists_yields r.rest
  exact (r.reads.yields hy).exists_recognize_ok (r.closed h).2

/-- Nothing is accepted that goes on with the token at which a reading does not accept. -/
lemma not_accepted_of_prefix (r : Reading [.rule entry.start] tokens)
    (he : r.verdict = .error e) (rest : List Token) :
    recognize entry (r.before ++ r.front :: rest) ≠ .ok () := by
  intro ok
  have hc := closed_of_recognize_ok ok
  obtain ⟨r'⟩ := Reading.exists_of_closed entry hc
  obtain ⟨-, -, -, hv⟩ := r.eq_of_prefix r'
  rw [r'.recognize_eq hc, hv, he] at ok
  cases ok

/-- Tokens that agree with those of a reading up to and with the one that it ends at. -/
lemma exists_eq_append_of_take_eq (r : Reading form tokens)
    (ht : tokens.take (r.before.length + 1) = tokens'.take (r.before.length + 1)) :
    ∃ behind, tokens' = r.before ++ r.front :: behind := by
  have hr : tokens.take (r.before.length + 1) = r.before ++ [r.front] :=
    (congrArg _ r.tokens_eq).trans (List.take_length_add_append ..)
  refine ⟨tokens'.drop (r.before.length + 1), ?_⟩
  calc tokens' = tokens'.take (r.before.length + 1) ++ tokens'.drop (r.before.length + 1) :=
        (List.take_append_drop ..).symm
    _ = r.before ++ r.front :: tokens'.drop (r.before.length + 1) := by
        rw [← ht, hr, List.append_assoc, List.singleton_append]

end Reading

/-- A closed sequence that is not accepted fails at the token `t` behind the tokens `before`: the
error has its span and names it, some continuation of `before` is accepted, and none is that goes on
with `t`. -/
theorem recognize_error_place (entry : Entry) {tokens : List Token} {e : SyntaxError}
    (h : Closed tokens) (he : recognize entry tokens = .error e) :
    ∃ before t behind, tokens = before ++ t :: behind ∧
      (run (fun _ => id) entry tokens ()).taken = before.length ∧
      e.span = t.span ∧ e.fault.found? = some t.describe ∧
      (∃ rest, recognize entry (before ++ rest) = .ok ()) ∧
      ∀ rest, recognize entry (before ++ t :: rest) ≠ .ok () := by
  obtain ⟨r⟩ := Reading.exists_of_closed entry h
  rw [r.recognize_eq h] at he
  obtain ⟨hs, hf⟩ := r.error_eq he
  exact ⟨r.before, r.front, r.behind, r.tokens_eq, r.taken_eq h _ _, hs, hf, r.exists_completion h,
    r.not_accepted_of_prefix he⟩

/-- A definition without a type fails at the end of input. -/
theorem recognize_error_place_noType :
    let tokens := Token.ofKinds [.typWord, .identifier, .colon]
    let e := SyntaxError.unexpected (Token.endAt .origin) .type
    (Closed tokens ∧ recognize .program tokens = .error e) ∧
    ∃ before t behind, tokens = before ++ t :: behind ∧
      (run (fun _ => id) .program tokens ()).taken = before.length ∧
      e.span = t.span ∧ e.fault.found? = some t.describe ∧
      (∃ rest, recognize .program (before ++ rest) = .ok ()) ∧
      ∀ rest, recognize .program (before ++ t :: rest) ≠ .ok () :=
  ⟨⟨by decide, rfl⟩, recognize_error_place .program (by decide) rfl⟩

/-- A closed sequence that fails at the token with the index `i` fails there in front of any other
tokens: another closed sequence with the same first `i + 1` tokens has the same error, and the same
productions are applied before it, whatever they are told to. -/
theorem recognize_eq_of_take_eq (entry : Entry) {tokens tokens' : List Token} {i : Nat}
    {e : SyntaxError} (h : Closed tokens) (h' : Closed tokens')
    (ht : tokens.take (i + 1) = tokens'.take (i + 1)) (he : recognize entry tokens = .error e)
    (hi : (run (fun _ => id) entry tokens ()).taken = i) :
    recognize entry tokens' = .error e ∧ (run (fun _ => id) entry tokens' ()).taken = i ∧
      productions entry tokens' = productions entry tokens ∧
      ∀ {σ : Type} (sink : TraceSink σ) (init : σ),
        recognizeInto sink entry tokens' init = recognizeInto sink entry tokens init := by
  obtain ⟨r⟩ := Reading.exists_of_closed entry h
  rw [r.taken_eq h] at hi
  subst hi
  obtain ⟨behind, rfl⟩ := r.exists_eq_append_of_take_eq ht
  obtain ⟨r'⟩ := Reading.exists_of_closed entry h'
  obtain ⟨hl, -, -, hv⟩ := r.eq_of_prefix r'
  have hb : r'.before = r.before := congrArg Event.tokens hl
  have hp : r'.productions = r.productions := congrArg Event.productions hl
  refine ⟨?_, ?_, ?_, fun sink init => ?_⟩
  · rw [r'.recognize_eq h', hv, ← r.recognize_eq h, he]
  · rw [r'.taken_eq h', hb]
  · rw [r'.productions_eq h', r.productions_eq h, hp]
  · rw [r'.recognizeInto_eq h', r.recognizeInto_eq h, hv, hp]

/-- A variable without a colon fails at the token behind its name, be what follows a program or the
end of input. -/
theorem recognize_eq_of_take_eq_noColon :
    let tokens := Token.ofKinds [.varWord, .identifier, .integerWord]
    let tokens' := Token.ofKinds [.varWord, .identifier, .integerWord, .semicolon, .varWord,
      .identifier, .colon, .integerWord]
    let e := SyntaxError.unexpected ⟨.origin, .integerWord, ""⟩ (.token .colon)
    (Closed tokens ∧ Closed tokens' ∧ tokens.take 3 = tokens'.take 3 ∧
      recognize .program tokens = .error e ∧ (run (fun _ => id) .program tokens ()).taken = 2) ∧
    recognize .program tokens' = .error e ∧ (run (fun _ => id) .program tokens' ()).taken = 2 ∧
      productions .program tokens' = productions .program tokens ∧
      ∀ {σ : Type} (sink : TraceSink σ) (init : σ),
        recognizeInto sink .program tokens' init = recognizeInto sink .program tokens init :=
  ⟨⟨by decide, by decide, rfl, rfl, rfl⟩,
    recognize_eq_of_take_eq .program (by decide) (by decide) rfl rfl rfl⟩

end PinsSyntax
