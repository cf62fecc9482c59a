import PinsSyntax.Proofs.Recognizer.Outcome

/-!
# Runs see kinds only

Two sequences of tokens of the same kinds are read by the same steps (`Form.Reads.of_kinds`), so
they have the same productions and the same verdict, up to the token that an error is about. What is
wrong at a token is a `Complaint`, which does not know the token, and a run makes an error of it with
the span and the text of that token alone (`recognize_of_kinds_eq`).
-/

namespace PinsSyntax

open Token (Closed unclosedIndex)

/-- What is wrong at a token, told without the token. -/
inductive Complaint where
  | unexpected (e : Expectation)
  | trailing
  | missingEndOfInput
  deriving DecidableEq, Repr

/-- The error that a complaint makes at a token. -/
def Complaint.about (t : Token) : Complaint → SyntaxError
  | unexpected e => .unexpected t e
  | trailing => .trailing t
  | missingEndOfInput => ⟨t.span, .missingEndOfInput⟩

/-- The index of the token that a complaint about tokens is made at: the token that the cursor
stands at in the end, or the one that is blamed if no cursor can be made. -/
def Complaint.index (entry : Entry) (tokens : List Token) : Complaint → Nat
  | unexpected _ | trailing => (run (fun _ => id) entry tokens ()).taken
  | missingEndOfInput => unclosedIndex tokens

variable {entry : Entry} {form form' : Form} {tokens tokens' rest : List Token} {log : List Event}

namespace Form

/-- The verdict that is given where a form cannot go on in front of a token of the kind `k`, told
without the token. -/
def judgement? (form : Form) (k : Kind) : Option (Except Complaint Unit) :=
  match form with
  | [] => some (if k = .endOfInput then .ok () else .error .trailing)
  | _ :: _ => (form.expected? k).map fun e => .error (.unexpected e)

lemma verdict?_eq (form : Form) (t : Token) :
    form.verdict? t = (form.judgement? t.kind).map (Except.mapError (Complaint.about t)) := by
  cases form with
  | nil =>
    by_cases h : t.kind = .endOfInput
    · have he : t.isEnd = true := beq_iff_eq.2 h
      simp only [verdict?, judgement?, h, he, if_true]
      rfl
    · have he : t.isEnd = false := beq_false_of_ne h
      simp only [verdict?, judgement?, h, he, Bool.false_eq_true, if_false]
      rfl
  | cons s form =>
    simp only [verdict?, judgement?, Option.map_map]
    rfl

/-- A complaint of a form is made at the token that the cursor stands at. -/
lemma index_of_judgement? {k : Kind} {c : Complaint} (h : form.judgement? k = some (.error c)) :
    c.index entry tokens = (run (fun _ => id) entry tokens ()).taken := by
  cases form with
  | nil =>
    have hc := Option.some.inj h
    split at hc
    · cases hc
    · cases hc
      rfl
  | cons s form =>
    obtain ⟨e, -, hc⟩ := Option.map_eq_some_iff.1 h
    cases hc
    rfl

/-- Tokens of the same kinds are read by the same steps. -/
lemma Reads.of_kinds (h : Reads form tokens log form' rest)
    (hk : tokens.map Token.kind = tokens'.map Token.kind) :
    ∃ log' rest', Reads form tokens' log' form' rest' ∧
      rest.map Token.kind = rest'.map Token.kind ∧
      Event.productions log' = Event.productions log ∧
      (Event.tokens log').length = (Event.tokens log).length := by
  induction h generalizing tokens' with
  | refl => exact ⟨[], tokens', .refl, hk, rfl, rfl⟩
  | token ht _ ih =>
    obtain ⟨t', tokens', rfl, ht', hk⟩ := List.map_eq_cons_iff.1 hk.symm
    obtain ⟨log', rest', hr, hrest, hp, hl⟩ := ih hk.symm
    exact ⟨.taken t' :: log', rest', .token (ht'.trans ht) hr, hrest, hp, congrArg (· + 1) hl⟩
  | @rule n p t _ _ _ _ _ hc _ ih =>
    obtain ⟨log', rest', hr, hrest, hp, hl⟩ := ih hk
    obtain ⟨t', tokens', rfl, ht', -⟩ := List.map_eq_cons_iff.1 hk.symm
    exact ⟨.applied p :: log', rest', .rule (ht' ▸ hc) hr, hrest, congrArg (p :: ·) hp, hl⟩

end Form

namespace Token

/-- Tokens of the same kinds are closed alike. -/
lemma Closed.of_kinds (h : Closed tokens) (hk : tokens.map kind = tokens'.map kind) :
    Closed tokens' := by
  have isEnd_eq {t t' : Token} (e : t'.kind = t.kind) : t'.isEnd = t.isEnd := by
    rw [isEnd, isEnd, e]
  induction h generalizing tokens' with
  | last ht =>
    obtain ⟨t', tokens', rfl, ht', hk⟩ := List.map_eq_cons_iff.1 hk.symm
    cases List.map_eq_nil_iff.1 hk
    exact .last ((isEnd_eq ht').trans ht)
  | cons ht _ ih =>
    obtain ⟨t', tokens', rfl, ht', hk⟩ := List.map_eq_cons_iff.1 hk.symm
    exact .cons ((isEnd_eq ht').trans ht) (ih hk.symm)

/-- If there are tokens at all, one of them is blamed. -/
lemma unclosedIndex_lt (h : tokens ≠ []) : unclosedIndex tokens < tokens.length := by
  have hpos := List.length_pos_iff.2 h
  cases hi : tokens.findIdx? isEnd with
  | none =>
    rw [unclosedIndex, hi, Option.getD_none]
    omega
  | some i =>
    rw [unclosedIndex, hi, Option.getD_some]
    exact (List.findIdx?_eq_some_iff_findIdx_eq.1 hi).1

/-- Tokens of the same kinds are blamed at the same index for not being closed. -/
lemma unclosedIndex_of_kinds (hk : tokens.map kind = tokens'.map kind) :
    unclosedIndex tokens = unclosedIndex tokens' := by
  have hl : tokens.length = tokens'.length := by simpa using congrArg List.length hk
  have hi (tokens : List Token) :
      tokens.findIdx? isEnd = (tokens.map kind).findIdx? (· == .endOfInput) := by
    rw [List.findIdx?_map]
    rfl
  rw [unclosedIndex, unclosedIndex, hi, hi, hk, hl]

end Token

namespace Reading

/-- Tokens of the same kinds have readings with the same productions, that end at the same place
with the same complaint, if they do not accept. -/
lemma exists_of_kinds (r : Reading form tokens)
    (hk : tokens.map Token.kind = tokens'.map Token.kind) :
    ∃ (r' : Reading form tokens') (v : Except Complaint Unit),
      r'.productions = r.productions ∧ r'.before.length = r.before.length ∧
      r.rest.judgement? r.front.kind = some v ∧
      r.verdict = v.mapError (Complaint.about r.front) ∧
      r'.verdict = v.mapError (Complaint.about r'.front) := by
  obtain ⟨log, form', front, behind, verdict, reads, ends⟩ := r
  obtain ⟨log', rest', hr, hrest, hp, hl⟩ := reads.of_kinds hk
  obtain ⟨front', behind', rfl, hf, -⟩ := List.map_eq_cons_iff.1 hrest.symm
  rw [Form.verdict?_eq] at ends
  obtain ⟨v, hv, rfl⟩ := Option.map_eq_some_iff.1 ends
  have ends' : form'.verdict? front' = some (v.mapError (Complaint.about front')) := by
    rw [Form.verdict?_eq, hf, hv]
    rfl
  exact ⟨⟨log', form', front', behind', _, hr, ends'⟩, v, hp, hl, hv, rfl, rfl⟩

/-- A reading ends at the token that stands behind those that are read past. -/
lemma getElem?_before (r : Reading form tokens) : tokens[r.before.length]? = some r.front := by
  have h : (r.before ++ r.front :: r.behind)[r.before.length]? = some r.front := by simp
  rwa [← r.tokens_eq] at h

end Reading

/-- Tokens that are not closed are refused with a complaint about the one that is blamed. -/
lemma recognize_of_not_closed {t : Token} (entry : Entry) (h : ¬Closed tokens)
    (ht : tokens[unclosedIndex tokens]? = some t) :
    recognize entry tokens = .error (Complaint.missingEndOfInput.about t) := by
  rw [recognize, run_of_not_closed _ _ h, ht]
  rfl

/-- Two sequences of tokens of the same kinds have the same productions, and both are accepted or
both are refused. The errors are then made of the same complaint, each at the token of its own
sequence that stands at the same index; only if there are no tokens at all, they are at the start of
a text. -/
theorem recognize_of_kinds_eq (entry : Entry) {tokens tokens' : List Token}
    (hk : tokens.map Token.kind = tokens'.map Token.kind) :
    productions entry tokens = productions entry tokens' ∧
    (recognize entry tokens = .ok () ∧ recognize entry tokens' = .ok () ∨
      (∃ (c : Complaint) (i : Nat) (t t' : Token),
        c.index entry tokens = i ∧ c.index entry tokens' = i ∧ tokens[i]? = some t ∧
        tokens'[i]? = some t' ∧ recognize entry tokens = .error (c.about t) ∧
        recognize entry tokens' = .error (c.about t')) ∨
      tokens = [] ∧ tokens' = [] ∧
        recognize entry tokens = .error ⟨.origin, .missingEndOfInput⟩ ∧
        recognize entry tokens' = .error ⟨.origin, .missingEndOfInput⟩) := by
  by_cases h : Closed tokens
  · have h' := h.of_kinds hk
    obtain ⟨r⟩ := Reading.exists_of_closed entry h
    obtain ⟨r', v, hp, hb, hj, hv, hv'⟩ := r.exists_of_kinds hk
    refine ⟨by rw [r.productions_eq h, r'.productions_eq h', hp], ?_⟩
    rw [r.recognize_eq h, r'.recognize_eq h', hv, hv']
    cases v with
    | ok => exact .inl ⟨rfl, rfl⟩
    | error c =>
      refine .inr (.inl ⟨c, r.before.length, r.front, r'.front, ?_, ?_, r.getElem?_before, ?_,
        rfl, rfl⟩)
      · rw [Form.index_of_judgement? hj, r.taken_eq h]
      · rw [Form.index_of_judgement? hj, r'.taken_eq h', hb]
      · rw [← hb]
        exact r'.getElem?_before
  · have h' : ¬Closed tokens' := fun h' => h (h'.of_kinds hk.symm)
    have hl : tokens.length = tokens'.length := by simpa using congrArg List.length hk
    refine ⟨by simp only [productions, recognizeInto, run_of_not_closed _ _ h,
      run_of_not_closed _ _ h'], .inr ?_⟩
    by_cases hn : tokens = []
    · subst hn
      obtain rfl := List.length_eq_zero_iff.1 hl.symm
      exact .inr ⟨rfl, rfl, rfl, rfl⟩
    · have hi := Token.unclosedIndex_of_kinds hk
      have hlt := Token.unclosedIndex_lt hn
      obtain ⟨t, ht⟩ : ∃ t, tokens[unclosedIndex tokens]? = some t :=
        ⟨_, List.getElem?_eq_getElem hlt⟩
      obtain ⟨t', ht'⟩ : ∃ t', tokens'[unclosedIndex tokens]? = some t' :=
        ⟨_, List.getElem?_eq_getElem (hl ▸ hlt)⟩
      exact .inl ⟨.missingEndOfInput, _, t, t', rfl, hi.symm, ht, ht',
        recognize_of_not_closed entry h ht, recognize_of_not_closed entry h' (hi ▸ ht')⟩

/-- Two definitions without a colon fail at the token where it should be, whatever this reads and
wherever it is. -/
theorem recognize_of_kinds_eq_otherTexts :
    let t : Token := ⟨.origin, .identifier, ""⟩
    let t' : Token := ⟨⟨⟨2, 1⟩, ⟨2, 3⟩⟩, .identifier, "bc"⟩
    let tokens := Token.ofKinds [.varWord, .identifier, .identifier]
    let tokens' : List Token := [⟨.origin, .varWord, "var"⟩, ⟨⟨⟨1, 5⟩, ⟨1, 6⟩⟩, .identifier, "a"⟩,
      t', .endAt ⟨2, 3⟩]
    tokens.map Token.kind = tokens'.map Token.kind ∧
    productions .program tokens = productions .program tokens' ∧
    ∃ e : Expectation,
      e.describe = "`:`" ∧ (tokens[2]? = some t ∧ tokens'[2]? = some t') ∧
      (Complaint.unexpected e).index .program tokens = 2 ∧
      (Complaint.unexpected e).index .program tokens' = 2 ∧
      recognize .program tokens = .error ((Complaint.unexpected e).about t) ∧
      recognize .program tokens' = .error ((Complaint.unexpected e).about t') := by
  intro t t' tokens tokens'
  have hk : tokens.map Token.kind = tokens'.map Token.kind := rfl
  have hr : recognize .program tokens = .error (.unexpected t (.token .colon)) := rfl
  have hi : (run (fun _ => id) .program tokens ()).taken = 2 := rfl
  obtain ⟨hp, h⟩ := recognize_of_kinds_eq .program hk
  obtain ⟨h, -⟩ | ⟨c, i, u, u', hc, hc', hu, hu', he, he'⟩ | ⟨h, -⟩ := h
  · cases hr.symm.trans h
  · have hf := congrArg SyntaxError.fault (Except.error.inj (hr.symm.trans he))
    cases c with
    | unexpected e =>
      obtain rfl : 2 = i := hi.symm.trans hc
      obtain rfl : t = u := Option.some.inj hu
      obtain rfl : t' = u' := Option.some.inj hu'
      exact ⟨hk, hp, e, (SyntaxFault.unexpectedToken.inj hf).2.symm, ⟨hu, hu'⟩, hc, hc', he, he'⟩
    | trailing => cases hf
    | missingEndOfInput => cases hf
  · exact absurd h (List.cons_ne_nil _ _)

end PinsSyntax
