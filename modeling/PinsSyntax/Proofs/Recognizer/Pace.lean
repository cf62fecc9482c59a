import PinsSyntax.Proofs.Grammar.Height
import PinsSyntax.Proofs.Recognizer.Outcome

/-!
# The pace of the recognizer

A run of the recognizer comes to an end, and takes one token after another, none twice and never the
end of input. Between two tokens, the events that it tells of fall (`Event.Falls`): each production
that is applied is one of a lower nonterminal than the one before, because the form gets lower, and
the beginning of a stage comes right before the production of its nonterminal. So no stage begins
twice without a token in between, and no more productions are applied than there are heights
(`run_paced`).
-/

namespace PinsSyntax

/-- The nonterminal that a stage belongs to. -/
def Stage.nonterminal : Stage → Nonterminal
  | definitions => .definitions
  | types => .type
  | parameters => .parameters
  | disjunction => .disjunction
  | conjunction => .conjunction
  | sum => .sum
  | product => .product
  | signs => .signed
  | indexes => .indexedTail
  | expressions => .expressions
  | expression => .expression

lemma Nonterminal.eq_of_stage? {n : Nonterminal} {st : Stage} (h : n.stage? = some st) :
    st.nonterminal = n := by
  cases n <;> cases h <;> rfl

namespace Event

/-- The height of an event. The heights of nonterminals are doubled, so that the beginning of a stage
has a place above the production of its nonterminal, and a token is above everything. -/
def height : Event → Nat
  | taken _ => 22
  | applied p => 2 * p.lhs.height
  | began st => 2 * st.nonterminal.height + 1

/-- One event after another falls, unless it is a token that is taken. -/
def Falls (a b : Event) : Prop := b.token? = none → b.height < a.height

lemma falls_taken (a : Event) (t : Token) : a.Falls (.taken t) := nofun

/-- Anything may be told after a token. -/
lemma taken_falls (t : Token) (a : Event) : (taken t).Falls a := by
  intro ha
  cases a with
  | taken u => cases ha
  | applied p =>
    have := p.lhs.height_le
    simp only [height]
    omega
  | began st =>
    have := st.nonterminal.height_le
    simp only [height]
    omega

variable {log : List Event} {e e' : Event}

/-- Events that fall without a token in between are all lower than the first one. -/
lemma height_lt_of_isChain (h : (e :: log).IsChain Falls) (hn : tokens log = []) (he : e' ∈ log) :
    e'.height < e.height := by
  induction log generalizing e with
  | nil => cases he
  | cons a log ih =>
    obtain ⟨ha, h⟩ := List.isChain_cons_cons.1 h
    have hn := List.filterMap_eq_nil_iff.1 hn
    have hlt := ha (hn a List.mem_cons_self)
    obtain rfl | he := List.mem_cons.1 he
    · exact hlt
    · have hn' := List.filterMap_eq_nil_iff.2 fun b hb => hn b (List.mem_cons_of_mem a hb)
      exact (ih h hn' he).trans hlt

/-- No stage begins twice without a token in between. -/
lemma tokens_ne_nil_of_began {st : Stage} {log' : List Event}
    (h : (began st :: log ++ began st :: log').IsChain Falls) : tokens log ≠ [] := by
  intro hn
  rw [List.append_cons] at h
  have hn' : tokens (log ++ [began st]) = [] := by
    rw [tokens_append, hn]
    rfl
  have hlt := height_lt_of_isChain h.left_of_append hn' List.mem_concat_self
  exact Nat.lt_irrefl _ hlt

/-- As many productions are applied as there are heights below the first event, and ten more for each
token. -/
lemma length_productions_cons_le (h : (e :: log).IsChain Falls) :
    (productions log).length ≤ (e.height - 1) / 2 + 10 * (tokens log).length := by
  induction log generalizing e with
  | nil => exact Nat.zero_le _
  | cons a log ih =>
    obtain ⟨ha, h⟩ := List.isChain_cons_cons.1 h
    have ih : (productions log).length ≤ (a.height - 1) / 2 + 10 * (tokens log).length := ih h
    cases a with
    | taken t =>
      have ht : (taken t).height = 22 := rfl
      show (productions log).length ≤ (e.height - 1) / 2 + 10 * ((tokens log).length + 1)
      omega
    | applied p =>
      have hp : (applied p).height = 2 * p.lhs.height := rfl
      have hpos := p.lhs.height_pos
      have hlt : (applied p).height < e.height := ha rfl
      show (productions log).length + 1 ≤ (e.height - 1) / 2 + 10 * (tokens log).length
      omega
    | began st =>
      have hst : (began st).height = 2 * st.nonterminal.height + 1 := rfl
      have hlt : (began st).height < e.height := ha rfl
      show (productions log).length ≤ (e.height - 1) / 2 + 10 * (tokens log).length
      omega

/-- Ten productions are applied at most, and ten more for each token. -/
lemma length_productions_le (h : log.IsChain Falls) :
    (productions log).length ≤ 10 + 10 * (tokens log).length :=
  length_productions_cons_le (e := .taken (.endAt .origin))
    (List.isChain_cons.2 ⟨fun a _ => taken_falls _ a, h⟩)

end Event

/-- What is told before a nonterminal is replaced falls from every event that is higher, and what
falls from the nonterminal goes on from there. -/
lemma Nonterminal.isChain_announcement {n : Nonterminal} {e : Event} {log : List Event}
    (he : 2 * n.height + 1 < e.height)
    (h : ∀ a : Event, 2 * n.height < a.height → (a :: log).IsChain Event.Falls) :
    (e :: (n.announcement ++ log)).IsChain Event.Falls := by
  cases hs : n.stage? with
  | none =>
    rw [announcement_of_none hs]
    exact h e (Nat.lt_of_succ_lt he)
  | some st =>
    have hst : (Event.began st).height = 2 * n.height + 1 := by
      rw [← n.eq_of_stage? hs]
      rfl
    rw [announcement_of_some hs]
    exact List.isChain_cons_cons.2 ⟨fun _ => hst ▸ he, h _ (hst ▸ Nat.lt_succ_self _)⟩

namespace Form

variable {form form' : Form} {tokens tokens' : List Token} {log : List Event} {e : Event}

/-- Where the symbols support each other, what is told of a reading falls from every event that is
higher than the form. -/
lemma Reads.isChain_told (h : Reads form tokens log form' tokens')
    (hf : form.IsChain GrammarSymbol.Supports) (he : 2 * form.height + 1 < e.height) :
    (e :: (Event.told log ++ form'.announcement)).IsChain Event.Falls := by
  induction h generalizing e with
  | @refl form _ =>
    cases form with
    | nil => exact List.isChain_singleton e
    | cons a form =>
      cases a with
      | token k => exact List.isChain_singleton e
      | rule n =>
        have hc := n.isChain_announcement he fun a _ => List.isChain_singleton a
        rwa [List.append_nil] at hc
  | @token k t form _ _ _ _ _ _ ih =>
    have hle := Form.height_le form
    refine List.isChain_cons_cons.2 ⟨e.falls_taken t, ih hf.tail ?_⟩
    show 2 * form.height + 1 < 22
    omega
  | @rule n p t form tokens log form' _ hc _ ih =>
    cases Nonterminal.lhs_of_choose hc
    have hlt := Form.height_expand_lt hf
    show (e :: (p.lhs.announcement ++ [.applied p] ++ Event.told log ++ form'.announcement)).IsChain _
    rw [List.append_assoc, List.append_assoc]
    refine p.lhs.isChain_announcement he fun a ha => List.isChain_cons_cons.2 ⟨fun _ => ha, ih ?_ ?_⟩
    · exact isChain_expand p.supports hf
    · show 2 * Form.height (p.rhs ++ form) + 1 < 2 * p.lhs.height
      omega

end Form

/-- What is told of a reading that starts from a nonterminal falls. -/
lemma Reading.isChain_events {n : Nonterminal} {tokens : List Token} (r : Reading [.rule n] tokens) :
    r.events.IsChain Event.Falls := by
  have he : 2 * Form.height [.rule n] + 1 < (Event.taken r.front).height := by
    have hle : Form.height [.rule n] ≤ 10 := Form.height_le _
    have ht : (Event.taken r.front).height = 22 := rfl
    omega
  exact (r.reads.isChain_told (List.isChain_singleton _) he).tail

/-- The recognizer has no use for a bound on repetitions greater than the number of tokens. -/
lemma whole_add_bound {σ : Type} (entry : Entry) {tokens : List Token} {cursor : Cursor}
    (observe : Event → σ → σ) (init : σ) (hc : Cursor.ofTokens tokens = .ok cursor) (extra : Nat) :
    Recognizer.whole entry ⟨observe, tokens.length + extra⟩ ⟨cursor, init⟩ =
      Recognizer.whole entry ⟨observe, tokens.length⟩ ⟨cursor, init⟩ := by
  obtain ⟨h, -, rfl⟩ := Cursor.ofTokens_eq_ok_iff.1 hc
  obtain ⟨r⟩ := Reading.exists_of_closed entry h
  rw [r.whole_eq ⟨h, Nat.le_add_right _ _⟩, r.whole_eq ⟨h, Nat.le_refl _⟩]
  rfl

/-- A run comes to its end without using up its bound on the rounds of loops and on the depth of
expressions: a greater bound makes no difference, whatever is observed. It takes tokens from the first
one on, one after another, and not the end of input. No stage begins twice without a token in between:
no round of a loop, no expression, and no list of definitions. Where no token is taken, at most ten
productions are applied, so there are at most ten times as many of them as tokens. -/
theorem run_paced (entry : Entry) {tokens : List Token} (h : Token.Closed tokens) :
    let log := events entry tokens
    let taken := (run (fun _ => id) entry tokens ()).taken
    (∀ {σ : Type} (observe : Event → σ → σ) (cursor : Cursor) (init : σ) (extra : Nat),
      Cursor.ofTokens tokens = .ok cursor →
        Recognizer.whole entry ⟨observe, tokens.length + extra⟩ ⟨cursor, init⟩ =
          Recognizer.whole entry ⟨observe, tokens.length⟩ ⟨cursor, init⟩) ∧
    (Event.tokens log = tokens.take taken ∧ taken < tokens.length ∧
      ∀ t ∈ Event.tokens log, t.isEnd = false) ∧
    (∀ stage before between behind,
      log = before ++ .began stage :: between ++ .began stage :: behind →
        Event.tokens between ≠ []) ∧
    (∀ before between behind, log = before ++ between ++ behind → Event.tokens between = [] →
      (Event.productions between).length ≤ 10) ∧
    Event.productions log = productions entry tokens ∧
    (productions entry tokens).length ≤ 10 * tokens.length := by
  intro log taken
  obtain ⟨r⟩ := Reading.exists_of_closed entry h
  have hlog : log = r.events := r.events_eq h
  have htaken : taken = r.before.length := r.taken_eq h _ _
  have hfalls : log.IsChain Event.Falls := hlog ▸ r.isChain_events
  have htokens : Event.tokens log = r.before := by rw [hlog, r.tokens_events]
  have hproductions : Event.productions log = productions entry tokens := by
    rw [hlog, r.productions_events, r.productions_eq h]
  have hlt := r.length_before_lt
  refine ⟨fun observe _ init extra hc => whole_add_bound entry observe init hc extra,
    ⟨?_, ?_, ?_⟩, fun stage before between behind hl => ?_,
    fun before between behind hl hn => ?_, hproductions, ?_⟩
  · rw [htokens, htaken, r.take_length_before]
  · rwa [htaken]
  · rw [htokens]
    exact (r.closed h).2
  · rw [hl, List.append_assoc] at hfalls
    exact Event.tokens_ne_nil_of_began hfalls.right_of_append
  · rw [hl] at hfalls
    have hle := Event.length_productions_le hfalls.left_of_append.right_of_append
    rwa [hn] at hle
  · have hle := Event.length_productions_le hfalls
    rw [hproductions, htokens] at hle
    omega

/-- An array type that breaks off: the loop over array lengths begins twice, with the first length in
between. -/
theorem run_paced_arrayType :
    let token (k : Kind) : Token := ⟨.origin, k, ""⟩
    let tokens := Token.ofKinds [.typWord, .identifier, .colon, .arrWord, .leftBracket,
      .integerConstant, .rightBracket]
    let cursor : Cursor := ⟨0, token .typWord, tokens.tail⟩
    let taken := (run (fun _ => id) .program tokens ()).taken
    let first : List Event := [.began .definitions, .applied .definitions,
      .applied (.definition .ofType), .applied .typeDefinition]
    let before := first ++ [.taken (token .typWord), .taken (token .identifier),
      .taken (token .colon)]
    let between : List Event := [.applied .arrayType, .taken (token .arrWord),
      .taken (token .leftBracket), .taken (token .integerConstant), .taken (token .rightBracket)]
    let log := before ++ .began .types :: between ++ [.began .types]
    (Token.Closed tokens ∧ Cursor.ofTokens tokens = .ok cursor ∧ events .program tokens = log ∧
      Event.tokens first = []) ∧
    Recognizer.whole .program ⟨fun _ => id, tokens.length + 1⟩ ⟨cursor, ()⟩ =
      Recognizer.whole .program ⟨fun _ => id, tokens.length⟩ ⟨cursor, ()⟩ ∧
    (Event.tokens log = tokens.take taken ∧ taken < tokens.length ∧
      ∀ t ∈ Event.tokens log, t.isEnd = false) ∧
    Event.tokens between ≠ [] ∧ (Event.productions first).length ≤ 10 ∧
    (productions .program tokens).length ≤ 10 * tokens.length := by
  intro token tokens cursor taken first before between log
  have h : Token.Closed tokens := by decide
  have hc : Cursor.ofTokens tokens = .ok cursor := rfl
  have hlog : events .program tokens = log := by with_unfolding_all rfl
  obtain ⟨hends, htaken, hstages, hpace, -, hle⟩ := run_paced .program h
  rw [hlog] at htaken
  exact ⟨⟨h, hc, hlog, rfl⟩, hends _ cursor () 1 hc, htaken, hstages _ _ _ _ hlog,
    hpace [] first (log.drop 4) hlog rfl, hle⟩

end PinsSyntax
