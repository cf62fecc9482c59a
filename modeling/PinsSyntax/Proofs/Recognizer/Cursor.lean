import PinsSyntax.Proofs.Token.Closed

/-!
# Calls of a cursor

A cursor is called to tell what it stands at, and to advance. Whatever the calls so far have been, a
cursor stands at an index of its tokens (`Cursor.StandsAt`): a call to advance takes it to the next
one, unless it stands at the last one (`Cursor.StandsAt.advance`), and no other call moves it. So the
number of calls to advance tells all that the cursor answers (`Cursor.ofTokens_calls`).
-/

namespace PinsSyntax

namespace Cursor

open Token (Closed)

/-- What a cursor can be called for. -/
inductive Call where
  | peek
  | check (k : Kind)
  | isAtEnd
  | position
  | advance
  deriving DecidableEq, Repr

/-- What a cursor answers to a call. -/
inductive Answer where
  | token (t : Token)
  | truth (b : Bool)
  | index (n : Nat)
  deriving DecidableEq, Repr

/-- The answer to a call, and the cursor after it. A call to advance answers with the token that the
cursor leaves behind. -/
def answer (c : Cursor) : Call → Answer × Cursor
  | .peek => (.token c.peek, c)
  | .check k => (.truth (c.check k), c)
  | .isAtEnd => (.truth c.isAtEnd, c)
  | .position => (.index c.position, c)
  | .advance => (.token c.peek, c.advance)

/-- The cursor after calls in a row. -/
def after (c : Cursor) : List Call → Cursor
  | [] => c
  | call :: calls => (c.answer call).2.after calls

/-- The cursor stands at the index `i` of `tokens`. -/
structure StandsAt (tokens : List Token) (i : Nat) (c : Cursor) : Prop where
  position_eq : c.position = i
  remaining_eq : c.remaining = tokens.drop i

variable {tokens : List Token} {i : Nat} {c : Cursor} {call : Call}

lemma after_append (c : Cursor) (calls more : List Call) :
    c.after (calls ++ more) = (c.after calls).after more := by
  induction calls generalizing c with
  | nil => rfl
  | cons call calls ih => exact ih _

lemma answer_of_ne_advance (h : call ≠ .advance) : (c.answer call).2 = c := by
  cases call with
  | advance => exact absurd rfl h
  | _ => rfl

namespace StandsAt

/-- A cursor stands at a token of its own. -/
lemma getElem?_eq (h : StandsAt tokens i c) : tokens[i]? = some c.peek := by
  rw [← List.head?_drop, ← h.remaining_eq]
  rfl

lemma lt_length (h : StandsAt tokens i c) : i < tokens.length :=
  (List.getElem?_eq_some_iff.1 h.getElem?_eq).1

lemma length_remaining (h : StandsAt tokens i c) : i + c.remaining.length = tokens.length := by
  have hlt := h.lt_length
  rw [h.remaining_eq, List.length_drop]
  omega

lemma closed_remaining (h : StandsAt tokens i c) (ht : Closed tokens) : Closed c.remaining := by
  rw [← List.take_append_drop i tokens, ← h.remaining_eq] at ht
  exact (ht.of_append (List.cons_ne_nil _ _)).1

/-- A cursor stands at the end of input if that is the last token. -/
lemma isAtEnd_eq (h : StandsAt tokens i c) (ht : Closed tokens) :
    c.isAtEnd = (i == tokens.length - 1) := by
  have hc := h.closed_remaining ht
  have hl := h.length_remaining
  cases he : c.isAtEnd with
  | true =>
    have hb : c.behind = [] := hc.behind_eq_nil he
    rw [remaining, hb, List.length_singleton] at hl
    exact (beq_iff_eq.2 (by omega)).symm
  | false =>
    have hr := remaining_eq_cons hc he
    have hp : 0 < c.advance.remaining.length := Nat.zero_lt_succ _
    rw [hr, List.length_cons] at hl
    exact (beq_false_of_ne (by omega)).symm

/-- A cursor that advances stands at the next index, or at the last one as before. -/
lemma advance (h : StandsAt tokens i c) (ht : Closed tokens) :
    StandsAt tokens (min (i + 1) (tokens.length - 1)) c.advance := by
  have hlt := h.lt_length
  have he := h.isAtEnd_eq ht
  cases hb : c.isAtEnd with
  | true =>
    rw [hb] at he
    have hi : i = tokens.length - 1 := beq_iff_eq.1 he.symm
    have hm : min (i + 1) (tokens.length - 1) = i := by omega
    have ha : c.advance = c := if_pos hb
    rwa [hm, ha]
  | false =>
    rw [hb] at he
    have hi : i ≠ tokens.length - 1 := ne_of_beq_false he.symm
    have hm : min (i + 1) (tokens.length - 1) = i + 1 := by omega
    have hr := remaining_eq_cons (h.closed_remaining ht) hb
    have hp := position_advance c
    rw [hr, List.length_cons, h.position_eq] at hp
    rw [h.remaining_eq, List.drop_eq_getElem_cons hlt, List.cons.injEq] at hr
    rw [hm]
    exact ⟨by omega, hr.2.symm⟩

/-- Calls take a cursor on by as many indexes as there are calls to advance, up to the last one. -/
lemma after (h : StandsAt tokens i c) (ht : Closed tokens) (calls : List Call) :
    StandsAt tokens (min (i + calls.count .advance) (tokens.length - 1)) (c.after calls) := by
  induction calls generalizing i c with
  | nil =>
    have hlt := h.lt_length
    have hm : min (i + 0) (tokens.length - 1) = i := by omega
    rwa [List.count_nil, hm]
  | cons call calls ih =>
    by_cases hc : call = .advance
    · subst hc
      have hs := ih (h.advance ht)
      have hm : min (min (i + 1) (tokens.length - 1) + calls.count .advance) (tokens.length - 1) =
          min (i + (calls.count .advance + 1)) (tokens.length - 1) := by omega
      rwa [hm, ← List.count_cons_self] at hs
    · rw [List.count_cons_of_ne hc, Cursor.after, answer_of_ne_advance hc]
      exact ih h

end StandsAt

/-- A cursor can be made of tokens if one of them is an end of input and this comes last. Otherwise
the first end of input is blamed, or the last token if there is none, or the start of the text if
there are no tokens. A cursor that has been called to advance `k` times stands at index `k`, or at
the last one if that comes first. This is its position, it peeks at the token there and checks the
kind of that token, it is at the end if the index is the last one, and it answers with that token
when it is called to advance. No other call changes the cursor. -/
theorem ofTokens_calls (tokens : List Token) :
    ((∃ c, ofTokens tokens = .ok c) ↔ (tokens.map Token.kind).count .endOfInput = 1 ∧
      (tokens.map Token.kind).getLast? = some .endOfInput) ∧
    ((¬∃ c, ofTokens tokens = .ok c) →
      ofTokens tokens =
        .error ⟨(((tokens.find? (·.kind == .endOfInput)).or tokens.getLast?).map Token.span).getD
          ⟨⟨1, 1⟩, ⟨1, 1⟩⟩, .missingEndOfInput⟩) ∧
    ∀ c, ofTokens tokens = .ok c → ∀ calls : List Call,
      let i := min (calls.count .advance) (tokens.length - 1)
      let c' := c.after calls
      ∃ t, tokens[i]? = some t ∧
        c'.answer .position = (.index i, c') ∧
        c'.answer .peek = (.token t, c') ∧
        (∀ k, c'.answer (.check k) = (.truth (t.kind == k), c')) ∧
        c'.answer .isAtEnd = (.truth (i == tokens.length - 1), c') ∧
        c'.answer .advance = (.token t, c.after (calls ++ [.advance])) := by
  have hok : (∃ c, ofTokens tokens = .ok c) ↔ Closed tokens := by
    constructor
    · rintro ⟨c, hc⟩
      exact (ofTokens_eq_ok_iff.1 hc).1
    · intro h
      obtain ⟨c, hc, -⟩ := ofTokens_of_closed h
      exact ⟨c, hc⟩
  refine ⟨hok.trans Token.closed_iff_count, fun h => ?_, fun c hc calls => ?_⟩
  · rw [ofTokens_of_not_closed (mt hok.2 h), Token.getElem?_unclosedIndex_eq]
    rfl
  · obtain ⟨ht, hp, hr⟩ := ofTokens_eq_ok_iff.1 hc
    have hs : StandsAt tokens 0 c := ⟨hp, hr⟩
    have hs := hs.after ht calls
    rw [Nat.zero_add] at hs
    refine ⟨(c.after calls).peek, hs.getElem?_eq, ?_, rfl, fun _ => rfl, ?_, ?_⟩
    · rw [answer, hs.position_eq]
    · rw [answer, hs.isAtEnd_eq ht]
    · rw [after_append]
      rfl

/-- A cursor stays at the end of input however often it is called to advance. A second end of input
in front is blamed. -/
theorem ofTokens_calls_twoEnds :
    let word : Token := ⟨⟨⟨1, 1⟩, ⟨1, 2⟩⟩, .identifier, "a"⟩
    let last := Token.endAt ⟨1, 2⟩
    let c : Cursor := ⟨0, word, [last]⟩
    let calls : List Call := [.peek, .advance, .isAtEnd, .advance]
    (ofTokens [word, last] = .ok c ∧ (c.after calls).answer .position = (.index 1, c.after calls) ∧
      (c.after calls).answer .advance = (.token last, c.after (calls ++ [.advance]))) ∧
    (¬∃ c, ofTokens [word, last, last] = .ok c) ∧
      ofTokens [word, last, last] = .error ⟨last.span, .missingEndOfInput⟩ := by
  intro word last c calls
  have hc : ofTokens [word, last] = .ok c := rfl
  obtain ⟨t, ht, hp, -, -, -, ha⟩ := (ofTokens_calls [word, last]).2.2 c hc calls
  have ht : last = t := Option.some.inj ht
  obtain ⟨hi, he, -⟩ := ofTokens_calls [word, last, last]
  have hn : ¬∃ c, ofTokens [word, last, last] = .ok c := mt hi.1 (by decide)
  exact ⟨⟨hc, hp, ht ▸ ha⟩, hn, he hn⟩

end Cursor

end PinsSyntax
