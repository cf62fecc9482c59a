import Mathlib.Tactic.Lemma
import PinsSyntax.Recognizer.Cursor

/-!
# Closed sequences of tokens

A sequence of tokens is closed (`Token.Closed`) if its last token is an end of input and no other
one is. `Cursor.ofTokens_eq_ok_iff` shows that these are the sequences that a cursor can be made
of, and `Cursor.remaining_eq_cons` that a cursor on such a sequence drops the token it stands at
when it advances, unless that token is the end of input. `Cursor.ofTokens_of_not_closed` tells which
token of another sequence is blamed.
-/

namespace PinsSyntax

namespace Token

/-- A sequence of tokens that is closed by its only end of input. -/
inductive Closed : List Token → Prop where
  | last {t : Token} :
    t.isEnd = true →
    Closed [t]
  | cons {t : Token} {tokens : List Token} :
    t.isEnd = false →
    Closed tokens →
    Closed (t :: tokens)

/-- The kinds of the tokens before the end of input. -/
def bodyKinds (tokens : List Token) : List Kind := tokens.dropLast.map Token.kind

variable {t : Token} {tokens before behind : List Token}

/-- A closed sequence holds at least its end of input. -/
lemma Closed.ne_nil (h : Closed tokens) : tokens ≠ [] := by
  cases h <;> simp

/-- A single token that is a closed sequence is its end of input. -/
lemma Closed.isEnd_singleton (h : Closed [t]) : t.isEnd = true := by
  cases h with
  | last h => exact h
  | cons _ h => cases h

/-- An end of input in a closed sequence has nothing behind it. -/
lemma Closed.behind_eq_nil (h : Closed (t :: behind)) (ht : t.isEnd = true) : behind = [] := by
  cases h with
  | last _ => rfl
  | cons hf _ => simp [ht] at hf

/-- What stands behind another token of a closed sequence is closed. -/
lemma Closed.tail (h : Closed (t :: behind)) (ht : t.isEnd = false) : Closed behind := by
  cases h with
  | last he => simp [ht] at he
  | cons _ h => exact h

/-- A closed sequence stays closed when tokens other than an end of input come before it. -/
lemma Closed.append (h : Closed tokens) (hb : ∀ t ∈ before, t.isEnd = false) :
    Closed (before ++ tokens) := by
  induction before with
  | nil => exact h
  | cons b before ih =>
    exact .cons (hb b (by simp)) (ih fun t ht => hb t (List.mem_cons_of_mem b ht))

/-- Where a part of a closed sequence is not its last one, it is followed by a closed sequence and
has no end of input in it. -/
lemma Closed.of_append (h : Closed (before ++ tokens)) (hne : tokens ≠ []) :
    Closed tokens ∧ ∀ t ∈ before, t.isEnd = false := by
  induction before with
  | nil => exact ⟨h, by simp⟩
  | cons b before ih =>
    cases hb : b.isEnd with
    | true => simpa [hne] using h.behind_eq_nil hb
    | false =>
      obtain ⟨ht, hall⟩ := ih (h.tail hb)
      exact ⟨ht, by simpa using ⟨hb, hall⟩⟩

/-- A closed sequence is a body without an end of input, and an end of input behind it. -/
lemma closed_iff :
    Closed tokens ↔ ∃ body last, tokens = body ++ [last] ∧ (∀ t ∈ body, t.isEnd = false) ∧
      last.isEnd = true := by
  constructor
  · intro h
    induction h with
    | @last t ht => exact ⟨[], t, rfl, by simp, ht⟩
    | @cons t tokens ht _ ih =>
      obtain ⟨body, last, rfl, hb, hl⟩ := ih
      exact ⟨t :: body, last, rfl, by simpa using ⟨ht, hb⟩, hl⟩
  · rintro ⟨body, last, rfl, hb, hl⟩
    exact (Closed.last hl).append hb

/-- The closed sequences are those with one end of input, which comes last. -/
lemma closed_iff_count :
    Closed tokens ↔ (tokens.map kind).count .endOfInput = 1 ∧
      (tokens.map kind).getLast? = some .endOfInput := by
  rw [closed_iff]
  constructor
  · rintro ⟨body, last, rfl, hb, hl⟩
    have hl : last.kind = .endOfInput := eq_of_beq hl
    have hb : (body.map kind).count .endOfInput = 0 := by
      rw [List.count_eq_zero, List.mem_map]
      rintro ⟨t, ht, hk⟩
      exact ne_of_beq_false (hb t ht) hk
    rw [List.map_append, List.map_singleton, List.count_append, hb, hl, List.getLast?_concat]
    exact ⟨rfl, rfl⟩
  · rintro ⟨hc, hl⟩
    rw [List.getLast?_map, Option.map_eq_some_iff] at hl
    obtain ⟨last, hl, hk⟩ := hl
    obtain ⟨body, rfl⟩ := List.getLast?_eq_some_iff.1 hl
    rw [List.map_append, List.map_singleton, hk, List.count_append, List.count_singleton_self,
      Nat.add_eq_right, List.count_eq_zero] at hc
    refine ⟨body, last, rfl, fun t ht => beq_false_of_ne fun h => hc ?_, beq_iff_eq.2 hk⟩
    exact List.mem_map.2 ⟨t, ht, h⟩

instance decidableClosed : (tokens : List Token) → Decidable (Closed tokens)
  | [] => .isFalse fun h => h.ne_nil rfl
  | [t] =>
    match ht : t.isEnd with
    | true => .isTrue (.last ht)
    | false => .isFalse fun h => (h.tail ht).ne_nil rfl
  | t :: u :: tokens =>
    match ht : t.isEnd, decidableClosed (u :: tokens) with
    | false, .isTrue h => .isTrue (.cons ht h)
    | false, .isFalse h => .isFalse fun hc => h (hc.tail ht)
    | true, _ => .isFalse fun h => by simpa using h.behind_eq_nil ht

@[simp] lemma bodyKinds_append_singleton : bodyKinds (before ++ [t]) = before.map Token.kind := by
  simp [bodyKinds]

/-- The kinds before an end of input of a closed sequence. -/
lemma bodyKinds_of_isEnd (h : Closed (before ++ t :: behind)) (ht : t.isEnd = true) :
    bodyKinds (before ++ t :: behind) = before.map Token.kind := by
  rw [(h.of_append (List.cons_ne_nil _ _)).1.behind_eq_nil ht, bodyKinds_append_singleton]

/-- A closed sequence of tokens of the given kinds. -/
def ofKinds (kinds : List Kind) : List Token :=
  kinds.map (⟨.origin, ·, ""⟩) ++ [endAt .origin]

lemma closed_ofKinds {kinds : List Kind} (h : .endOfInput ∉ kinds) : Closed (ofKinds kinds) := by
  refine (Closed.last rfl).append fun t ht => ?_
  obtain ⟨k, hk, rfl⟩ := List.mem_map.1 ht
  exact beq_false_of_ne fun e => h (e ▸ hk)

lemma bodyKinds_append_ofKinds (before : List Token) (kinds : List Kind) :
    bodyKinds (before ++ ofKinds kinds) = before.map Token.kind ++ kinds := by
  simp [ofKinds, ← List.append_assoc, Function.comp_def]

/-- The first end of input of a closed sequence is its last token. -/
lemma Closed.dropWhile_eq (h : Closed tokens) :
    ∃ last, tokens.dropWhile (!·.isEnd) = [last] := by
  induction h with
  | @last t ht => exact ⟨t, by simp [ht]⟩
  | @cons t tokens ht _ ih => simpa [ht] using ih

/-- Where a sequence is blamed for not being closed: at its first end of input, or at its last token
if it has none. -/
def unclosedIndex (tokens : List Token) : Nat :=
  (tokens.findIdx? isEnd).getD (tokens.length - 1)

lemma dropWhile_eq_drop_findIdx :
    tokens.dropWhile (!·.isEnd) = tokens.drop (tokens.findIdx isEnd) := by
  simp only [List.dropWhile_eq_drop_findIdx_not, Bool.not_not]

/-- A sequence that has an end of input is blamed at the first one. -/
lemma getElem?_unclosedIndex {extra : Token}
    (h : tokens.dropWhile (!·.isEnd) = extra :: behind) :
    tokens[unclosedIndex tokens]? = some extra := by
  have hget : tokens[tokens.findIdx isEnd]? = some extra := by
    rw [← List.head?_drop, ← dropWhile_eq_drop_findIdx, h, List.head?_cons]
  have hlt := (List.getElem?_eq_some_iff.1 hget).1
  have hi : tokens.findIdx? isEnd = some (tokens.findIdx isEnd) :=
    List.findIdx?_eq_some_iff_findIdx_eq.2 ⟨hlt, rfl⟩
  rwa [unclosedIndex, hi]

/-- A sequence without an end of input is blamed at its last token. -/
lemma getElem?_unclosedIndex_of_nil (h : tokens.dropWhile (!·.isEnd) = []) :
    tokens[unclosedIndex tokens]? = tokens.getLast? := by
  rw [dropWhile_eq_drop_findIdx, List.drop_eq_nil_iff] at h
  have hi : tokens.findIdx? isEnd = none :=
    List.findIdx?_eq_none_iff_findIdx_eq.2 (Nat.le_antisymm List.findIdx_le_length h)
  rw [unclosedIndex, hi, Option.getD_none, List.getLast?_eq_getElem?]

/-- A sequence is blamed at its first end of input, or else at its last token. -/
lemma getElem?_unclosedIndex_eq :
    tokens[unclosedIndex tokens]? = (tokens.find? isEnd).or tokens.getLast? := by
  have hf : tokens.find? isEnd = (tokens.dropWhile (!·.isEnd)).head? := by
    rw [dropWhile_eq_drop_findIdx, List.head?_drop, List.find?_eq_getElem?_findIdx]
  rw [hf]
  cases hd : tokens.dropWhile (!·.isEnd) with
  | nil => exact getElem?_unclosedIndex_of_nil hd
  | cons t behind => exact getElem?_unclosedIndex hd

/-- If the first end of input is the last token, the sequence is closed. -/
lemma closed_of_dropWhile_eq {last : Token} (h : tokens.dropWhile (!·.isEnd) = [last]) :
    Closed tokens := by
  induction tokens with
  | nil => simp at h
  | cons t tokens ih =>
    cases ht : t.isEnd with
    | true =>
      simp only [List.dropWhile_cons, ht] at h
      simp at h
      obtain ⟨rfl, rfl⟩ := h
      exact .last ht
    | false =>
      simp only [List.dropWhile_cons, ht] at h
      exact .cons ht (ih (by simpa using h))

end Token

namespace Cursor

open Token (Closed)

variable {c : Cursor} {tokens : List Token}

/-- A cursor can be made of the closed sequences, and then it stands at the first token. -/
lemma ofTokens_eq_ok_iff :
    ofTokens tokens = .ok c ↔ Closed tokens ∧ c.position = 0 ∧ c.remaining = tokens := by
  constructor
  · intro h
    unfold ofTokens at h
    split at h
    · rename_i first behind last hd
      cases h
      exact ⟨Token.closed_of_dropWhile_eq hd, rfl, rfl⟩
    · cases h
    · cases h
  · rintro ⟨h, hp, rfl⟩
    obtain ⟨last, hd⟩ := h.dropWhile_eq
    obtain ⟨position, current, behind⟩ := c
    cases hp
    simp only [remaining] at hd
    simp only [ofTokens, remaining, hd]

/-- Any other sequence is an error, at the start of the text if there are no tokens at all. -/
lemma ofTokens_of_not_closed (h : ¬Closed tokens) :
    ofTokens tokens =
      .error ⟨(tokens[Token.unclosedIndex tokens]?.map Token.span).getD .origin,
        .missingEndOfInput⟩ := by
  cases hd : tokens.dropWhile (!·.isEnd) with
  | nil =>
    rw [Token.getElem?_unclosedIndex_of_nil hd]
    simp only [ofTokens, hd]
  | cons extra behind =>
    rw [Token.getElem?_unclosedIndex hd]
    cases behind with
    | nil => exact absurd (Token.closed_of_dropWhile_eq hd) h
    | cons _ _ =>
      simp only [ofTokens, hd]
      rfl

/-- A closed sequence of tokens makes a cursor. -/
lemma ofTokens_of_closed (h : Closed tokens) :
    ∃ c, ofTokens tokens = .ok c ∧ c.position = 0 ∧ c.remaining = tokens := by
  cases tokens with
  | nil => exact absurd rfl h.ne_nil
  | cons t behind => exact ⟨⟨0, t, behind⟩, ofTokens_eq_ok_iff.2 ⟨h, rfl, rfl⟩, rfl, rfl⟩

/-- A cursor that advances goes past one token, unless that is the end of input. -/
lemma remaining_eq_cons (h : Closed c.remaining) (hc : c.peek.isEnd = false) :
    c.remaining = c.peek :: c.advance.remaining := by
  have hb := Closed.tail h hc
  have he : c.isAtEnd = false := hc
  cases hbe : c.behind with
  | nil => exact absurd hbe hb.ne_nil
  | cons t behind => simp [advance, he, hbe, remaining, peek]

/-- Advancing changes the position by the number of tokens that the cursor goes past. -/
lemma position_advance (c : Cursor) :
    c.advance.position + c.advance.remaining.length = c.position + c.remaining.length := by
  unfold advance
  split
  · rfl
  · split
    · rfl
    · rename_i hb
      simp only [remaining, hb, List.length_cons]
      omega

end Cursor

end PinsSyntax
