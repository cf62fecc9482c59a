import PinsSyntax.Proofs.Token.Scanning

/-!
# The order of items

The items of a text stand in it one behind the other: none starts in front of where an earlier one
ends (`pairwise_items`). A token stands on one line and takes the columns of its spelling
(`Piece.span_token`), which its kind and its lexeme tell (`Token.width`). So no two tokens start at
the same place (`items_ordered`).
-/

namespace PinsSyntax

open Location (origin)
open Piece (textOf tokensBehind)

/-- The columns that a token is written over: one for each character of its lexeme, and in a string
constant one more for each of its quotes and for the two around it. -/
def Token.width (t : Token) : Nat :=
  match t.kind with
  | .stringConstant => t.lexeme.length + t.lexeme.toList.count '\'' + 2
  | _ => t.lexeme.length

/-- The span of the token, or of what the error is about. -/
def Item.span : Item → Span
  | .ok t => t.span
  | .error e => e.span

variable {before rest text gap : List Char} {p : Piece} {ps : List Piece} {item last : Item}
  {t : Token} {e : LexicalError}

lemma Token.length_spell (t : Token) : (t.kind.spell t.lexeme).length = t.width := by
  obtain ⟨span, kind, lexeme⟩ := t
  cases kind with
  | stringConstant =>
    simp only [Kind.spell, width, List.length_cons, List.length_append, length_doubleQuotes,
      String.length_toList, List.length_nil]
  | _ => exact String.length_toList

namespace Piece

/-- The token of a piece stands on one line, over the columns of its spelling. -/
lemma span_token (p : Piece) (before : List Char) :
    Span.of (before ++ p.gap) p.spelling =
      ⟨origin.through (before ++ p.gap),
        (origin.through (before ++ p.gap)).right p.spelling.length⟩ := by
  have hp : ∀ c ∈ p.spelling, CharClass.isPrintable c = true :=
    fun c hc => p.admits.isPrintable_of_mem hc
  rw [Span.of, Location.through_append (p.unbroken_spelling _), Location.through_of_isPrintable hp]

lemma length_spelling_pos (p : Piece) : 0 < p.spelling.length := by
  obtain ⟨c, cs, hs, -⟩ := p.spelling_eq_cons
  rw [hs]
  exact Nat.zero_lt_succ _

lemma span_of_mem_tokensBehind (h : t ∈ tokensBehind before ps) :
    t.span.stop = t.span.start.right t.width ∧ 0 < t.width := by
  induction ps generalizing before with
  | nil => cases h
  | cons p ps ih =>
    obtain rfl | h := List.mem_cons.1 h
    · rw [← Token.length_spell]
      exact ⟨congrArg Span.stop (p.span_token before), p.length_spelling_pos⟩
    · exact ih h

end Piece

/-- A text is refused at the place where it starts or behind that. -/
lemma Refused.through_le_start (h : Refused before text e) :
    origin.through before ≤ e.span.start := by
  cases h with
  | stray | unterminated => exact le_refl _
  | unprintable => exact Location.through_le_append (.of_head_ne (by decide))

/-- What ends a text does not start in front of where the last token ends. -/
lemma Ending.through_le_start (h : Ending before rest last) (hu : Unbroken before rest) :
    origin.through before ≤ last.span.start := by
  cases h with
  | endOfInput => exact Location.through_le_append hu
  | refused hg he => exact le_trans (Location.through_le_append hu.left) he.through_le_start

/-- No item behind a text starts within this text. -/
lemma through_le_start_of_mem (hu : Unbroken before (textOf ps ++ rest))
    (he : Ending (before ++ textOf ps) rest last)
    (hi : item ∈ (tokensBehind before ps).map .ok ++ [last]) :
    origin.through before ≤ item.span.start := by
  induction ps generalizing before with
  | nil =>
    rw [Piece.textOf_nil, List.append_nil] at he
    cases List.mem_singleton.1 hi
    exact he.through_le_start hu
  | cons p ps ih =>
    rw [Piece.textOf_cons, ← List.append_assoc] at he
    rw [Piece.textOf_cons, List.append_assoc] at hu
    obtain rfl | hi := List.mem_cons.1 hi
    · have hg : Unbroken before p.gap := by
        rw [Piece.text, List.append_assoc] at hu
        exact hu.left
      exact Location.through_le_append hg
    · exact le_trans (Location.through_le_append hu.left)
        (ih (p.unbroken_append_text before _) he hi)

/-- Each item behind a text starts where the items in front of it end, or further on. -/
lemma pairwise_items (hu : Unbroken before (textOf ps ++ rest))
    (he : Ending (before ++ textOf ps) rest last) :
    ((tokensBehind before ps).map .ok ++ [last] : List Item).Pairwise
      fun a b => a.span.stop ≤ b.span.start := by
  induction ps generalizing before with
  | nil => exact List.pairwise_singleton ..
  | cons p ps ih =>
    rw [Piece.textOf_cons, ← List.append_assoc] at he
    have hu := p.unbroken_append_text before (textOf ps ++ rest)
    refine .cons (fun item hi => ?_) (ih hu he)
    have hle := through_le_start_of_mem hu he hi
    rw [Piece.text, ← List.append_assoc] at hle
    exact hle

/-- A scanner yields tokens that stand on one line each, over as many columns as their lexemes tell,
and then the end of input, which takes no column, or an error. No item starts in front of where an
earlier one ends, and the tokens start one behind the other. -/
theorem items_ordered (source : String) :
    ∃ (tokens : List Token) (last : Item),
      (Scanner.ofString source).Yields (tokens.map .ok ++ [last]) ∧
      (∀ t ∈ tokens, t.kind ≠ .endOfInput ∧ t.span.stop.line = t.span.start.line ∧
        t.span.stop.column = t.span.start.column + t.width) ∧
      (∀ t, last = .ok t → t.kind = .endOfInput ∧ t.span.stop = t.span.start) ∧
      (tokens.map .ok ++ [last] : List Item).Pairwise
        (fun a b => a.span.stop ≤ b.span.start) ∧
      tokens.Pairwise fun t u => t.span.start < u.span.start := by
  obtain ⟨l⟩ := exists_layout source.toList
  have hu : Unbroken [] (textOf l.pieces ++ l.rest) := nofun
  have hp := pairwise_items hu l.ending
  refine ⟨l.tokens, l.last, l.yields, fun t ht => ?_, fun t ht => ?_, hp, ?_⟩
  · have hs := (Piece.span_of_mem_tokensBehind ht).1
    refine ⟨ne_of_beq_false (Piece.isEnd_eq_false_of_mem_tokensBehind ht), ?_, ?_⟩
    · rw [hs]
      rfl
    · rw [hs]
      rfl
  · obtain hl | ⟨e, hl⟩ := l.last_cases
    · cases hl.symm.trans ht
      exact ⟨rfl, rfl⟩
    · cases hl.symm.trans ht
  · refine (List.pairwise_map.1 (List.pairwise_append.1 hp).1).imp_of_mem fun {t u} ht _ hle => ?_
    obtain ⟨hs, hw⟩ := Piece.span_of_mem_tokensBehind ht
    calc t.span.start < t.span.start.right t.width := Location.lt_right _ hw
      _ = t.span.stop := hs.symm
      _ ≤ u.span.start := hle

end PinsSyntax
