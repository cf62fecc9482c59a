import Mathlib.Data.List.Chain
import PinsSyntax.Proofs.Token.Scanning

/-!
# Writing tokens and scanning them

Tokens that are written one after another are scanned back, whatever trivia stand between them, if
those that would fuse are kept apart (`scan_textOf`). The gaps between the others may be empty: what
comes behind a spelling then does not go on with it (`Piece.maximal_of_isChain`).
-/

namespace PinsSyntax

open Piece (textOf)

variable {pieces : List Piece} {gap : List Char}

/-- Trivia at the end of a text go on with no spelling. -/
lemma LastTrivia.endsBefore {k : Kind} (h : LastTrivia gap) : k.EndsBefore gap := by
  intro c hc
  obtain ⟨text, rfl⟩ := List.head?_eq_some_iff.1 hc
  exact Kind.goesOnWith_of_startsTrivia h.head

/-- Spellings that are kept apart where they would fuse could not be longer. -/
lemma Piece.maximal_of_isChain
    (hs : pieces.IsChain fun p q => p.kind.fuses q.kind = true → q.gap ≠ []) (hg : LastTrivia gap) :
    Maximal pieces gap := by
  induction hs with
  | nil => exact trivial
  | singleton p => exact ⟨hg.endsBefore, trivial⟩
  | @cons_cons p q ps h _ ih =>
    refine ⟨?_, ih⟩
    rw [textOf_cons, List.append_assoc]
    exact q.endsBefore_text h

/-- Pieces of which those that would fuse have a gap between them, and trivia behind the last one,
are scanned to the kinds and lexemes of the pieces, and an end of input behind them. -/
theorem scan_textOf
    (hs : pieces.IsChain fun p q => p.kind.fuses q.kind = true → q.gap ≠ []) (hg : LastTrivia gap) :
    ∃ tokens, scan (String.ofList (textOf pieces ++ gap)) = .ok tokens ∧
      tokens.map (fun t => (t.kind, t.lexeme)) =
        pieces.map (fun p => (p.kind, p.lexeme)) ++ [(.endOfInput, "$")] := by
  let l : Layout (String.ofList (textOf pieces ++ gap)).toList :=
    ⟨pieces, gap, _, String.toList_ofList, Piece.maximal_of_isChain hs hg, .endOfInput hg⟩
  exact ⟨_, l.scan_eq, l.map_tokens _⟩

/-- Most tokens need no gap between them, and the last comment may be left open. -/
theorem scan_textOf_withoutGaps :
    let pieces : List Piece := [
      ⟨[], .integerConstant, "12", .nil, by decide⟩,
      ⟨[], .identifier, "ab", .nil, by decide⟩,
      ⟨[], .stringConstant, "it's", .nil, by decide⟩,
      ⟨[], .bang, "!", .nil, by decide⟩,
      ⟨[], .bangEqual, "!=", .nil, by decide⟩,
      ⟨['\t'], .equal, "=", .blank rfl .nil, by decide⟩]
    let gap := ['#', 'é']
    textOf pieces ++ gap = "12ab'it''s'!!=\t=#é".toList ∧
    (pieces.IsChain (fun p q => p.kind.fuses q.kind = true → q.gap ≠ []) ∧ LastTrivia gap) ∧
    ∃ tokens, scan (String.ofList (textOf pieces ++ gap)) = .ok tokens ∧
      tokens.map (fun t => (t.kind, t.lexeme)) =
        pieces.map (fun p => (p.kind, p.lexeme)) ++ [(.endOfInput, "$")] := by
  intro pieces gap
  have hs : pieces.IsChain fun p q => p.kind.fuses q.kind = true → q.gap ≠ [] := by
    simp [pieces, Kind.fuses, Kind.isWordlike, Kind.keyword?]
  have hg : LastTrivia gap := .opened .nil (List.forall_mem_singleton.2 rfl)
  exact ⟨by decide, ⟨hs, hg⟩, scan_textOf hs hg⟩

end PinsSyntax
