import PinsSyntax.Proofs.Token.Moving

/-!
# Scanning line by line

A line feed ends whatever a text may be in the middle of: a number, a word, a symbol, a comment or a
string that is not closed. So a text is scanned up to a line feed and on from it as two texts, and
the items of the second one are moved down by the lines of the first (`scan_append_lineFeed`). A
scanner behind the line feed is one of the second text that is moved (`Layout.yields_down`).
-/

namespace PinsSyntax

open CharClass
open Piece (textOf tokensBehind)

variable {before text : List Char} {n : Nat} {e : LexicalError} {a : String} {tokens : List Token}
  {ps : List Piece} {gap : List Char} {items : List Item}

/-- A line starts behind a line feed, also if that belongs to a carriage return in front of it. -/
lemma exists_lineStart (text : List Char) :
    ∃ n, Location.origin.through (text ++ ['\n']) = Location.origin.down n := by
  have hl : ∃ l : Location, Location.origin.through (text ++ ['\n']) = l.nextLine := by
    by_cases hu : Unbroken text ['\n']
    · exact ⟨_, Location.through_append hu⟩
    · -- The carriage return at the end and the line feed are one line break.
      obtain ⟨hr, -⟩ := Classical.not_imp.1 hu
      obtain ⟨text, rfl⟩ := List.getLast?_eq_some_iff.1 hr
      rw [List.append_assoc]
      exact ⟨_, Location.through_append (.of_head_ne (by decide))⟩
  obtain ⟨l, hl⟩ := hl
  refine ⟨l.line, ?_⟩
  rw [hl, Location.nextLine, Nat.add_comm]
  rfl

/-- Where a line starts, a text is scanned to the same items, further down. -/
lemma Layout.yields_down (l : Layout text)
    (h : Location.origin.through before = Location.origin.down n) :
    (Scanner.behind before text).Yields
      ((l.tokens.map (·.down n)).map .ok ++ [l.last.down n]) := by
  have hb : Scanner.behind before text =
      (Scanner.behind [] text).moved ⟨n, byteLength before, []⟩ := by
    simp only [Scanner.behind, Scanner.moved, Reader.moved, Reader.behind, h, List.append_nil,
      byteLength, Nat.zero_add]
    rfl
  have hi : l.items.map (Item.down n) =
      (l.tokens.map (·.down n)).map .ok ++ [l.last.down n] := by
    rw [items, List.map_append, List.map_map, List.map_map]
    rfl
  rw [hb, ← hi]
  exact l.yields_behind.moved rfl

/-- A text that is not scanned has the same error whatever comes behind its line. -/
lemma scan_append_lineFeed_of_error (h : scan a = .error e) (b : String) :
    scan (a ++ "\n" ++ b) = .error e := by
  obtain ⟨ps, gap, rest, ht, hm, hg, he⟩ := exists_refused_of_scan_error h
  have hm := hm.append (c := '\n') rfl b.toList
  rw [List.append_assoc] at hm
  let l : Layout (a ++ "\n" ++ b).toList :=
    ⟨ps, gap ++ (rest ++ '\n' :: b.toList), _, by simp [ht], hm, .refused hg (he.append rfl _)⟩
  exact l.scan_eq

/-- A scanner of a text that is scanned goes on behind a line feed as one that starts there. -/
lemma Scanner.yields_append_lineFeed (hm : Piece.Maximal ps gap) (hg : LastTrivia gap)
    (hy : (behind (textOf ps ++ gap ++ ['\n']) text).Yields items) :
    (behind [] (textOf ps ++ (gap ++ '\n' :: text))).Yields
      ((tokensBehind [] ps).map .ok ++ items) := by
  have hs : gap ++ '\n' :: text = gap ++ ['\n'] ++ text := List.append_cons ..
  have hu : Unbroken [] (textOf ps ++ (gap ++ '\n' :: text)) := .start _
  refine yields_pieces hu (hm.append rfl text) ?_
  have hu := Piece.unbroken_append_textOf hu
  rw [hs] at hu ⊢
  refine yields_trivia hg.append_lineFeed hu (.of_last_ne gap (by decide)) ?_
  rw [List.append_assoc] at hy
  exact hy

lemma scan_empty : scan "" = .ok [Token.endAt .origin] := by
  let l : Layout "".toList := ⟨[], [], _, rfl, trivial, .endOfInput (.closed .nil)⟩
  exact l.scan_eq

/-- A text that is scanned is followed by what another one is scanned to, further down, if a line
feed stands between them. -/
lemma scan_append_lineFeed_of_ok (h : scan a = .ok tokens) :
    ∃ front last n, tokens = front ++ [last] ∧ last.isEnd = true ∧
      ∀ b, scan (a ++ "\n" ++ b) =
        match scan b with
        | .ok tokens' => .ok (front ++ tokens'.map (·.down n))
        | .error e => .error (e.down n) := by
  obtain ⟨ps, gap, ht, hm, hg, rfl⟩ := exists_pieces_of_scan_ok h
  obtain ⟨n, hn⟩ := exists_lineStart (textOf ps ++ gap)
  refine ⟨tokensBehind [] ps, _, n, rfl, rfl, fun b => ?_⟩
  obtain ⟨l⟩ := exists_layout b.toList
  have hs : (a ++ "\n" ++ b).toList = textOf ps ++ (gap ++ '\n' :: b.toList) := by simp [ht]
  have hy := Scanner.yields_append_lineFeed hm hg (l.yields_down hn)
  rw [← hs, ← List.append_assoc, ← List.map_append] at hy
  rw [scan, Scanner.ofString_eq_behind, hy.collect_eq, l.scan_eq]
  cases l.last with
  | ok t => simp [Item.down, Except.map]
  | error e => rfl

/-- If a text is not scanned, it has the same error with a line feed and any text behind it. If it
is scanned, and the end of input lies on the line `n + 1` when a line feed comes behind the text,
then whatever comes behind the line feed is scanned as it is on its own, only `n` lines further
down. -/
theorem scan_append_lineFeed (a b : String) :
    match scan a with
    | .error e => scan (a ++ "\n" ++ b) = .error e
    | .ok tokens => ∃ front last n, tokens = front ++ [last] ∧ last.isEnd = true ∧
        scan (a ++ "\n") = .ok (front ++ [Token.endAt ⟨n + 1, 1⟩]) ∧
        scan (a ++ "\n" ++ b) =
          match scan b with
          | .ok tokens' => .ok (front ++ tokens'.map (·.down n))
          | .error e => .error (e.down n) := by
  cases ha : scan a with
  | error e => exact scan_append_lineFeed_of_error ha b
  | ok tokens =>
    obtain ⟨front, last, n, rfl, hl, hn⟩ := scan_append_lineFeed_of_ok ha
    refine ⟨front, last, n, rfl, hl, ?_, hn b⟩
    have hn := hn ""
    rw [String.append_empty, scan_empty] at hn
    rw [hn, Nat.add_comm]
    rfl

end PinsSyntax
