import PinsSyntax.Proofs.Token.Moving

/-!
# Comments

A comment behind a text that is scanned, up to the end of the line, is scanned as if it were not
there (`scan_comment`). A line break leads to the same place with the comment in front of it and
without (`Reader.advance_comment`), and so a scanner behind the line break is only moved by the
bytes of the comment. If there is no line break, the end of input is all that comes behind.
-/

namespace PinsSyntax

open CharClass
open Piece (textOf tokensBehind)

variable {before gap text rest body : List Char} {c : Char} {l l' : Location}

/-- No line is left without a line break. -/
lemma Location.line_through (h : ∀ c ∈ text, isLineBreak c = false) :
    (l.through text).line = l.line := by
  fun_induction through l text with
  | case1 => rfl
  | case2 l text ih => cases h '\r' List.mem_cons_self
  | case3 l c text hc ih =>
    obtain ⟨hc, h⟩ := List.forall_mem_cons.1 h
    rw [ih h, past, if_neg (mt isLineBreak_iff.2 (by simp [hc]))]
    split <;> rfl

namespace Reader

/-- A line break leads to the same place from everywhere on the line. -/
lemma advance_lineBreak_moved {offset bytes : Nat} (hc : isLineBreak c = true)
    (hl : l'.line = l.line) :
    (mk (c :: rest) (offset + bytes) l').advance =
      (mk (c :: rest) offset l).advance.moved ⟨0, bytes, []⟩ := by
  have hn : l'.nextLine = l.nextLine := by rw [Location.nextLine, hl, Location.nextLine]
  by_cases hu : Unbroken [c] rest
  · have hp (l : Location) : l.past c = l.nextLine := if_pos (isLineBreak_iff.1 hc)
    rw [advance_cons hu, advance_cons hu, hp, hp, hn, moved, List.append_nil, Nat.add_right_comm]
    rfl
  · obtain ⟨rfl, rest, rfl⟩ := Unbroken.of_not_singleton hu
    simp only [advance, hn, moved, List.append_nil, Nat.add_right_comm]
    rfl

/-- A comment in front of a line break leaves the reader behind this at the same place. -/
lemma advance_comment (hb : ∀ d ∈ body, isLineBreak d = false) (hc : isLineBreak c = true) :
    (behind (before ++ '#' :: body) (c :: rest)).advance =
      (behind before (c :: rest)).advance.moved ⟨0, byteLength ('#' :: body), []⟩ := by
  have hl : ∀ d ∈ '#' :: body, isLineBreak d = false := List.forall_mem_cons.2 ⟨rfl, hb⟩
  rw [behind, byteLength_append, Location.through_append (.of_head_ne (by decide))]
  exact advance_lineBreak_moved hc (Location.line_through hl)

/-- The line break behind a comment that is open is skipped with it. -/
lemma skipTrivia_append_lineBreak (hg : LastTrivia gap) (hu : Unbroken before (gap ++ c :: rest))
    (hr : Unbroken gap (c :: rest)) (hc : isLineBreak c = true) :
    (behind before (gap ++ c :: rest)).skipTrivia =
      (behind (before ++ gap) (c :: rest)).advance.skipTrivia := by
  rw [skipTrivia_append_last hg hu hr (by simpa using hc)]
  exact skipTrivia_of_blank (isBlank_of_isLineBreak hc)

end Reader

namespace Scanner

/-- A scanner yields the same behind trivia with a comment as behind the trivia alone. -/
lemma exists_yields_comment (hu : ∀ rest, Unbroken before rest) (hg : LastTrivia gap)
    (hr : Unbroken gap (c :: rest)) (hb : ∀ d ∈ body, isLineBreak d = false)
    (hc : isLineBreak c = true) :
    ∃ items, (behind before (gap ++ c :: rest)).Yields items ∧
      (behind before (gap ++ '#' :: body ++ c :: rest)).Yields items := by
  let r := (Reader.behind (before ++ gap) (c :: rest)).advance
  let s : Scanner := ⟨r, r, false⟩
  obtain ⟨items, hy⟩ := s.exists_yields
  have hy' := hy.moved (m := ⟨0, byteLength ('#' :: body), []⟩) rfl
  rw [Item.down_zero, List.map_id] at hy'
  have hl : ∀ d ∈ '#' :: body, isLineBreak d = false := List.forall_mem_cons.2 ⟨rfl, hb⟩
  have hr' : Unbroken (gap ++ '#' :: body) (c :: rest) := .of_not_isLineBreak _ (by simp) hl
  have ht := Reader.skipTrivia_append_lineBreak hg (hu _) hr hc
  have ht' := Reader.skipTrivia_append_lineBreak (hg.append_comment hb) (hu _) hr' hc
  rw [← List.append_assoc before, Reader.advance_comment hb hc] at ht'
  exact ⟨items, (yields_iff_of_skipTrivia_eq rfl rfl ht).2 hy,
    (yields_iff_of_skipTrivia_eq rfl rfl ht').2 hy'⟩

end Scanner

variable {a b body : String} {tokens : List Token}

/-- A comment that runs to the end of a text moves the end of input. -/
lemma scan_append_comment (ha : scan a = .ok tokens)
    (hc : ∀ c ∈ body.toList, isLineBreak c = false) :
    ∃ front l l', tokens = front ++ [Token.endAt l] ∧
      scan (a ++ "#" ++ body) = .ok (front ++ [Token.endAt l']) := by
  obtain ⟨ps, gap, ht, hm, hg, rfl⟩ := exists_pieces_of_scan_ok ha
  let l : Layout (a ++ "#" ++ body).toList :=
    ⟨ps, gap ++ '#' :: body.toList, _, by simp [ht], hm.append rfl body.toList,
      .endOfInput (hg.append_comment hc)⟩
  exact ⟨tokensBehind [] ps, _, _, rfl, l.scan_eq⟩

/-- A comment in front of a line break changes nothing. -/
lemma scan_append_comment_lineBreak (ha : scan a = .ok tokens)
    (hc : ∀ c ∈ body.toList, isLineBreak c = false) (hu : Unbroken a.toList b.toList)
    (hb : ∃ c rest, b.toList = c :: rest ∧ isLineBreak c = true) :
    scan (a ++ "#" ++ body ++ b) = scan (a ++ b) := by
  obtain ⟨ps, gap, ht, hm, hg, -⟩ := exists_pieces_of_scan_ok ha
  obtain ⟨c, rest, hs, hl⟩ := hb
  rw [ht, hs] at hu
  have hstart : startsTrivia c = true := by simp [startsTrivia, isBlank_of_isLineBreak hl]
  obtain ⟨items, hy, hy'⟩ :=
    Scanner.exists_yields_comment (Piece.unbroken_textOf ps) hg hu.of_append hc hl
  have hm' := (hm.append (c := '#') rfl body.toList).append hstart rest
  have hy := Scanner.yields_pieces (.start _) (hm.append hstart rest) hy
  have hy' := Scanner.yields_pieces (.start _) hm' hy'
  have he : (a ++ b).toList = textOf ps ++ (gap ++ c :: rest) := by simp [ht, hs]
  have he' : (a ++ "#" ++ body ++ b).toList =
      textOf ps ++ (gap ++ '#' :: body.toList ++ c :: rest) := by simp [ht, hs]
  rw [← he] at hy
  rw [← he'] at hy'
  exact hy'.collect_congr hy

/-- If a comment is put behind a text that is scanned, where the text or the line ends, then what
is scanned with anything behind it stays the same. Only the end of input of a text that ends with
the comment has another place. -/
theorem scan_comment (ha : scan a = .ok tokens) (hc : ∀ c ∈ body.toList, isLineBreak c = false)
    (hb : ∀ c ∈ b.toList.head?, isLineBreak c = true) (hu : Unbroken a.toList b.toList) :
    if b = "" then
      ∃ front l l', scan (a ++ b) = .ok (front ++ [Token.endAt l]) ∧
        scan (a ++ "#" ++ body ++ b) = .ok (front ++ [Token.endAt l'])
    else scan (a ++ "#" ++ body ++ b) = scan (a ++ b) := by
  split
  · rename_i he
    obtain ⟨front, l, l', rfl, h⟩ := scan_append_comment ha hc
    rw [he, String.append_empty, String.append_empty]
    exact ⟨front, l, l', ha, h⟩
  · rename_i he
    obtain ⟨c, rest, hs⟩ := List.exists_cons_of_ne_nil (mt String.toList_eq_nil_iff.1 he)
    have hl : isLineBreak c = true := hb c (by simp [hs])
    exact scan_append_comment_lineBreak ha hc hu ⟨c, rest, hs, hl⟩

/-- A comment goes on with another one, and the line break behind them takes two characters. -/
theorem scan_comment_openComment :
    let a := "x #é"
    let body := "#'"
    let b := "\r\ny"
    let x : Token := ⟨⟨⟨1, 1⟩, ⟨1, 2⟩⟩, .identifier, "x"⟩
    let y : Token := ⟨⟨⟨2, 1⟩, ⟨2, 2⟩⟩, .identifier, "y"⟩
    scan a = .ok [x, Token.endAt ⟨1, 5⟩] ∧ (∀ c ∈ body.toList, isLineBreak c = false) ∧
    (∀ c ∈ b.toList.head?, isLineBreak c = true) ∧ Unbroken a.toList b.toList ∧
    scan (a ++ b) = .ok [x, y, Token.endAt ⟨2, 2⟩] ∧
    scan (a ++ "#" ++ body ++ b) = .ok [x, y, Token.endAt ⟨2, 2⟩] := by
  intro a body b x y
  let l : Layout a.toList := ⟨[⟨[], .identifier, "x", .nil, by decide⟩], [' ', '#', 'é'], _,
    by decide, by decide, .endOfInput (.opened (.blank rfl .nil) (List.forall_mem_singleton.2 rfl))⟩
  let pieces : List Piece := [
    ⟨[], .identifier, "x", .nil, by decide⟩,
    ⟨' ' :: '#' :: (['é'] ++ ['\r', '\n']), .identifier, "y",
      .blank rfl (.comment (List.forall_mem_singleton.2 rfl) rfl (.blank rfl (.blank rfl .nil))),
      by decide⟩]
  let l' : Layout (a ++ b).toList :=
    ⟨pieces, [], _, by decide, by decide, .endOfInput (.closed .nil)⟩
  have ha : scan a = .ok [x, Token.endAt ⟨1, 5⟩] := l.scan_eq
  have hab : scan (a ++ b) = .ok [x, y, Token.endAt ⟨2, 2⟩] := l'.scan_eq
  have hbody : body.toList = ['#', '\''] := by decide
  have hc : ∀ c ∈ body.toList, isLineBreak c = false := by
    rw [hbody]
    exact List.forall_mem_cons.2 ⟨rfl, List.forall_mem_singleton.2 rfl⟩
  have hhead : b.toList.head? = some '\r' := by decide
  have hb : ∀ c ∈ b.toList.head?, isLineBreak c = true := by
    rw [hhead]
    rintro c ⟨⟩
    rfl
  have hu : Unbroken a.toList b.toList := fun h => absurd h (by decide)
  have h := scan_comment ha hc hb hu
  rw [if_neg (by decide), hab] at h
  exact ⟨ha, hc, hb, hu, hab, h⟩

end PinsSyntax
