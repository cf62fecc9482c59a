import PinsSyntax.Proofs.Token.Scanning

/-!
# How the scanner splits a text

* `scan_ok_splits`: a text that is scanned is made of trivia and the spellings of its tokens, none
  of which could be longer.
* `scan_eq_error_iff_refused`: a text is not scanned if and only if it is refused behind such
  pieces, and then these are what the scanner yields before the error.
* `items_spans`: the span of an item runs from the location behind the text in front of it to the
  location behind its own text.
-/

namespace PinsSyntax

open Piece (textOf tokensBehind)

variable {source : String} {tokens : List Token} {rest gap : List Char} {ps : List Piece}
  {e : LexicalError}

/-- A text that is scanned is made of trivia and the spellings of its tokens in turn, each of them
as long as it could be, and its last token is an end of input. -/
theorem scan_ok_splits (h : scan source = .ok tokens) :
    ∃ (pieces : List Piece) (gap : List Char),
      source.toList = textOf pieces ++ gap ∧ LastTrivia gap ∧ Piece.Maximal pieces gap ∧
      tokens.map (fun t => (t.kind, t.lexeme)) =
        pieces.map (fun p => (p.kind, p.lexeme)) ++ [(.endOfInput, "$")] := by
  obtain ⟨l⟩ := exists_layout source.toList
  rw [l.scan_eq] at h
  obtain ⟨pieces, rest, last, ht, hm, he⟩ := l
  cases he with
  | endOfInput hg =>
    cases h
    exact ⟨pieces, rest, ht, hg, hm, Layout.map_tokens ..⟩
  | refused => cases h

/-- A comment ends in front of the line break behind it, and a doubled quote stands for one. -/
theorem scan_ok_splits_comment :
    let source := "if x1<=12#é\r\n'it''s'"
    let tokens : List Token := [
      ⟨⟨⟨1, 1⟩, ⟨1, 3⟩⟩, .ifWord, "if"⟩,
      ⟨⟨⟨1, 4⟩, ⟨1, 6⟩⟩, .identifier, "x1"⟩,
      ⟨⟨⟨1, 6⟩, ⟨1, 8⟩⟩, .lessEqual, "<="⟩,
      ⟨⟨⟨1, 8⟩, ⟨1, 10⟩⟩, .integerConstant, "12"⟩,
      ⟨⟨⟨2, 1⟩, ⟨2, 8⟩⟩, .stringConstant, "it's"⟩,
      Token.endAt ⟨2, 8⟩]
    scan source = .ok tokens ∧
    ∃ (pieces : List Piece) (gap : List Char),
      source.toList = textOf pieces ++ gap ∧ LastTrivia gap ∧ Piece.Maximal pieces gap ∧
      tokens.map (fun t => (t.kind, t.lexeme)) =
        pieces.map (fun p => (p.kind, p.lexeme)) ++ [(.endOfInput, "$")] := by
  intro source tokens
  let pieces : List Piece := [
    ⟨[], .ifWord, "if", .nil, by decide⟩,
    ⟨[' '], .identifier, "x1", .blank rfl .nil, by decide⟩,
    ⟨[], .lessEqual, "<=", .nil, by decide⟩,
    ⟨[], .integerConstant, "12", .nil, by decide⟩,
    ⟨'#' :: (['é'] ++ ['\r', '\n']), .stringConstant, "it's",
      .comment (List.forall_mem_singleton.2 rfl) rfl (.blank rfl (.blank rfl .nil)), by decide⟩]
  have hm : Piece.Maximal pieces [] := by decide
  let l : Layout source.toList := ⟨pieces, [], _, by decide, hm, .endOfInput (.closed .nil)⟩
  have h : scan source = .ok tokens := l.scan_eq
  exact ⟨h, scan_ok_splits h⟩

/-- The text is made of pieces that could not be longer, trivia behind them, and `rest`. -/
structure Splits (text : List Char) (pieces : List Piece) (gap rest : List Char) : Prop where
  text_eq : text = textOf pieces ++ (gap ++ rest)
  maximal : Piece.Maximal pieces (gap ++ rest)
  trivia : Trivia gap

/-- A text that is refused behind pieces has a layout with the error as its last item. -/
def Splits.layout {text : List Char} (hs : Splits text ps gap rest)
    (he : Refused (textOf ps ++ gap) rest e) : Layout text :=
  ⟨ps, gap ++ rest, .error e, hs.text_eq, hs.maximal, .refused hs.trivia he⟩

/-- A text is not scanned if and only if it is refused behind pieces that could not be longer, and
then the scanner yields the tokens of these pieces before the error. -/
theorem scan_eq_error_iff_refused (source : String) (e : LexicalError) :
    (scan source = .error e ↔ ∃ pieces gap rest,
      Splits source.toList pieces gap rest ∧ Refused (textOf pieces ++ gap) rest e) ∧
    ∀ pieces gap rest,
      Splits source.toList pieces gap rest → Refused (textOf pieces ++ gap) rest e →
      (Scanner.ofString source).Yields ((tokensBehind [] pieces).map .ok ++ [.error e]) := by
  refine ⟨⟨fun h => ?_, ?_⟩, fun pieces gap rest hs he => (hs.layout he).yields⟩
  · obtain ⟨l⟩ := exists_layout source.toList
    rw [l.scan_eq] at h
    obtain ⟨pieces, rest, last, ht, hm, hl⟩ := l
    cases hl with
    | endOfInput => cases h
    | refused hg he =>
      cases h
      exact ⟨pieces, _, _, ⟨ht, hm, hg⟩, he⟩
  · rintro ⟨pieces, gap, rest, hs, he⟩
    exact (hs.layout he).scan_eq

/-- A tab in a string is refused over the four columns that it takes. -/
theorem scan_eq_error_iff_refused_tab :
    let source := "x\r\n'a''\tb'"
    let e : LexicalError := ⟨⟨⟨2, 5⟩, ⟨2, 9⟩⟩, .unexpectedCharacter '\t'⟩
    let pieces : List Piece := [⟨[], .identifier, "x", .nil, by decide⟩]
    let gap := ['\r', '\n']
    let rest := "'a''\tb'".toList
    (Splits source.toList pieces gap rest ∧ Refused (textOf pieces ++ gap) rest e) ∧
    scan source = .error e ∧
    (Scanner.ofString source).Yields ((tokensBehind [] pieces).map .ok ++ [.error e]) := by
  intro source e pieces gap rest
  have hs : Splits source.toList pieces gap rest :=
    ⟨by decide, by decide, .blank rfl (.blank rfl .nil)⟩
  have hb : LongestBody ['a', '\'', '\''] ['\t', 'b', '\''] := by
    refine (StringBody.char rfl (by decide) (.quotes .nil)).longestBody ?_
    rintro c hc
    cases hc
    rfl
  have he : Refused (textOf pieces ++ gap) rest e := .unprintable hb (by decide) rfl
  have h := scan_eq_error_iff_refused source e
  exact ⟨⟨hs, he⟩, h.1.2 ⟨pieces, gap, rest, hs, he⟩, h.2 pieces gap rest hs he⟩

/-- The span of a token is that of its spelling, that of an end of input is behind the whole text,
that of an unexpected character is the one of this character alone, and that of an unterminated
string runs from its quote to where its body stops. -/
theorem items_spans (source : String) :
    ∃ (pieces : List Piece) (gap rest : List Char) (items : List Item) (last : Item),
      source.toList = textOf pieces ++ (gap ++ rest) ∧ Piece.Maximal pieces (gap ++ rest) ∧
      (Scanner.ofString source).Yields (items ++ [last]) ∧ items.length = pieces.length ∧
      (∀ before p behind, pieces = before ++ p :: behind →
        items[before.length]? =
          some (.ok ⟨.of (textOf before ++ p.gap) p.spelling, p.kind, p.lexeme⟩)) ∧
      match last with
      | .ok t => LastTrivia gap ∧ rest = [] ∧ t.kind = .endOfInput ∧
        t.span = .point (Location.origin.through source.toList)
      | .error ⟨span, .unexpectedCharacter c⟩ => Trivia gap ∧ ∃ front behind,
        rest = front ++ c :: behind ∧
        (front = [] ∧ IsStray c ∨ ∃ body, front = '\'' :: body ∧ LongestBody body (c :: behind)) ∧
        span = .of (textOf pieces ++ gap ++ front) [c]
      | .error ⟨span, .unterminatedString⟩ => Trivia gap ∧ ∃ body behind,
        rest = '\'' :: body ++ behind ∧ LongestBody body behind ∧
        span = .of (textOf pieces ++ gap) ('\'' :: body) := by
  obtain ⟨l⟩ := exists_layout source.toList
  have hy := l.yields
  obtain ⟨pieces, rest, last, ht, hm, hl⟩ := l
  have hspan : ∀ before p behind, pieces = before ++ p :: behind →
      ((tokensBehind [] pieces).map .ok : List Item)[before.length]? =
        some (.ok ⟨.of (textOf before ++ p.gap) p.spelling, p.kind, p.lexeme⟩) := by
    rintro before p behind rfl
    rw [List.getElem?_map, Piece.getElem?_tokensBehind]
    rfl
  have hlen : ((tokensBehind [] pieces).map .ok : List Item).length = pieces.length := by
    rw [List.length_map, Piece.length_tokensBehind]
  cases hl with
  | endOfInput hg =>
    have hr : rest ++ [] = rest := List.append_nil rest
    have hl : textOf pieces ++ rest = source.toList := ht.symm
    refine ⟨pieces, rest, [], _, _, by rw [hr, hl], by rwa [hr], hy, hlen, hspan, hg, rfl, rfl, ?_⟩
    rw [hl]
    rfl
  | @refused gap rest e hg he =>
    refine ⟨pieces, gap, rest, _, _, ht, hm, hy, hlen, hspan, ?_⟩
    cases he with
    | stray hc => exact ⟨hg, [], _, rfl, .inl ⟨rfl, hc⟩, by rw [List.append_nil]⟩
    | unterminated hb => exact ⟨hg, _, _, rfl, hb, rfl⟩
    | unprintable hb => exact ⟨hg, _, _, rfl, .inr ⟨_, rfl, hb⟩, rfl⟩

end PinsSyntax
