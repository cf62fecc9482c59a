import PinsSyntax.Proofs.Token.Item

/-!
# Layouts of a text

A text is made of pieces, each a token as it is written with the trivia in front of it, and of what
comes behind the last one: trivia up to the end, or trivia up to a place where the text is refused.
In a `Layout` no token could be longer. Every text has one (`exists_layout`).
-/

namespace PinsSyntax

open CharClass

/-- A token as it is written in a text, with the trivia in front of it. -/
structure Piece where
  gap : List Char
  kind : Kind
  lexeme : String
  trivia : Trivia gap
  admits : kind.Admits lexeme

namespace Piece

/-- How the token is written. -/
def spelling (p : Piece) : List Char := p.kind.spell p.lexeme

def text (p : Piece) : List Char := p.gap ++ p.spelling

/-- The text of pieces in a row. -/
def textOf (ps : List Piece) : List Char := ps.flatMap text

/-- None of the spellings could be longer, with `rest` behind the last one. -/
def Maximal : List Piece → List Char → Prop
  | [], _ => True
  | p :: ps, rest => p.kind.EndsBefore (textOf ps ++ rest) ∧ Maximal ps rest

instance decidableMaximal : (ps : List Piece) → (rest : List Char) → Decidable (Maximal ps rest)
  | [], _ => .isTrue trivial
  | _ :: ps, rest => @instDecidableAnd _ _ inferInstance (decidableMaximal ps rest)

/-- The tokens of pieces that come behind `before`. -/
def tokensBehind (before : List Char) : List Piece → List Token
  | [] => []
  | p :: ps =>
    ⟨.of (before ++ p.gap) p.spelling, p.kind, p.lexeme⟩ :: tokensBehind (before ++ p.text) ps

end Piece

open Piece (textOf tokensBehind)

/-- What a text has behind `before`, where its last token ends, and the item that this makes. -/
inductive Ending (before : List Char) : List Char → Item → Prop where
  | endOfInput {gap} :
    LastTrivia gap →
    Ending before gap (.ok (Token.endAt (Location.origin.through (before ++ gap))))
  | refused {gap rest e} :
    Trivia gap →
    Refused (before ++ gap) rest e →
    Ending before (gap ++ rest) (.error e)

/-- A text as pieces that could not be longer, and what comes behind them. -/
structure Layout (text : List Char) where
  pieces : List Piece
  rest : List Char
  last : Item
  text_eq : text = textOf pieces ++ rest
  maximal : Piece.Maximal pieces rest
  ending : Ending (textOf pieces) rest last

variable {before rest text : List Char} {p : Piece} {ps qs : List Piece}

namespace Piece

@[simp] lemma textOf_nil : textOf [] = [] := rfl

@[simp] lemma textOf_cons : textOf (p :: ps) = p.text ++ textOf ps := List.flatMap_cons

/-- A token is written behind the trivia, starting with a character that starts none. -/
lemma spelling_eq_cons (p : Piece) : ∃ c cs, p.spelling = c :: cs ∧ startsTrivia c = false := by
  obtain ⟨c, cs, hs, hc⟩ := p.admits.exists_cons
  exact ⟨c, cs, hs, hc.startsTrivia_eq_false⟩

lemma unbroken_spelling (p : Piece) (before : List Char) : Unbroken before p.spelling := by
  obtain ⟨c, cs, hs, hc⟩ := p.spelling_eq_cons
  rw [hs]
  refine .of_head_ne ?_
  rintro rfl
  cases hc

/-- A piece does not end within a line break. -/
lemma unbroken_append_text (p : Piece) (before rest : List Char) :
    Unbroken (before ++ p.text) rest := by
  obtain ⟨c, cs, hs, -⟩ := p.spelling_eq_cons
  rw [text, ← List.append_assoc]
  refine .of_not_isLineBreak _ (by simp [hs]) ?_
  exact fun c hc => p.admits.isLineBreak_eq_false hc

lemma unbroken_append_textOf (hu : Unbroken before (textOf ps ++ rest)) :
    Unbroken (before ++ textOf ps) rest := by
  obtain rfl | ⟨ps, p, rfl⟩ := List.eq_nil_or_concat ps
  · rw [textOf_nil, List.append_nil]
    exact hu
  · rw [List.concat_eq_append, textOf, List.flatMap_append, List.flatMap_singleton,
      ← List.append_assoc]
    exact p.unbroken_append_text _ rest

lemma unbroken_textOf (ps : List Piece) (rest : List Char) : Unbroken (textOf ps) rest :=
  @unbroken_append_textOf [] rest ps (.start _)

/-- A token ends in front of the trivia and the token that come behind it, if it would not fuse
with that one or there is a gap between them. -/
lemma endsBefore_text {k : Kind} (q : Piece) (h : k.fuses q.kind = true → q.gap ≠ []) :
    k.EndsBefore (q.text ++ rest) := by
  intro c hc
  cases hg : q.gap with
  | nil =>
    obtain ⟨d, cs, hs, hd⟩ := q.admits.exists_cons
    have hs : q.spelling = d :: cs := hs
    rw [text, hg, hs] at hc
    cases hc
    rw [Bool.eq_false_iff]
    intro hgo
    exact h (hd.fuses_of_goesOnWith hgo) hg
  | cons d gap =>
    rw [text, hg] at hc
    cases hc
    exact Kind.goesOnWith_of_startsTrivia (hg ▸ q.trivia).head

/-- Spellings that could not be longer could not be so either if trivia come behind the text. -/
lemma Maximal.append {c : Char} (h : Maximal ps rest) (hc : startsTrivia c = true)
    (text : List Char) : Maximal ps (rest ++ c :: text) := by
  induction ps with
  | nil => exact trivial
  | cons p ps ih =>
    refine ⟨?_, ih h.2⟩
    rw [← List.append_assoc]
    exact h.1.append hc text

lemma map_tokensBehind (before : List Char) (ps : List Piece) :
    (tokensBehind before ps).map (fun t => (t.kind, t.lexeme)) =
      ps.map fun p => (p.kind, p.lexeme) := by
  induction ps generalizing before with
  | nil => rfl
  | cons p ps ih => exact congrArg (_ :: ·) (ih _)

lemma length_tokensBehind (before : List Char) (ps : List Piece) :
    (tokensBehind before ps).length = ps.length := by
  have := congrArg List.length (map_tokensBehind before ps)
  simpa using this

/-- The lexemes of the tokens are those of their kinds. -/
lemma admits_of_mem_tokensBehind {t : Token} (h : t ∈ tokensBehind before ps) :
    t.kind.Admits t.lexeme := by
  induction ps generalizing before with
  | nil => cases h
  | cons p ps ih =>
    obtain rfl | h := List.mem_cons.1 h
    · exact p.admits
    · exact ih h

lemma isEnd_eq_false_of_mem_tokensBehind {t : Token} (h : t ∈ tokensBehind before ps) :
    t.isEnd = false :=
  beq_false_of_ne (admits_of_mem_tokensBehind h).ne_endOfInput

/-- No piece is empty. -/
lemma length_le_length_textOf (ps : List Piece) : ps.length ≤ (textOf ps).length := by
  induction ps with
  | nil => exact Nat.zero_le _
  | cons p ps ih =>
    obtain ⟨c, cs, hs, -⟩ := p.spelling_eq_cons
    rw [textOf_cons, text, hs]
    simp only [List.length_cons, List.length_append]
    omega

/-- The token of a piece has the span of its spelling, where this comes in the text. -/
lemma getElem?_tokensBehind (front : List Char) (qs : List Piece) :
    (tokensBehind front (qs ++ p :: ps))[qs.length]? =
      some ⟨.of (front ++ textOf qs ++ p.gap) p.spelling, p.kind, p.lexeme⟩ := by
  induction qs generalizing front with
  | nil => simp [tokensBehind]
  | cons q qs ih =>
    have ih := ih (front ++ q.text)
    rw [List.append_assoc front, ← textOf_cons] at ih
    exact ih

end Piece

lemma exists_pieces (before text : List Char) :
    ∃ ps rest last, text = textOf ps ++ rest ∧ Piece.Maximal ps rest ∧
      Ending (before ++ textOf ps) rest last := by
  -- A piece is never empty, so what comes behind it is shorter.
  induction hn : text.length using Nat.strongRecOn generalizing before text with
  | ind n ih =>
    obtain h | ⟨gap, c, rest, rfl, hg, hc⟩ := exists_trivia text
    · exact ⟨[], text, _, rfl, trivial, .endOfInput h⟩
    obtain ⟨e, he⟩ | ⟨k, lexeme, rest', hs, ha, hr⟩ := exists_item (before ++ gap) rest hc
    · refine ⟨[], gap ++ c :: rest, .error e, rfl, trivial, .refused hg ?_⟩
      rwa [Piece.textOf_nil, List.append_nil]
    · let p : Piece := ⟨gap, k, lexeme, hg, ha⟩
      have hp : gap ++ c :: rest = p.text ++ rest' := by
        rw [hs, ← List.append_assoc]
        rfl
      have hlt : rest'.length < n := by
        obtain ⟨d, cs, hd, -⟩ := p.spelling_eq_cons
        rw [← hn, hp, Piece.text, hd]
        simp only [List.length_append, List.length_cons]
        omega
      obtain ⟨ps, rest'', last, rfl, hm, hl⟩ := ih _ hlt (before ++ p.text) rest' rfl
      refine ⟨p :: ps, rest'', last, ?_, ⟨hr, hm⟩, ?_⟩
      · rw [hp, Piece.textOf_cons, List.append_assoc]
      · rwa [Piece.textOf_cons, ← List.append_assoc]

theorem exists_layout (text : List Char) : Nonempty (Layout text) := by
  obtain ⟨ps, rest, last, ht, hm, hl⟩ := exists_pieces [] text
  exact ⟨⟨ps, rest, last, ht, hm, hl⟩⟩

namespace Layout

/-- The tokens in front of the last item. -/
def tokens (l : Layout text) : List Token := tokensBehind [] l.pieces

/-- All items of the text. -/
def items (l : Layout text) : List Item := l.tokens.map .ok ++ [l.last]

/-- There are no more tokens than characters. -/
lemma length_tokens_le (l : Layout text) : l.tokens.length ≤ text.length := by
  rw [tokens, Piece.length_tokensBehind]
  calc l.pieces.length ≤ (textOf l.pieces).length := Piece.length_le_length_textOf _
    _ ≤ (textOf l.pieces ++ l.rest).length := by rw [List.length_append]; exact Nat.le_add_right ..
    _ = text.length := by rw [← l.text_eq]

/-- The last item is the end of input behind the whole text, or an error. -/
lemma last_cases (l : Layout text) :
    l.last = .ok (Token.endAt (Location.origin.through text)) ∨ ∃ e, l.last = .error e := by
  obtain ⟨pieces, rest, last, ht, -, he⟩ := l
  cases he with
  | endOfInput =>
    subst ht
    exact .inl rfl
  | @refused _ _ e => exact .inr ⟨e, rfl⟩

/-- The tokens have the kinds and lexemes of the pieces, and an end of input comes behind them. -/
lemma map_tokens (l : Layout text) (location : Location) :
    (l.tokens ++ [Token.endAt location]).map (fun t => (t.kind, t.lexeme)) =
      l.pieces.map (fun p => (p.kind, p.lexeme)) ++ [(.endOfInput, "$")] := by
  rw [List.map_append, tokens, Piece.map_tokensBehind]
  rfl

end Layout

end PinsSyntax
