import PinsSyntax.Proofs.Text.LineBreaks
import PinsSyntax.Proofs.Token.Scanning

/-!
# Line breaks of any form are scanned alike

A text is scanned as the same text with a line feed for each of its line breaks
(`scan_unifyBreaks`). Only trivia have line breaks in them, so a layout of the text becomes one of
the other text when the trivia in it are rewritten (`Layout.unify`), and the items of the two are
the same.
-/

namespace PinsSyntax

open CharClass
open Piece (textOf tokensBehind)

variable {before gap text rest : List Char} {ps : List Piece} {e : LexicalError} {last : Item}

/-! ### Trivia -/

lemma Trivia.unify (h : Trivia gap) : Trivia (unifyBreaks gap) := by
  -- The two characters of one line break become one at once, hence the induction on the length.
  induction hn : gap.length using Nat.strongRecOn generalizing gap with
  | ind n ih =>
    cases h with
    | nil => exact .nil
    | @blank c text hc ht =>
      have hlt : text.length < n := by simp [← hn]
      by_cases hu : Unbroken [c] text
      · rw [unifyBreaks_cons hu]
        refine .blank ?_ (ih _ hlt ht rfl)
        rw [apply_unifyBreak isBlank rfl, hc]
      · obtain ⟨rfl, text, rfl⟩ := Unbroken.of_not_singleton hu
        cases ht with
        | blank _ ht => exact .blank rfl (ih _ (Nat.lt_of_succ_lt hlt) ht rfl)
    | @comment body c text hb hc ht =>
      have hlt : (c :: text).length < n := by
        simp only [← hn, List.length_cons, List.length_append]
        omega
      have ih := ih _ hlt ht rfl
      obtain ⟨text', ht'⟩ := exists_unifyBreaks_cons hc text
      rw [← List.cons_append,
        unifyBreaks_append_of_not_isLineBreak (List.forall_mem_cons.2 ⟨rfl, hb⟩), ht']
      rw [ht'] at ih
      exact .comment hb rfl ih

lemma LastTrivia.unify (h : LastTrivia gap) : LastTrivia (unifyBreaks gap) := by
  cases h with
  | closed h => exact .closed h.unify
  | opened h hb =>
    rw [unifyBreaks_append (.of_head_ne (by decide)),
      unifyBreaks_of_not_isLineBreak (List.forall_mem_cons.2 ⟨rfl, hb⟩)]
    exact .opened h.unify hb

/-! ### Items -/

lemma Kind.EndsBefore.unify {k : Kind} (h : k.EndsBefore rest) :
    k.EndsBefore (unifyBreaks rest) := by
  have hk : k.goesOnWith '\n' = k.goesOnWith '\r' := by
    rw [goesOnWith_of_startsTrivia rfl, goesOnWith_of_startsTrivia rfl]
  exact apply_head?_unifyBreaks k.goesOnWith hk h

/-- A text is refused for what comes before its next line break. -/
lemma Refused.unify (h : Refused before text e) :
    Refused (unifyBreaks before) (unifyBreaks text) e := by
  have hu : Unbroken before text := h.unbroken before
  cases h with
  | @stray c rest hc =>
    have hu : Unbroken before [c] := hu
    rw [unifyBreaks_cons_of_not_isLineBreak (isLineBreak_of_startsTrivia hc.1),
      ← Span.of_unifyBreaks hu]
    exact .stray hc
  | @unterminated body rest hb hr =>
    have hl : ∀ d ∈ '\'' :: body, isLineBreak d = false :=
      List.forall_mem_cons.2 ⟨rfl, hb.isBody.isLineBreak_eq_false⟩
    have hr := apply_head?_unifyBreaks isLineBreak rfl hr
    have hu : Unbroken before ('\'' :: body) := hu
    rw [← List.cons_append, unifyBreaks_append_of_not_isLineBreak hl, ← Span.of_unifyBreaks hu]
    exact .unterminated (hb.isBody.longestBody fun d hd => isPrintable_of_isLineBreak (hr d hd)) hr
  | @unprintable body c rest hb hq hc =>
    have hl : ∀ d ∈ '\'' :: body, isLineBreak d = false :=
      List.forall_mem_cons.2 ⟨rfl, hb.isBody.isLineBreak_eq_false⟩
    have hu : Unbroken before ('\'' :: body) := hu
    have huc : Unbroken (before ++ '\'' :: body) [c] := .of_not_isLineBreak _ (by simp) hl
    have hp := hb.isPrintable_eq_false (by simpa using hq)
    have hb : LongestBody body (c :: unifyBreaks rest) := hb.isBody.longestBody hp
    rw [← List.cons_append, unifyBreaks_append_of_not_isLineBreak hl,
      unifyBreaks_cons_of_not_isLineBreak hc, ← Span.of_unifyBreaks huc, unifyBreaks_append hu,
      unifyBreaks_of_not_isLineBreak hl]
    exact .unprintable hb hq hc

/-! ### Layouts -/

lemma Ending.unify (hu : Unbroken before rest) (h : Ending before rest last) :
    Ending (unifyBreaks before) (unifyBreaks rest) last := by
  cases h with
  | endOfInput hg =>
    rw [← Location.through_unifyBreaks, unifyBreaks_append hu]
    exact .endOfInput hg.unify
  | @refused gap rest e hg he =>
    have he' := he.unify
    rw [unifyBreaks_append hu.left] at he'
    rw [unifyBreaks_append (he.unbroken gap)]
    exact .refused hg.unify he'

namespace Piece

/-- The same token behind trivia with line feeds for line breaks. -/
def unify (p : Piece) : Piece := { p with gap := unifyBreaks p.gap, trivia := p.trivia.unify }

lemma text_unify (p : Piece) : p.unify.text = unifyBreaks p.text := by
  have hl : ∀ c ∈ p.spelling, isLineBreak c = false := fun c => p.admits.isLineBreak_eq_false
  rw [text, text, unifyBreaks_append (p.unbroken_spelling p.gap), unifyBreaks_of_not_isLineBreak hl]
  rfl

lemma textOf_map_unify (ps : List Piece) : textOf (ps.map unify) = unifyBreaks (textOf ps) := by
  induction ps with
  | nil => rfl
  | cons p ps ih =>
    have hu : Unbroken p.text (textOf ps) := p.unbroken_append_text [] _
    rw [List.map_cons, textOf_cons, textOf_cons, unifyBreaks_append hu, text_unify, ih]

lemma Maximal.unify (h : Maximal ps rest) : Maximal (ps.map unify) (unifyBreaks rest) := by
  induction ps with
  | nil => exact trivial
  | cons p ps ih =>
    refine ⟨?_, ih h.2⟩
    rw [textOf_map_unify, ← unifyBreaks_append (unbroken_textOf ps rest)]
    exact h.1.unify

/-- The tokens stay where they were. -/
lemma tokensBehind_map_unify (hu : ∀ rest, Unbroken before rest) (ps : List Piece) :
    tokensBehind (unifyBreaks before) (ps.map unify) = tokensBehind before ps := by
  induction ps generalizing before with
  | nil => rfl
  | cons p ps ih =>
    have ih := ih (p.unbroken_append_text before)
    rw [unifyBreaks_append (hu _), ← text_unify] at ih
    have hs := Span.of_unifyBreaks (p.unbroken_spelling (before ++ p.gap))
    rw [unifyBreaks_append (hu _)] at hs
    rw [List.map_cons, tokensBehind, tokensBehind, ih, ← hs]
    rfl

end Piece

/-- A layout with line feeds for line breaks. -/
def Layout.unify (l : Layout text) : Layout (unifyBreaks text) where
  pieces := l.pieces.map Piece.unify
  rest := unifyBreaks l.rest
  last := l.last
  text_eq := by
    rw [Piece.textOf_map_unify, ← unifyBreaks_append (Piece.unbroken_textOf _ _), ← l.text_eq]
  maximal := l.maximal.unify
  ending := by
    rw [Piece.textOf_map_unify]
    exact l.ending.unify (Piece.unbroken_textOf _ _)

/-- A text is scanned as it is with a line feed for each of its line breaks. -/
theorem scan_unifyBreaks (source : String) :
    scan (String.ofList (unifyBreaks source.toList)) = scan source := by
  obtain ⟨l⟩ := exists_layout source.toList
  have ht : l.unify.tokens = l.tokens :=
    @Piece.tokensBehind_map_unify [] (fun _ => nofun) l.pieces
  let l' : Layout (String.ofList (unifyBreaks source.toList)).toList :=
    { l.unify with text_eq := String.toList_ofList.trans l.unify.text_eq }
  rw [l.scan_eq, ← ht]
  exact l'.scan_eq

end PinsSyntax
