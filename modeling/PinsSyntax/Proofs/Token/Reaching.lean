import Mathlib.Tactic.SplitIfs
import PinsSyntax.Proofs.Text.Reaching
import PinsSyntax.Proofs.Token.Order

/-!
# How far a scanner has come

A scanner only ever lets its reader advance (`Reader.reaches_scanItem`, `Scanner.reaches_after`), so
it stands at a place of the text that it started with (`Scanner.exists_reader_after`). The item that
it has found last ends there (`Scanner.stop_next`).
-/

namespace PinsSyntax

variable {items : List Item} {item : Item} {s : Scanner}

namespace Reader

lemma reaches_skipTrivia (r : Reader) : r.Reaches r.skipTrivia := by
  fun_induction skipTrivia r with
  | case1 | case4 => exact .refl
  | case2 r _ _ _ _ ih => exact r.reaches_advance.trans ih
  | case3 r _ _ _ ih => exact r.reaches_advance.trans ((reaches_skipWhile _ _).trans ih)

lemma reaches_scanString (start r : Reader) (value : String) :
    r.Reaches (scanString start r value).2 := by
  fun_induction scanString start r value with
  | case1 | case5 => exact .refl
  | case2 r _ _ _ _ ih => exact r.reaches_advance.advance.trans ih
  | case4 r _ _ _ _ _ _ ih => exact r.reaches_advance.trans ih
  | case3 r | case6 r => exact r.reaches_advance

lemma reaches_scanSymbol (start next : Reader) (k : Kind) :
    next.Reaches (scanSymbol start next k).2 := by
  unfold scanSymbol
  split
  · exact next.reaches_advance
  · exact .refl

lemma reaches_scanFrom (start next : Reader) (c : Char) :
    next.Reaches (scanFrom start next c).2 := by
  unfold scanFrom
  split
  · exact reaches_scanSymbol start next _
  · split_ifs
    · exact reaches_scanString start next ""
    · exact reaches_skipWhile _ next
    · exact reaches_skipWhile _ next
    · exact .refl

lemma reaches_scanItem (r : Reader) : r.Reaches r.scanItem.2 := by
  unfold scanItem
  split
  · exact .refl
  · exact r.reaches_advance.trans (reaches_scanFrom r _ _)

/-- A string or the error in it ends where the reader has come to. -/
lemma stop_scanString (start r : Reader) (value : String) :
    (scanString start r value).1.span.stop = (scanString start r value).2.location := by
  fun_induction scanString start r value with
  | case1 | case3 | case5 | case6 => rfl
  | case2 _ _ _ _ _ ih | case4 _ _ _ _ _ _ _ ih => exact ih

/-- An item ends where the reader has come to. -/
lemma stop_scanItem (r : Reader) : r.scanItem.1.span.stop = r.scanItem.2.location := by
  unfold scanItem
  split
  · rfl
  · unfold scanFrom
    split
    · unfold scanSymbol
      split <;> rfl
    · split_ifs
      · exact stop_scanString r _ ""
      all_goals rfl

end Reader

namespace Scanner

lemma reaches_next (s : Scanner) : s.reader.Reaches s.next.2.reader := by
  cases hs : s.finished with
  | true =>
    rw [next, hs]
    exact .refl
  | false =>
    rw [next_of_not_finished hs]
    exact (Reader.reaches_skipTrivia _).trans (Reader.reaches_scanItem _)

/-- The item found last ends where the scanner stands behind it. -/
lemma stop_next (h : s.next.1 = some item) : item.span.stop = s.next.2.reader.location := by
  cases hs : s.finished with
  | true =>
    rw [next, hs] at h
    cases h
  | false =>
    rw [next_of_not_finished hs] at h ⊢
    cases h
    exact Reader.stop_scanItem _

/-- The scanner after `n` calls of `next` in a row. -/
def after : Nat → Scanner → Scanner
  | 0, s => s
  | n + 1, s => after n s.next.2

lemma after_succ (n : Nat) (s : Scanner) : s.after (n + 1) = (s.after n).next.2 := by
  induction n generalizing s with
  | zero => rfl
  | succ n ih => exact ih s.next.2

lemma reaches_after (n : Nat) (s : Scanner) : s.reader.Reaches (s.after n).reader := by
  induction n generalizing s with
  | zero => exact .refl
  | succ n ih => exact s.reaches_next.trans (ih s.next.2)

lemma items_succ (n : Nat) (s : Scanner) : s.items (n + 1) = s.items n ++ [(s.after n).next.1] := by
  induction n generalizing s with
  | zero => rfl
  | succ n ih => exact congrArg (s.next.1 :: ·) (ih s.next.2)

/-- The items that a scanner yields are what the calls of `next` in a row find. -/
lemma Yields.getElem?_eq (h : s.Yields items) (n : Nat) : items[n]? = (s.after n).next.1 := by
  have hs := (items_succ n s).symm.trans (h (n + 1))
  rw [h n, List.range_succ, List.map_append] at hs
  have hl := List.append_cancel_left hs
  exact (List.cons.inj hl).1.symm

/-- A scanner of a text stands at a place of it. -/
lemma exists_reader_after (source : String) (n : Nat) :
    ∃ front rest, source.toList = front ++ rest ∧
      ((ofString source).after n).reader = .behind front rest := by
  obtain ⟨front, h⟩ := (reaches_after n (ofString source)).exists_past
  exact ⟨front, _, h.eq_behind⟩

end Scanner

end PinsSyntax
