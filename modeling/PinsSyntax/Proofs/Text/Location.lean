import Mathlib.Order.Defs.PartialOrder
import Mathlib.Tactic.Lemma
import PinsSyntax.Text.Location

/-!
# Facts about locations

The written form of a location or a span holds digits, colons and dashes only
(`Span.notMem_render`), so that what is written behind a span starts at the first space.

A step from a location leads to the same place some lines further down as it does there
(`Location.past_down`). Locations are ordered as they are passed: every character leads further on
(`Location.lt_past`), and no text leads back (`Location.le_through`).
-/

namespace PinsSyntax

namespace Location

/-- The same column, `n` lines below. -/
def down (l : Location) (n : Nat) : Location := ⟨l.line + n, l.column⟩

lemma nextLine_down (l : Location) (n : Nat) : (l.down n).nextLine = l.nextLine.down n := by
  simp only [nextLine, down, Nat.add_right_comm]

lemma past_down (l : Location) (n : Nat) (c : Char) : (l.down n).past c = (l.past c).down n := by
  unfold past
  split
  · exact nextLine_down l n
  · split <;> rfl

lemma right_right (l : Location) (m n : Nat) : (l.right m).right n = l.right (m + n) :=
  congrArg (mk l.line) (Nat.add_assoc ..)

/-! ### Order -/

lemma le_iff {a b : Location} :
    a ≤ b ↔ a.line < b.line ∨ a.line = b.line ∧ a.column ≤ b.column := Iff.rfl

lemma lt_iff {a b : Location} :
    a < b ↔ a.line < b.line ∨ a.line = b.line ∧ a.column < b.column := Iff.rfl

instance : Preorder Location where
  le_refl l := .inr ⟨rfl, Nat.le_refl _⟩
  le_trans a b c := by
    simp only [le_iff]
    omega
  lt_iff_le_not_ge a b := by
    simp only [le_iff, lt_iff]
    omega

lemma lt_nextLine (l : Location) : l < l.nextLine := .inl (Nat.lt_add_one _)

lemma lt_right {n : Nat} (l : Location) (h : 0 < n) : l < l.right n :=
  .inr ⟨rfl, Nat.lt_add_of_pos_right h⟩

/-- Every character is passed to the right or down. -/
lemma lt_past (l : Location) (c : Char) : l < l.past c := by
  unfold past
  split
  · exact l.lt_nextLine
  · split
    · exact l.lt_right (by decide)
    · exact l.lt_right (by decide)

lemma le_through (l : Location) (text : List Char) : l ≤ l.through text := by
  fun_induction through l text with
  | case1 => exact le_refl _
  | case2 l text ih => exact le_trans (le_of_lt l.lt_nextLine) ih
  | case3 l c text hc ih => exact le_trans (le_of_lt (l.lt_past c)) ih

end Location

/-- The same columns, `n` lines below. -/
def Span.down (s : Span) (n : Nat) : Span := ⟨s.start.down n, s.stop.down n⟩

/-! ### Written locations -/

variable {c : Char}

/-- A number is written in digits only. -/
lemma notMem_repr (hd : c.isDigit = false) (n : Nat) : c ∉ n.repr.toList := by
  intro h
  rw [Nat.toList_repr] at h
  rw [Nat.isDigit_of_mem_toDigits (by decide) (by decide) h] at hd
  cases hd

lemma Location.notMem_render (l : Location) (hd : c.isDigit = false) (hc : c ≠ ':') :
    c ∉ l.render.toList := by
  intro h
  simp only [render, String.toList_append, List.mem_append] at h
  obtain (h | h) | h := h
  · exact notMem_repr hd _ h
  · exact hc (List.mem_singleton.1 h)
  · exact notMem_repr hd _ h

lemma Span.notMem_render (s : Span) (hd : c.isDigit = false) (hc : c ≠ ':') (hm : c ≠ '-') :
    c ∉ s.render.toList := by
  intro h
  simp only [render, String.toList_append, List.mem_append] at h
  obtain (h | h) | h := h
  · exact s.start.notMem_render hd hc h
  · exact hm (List.mem_singleton.1 h)
  · exact s.stop.notMem_render hd hc h

/-- The text behind a written span starts at the first space. -/
lemma Span.dropWhile_render_append (s : Span) (text : List Char) :
    (s.render.toList ++ ':' :: ' ' :: text).dropWhile (· != ' ') = ' ' :: text := by
  rw [List.dropWhile_append_of_pos]
  · rfl
  · intro c hc
    rw [bne_iff_ne]
    rintro rfl
    exact s.notMem_render rfl (by decide) (by decide) hc

end PinsSyntax
