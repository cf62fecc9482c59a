import PinsSyntax.Proofs.Text.Place

/-!
# Line breaks of one form

`unifyBreaks` writes every line break of a text as a line feed: a carriage return with the line feed
behind it, and a carriage return that stands alone. The locations in a text stay the same
(`Location.through_unifyBreaks`), and so do the characters that are no line breaks
(`unifyBreaks_of_not_isLineBreak`). Parts of a text can be taken one by one where no line break is
torn apart between them (`unifyBreaks_append`).
-/

namespace PinsSyntax

open CharClass

/-- A character, but a line feed for a carriage return. -/
def unifyBreak (c : Char) : Char := if c = '\r' then '\n' else c

/-- A text with a line feed for each of its line breaks. -/
def unifyBreaks : List Char → List Char
  | [] => []
  | '\r' :: '\n' :: text => '\n' :: unifyBreaks text
  | c :: text => unifyBreak c :: unifyBreaks text

variable {c : Char} {before text rest : List Char}

lemma unifyBreak_ne (c : Char) : unifyBreak c ≠ '\r' := by
  unfold unifyBreak
  split
  · decide
  · assumption

lemma unifyBreak_of_isLineBreak (h : isLineBreak c = true) : unifyBreak c = '\n' := by
  obtain rfl | rfl := isLineBreak_iff.1 h <;> rfl

lemma unifyBreak_of_not_isLineBreak (h : isLineBreak c = false) : unifyBreak c = c := by
  refine if_neg ?_
  rintro rfl
  cases h

/-- A class of characters that does not tell line breaks apart goes on as it was. -/
lemma apply_unifyBreak (p : Char → Bool) (h : p '\n' = p '\r') (c : Char) :
    p (unifyBreak c) = p c := by
  unfold unifyBreak
  split
  · rename_i hc
    rw [hc, h]
  · rfl

lemma unifyBreaks_cons (h : Unbroken [c] text) :
    unifyBreaks (c :: text) = unifyBreak c :: unifyBreaks text := by
  rw [unifyBreaks]
  rintro text' rfl rfl
  exact h rfl rfl

lemma unifyBreaks_append (h : Unbroken text rest) :
    unifyBreaks (text ++ rest) = unifyBreaks text ++ unifyBreaks rest := by
  fun_induction unifyBreaks text with
  | case1 => rfl
  | case2 text ih => exact congrArg ('\n' :: ·) (ih h.tail.tail)
  | case3 c text hc ih =>
    rw [List.cons_append, unifyBreaks_cons (h.cons hc), ih h.tail]
    rfl

/-- The pairs are found first: two carriage returns and a line feed are two line breaks. -/
example : unifyBreaks "a\r\r\nb\n\rc".toList = "a\n\nb\n\nc".toList := by decide

lemma unifyBreaks_cons_of_not_isLineBreak (h : isLineBreak c = false) :
    unifyBreaks (c :: text) = c :: unifyBreaks text := by
  have hu : Unbroken [c] text := .of_not_isLineBreak [] (by simp) (by simpa using h)
  rw [unifyBreaks_cons hu, unifyBreak_of_not_isLineBreak h]

lemma unifyBreaks_append_of_not_isLineBreak (h : ∀ c ∈ text, isLineBreak c = false) :
    unifyBreaks (text ++ rest) = text ++ unifyBreaks rest := by
  induction text with
  | nil => rfl
  | cons c text ih =>
    obtain ⟨hc, h⟩ := List.forall_mem_cons.1 h
    rw [List.cons_append, unifyBreaks_cons_of_not_isLineBreak hc, ih h]
    rfl

lemma unifyBreaks_of_not_isLineBreak (h : ∀ c ∈ text, isLineBreak c = false) :
    unifyBreaks text = text := by
  have := @unifyBreaks_append_of_not_isLineBreak text [] h
  rwa [List.append_nil, unifyBreaks, List.append_nil] at this

lemma head?_unifyBreaks (text : List Char) :
    (unifyBreaks text).head? = text.head?.map unifyBreak := by
  fun_cases unifyBreaks text <;> rfl

/-- A class of characters that does not tell line breaks apart has the first character in it before
and after. -/
lemma apply_head?_unifyBreaks (p : Char → Bool) (hp : p '\n' = p '\r') {b : Bool}
    (h : ∀ c ∈ text.head?, p c = b) : ∀ c ∈ (unifyBreaks text).head?, p c = b := by
  intro c hc
  rw [head?_unifyBreaks] at hc
  obtain ⟨d, hd, rfl⟩ := Option.map_eq_some_iff.1 hc
  rw [apply_unifyBreak p hp]
  exact h d hd

/-- A line break comes first before and after. -/
lemma exists_unifyBreaks_cons (h : isLineBreak c = true) (text : List Char) :
    ∃ text', unifyBreaks (c :: text) = '\n' :: text' := by
  have hh := head?_unifyBreaks (c :: text)
  rw [List.head?_cons, Option.map_some, unifyBreak_of_isLineBreak h] at hh
  exact List.head?_eq_some_iff.1 hh

/-- No carriage return is left that a line feed behind the text could belong to. -/
lemma unbroken_unifyBreaks (text rest : List Char) : Unbroken (unifyBreaks text) rest := by
  have hn : '\r' ∉ unifyBreaks text := by
    fun_induction unifyBreaks text with
    | case1 => exact List.not_mem_nil
    | case2 text ih => exact List.not_mem_cons_of_ne_of_not_mem (by decide) ih
    | case3 c text hc ih => exact List.not_mem_cons_of_ne_of_not_mem (unifyBreak_ne c).symm ih
  intro hl
  exact absurd (List.mem_of_getLast? hl) hn

namespace Location

lemma past_unifyBreak (l : Location) (c : Char) : l.past (unifyBreak c) = l.past c := by
  unfold unifyBreak
  split
  · rename_i hc
    rw [hc]
    rfl
  · rfl

lemma through_unifyBreaks (l : Location) (text : List Char) :
    l.through (unifyBreaks text) = l.through text := by
  have hu (c : Char) (text : List Char) : Unbroken [unifyBreak c] text :=
    .of_last_ne [] (unifyBreak_ne c)
  fun_induction through l text with
  | case1 => rfl
  | case2 l text ih => exact (through_cons (hu '\n' _)).trans ih
  | case3 l c text hc ih =>
    rw [unifyBreaks, through_cons (hu c _), past_unifyBreak, ih]
    exact hc

end Location

/-- A text keeps its span where it does not tear a line break apart. -/
lemma Span.of_unifyBreaks (h : Unbroken before text) :
    Span.of (unifyBreaks before) text = Span.of before text := by
  simp only [Span.of, Location.through_append (unbroken_unifyBreaks before text),
    Location.through_append h, Location.through_unifyBreaks]

end PinsSyntax
