import PinsSyntax.Proofs.Text.CharClass
import PinsSyntax.Proofs.Text.Location
import PinsSyntax.Text.Reader

/-!
# Places in a text

What a reader knows of the text that it has gone past is a function of that text: `Reader.behind`
computes the reader that stands behind a text from the text alone. A step of a reader takes the
reader behind one text to the reader behind a longer one (`advance_behind`,
`advance_behind_lineBreak`), as long as it does not stand between the two characters of one line
break (`Unbroken`); so does a run of steps (`skipWhile_behind`). What lies between two such readers
is the text by which the second one is further on (`textTo_behind`, `spanTo_behind`).
-/

namespace PinsSyntax

open CharClass

/-- No line break is torn apart where `before` ends and `rest` begins. -/
def Unbroken (before rest : List Char) : Prop :=
  before.getLast? = some '\r' → rest.head? ≠ some '\n'

namespace Unbroken

variable {before text rest : List Char} {c : Char}

lemma nil (before : List Char) : Unbroken before [] := by
  intro _ hn
  cases hn

/-- No line break is torn apart where a text starts. -/
lemma start (rest : List Char) : Unbroken [] rest := nofun

/-- Only a line feed can be a part of the line break in front of it. -/
lemma of_head_ne (h : c ≠ '\n') : Unbroken before (c :: rest) := by
  intro _ hc
  exact h (Option.some.inj hc)

/-- Only a carriage return can be a part of the line break behind it. -/
lemma of_last_ne (before : List Char) (h : c ≠ '\r') : Unbroken (before ++ [c]) rest := by
  intro hl
  rw [List.getLast?_concat] at hl
  exact absurd (Option.some.inj hl) h

/-- A text without line breaks ends in no part of one. -/
lemma of_not_isLineBreak (before : List Char) (hne : text ≠ [])
    (h : ∀ c ∈ text, isLineBreak c = false) : Unbroken (before ++ text) rest := by
  obtain ⟨text, c, rfl⟩ := List.eq_nil_or_concat text |>.resolve_left hne
  rw [List.concat_eq_append, ← List.append_assoc]
  refine of_last_ne _ ?_
  rintro rfl
  cases h '\r' (by simp)

lemma of_singleton (before : List Char) (h : Unbroken [c] rest) :
    Unbroken (before ++ [c]) rest := by
  intro hl
  rw [List.getLast?_concat] at hl
  exact h hl

/-- A line break is torn apart between a carriage return and a line feed only. -/
lemma of_not_singleton (h : ¬Unbroken [c] rest) : c = '\r' ∧ ∃ rest', rest = '\n' :: rest' := by
  obtain ⟨hc, hr⟩ := Classical.not_imp.1 h
  obtain ⟨rest', rfl⟩ := List.head?_eq_some_iff.1 (Classical.not_not.1 hr)
  exact ⟨Option.some.inj hc, rest', rfl⟩

lemma tail (h : Unbroken (c :: before) rest) : Unbroken before rest := by
  intro hl
  exact h (by simp [List.getLast?_cons, hl])

/-- No line break is torn apart behind `c`, be the next character one of `text` or of `rest`. -/
lemma cons (h : Unbroken (c :: text) rest)
    (hc : ∀ text', c = '\r' → text = '\n' :: text' → False) : Unbroken [c] (text ++ rest) := by
  cases text with
  | nil => exact h
  | cons d text =>
    intro hr hn
    cases Option.some.inj hr
    cases Option.some.inj hn
    exact hc text rfl rfl

lemma left (h : Unbroken before (text ++ rest)) : Unbroken before text := by
  cases text with
  | nil => exact .nil before
  | cons c text => exact h

lemma of_append (h : Unbroken (before ++ text) rest) : Unbroken text rest := by
  induction before with
  | nil => exact h
  | cons c before ih => exact ih h.tail

end Unbroken

namespace Location

variable {l : Location} {c : Char} {text rest : List Char}

/-- A location goes past one character, unless this begins a line break of two. -/
lemma through_cons (h : Unbroken [c] text) : l.through (c :: text) = (l.past c).through text := by
  rw [through]
  rintro text' rfl rfl
  exact h rfl rfl

lemma through_append (h : Unbroken text rest) :
    l.through (text ++ rest) = (l.through text).through rest := by
  fun_induction through l text with
  | case1 => rfl
  | case2 l text ih => exact ih h.tail.tail
  | case3 l c text hc ih =>
    rw [List.cons_append, through_cons (h.cons hc), ih h.tail]

/-- What comes behind a text does not lead back into it. -/
lemma through_le_append (h : Unbroken text rest) : l.through text ≤ l.through (text ++ rest) := by
  rw [through_append h]
  exact le_through _ rest

/-- Printable characters take one column each. -/
lemma through_of_isPrintable (h : ∀ c ∈ text, isPrintable c = true) :
    l.through text = l.right text.length := by
  induction text generalizing l with
  | nil => rfl
  | cons c text ih =>
    obtain ⟨hc, h⟩ := List.forall_mem_cons.1 h
    have hb : isLineBreak c = false := CharClass.isLineBreak_eq_false rfl rfl hc
    have hp : l.past c = l.right 1 := by
      rw [past, if_neg (mt isLineBreak_iff.2 (by simp [hb])), if_neg]
      rintro rfl
      cases hc
    have hu : Unbroken [c] text := .of_last_ne [] (by rintro rfl; cases hc)
    rw [through_cons hu, hp, ih h, right_right, Nat.add_comm, List.length_cons]

end Location

/-- The span of `text` where it comes behind `before`. -/
def Span.of (before text : List Char) : Span :=
  ⟨Location.origin.through before, Location.origin.through (before ++ text)⟩

lemma byteLength_append (text rest : List Char) :
    byteLength (text ++ rest) = byteLength text + byteLength rest := by
  induction text with
  | nil => exact (Nat.zero_add _).symm
  | cons c text ih => rw [List.cons_append, byteLength, byteLength, ih, Nat.add_assoc]

lemma utf8ByteSize_ofList (text : List Char) :
    (String.ofList text).utf8ByteSize = byteLength text := by
  induction text with
  | nil => rfl
  | cons c text ih =>
    rw [String.ofList_cons, String.utf8ByteSize_append, String.utf8ByteSize_singleton, ih,
      byteLength]

/-- A text is cut off from what follows it by its number of bytes. -/
lemma takeBytes?_byteLength (text rest : List Char) :
    takeBytes? (byteLength text) (text ++ rest) = some text := by
  induction text with
  | nil => cases rest <;> rfl
  | cons c text ih =>
    have hc : 0 < c.utf8Size := c.utf8Size_pos
    rw [List.cons_append, byteLength, takeBytes?, if_neg (by omega), if_pos (by omega),
      Nat.add_sub_cancel_left, ih]
    rfl

namespace Reader

/-- The reader that has gone past `before` and has `rest` left. -/
def behind (before rest : List Char) : Reader :=
  ⟨rest, byteLength before, Location.origin.through before⟩

variable {before rest text : List Char} {c : Char} {p : Char → Bool}

@[simp] lemma peek?_behind : (behind before rest).peek? = rest.head? := rfl

lemma peek?_eq_some {r : Reader} (h : r.rest = c :: rest) : r.peek? = some c := by
  rw [peek?, h, List.head?_cons]

/-- A reader goes past one character, unless this begins a line break of two. -/
lemma advance_cons {offset : Nat} {l : Location} (h : Unbroken [c] rest) :
    (mk (c :: rest) offset l).advance = ⟨rest, offset + c.utf8Size, l.past c⟩ := by
  unfold advance
  split
  · rename_i hr
    cases hr
  · rename_i hr
    cases hr
    exact absurd rfl (h rfl)
  · rename_i hr
    cases hr
    rfl

/-- A reader goes past one character, if that is a line break or no part of one. -/
lemma advance_behind (h : Unbroken before (c :: rest)) (hc : Unbroken [c] rest) :
    (behind before (c :: rest)).advance = behind (before ++ [c]) rest := by
  have hl : Location.origin.through (before ++ [c]) = (Location.origin.through before).past c := by
    have h : Unbroken before [c] := h
    rw [Location.through_append h, Location.through_cons (.nil [c])]
    rfl
  rw [behind, advance_cons hc, behind, hl, byteLength_append]
  rfl

lemma advance_behind_lineBreak :
    (behind before ('\r' :: '\n' :: rest)).advance = behind (before ++ ['\r', '\n']) rest := by
  have hl : Location.origin.through (before ++ ['\r', '\n']) =
      (Location.origin.through before).nextLine :=
    Location.through_append (.of_head_ne (by decide))
  rw [behind, behind, hl, byteLength_append]
  rfl

lemma advance_behind_of_not_isLineBreak (hc : isLineBreak c = false) :
    (behind before (c :: rest)).advance = behind (before ++ [c]) rest := by
  refine advance_behind (.of_head_ne ?_) (.of_last_ne [] ?_)
  · rintro rfl
    cases hc
  · rintro rfl
    cases hc

/-- What a reader does next depends on the character it peeks at. -/
lemma skipWhile_eq (p : Char → Bool) (r : Reader) :
    r.skipWhile p = if r.peek?.any p then r.advance.skipWhile p else r := by
  rw [skipWhile, peek?]
  split
  · rename_i hr
    rw [hr]
    rfl
  · rename_i hr
    rw [hr]
    rfl

/-- A reader goes past the characters of a text that satisfy `p`, if none is a line break and the
next one does not satisfy `p`. -/
lemma skipWhile_behind (ht : ∀ c ∈ text, p c = true ∧ isLineBreak c = false)
    (hr : ∀ c ∈ rest.head?, p c = false) :
    (behind before (text ++ rest)).skipWhile p = behind (before ++ text) rest := by
  induction text generalizing before with
  | nil =>
    rw [List.append_nil, List.nil_append, skipWhile_eq, peek?_behind, if_neg]
    cases rest with
    | nil => nofun
    | cons c rest => simp [hr c rfl]
  | cons c text ih =>
    obtain ⟨hp, hb⟩ := ht c List.mem_cons_self
    have ih := @ih (before ++ [c]) fun d hd => ht d (List.mem_cons_of_mem c hd)
    rw [List.append_assoc, List.singleton_append] at ih
    rw [← ih, List.cons_append, ← advance_behind_of_not_isLineBreak hb, skipWhile_eq]
    exact if_pos hp

/-- The text between two readers is what the second one is further on by. -/
lemma textTo_behind :
    (behind before (text ++ rest)).textTo (behind (before ++ text) rest) = String.ofList text := by
  have ho : byteLength (before ++ text) - byteLength before = byteLength text := by
    rw [byteLength_append, Nat.add_sub_cancel_left]
  rw [textTo]
  simp only [behind, ho, takeBytes?_byteLength, Option.getD_some]

lemma spanTo_behind {rest' : List Char} :
    (behind before rest).spanTo (behind (before ++ text) rest') = Span.of before text := rfl

end Reader

end PinsSyntax
