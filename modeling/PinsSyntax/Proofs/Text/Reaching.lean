import PinsSyntax.Proofs.Text.Place

/-!
# Readers that come from one another

A reader reaches what it becomes as it advances (`Reader.Reaches`), by one character or one line
break at a time. The reader that it reaches is past a text (`Reader.Reaches.exists_past`): this is
what has gone from the text that was left, and the offset and the location have moved on by it. So
the two offsets cut out just this text (`Reader.Past.textTo_eq`), and a reader that started with a
whole text stands at a place of that text (`Reader.Past.eq_behind`).
-/

namespace PinsSyntax

namespace Reader

/-- The readers that `start` becomes as it advances. -/
inductive Reaches (start : Reader) : Reader → Prop where
  | refl :
    Reaches start start
  | advance {stop} :
    Reaches start stop →
    Reaches start stop.advance

/-- The reader `stop` has come from `start` past `text`. -/
structure Past (start : Reader) (text : List Char) (stop : Reader) : Prop where
  rest_eq : start.rest = text ++ stop.rest
  offset_eq : stop.offset = start.offset + byteLength text
  location_eq : stop.location = start.location.through text
  unbroken : Unbroken text stop.rest

variable {r start next stop : Reader} {p : Char → Bool} {text more source : List Char}

namespace Past

lemma nil : r.Past [] r := ⟨rfl, rfl, rfl, .start _⟩

lemma trans (h : start.Past text next) (h' : next.Past more stop) :
    start.Past (text ++ more) stop := by
  have hu : Unbroken text (more ++ stop.rest) := h'.rest_eq ▸ h.unbroken
  refine ⟨?_, ?_, ?_, ?_⟩
  · rw [h.rest_eq, h'.rest_eq, List.append_assoc]
  · rw [h'.offset_eq, h.offset_eq, byteLength_append, Nat.add_assoc]
  · rw [h'.location_eq, h.location_eq, Location.through_append hu.left]
  · cases more with
    | nil =>
      rw [List.append_nil]
      exact hu
    | cons c more =>
      intro hl
      rw [List.getLast?_append, List.getLast?_eq_some_getLast (List.cons_ne_nil c more)] at hl
      exact h'.unbroken hl

/-- What a reader has come past is the text that the two offsets cut out. -/
lemma textTo_eq (h : start.Past text stop) : start.textTo stop = String.ofList text := by
  rw [textTo, h.offset_eq, Nat.add_sub_cancel_left, h.rest_eq, takeBytes?_byteLength]
  rfl

lemma eq_behind (h : (ofText source).Past text stop) :
    source = text ++ stop.rest ∧ stop = behind text stop.rest := by
  obtain ⟨hr, ho, hl, -⟩ := h
  obtain ⟨rest, offset, location⟩ := stop
  refine ⟨hr, ?_⟩
  rw [ofText, Nat.zero_add] at ho
  cases ho
  cases hl
  rfl

end Past

/-- A reader advances past one character, past the two of one line break, or not at all. -/
lemma exists_past_advance (r : Reader) : ∃ text, r.Past text r.advance := by
  obtain ⟨rest, offset, location⟩ := r
  cases rest with
  | nil => exact ⟨[], .nil⟩
  | cons c rest =>
    by_cases hu : Unbroken [c] rest
    · refine ⟨[c], ?_⟩
      rw [advance_cons hu]
      exact ⟨rfl, rfl, (Location.through_cons (.nil [c])).symm, hu⟩
    · obtain ⟨rfl, rest, rfl⟩ := Unbroken.of_not_singleton hu
      exact ⟨['\r', '\n'], rfl, rfl, rfl, .of_last_ne ['\r'] (by decide)⟩

namespace Reaches

lemma trans (h : start.Reaches next) (h' : next.Reaches stop) : start.Reaches stop := by
  induction h' with
  | refl => exact h
  | advance _ ih => exact ih.advance

lemma exists_past (h : start.Reaches stop) : ∃ text, start.Past text stop := by
  induction h with
  | refl => exact ⟨[], .nil⟩
  | advance _ ih =>
    obtain ⟨text, h⟩ := ih
    obtain ⟨more, h'⟩ := exists_past_advance _
    exact ⟨text ++ more, h.trans h'⟩

lemma rest_eq_nil (h : start.Reaches stop) (hr : start.rest = []) : stop.rest = [] := by
  obtain ⟨text, h⟩ := h.exists_past
  rw [h.rest_eq] at hr
  exact (List.append_eq_nil_iff.1 hr).2

end Reaches

lemma reaches_advance (r : Reader) : r.Reaches r.advance := .advance .refl

lemma reaches_skipWhile (p : Char → Bool) (r : Reader) : r.Reaches (r.skipWhile p) := by
  fun_induction skipWhile p r with
  | case1 | case3 => exact .refl
  | case2 r _ _ _ _ ih => exact r.reaches_advance.trans ih

end Reader

end PinsSyntax
