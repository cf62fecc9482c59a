import PinsSyntax.Proofs.Text.Reaching

/-!
# Readers that are moved

A reader that starts further down in a text, or in a text that goes on with more behind it, advances
as it does without (`Reader.advance_moved`, `Reader.skipWhile_moved`), as long as it does not come
to see what the text goes on with (`Move.Unseen`): it looks one character ahead, so it has to have
one left of its own text. The text between two readers stays the same
(`Reader.Reaches.textTo_moved`), and the span between them moves along.
-/

namespace PinsSyntax

/-- A way to move a reader: so many lines down and bytes on, and with more text behind. -/
structure Move where
  lines : Nat
  bytes : Nat
  more : List Char

/-- The same reader elsewhere. -/
def Reader.moved (r : Reader) (m : Move) : Reader :=
  ⟨r.rest ++ m.more, r.offset + m.bytes, r.location.down m.lines⟩

/-- A reader does not see the text that a move adds: there is none, or it has some of its own left
in front. -/
def Move.Unseen (m : Move) (r : Reader) : Prop := m.more = [] ∨ r.rest ≠ []

variable {m : Move} {r start stop : Reader} {p : Char → Bool}

namespace Move.Unseen

/-- What a reader does not see it has not seen before. -/
lemma of_reaches (h : m.Unseen stop) (hr : start.Reaches stop) : m.Unseen start :=
  h.imp_right (mt hr.rest_eq_nil)

lemma more_eq_nil (h : m.Unseen r) (hr : r.rest = []) : m.more = [] := h.resolve_right (· hr)

end Move.Unseen

namespace Reader

lemma peek?_moved (h : m.Unseen r) : (r.moved m).peek? = r.peek? := by
  rw [peek?, moved, peek?]
  cases hr : r.rest with
  | nil =>
    rw [h.more_eq_nil hr]
    rfl
  | cons c rest => rfl

lemma advance_moved (h : m.Unseen r.advance) : (r.moved m).advance = r.advance.moved m := by
  obtain ⟨rest, offset, l⟩ := r
  cases rest with
  | nil =>
    have hm : m.more = [] := h.more_eq_nil rfl
    simp [moved, advance, hm]
  | cons c rest =>
    by_cases hu : Unbroken [c] rest
    · have hu' : Unbroken [c] (rest ++ m.more) := by
        rw [advance_cons hu] at h
        cases rest with
        | nil =>
          rw [h.more_eq_nil rfl]
          exact hu
        | cons d rest => exact hu
      simp only [moved, List.cons_append, advance_cons hu, advance_cons hu', Location.past_down,
        Nat.add_right_comm]
    · obtain ⟨rfl, rest, rfl⟩ := Unbroken.of_not_singleton hu
      simp only [moved, List.cons_append, advance, Location.nextLine_down, Nat.add_right_comm]

lemma skipWhile_moved (h : m.Unseen (r.skipWhile p)) :
    (r.moved m).skipWhile p = (r.skipWhile p).moved m := by
  have hu : m.Unseen r := h.of_reaches (reaches_skipWhile p r)
  rw [skipWhile_eq, peek?_moved hu]
  fun_induction skipWhile p r with
  | case1 r hr =>
    rw [peek?, hr]
    rfl
  | case2 r c rest hr hc ih =>
    have ha : m.Unseen r.advance := h.of_reaches (reaches_skipWhile p _)
    rw [peek?_eq_some hr, Option.any_some, if_pos hc, advance_moved ha, skipWhile_eq,
      peek?_moved ha, ih h ha]
  | case3 r c rest hr hc =>
    rw [peek?_eq_some hr, Option.any_some, if_neg hc]

lemma Reaches.textTo_moved (h : start.Reaches stop) :
    (start.moved m).textTo (stop.moved m) = start.textTo stop := by
  obtain ⟨text, h⟩ := h.exists_past
  have ho : stop.offset + m.bytes - (start.offset + m.bytes) = byteLength text := by
    rw [h.offset_eq]
    omega
  rw [h.textTo_eq, textTo, moved, moved, ho, h.rest_eq, List.append_assoc, takeBytes?_byteLength]
  rfl

lemma spanTo_moved : (start.moved m).spanTo (stop.moved m) = (start.spanTo stop).down m.lines := rfl

end Reader

end PinsSyntax
