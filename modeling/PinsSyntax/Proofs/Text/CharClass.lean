import Mathlib.Tactic.Lemma
import PinsSyntax.Text.CharClass

/-!
# Facts about character classes

The classes that the characters of a text are told apart by: which of them leave out the line breaks
(`isLineBreak_eq_false`), and how those of words, integers and trivia (`startsTrivia`) relate. A
text starts with as many characters of a class as it can (`exists_front`).
-/

namespace PinsSyntax.CharClass

/-- Trivia start with a blank, or with the number sign of a comment. -/
def startsTrivia (c : Char) : Bool := isBlank c || c == '#'

variable {c : Char}

lemma isLineBreak_iff : isLineBreak c = true ↔ c = '\n' ∨ c = '\r' := by
  simp [isLineBreak]

lemma startsTrivia_iff :
    startsTrivia c = true ↔ c = ' ' ∨ c = '\t' ∨ c = '\n' ∨ c = '\r' ∨ c = '#' := by
  simp [startsTrivia, isBlank, isLineBreak, or_assoc]

/-- A class without the two line breaks has no line break in it. -/
lemma isLineBreak_eq_false {p : Char → Bool} (hn : p '\n' = false) (hr : p '\r' = false)
    (h : p c = true) : isLineBreak c = false := by
  rw [Bool.eq_false_iff]
  intro hb
  obtain rfl | rfl := isLineBreak_iff.1 hb
  · rw [hn] at h
    cases h
  · rw [hr] at h
    cases h

lemma isBlank_of_isLineBreak (h : isLineBreak c = true) : isBlank c = true := by
  simp [isBlank, h]

lemma isPrintable_of_isLineBreak (h : isLineBreak c = true) : isPrintable c = false := by
  obtain rfl | rfl := isLineBreak_iff.1 h <;> rfl

/-- Characters between two printable ones are printable. -/
lemma isPrintable_of_le {a b : Char} (ha : a.val ≤ c.val) (hb : c.val ≤ b.val)
    (h : isPrintable a = true ∧ isPrintable b = true) : isPrintable c = true := by
  obtain ⟨h, h'⟩ := h
  have ha' : ' '.val ≤ a.val := of_decide_eq_true ((Bool.and_eq_true ..).mp h).1
  have hb' : b.val ≤ '~'.val := of_decide_eq_true ((Bool.and_eq_true ..).mp h').2
  exact (Bool.and_eq_true ..).mpr ⟨decide_eq_true (UInt32.le_trans ha' ha),
    decide_eq_true (UInt32.le_trans hb hb')⟩

lemma isLineBreak_of_startsTrivia (h : startsTrivia c = false) : isLineBreak c = false := by
  simp only [startsTrivia, isBlank, Bool.or_eq_false_iff] at h
  exact h.1.2

lemma isWordPart_of_isDigit (h : c.isDigit = true) : isWordPart c = true := by
  simp [isWordPart, h]

lemma isWordPart_of_isWordStart (h : isWordStart c = true) : isWordPart c = true := by
  simp [isWordPart, h]

lemma isDigit_of_isWordStart (h : isWordStart c = true) : c.isDigit = false := by
  have hc : 'A'.val ≤ c.val ∨ c = '_' := by
    obtain h | h := (Bool.or_eq_true ..).mp h
    · obtain h | h := (Bool.or_eq_true ..).mp h
      · exact .inl (of_decide_eq_true h).1
      · have h : 'a'.val ≤ c.val := of_decide_eq_true ((Bool.and_eq_true ..).mp h).1
        exact .inl (UInt32.le_trans (by decide) h)
    · exact .inr (eq_of_beq h)
  rw [Bool.eq_false_iff]
  intro hd
  have hd : c.val ≤ '9'.val := of_decide_eq_true ((Bool.and_eq_true ..).mp hd).2
  obtain hc | rfl := hc
  · exact absurd (UInt32.le_trans hc hd) (by decide)
  · exact absurd hd (by decide)

lemma isPrintable_of_isWordPart (h : isWordPart c = true) : isPrintable c = true := by
  obtain h | h := (Bool.or_eq_true ..).mp h
  · obtain h | h := (Bool.or_eq_true ..).mp h
    · obtain h | h := (Bool.or_eq_true ..).mp h
      · have h := of_decide_eq_true h
        exact isPrintable_of_le h.1 h.2 ⟨rfl, rfl⟩
      · have h := (Bool.and_eq_true ..).mp h
        exact isPrintable_of_le (of_decide_eq_true h.1) (of_decide_eq_true h.2) ⟨rfl, rfl⟩
    · cases eq_of_beq h
      rfl
  · have h := (Bool.and_eq_true ..).mp h
    exact isPrintable_of_le (of_decide_eq_true h.1) (of_decide_eq_true h.2) ⟨rfl, rfl⟩

/-- The front of a text that is made of a class of characters, as long as it can be. -/
lemma exists_front (p : Char → Bool) (text : List Char) :
    ∃ front rest, text = front ++ rest ∧ (∀ c ∈ front, p c = true) ∧
      ∀ c ∈ rest.head?, p c = false := by
  induction text with
  | nil => exact ⟨[], [], rfl, nofun, nofun⟩
  | cons c text ih =>
    cases hc : p c with
    | true =>
      obtain ⟨front, rest, rfl, hf, hr⟩ := ih
      exact ⟨c :: front, rest, rfl, List.forall_mem_cons.2 ⟨hc, hf⟩, hr⟩
    | false => exact ⟨[], c :: text, rfl, nofun, by simp [hc]⟩

end PinsSyntax.CharClass
