import PinsSyntax.Proofs.Text.Place
import PinsSyntax.Proofs.Token.Spelling
import PinsSyntax.Token.Scanner

/-!
# Bodies of string constants

What can stand between the quotes of a string constant (`StringBody`) are the values of string
constants with their quotes doubled (`stringBody_iff`). In every text there is a longest body
(`LongestBody`), and the character behind that one decides how a reader ends that scans a string:
at a single quote with a token (`Reader.scanString_closed`), at the end of a line or of the text
with an unterminated string (`Reader.scanString_unterminated`), and at any other character with this
as the fault (`Reader.scanString_unprintable`).
-/

namespace PinsSyntax

open CharClass

/-- Printable characters other than the quote, and doubled quotes. -/
inductive StringBody : List Char → Prop where
  | nil :
    StringBody []
  | char {c body} :
    isPrintable c = true →
    c ≠ '\'' →
    StringBody body →
    StringBody (c :: body)
  | quotes {body} :
    StringBody body →
    StringBody ('\'' :: '\'' :: body)

/-- `body` is the longest body that `body ++ rest` starts with. -/
structure LongestBody (body rest : List Char) : Prop where
  isBody : StringBody body
  longest : ∀ other, StringBody other → other <+: body ++ rest → other.length ≤ body.length

variable {body other rest value : List Char} {c : Char}

lemma StringBody.append (h : StringBody body) (h' : StringBody other) :
    StringBody (body ++ other) := by
  induction h with
  | nil => exact h'
  | char hp hq _ ih => exact .char hp hq ih
  | quotes _ ih => exact .quotes ih

lemma StringBody.head (h : StringBody (c :: body)) : isPrintable c = true := by
  cases h with
  | char hp => exact hp
  | quotes => rfl

lemma stringBody_doubleQuotes (h : ∀ c ∈ value, isPrintable c = true) :
    StringBody (doubleQuotes value) := by
  induction value with
  | nil => exact .nil
  | cons c value ih =>
    obtain ⟨hc, h⟩ := List.forall_mem_cons.1 h
    unfold doubleQuotes
    split
    · exact .quotes (ih h)
    · exact .char hc ‹_› (ih h)

/-- The bodies are the values with their quotes doubled. -/
lemma stringBody_iff :
    StringBody body ↔ ∃ value, body = doubleQuotes value ∧ ∀ c ∈ value, isPrintable c = true := by
  constructor
  · intro h
    induction h with
    | nil => exact ⟨[], rfl, nofun⟩
    | @char c body hp hq _ ih =>
      obtain ⟨value, rfl, hv⟩ := ih
      exact ⟨c :: value, by simp [doubleQuotes, hq], List.forall_mem_cons.2 ⟨hp, hv⟩⟩
    | quotes _ ih =>
      obtain ⟨value, rfl, hv⟩ := ih
      exact ⟨'\'' :: value, rfl, List.forall_mem_cons.2 ⟨rfl, hv⟩⟩
  · rintro ⟨value, rfl, hv⟩
    exact stringBody_doubleQuotes hv

lemma StringBody.isLineBreak_eq_false (h : StringBody body) :
    ∀ c ∈ body, isLineBreak c = false := by
  intro c hc
  obtain ⟨value, rfl, hv⟩ := stringBody_iff.1 h
  exact CharClass.isLineBreak_eq_false rfl rfl (hv c (mem_of_mem_doubleQuotes hc))

/-- Nothing printable comes behind a body that cannot be longer. -/
lemma StringBody.longestBody (h : StringBody body) (hr : ∀ c ∈ rest.head?, isPrintable c = false) :
    LongestBody body rest := by
  refine ⟨h, fun other ho hp => ?_⟩
  -- Two bodies of one text take the same step at each place, until one of them ends.
  induction h generalizing other with
  | nil =>
    cases other with
    | nil => exact Nat.le_refl 0
    | cons c other =>
      obtain ⟨_, rfl⟩ := hp
      have := hr c rfl
      rw [ho.head] at this
      cases this
  | char _ hq _ ih =>
    cases ho with
    | nil => exact Nat.zero_le _
    | char _ _ ho =>
      obtain ⟨-, hp⟩ := List.cons_prefix_cons.1 hp
      exact Nat.succ_le_succ (ih _ ho hp)
    | quotes _ => exact absurd (List.cons_prefix_cons.1 hp).1.symm hq
  | quotes _ ih =>
    cases ho with
    | nil => exact Nat.zero_le _
    | char _ hq _ => exact absurd (List.cons_prefix_cons.1 hp).1 hq
    | quotes ho =>
      obtain ⟨-, hp⟩ := List.cons_prefix_cons.1 hp
      obtain ⟨-, hp⟩ := List.cons_prefix_cons.1 hp
      exact Nat.add_le_add_right (ih _ ho hp) 2

/-- A longest body without a quote behind it has nothing printable behind it. -/
lemma LongestBody.isPrintable_eq_false (h : LongestBody body rest) (hq : rest.head? ≠ some '\'') :
    ∀ c ∈ rest.head?, isPrintable c = false := by
  intro c hc
  rw [Bool.eq_false_iff]
  intro hp
  obtain ⟨rest, rfl⟩ := List.head?_eq_some_iff.1 hc
  have hc : c ≠ '\'' := by
    rintro rfl
    exact hq rfl
  have hb : StringBody (body ++ [c]) := h.isBody.append (.char hp hc .nil)
  have hl := h.longest _ hb ⟨rest, by simp⟩
  rw [List.length_append] at hl
  exact absurd hl (Nat.not_succ_le_self _)

/-- In every text, a longest body ends in front of a closing quote or of nothing printable. -/
lemma exists_body (text : List Char) :
    ∃ value rest, (∀ c ∈ value, isPrintable c = true) ∧
      ((text = doubleQuotes value ++ '\'' :: rest ∧ rest.head? ≠ some '\'') ∨
        (text = doubleQuotes value ++ rest ∧ ∀ c ∈ rest.head?, isPrintable c = false)) := by
  induction hn : text.length using Nat.strongRecOn generalizing text with
  | ind n ih =>
    cases text with
    | nil => exact ⟨[], [], nofun, .inr ⟨rfl, nofun⟩⟩
    | cons c text =>
      cases hp : isPrintable c with
      | false => exact ⟨[], c :: text, nofun, .inr ⟨rfl, by simp [hp]⟩⟩
      | true =>
        by_cases hq : c = '\''
        · subst hq
          by_cases ht : text.head? = some '\''
          · obtain ⟨text, rfl⟩ := List.head?_eq_some_iff.1 ht
            have hlt : text.length < n := by
              simp only [← hn, List.length_cons]
              omega
            obtain ⟨value, rest, hv, ht⟩ := ih text.length hlt text rfl
            refine ⟨'\'' :: value, rest, List.forall_mem_cons.2 ⟨hp, hv⟩, ?_⟩
            simpa [doubleQuotes] using ht
          · exact ⟨[], text, nofun, .inl ⟨rfl, ht⟩⟩
        · obtain ⟨value, rest, hv, ht⟩ := ih text.length (by simp [← hn]) text rfl
          refine ⟨c :: value, rest, List.forall_mem_cons.2 ⟨hp, hv⟩, ?_⟩
          simpa [doubleQuotes, hq] using ht

namespace Reader

variable {start : Reader} {before : List Char} {acc : String}

/-- The character behind a quote. -/
lemma peek?_advance_quote {r : Reader} (hr : r.rest = '\'' :: rest) :
    r.advance.peek? = rest.head? := by
  obtain ⟨_, offset, l⟩ := r
  cases hr
  rfl

/-- How a reader goes on with a string depends on the character it peeks at. -/
lemma scanString_eq (start r : Reader) (value : String) :
    scanString start r value =
      match r.peek? with
      | none => (.error ⟨start.spanTo r, .unterminatedString⟩, r)
      | some c =>
        if c = '\'' then
          if r.advance.peek? = some '\'' then
            scanString start r.advance.advance (value.push '\'')
          else (.ok ⟨start.spanTo r.advance, .stringConstant, value⟩, r.advance)
        else if isPrintable c then scanString start r.advance (value.push c)
        else if isLineBreak c then (.error ⟨start.spanTo r, .unterminatedString⟩, r)
        else (.error ⟨r.spanTo r.advance, .unexpectedCharacter c⟩, r.advance) := by
  obtain ⟨rest, offset, l⟩ := r
  rw [scanString]
  cases rest with
  | nil => rfl
  | cons c rest =>
    by_cases hc : c = '\''
    · subst hc
      rfl
    · simp only [peek?, List.head?_cons, if_neg hc]

lemma scanString_char (hp : isPrintable c = true) (hq : c ≠ '\'') :
    scanString start (behind before (c :: rest)) acc =
      scanString start (behind (before ++ [c]) rest) (acc.push c) := by
  rw [← advance_behind_of_not_isLineBreak (isLineBreak_eq_false rfl rfl hp), scanString_eq]
  exact (if_neg hq).trans (if_pos hp)

lemma scanString_quotes :
    scanString start (behind before ('\'' :: '\'' :: rest)) acc =
      scanString start (behind (before ++ ['\'', '\'']) rest) (acc.push '\'') := by
  have ha : (behind before ('\'' :: '\'' :: rest)).advance.advance =
      behind (before ++ ['\'', '\'']) rest := by
    rw [advance_behind_of_not_isLineBreak rfl, advance_behind_of_not_isLineBreak rfl]
    simp
  rw [← ha, scanString_eq, advance_behind_of_not_isLineBreak rfl]
  rfl

/-- The body of a string is scanned to the value that it stands for. -/
lemma scanString_body (hv : ∀ c ∈ value, isPrintable c = true) :
    scanString start (behind before (doubleQuotes value ++ rest)) acc =
      scanString start (behind (before ++ doubleQuotes value) rest)
        (acc ++ String.ofList value) := by
  induction value generalizing before acc with
  | nil => simp [doubleQuotes]
  | cons c value ih =>
    obtain ⟨hc, hvs⟩ := List.forall_mem_cons.1 hv
    have hacc : acc.push c ++ String.ofList value = acc ++ String.ofList (c :: value) := by
      apply String.ext
      simp
    by_cases hq : c = '\''
    · subst hq
      have hd : doubleQuotes ('\'' :: value) = ['\'', '\''] ++ doubleQuotes value := rfl
      rw [hd, ← hacc, ← List.append_assoc, ← ih hvs]
      exact scanString_quotes
    · have hd : doubleQuotes (c :: value) = [c] ++ doubleQuotes value := by simp [doubleQuotes, hq]
      rw [hd, ← hacc, ← List.append_assoc, ← ih hvs]
      exact scanString_char hc hq

/-- A string ends at a quote that is not doubled. -/
lemma scanString_closed (hv : ∀ c ∈ value, isPrintable c = true) (hr : rest.head? ≠ some '\'') :
    scanString start (behind before (doubleQuotes value ++ '\'' :: rest)) "" =
      let stop := behind (before ++ (doubleQuotes value ++ ['\''])) rest
      (.ok ⟨start.spanTo stop, .stringConstant, String.ofList value⟩, stop) := by
  have ha := @advance_behind_of_not_isLineBreak (before ++ doubleQuotes value) rest '\'' rfl
  rw [List.append_assoc] at ha
  rw [scanString_body hv, scanString_eq, ha, String.empty_append]
  exact (if_pos rfl).trans (if_neg hr)

/-- A string that its line or the text does not close is unterminated. -/
lemma scanString_unterminated (hb : StringBody body) (hr : ∀ c ∈ rest.head?, isLineBreak c = true) :
    scanString start (behind before (body ++ rest)) "" =
      let stop := behind (before ++ body) rest
      (.error ⟨start.spanTo stop, .unterminatedString⟩, stop) := by
  obtain ⟨value, rfl, hv⟩ := stringBody_iff.1 hb
  rw [scanString_body hv, scanString_eq]
  cases rest with
  | nil => rfl
  | cons c rest =>
    obtain rfl | rfl := isLineBreak_iff.1 (hr c rfl) <;> rfl

/-- A character that cannot stand in a string is where scanning stops. -/
lemma scanString_unprintable (hb : StringBody body) (hp : isPrintable c = false)
    (hc : isLineBreak c = false) :
    scanString start (behind before (body ++ c :: rest)) "" =
      let stop := behind (before ++ body ++ [c]) rest
      (.error ⟨(behind (before ++ body) (c :: rest)).spanTo stop, .unexpectedCharacter c⟩,
        stop) := by
  obtain ⟨value, rfl, hv⟩ := stringBody_iff.1 hb
  have ha := @advance_behind_of_not_isLineBreak (before ++ doubleQuotes value) rest c hc
  have hq : c ≠ '\'' := by
    rintro rfl
    cases hp
  rw [scanString_body hv, scanString_eq, ha]
  exact (if_neg hq).trans ((if_neg (by simp [hp])).trans (if_neg (by simp [hc])))

end Reader

end PinsSyntax
