import PinsSyntax.Proofs.Text.Place
import PinsSyntax.Proofs.Token.Spelling
import PinsSyntax.Token.Scanner

/-!
# Trivia

`Trivia` are the texts that can stand in front of a token, and `LastTrivia` those that can stand
behind the last one. A reader skips trivia as a whole (`Reader.skipTrivia_behind`,
`Reader.skipTrivia_behind_last`), and every text is trivia up to its end or up to a character that
starts none (`exists_trivia`).
-/

namespace PinsSyntax

open CharClass

/-- Blanks, and comments that run from a number sign to just before the next line break. -/
inductive Trivia : List Char → Prop where
  | nil :
    Trivia []
  | blank {c text} :
    isBlank c = true →
    Trivia text →
    Trivia (c :: text)
  | comment {body c text} :
    (∀ d ∈ body, isLineBreak d = false) →
    isLineBreak c = true →
    Trivia (c :: text) →
    Trivia ('#' :: (body ++ c :: text))

/-- Trivia at the end of a text, where a comment may run to the end. -/
inductive LastTrivia : List Char → Prop where
  | closed {text} :
    Trivia text →
    LastTrivia text
  | opened {text body} :
    Trivia text →
    (∀ c ∈ body, isLineBreak c = false) →
    LastTrivia (text ++ '#' :: body)

variable {before gap text rest body : List Char} {c : Char}

lemma Trivia.head (h : Trivia (c :: text)) : startsTrivia c = true := by
  cases h with
  | blank hc => simp [startsTrivia, hc]
  | comment => rfl

lemma LastTrivia.head (h : LastTrivia (c :: text)) : startsTrivia c = true := by
  generalize e : c :: text = gap at h
  cases h with
  | closed h =>
    subst e
    exact h.head
  | @opened gap body h =>
    cases gap with
    | nil =>
      cases e
      rfl
    | cons d gap =>
      cases e
      exact h.head

lemma Trivia.append (h : Trivia gap) (ht : Trivia text) : Trivia (gap ++ text) := by
  induction h with
  | nil => exact ht
  | blank hc _ ih => exact .blank hc ih
  | comment hb hc _ ih =>
    have := Trivia.comment hb hc ih
    simpa using this

/-- A line break closes the last comment of a text. -/
lemma LastTrivia.append_lineFeed (h : LastTrivia gap) : Trivia (gap ++ ['\n']) := by
  cases h with
  | closed h => exact h.append (.blank rfl .nil)
  | opened h hb =>
    have := h.append (.comment hb (c := '\n') rfl (.blank rfl .nil))
    simpa using this

/-- A comment goes on with one that is open. -/
lemma LastTrivia.append_comment (h : LastTrivia gap) (hb : ∀ d ∈ body, isLineBreak d = false) :
    LastTrivia (gap ++ '#' :: body) := by
  cases h with
  | closed h => exact .opened h hb
  | @opened gap body' h hb' =>
    have hb : ∀ d ∈ body' ++ '#' :: body, isLineBreak d = false :=
      List.forall_mem_append.2 ⟨hb', List.forall_mem_cons.2 ⟨rfl, hb⟩⟩
    rw [List.append_assoc]
    exact .opened h hb

/-- A comment in front of trivia that start with a line break makes trivia. -/
lemma LastTrivia.comment (hb : ∀ d ∈ body, isLineBreak d = false) (hc : isLineBreak c = true)
    (h : LastTrivia (c :: text)) : LastTrivia ('#' :: (body ++ c :: text)) := by
  generalize e : c :: text = gap at h
  cases h with
  | closed h =>
    subst e
    exact .closed (.comment hb hc h)
  | @opened gap body' h hb' =>
    cases gap with
    | nil =>
      cases e
      cases hc
    | cons d gap =>
      cases e
      have := LastTrivia.opened (Trivia.comment hb hc h) hb'
      simpa using this

lemma LastTrivia.blank (hc : isBlank c = true) (h : LastTrivia text) : LastTrivia (c :: text) := by
  cases h with
  | closed h => exact .closed (.blank hc h)
  | opened h hb => exact .opened (.blank hc h) hb

/-- Every text is trivia up to its end, or up to a character that starts none. -/
lemma exists_trivia (text : List Char) :
    LastTrivia text ∨
      ∃ gap c rest, text = gap ++ c :: rest ∧ Trivia gap ∧ startsTrivia c = false := by
  induction hn : text.length using Nat.strongRecOn generalizing text with
  | ind n ih =>
    cases text with
    | nil => exact .inl (.closed .nil)
    | cons c text =>
      by_cases hb : isBlank c = true
      · obtain h | ⟨gap, d, rest, rfl, hg, hd⟩ := ih text.length (by simp [← hn]) text rfl
        · exact .inl (h.blank hb)
        · exact .inr ⟨c :: gap, d, rest, rfl, .blank hb hg, hd⟩
      by_cases hc : c = '#'
      · subst hc
        -- The comment runs to the first line break, and the rest is split from there.
        obtain ⟨body, rest, rfl, hbody, hrest⟩ := exists_front (!isLineBreak ·) text
        have hbody : ∀ d ∈ body, isLineBreak d = false := by simpa using hbody
        cases rest with
        | nil =>
          rw [List.append_nil]
          exact .inl (.opened .nil hbody)
        | cons d rest =>
          have hd : isLineBreak d = true := by simpa using hrest
          have hlt : (d :: rest).length < n := by
            simp only [← hn, List.length_cons, List.length_append]
            omega
          obtain h | ⟨gap, e, rest', hs, hg, he⟩ := ih _ hlt (d :: rest) rfl
          · exact .inl (h.comment hbody hd)
          · cases gap with
            | nil =>
              cases hs
              simp [startsTrivia, isBlank_of_isLineBreak hd] at he
            | cons _ gap =>
              cases hs
              exact .inr ⟨'#' :: (body ++ d :: gap), e, rest', by simp, .comment hbody hd hg, he⟩
      · exact .inr ⟨[], c, text, rfl, .nil, by simp [startsTrivia, hb, hc]⟩

namespace Reader

/-- What a reader skips depends on the character it peeks at. -/
lemma skipTrivia_eq (r : Reader) :
    r.skipTrivia =
      match r.peek? with
      | none => r
      | some c =>
        if isBlank c then r.advance.skipTrivia
        else if c = '#' then (r.advance.skipWhile (!isLineBreak ·)).skipTrivia
        else r := by
  rw [skipTrivia, peek?]
  cases hr : r.rest with
  | nil => rfl
  | cons c rest => rfl

lemma skipTrivia_of_blank (hc : isBlank c = true) :
    (behind before (c :: rest)).skipTrivia = (behind before (c :: rest)).advance.skipTrivia := by
  rw [skipTrivia_eq]
  exact if_pos hc

lemma skipTrivia_of_numberSign :
    (behind before ('#' :: rest)).skipTrivia =
      ((behind before ('#' :: rest)).advance.skipWhile (!isLineBreak ·)).skipTrivia := by
  rw [skipTrivia_eq]
  rfl

lemma skipTrivia_of_head? (hr : ∀ c ∈ rest.head?, startsTrivia c = false) :
    (behind before rest).skipTrivia = behind before rest := by
  rw [skipTrivia_eq]
  cases rest with
  | nil => rfl
  | cons c rest =>
    obtain ⟨hb, hn⟩ := Bool.or_eq_false_iff.1 (hr c rfl)
    exact (if_neg (by simp [hb])).trans (if_neg (ne_of_beq_false hn))

/-- Behind trivia comes what starts none. -/
lemma startsTrivia_skipTrivia (r : Reader) : ∀ c ∈ r.skipTrivia.peek?, startsTrivia c = false := by
  fun_induction skipTrivia r with
  | case1 r hr =>
    rw [peek?, hr]
    rintro _ ⟨⟩
  | case2 _ _ _ _ _ ih => exact ih
  | case3 _ _ _ _ ih => exact ih
  | case4 r c rest hr hb hn =>
    rw [peek?_eq_some hr]
    rintro _ ⟨⟩
    exact Bool.or_eq_false_iff.2 ⟨Bool.eq_false_iff.2 hb, beq_false_of_ne hn⟩

/-- A comment is skipped up to the line break or the end of the text behind it. -/
lemma skipTrivia_of_comment (hb : ∀ d ∈ body, isLineBreak d = false)
    (hr : ∀ d ∈ rest.head?, isLineBreak d = true) :
    (behind before ('#' :: (body ++ rest))).skipTrivia =
      (behind (before ++ '#' :: body) rest).skipTrivia := by
  have hs := @skipWhile_behind (before ++ ['#']) rest body (!isLineBreak ·)
    (fun d hd => by simp [hb d hd]) (fun d hd => by simp [hr d hd])
  rw [skipTrivia_of_numberSign, advance_behind_of_not_isLineBreak rfl, hs, List.append_assoc]
  rfl

/-- A reader that skips trivia comes past those in front. -/
lemma skipTrivia_append (hg : Trivia gap) (hu : Unbroken before (gap ++ rest))
    (hr : Unbroken gap rest) :
    (behind before (gap ++ rest)).skipTrivia = (behind (before ++ gap) rest).skipTrivia := by
  -- The two characters of one line break are skipped at once, hence the induction on the length.
  induction hn : gap.length using Nat.strongRecOn generalizing gap before with
  | ind n ih =>
    cases hg with
    | nil => rw [List.append_nil, List.nil_append]
    | @blank c text hc ht =>
      rw [List.cons_append, skipTrivia_of_blank hc]
      by_cases hu' : Unbroken [c] (text ++ rest)
      · have ih := ih text.length (by simp [← hn]) ht (hu'.of_singleton before)
          hr.tail rfl
        have ha := advance_behind hu hu'
        exact (congrArg skipTrivia ha).trans (ih.trans (by rw [List.append_assoc]; rfl))
      · obtain ⟨rfl, rest', hs⟩ := Unbroken.of_not_singleton hu'
        cases text with
        | nil =>
          cases hs
          exact absurd rfl (hr rfl)
        | cons d text =>
          cases hs
          cases ht with
          | blank _ ht =>
            have hu : Unbroken (before ++ ['\r'] ++ ['\n']) (text ++ rest) :=
              .of_last_ne _ (by decide)
            rw [List.append_assoc] at hu
            have hlt : text.length < n := by
              simp only [← hn, List.length_cons]
              omega
            have ih := ih text.length hlt ht hu hr.tail.tail rfl
            exact (congrArg skipTrivia advance_behind_lineBreak).trans
              (ih.trans (by rw [List.append_assoc]; rfl))
    | @comment body c text hb hc ht =>
      have hu : Unbroken (before ++ '#' :: body) (c :: text ++ rest) :=
        .of_not_isLineBreak _ (by simp) (List.forall_mem_cons.2 ⟨rfl, hb⟩)
      have hlt : (c :: text).length < n := by
        simp only [← hn, List.length_cons, List.length_append]
        omega
      have ih := ih (c :: text).length hlt ht hu hr.tail.of_append rfl
      rw [List.cons_append, List.append_assoc, List.cons_append,
        skipTrivia_of_comment hb (by simp [hc]), ← List.cons_append, ih, List.append_assoc]
      rfl

/-- Trivia are skipped up to a character that starts none. -/
lemma skipTrivia_behind (hg : Trivia gap) (hu : Unbroken before (gap ++ rest))
    (hr : ∀ c ∈ rest.head?, startsTrivia c = false) :
    (behind before (gap ++ rest)).skipTrivia = behind (before ++ gap) rest := by
  rw [skipTrivia_append hg hu, skipTrivia_of_head? hr]
  intro _ hn
  cases hr '\n' hn

/-- A comment that is open is skipped up to the line break behind it. -/
lemma skipTrivia_append_last (hg : LastTrivia gap) (hu : Unbroken before (gap ++ rest))
    (hr : Unbroken gap rest) (hb : ∀ c ∈ rest.head?, isLineBreak c = true) :
    (behind before (gap ++ rest)).skipTrivia = (behind (before ++ gap) rest).skipTrivia := by
  cases hg with
  | closed hg => exact skipTrivia_append hg hu hr
  | @opened gap body hg hbody =>
    rw [List.append_assoc] at hu ⊢
    rw [skipTrivia_append hg hu (.of_head_ne (by decide)), List.cons_append,
      skipTrivia_of_comment hbody hb, List.append_assoc]

/-- The trivia behind the last token are skipped up to the end. -/
lemma skipTrivia_behind_last (hg : LastTrivia gap) (hu : Unbroken before gap) :
    (behind before gap).skipTrivia = behind (before ++ gap) [] := by
  rw [← List.append_nil gap] at hu
  have hs := skipTrivia_append_last hg hu (.nil gap) nofun
  rw [List.append_nil] at hs
  rw [hs]
  exact skipTrivia_of_head? nofun

end Reader

end PinsSyntax
