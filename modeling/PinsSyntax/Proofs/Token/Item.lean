import PinsSyntax.Proofs.Token.StringBody
import PinsSyntax.Proofs.Token.Trivia

/-!
# Items of a text

Where no trivia stand, the text ends, a token is written in it (`Kind.Admits`, `Kind.spell`), or it
is refused (`Refused`); `exists_item` shows that these are all the cases. A reader scans a token
that is written in front of it (`Reader.scanItem_spell`) and the error for which a text is refused
(`Reader.scanItem_refused`).
-/

namespace PinsSyntax

open CharClass

/-- The characters that neither trivia nor tokens start with. -/
def IsStray (c : Char) : Prop :=
  startsTrivia c = false ∧ c ≠ '\'' ∧ isWordPart c = false ∧
    ∀ (k : Kind) (text : String), k.symbol? = some text → text.toList.head? ≠ some c

/-- Behind `before`, where a token is looked for, a text is refused with an error: it starts with a
stray character, or with a string that is not closed behind its longest body. -/
inductive Refused (before : List Char) : List Char → LexicalError → Prop where
  | stray {c rest} :
    IsStray c →
    Refused before (c :: rest) ⟨.of before [c], .unexpectedCharacter c⟩
  | unterminated {body rest} :
    LongestBody body rest →
    (∀ c ∈ rest.head?, isLineBreak c = true) →
    Refused before ('\'' :: (body ++ rest)) ⟨.of before ('\'' :: body), .unterminatedString⟩
  | unprintable {body c rest} :
    LongestBody body (c :: rest) →
    c ≠ '\'' →
    isLineBreak c = false →
    Refused before ('\'' :: (body ++ c :: rest))
      ⟨.of (before ++ '\'' :: body) [c], .unexpectedCharacter c⟩

variable {before rest word digits text body : List Char} {c : Char} {k next : Kind}
  {lexeme : String} {e : LexicalError}

lemma IsStray.ofSymbolChar?_eq_none (h : IsStray c) : Kind.ofSymbolChar? c = none := by
  rw [Option.eq_none_iff_forall_ne_some]
  intro k hk
  refine h.2.2.2 k _ (Kind.symbol?_of_ofSymbolChar? hk) ?_
  rw [String.toList_ofList]
  rfl

/-- A character is stray if it starts no trivia, string or word, and tells no symbol. -/
lemma isStray_of_ofSymbolChar? (ht : startsTrivia c = false) (hq : c ≠ '\'')
    (hw : isWordPart c = false) (hs : Kind.ofSymbolChar? c = none) : IsStray c := by
  refine ⟨ht, hq, hw, fun k text hk hc => ?_⟩
  obtain ⟨d, hd, h⟩ | ⟨d, _, hd, h, -⟩ := Kind.symbol?_cases hk
  · rw [hd] at hc
    cases hc
    rw [hs] at h
    cases h
  · rw [hd] at hc
    cases hc
    rw [hs] at h
    cases h

lemma Refused.startsTrivia_eq_false (h : Refused before (c :: rest) e) :
    startsTrivia c = false := by
  generalize hs : c :: rest = text at h
  cases h with
  | stray hc =>
    cases hs
    exact hc.1
  | unterminated | unprintable =>
    cases hs
    rfl

/-- A text is refused whatever comes behind the end of its line. -/
lemma Refused.append (h : Refused before text e) (hc : isLineBreak c = true) (rest : List Char) :
    Refused before (text ++ c :: rest) e := by
  cases h with
  | stray hs => exact .stray hs
  | @unterminated body rest' hb hr =>
    have hr : ∀ d ∈ (rest' ++ c :: rest).head?, isLineBreak d = true := by
      cases rest' with
      | nil => simpa using hc
      | cons d rest' => exact hr
    rw [List.cons_append, List.append_assoc]
    exact .unterminated (hb.isBody.longestBody fun d hd => isPrintable_of_isLineBreak (hr d hd)) hr
  | unprintable hb hq hd =>
    rw [List.cons_append, List.append_assoc]
    refine .unprintable (hb.isBody.longestBody ?_) hq hd
    exact hb.isPrintable_eq_false (by simpa using hq)

/-- A text is refused at a character that belongs to no line break. -/
lemma Refused.unbroken (h : Refused before text e) (front : List Char) : Unbroken front text := by
  cases h with
  | stray hc =>
    refine .of_head_ne ?_
    rintro rfl
    cases hc.1
  | unterminated | unprintable => exact .of_head_ne (by decide)

namespace Reader

lemma tokenTo_behind :
    (behind before (text ++ rest)).tokenTo (behind (before ++ text) rest) k =
      ⟨Span.of before text, k, String.ofList text⟩ := by
  rw [tokenTo, textTo_behind, spanTo_behind]

lemma scanItem_cons : (behind before (c :: rest)).scanItem =
    scanFrom (behind before (c :: rest)) (behind before (c :: rest)).advance c := rfl

/-- A class of word characters is read from the character behind the first one. -/
lemma skipWhile_advance {p : Char → Bool} (hc : isWordPart c = true)
    (ht : ∀ d ∈ text, p d = true ∧ isWordPart d = true) (hr : ∀ d ∈ rest.head?, p d = false) :
    (behind before (c :: (text ++ rest))).advance.skipWhile p =
      behind (before ++ c :: text) rest := by
  rw [advance_behind_of_not_isLineBreak (isLineBreak_eq_false rfl rfl hc),
    skipWhile_behind (fun d hd => ⟨(ht d hd).1, isLineBreak_eq_false rfl rfl (ht d hd).2⟩) hr,
    List.append_assoc]
  rfl

lemma scanItem_word (hw : isWord word = true) (hr : ∀ d ∈ rest.head?, isWordPart d = false) :
    (behind before (word ++ rest)).scanItem =
      (.ok ⟨Span.of before word, Kind.ofWord (String.ofList word), String.ofList word⟩,
        behind (before ++ word) rest) := by
  cases word with
  | nil => cases hw
  | cons c text =>
    rw [isWord, Bool.and_eq_true, List.all_eq_true] at hw
    obtain ⟨hc, ht⟩ := hw
    have hp := isWordPart_of_isWordStart hc
    have hq : c ≠ '\'' := by
      rintro rfl
      cases hc
    have hstop := @skipWhile_advance before rest text c isWordPart hp
      (fun d hd => ⟨ht d hd, ht d hd⟩) hr
    have htok := @tokenTo_behind before rest (c :: text)
    have htext := @textTo_behind before rest (c :: text)
    rw [List.cons_append] at htok htext ⊢
    rw [scanItem_cons, scanFrom, Kind.ofSymbolChar?_of_isWordPart hp, if_neg hq,
      if_neg (by simp [isDigit_of_isWordStart hc]), if_pos hc]
    simp only [hstop, htok, htext]

lemma scanItem_integer (hne : digits ≠ []) (hd : ∀ d ∈ digits, d.isDigit = true)
    (hr : ∀ d ∈ rest.head?, d.isDigit = false) :
    (behind before (digits ++ rest)).scanItem =
      (.ok ⟨Span.of before digits, .integerConstant, String.ofList digits⟩,
        behind (before ++ digits) rest) := by
  cases digits with
  | nil => exact absurd rfl hne
  | cons c text =>
    obtain ⟨hc, ht⟩ := List.forall_mem_cons.1 hd
    have hp := isWordPart_of_isDigit hc
    have hq : c ≠ '\'' := by
      rintro rfl
      cases hc
    have hstop := @skipWhile_advance before rest text c Char.isDigit hp
      (fun d hd => ⟨ht d hd, isWordPart_of_isDigit (ht d hd)⟩) hr
    have htok := @tokenTo_behind before rest (c :: text)
    rw [List.cons_append] at htok ⊢
    rw [scanItem_cons, scanFrom, Kind.ofSymbolChar?_of_isWordPart hp, if_neg hq, if_pos hc]
    simp only [hstop, htok]

/-- A symbol of one character ends where no equals sign goes on with it. -/
lemma scanItem_symbolChar (hk : Kind.ofSymbolChar? c = some k) (hr : k.EndsBefore rest) :
    (behind before ([c] ++ rest)).scanItem =
      (.ok ⟨Span.of before [c], k, String.ofList [c]⟩, behind (before ++ [c]) rest) := by
  have ha := @advance_behind_of_not_isLineBreak before rest c (Kind.isLineBreak_of_ofSymbolChar? hk)
  have htok := @tokenTo_behind before rest [c] k
  rw [List.singleton_append] at htok ⊢
  rw [scanItem_cons, scanFrom, hk, ha]
  simp only [scanSymbol]
  split
  · rename_i longer hl hp
    have hg := hr '=' hp
    rw [Kind.goesOnWith_of_symbol? (Kind.symbol?_of_ofSymbolChar? hk), hl] at hg
    cases hg
  · rw [htok]

/-- A symbol takes the equals sign that can belong to it. -/
lemma scanItem_symbolEqual (hk : Kind.ofSymbolChar? c = some k) (hn : k.withEqual? = some next) :
    (behind before ([c, '='] ++ rest)).scanItem =
      (.ok ⟨Span.of before [c, '='], next, String.ofList [c, '=']⟩,
        behind (before ++ [c, '=']) rest) := by
  have ha := @advance_behind_of_not_isLineBreak before ('=' :: rest) c
    (Kind.isLineBreak_of_ofSymbolChar? hk)
  have ha' := @advance_behind_of_not_isLineBreak (before ++ [c]) rest '=' rfl
  have htok := @tokenTo_behind before rest [c, '='] next
  rw [List.append_assoc, List.singleton_append] at ha'
  rw [List.cons_append, List.singleton_append] at htok ⊢
  rw [scanItem_cons, scanFrom, hk, ha]
  simp only [scanSymbol, hn, peek?_behind, List.head?_cons, ha', htok]

lemma scanItem_quote : (behind before ('\'' :: rest)).scanItem =
    scanString (behind before ('\'' :: rest)) (behind (before ++ ['\'']) rest) "" := by
  rw [scanItem_cons, advance_behind_of_not_isLineBreak rfl]
  rfl

/-- A reader scans the token that is written in front of it. -/
lemma scanItem_spell (h : k.Admits lexeme) (hr : k.EndsBefore rest) :
    (behind before (k.spell lexeme ++ rest)).scanItem =
      (.ok ⟨Span.of before (k.spell lexeme), k, lexeme⟩,
        behind (before ++ k.spell lexeme) rest) := by
  obtain ⟨hk, hw⟩ | hs | ⟨rfl, hne, hd⟩ | ⟨rfl, hv⟩ := h.shape
  · have hr : ∀ d ∈ rest.head?, isWordPart d = false := by
      intro d hd
      rw [← Kind.goesOnWith_of_isWordlike hk]
      exact hr d hd
    rw [Kind.spell_of_isWordlike hk, scanItem_word hw hr, String.ofList_toList, h.ofWord_eq hk]
  · rw [Kind.spell_of_symbol? hs]
    obtain ⟨c, ht, hc⟩ | ⟨c, shorter, ht, hc, hn⟩ := Kind.symbol?_cases hs
    · rw [ht, scanItem_symbolChar hc hr, ← ht, String.ofList_toList]
    · rw [ht, scanItem_symbolEqual hc hn, ← ht, String.ofList_toList]
  · have hne : lexeme.toList ≠ [] := fun he => hne (String.toList_eq_nil_iff.1 he)
    have hs : Kind.integerConstant.spell lexeme = lexeme.toList := rfl
    rw [hs, scanItem_integer hne hd hr, String.ofList_toList]
  · have hq : rest.head? ≠ some '\'' := by
      intro hc
      cases hr '\'' hc
    have hs : Kind.stringConstant.spell lexeme ++ rest =
        '\'' :: (doubleQuotes lexeme.toList ++ '\'' :: rest) := by simp [Kind.spell]
    rw [hs, scanItem_quote, scanString_closed hv hq, ← hs, List.append_assoc, String.ofList_toList]
    rfl

/-- A reader scans the error for which the text in front of it is refused. -/
lemma scanItem_refused (h : Refused before text e) :
    (behind before text).scanItem.1 = .error e := by
  cases h with
  | @stray c rest hc =>
    have hs := hc.ofSymbolChar?_eq_none
    obtain ⟨ht, hq, hw, -⟩ := hc
    obtain ⟨hw, hd⟩ := Bool.or_eq_false_iff.1 hw
    rw [scanItem_cons, scanFrom, hs, if_neg hq, if_neg (by simp [hd]), if_neg (by simp [hw]),
      advance_behind_of_not_isLineBreak (isLineBreak_of_startsTrivia ht)]
    rfl
  | @unterminated body rest hb hr =>
    rw [scanItem_quote, scanString_unterminated hb.isBody hr, List.append_assoc]
    rfl
  | @unprintable body c rest hb hq hc =>
    have hp := hb.isPrintable_eq_false (by simpa using hq) c rfl
    have hs : before ++ ['\''] ++ body = before ++ '\'' :: body := by simp
    rw [scanItem_quote, scanString_unprintable hb.isBody hp hc, hs]
    rfl

end Reader

/-- In front of a quote stands a string, or the text is refused there. -/
lemma exists_string (before text : List Char) :
    (∃ e, Refused before ('\'' :: text) e) ∨
      ∃ (lexeme : String) (rest : List Char),
        '\'' :: text = Kind.stringConstant.spell lexeme ++ rest ∧
        Kind.stringConstant.Admits lexeme ∧ Kind.stringConstant.EndsBefore rest := by
  obtain ⟨value, rest, hv, ⟨rfl, hr⟩ | ⟨rfl, hr⟩⟩ := exists_body text
  · refine .inr ⟨String.ofList value, rest, ?_, .string ?_, ?_⟩
    · simp [Kind.spell]
    · simpa using hv
    · intro c hc
      exact beq_false_of_ne (by rintro rfl; exact hr hc)
  · have hb := (stringBody_doubleQuotes hv).longestBody hr
    left
    cases rest with
    | nil => exact ⟨_, .unterminated hb nofun⟩
    | cons c rest =>
      have hp : isPrintable c = false := hr c rfl
      cases hc : isLineBreak c with
      | true => exact ⟨_, .unterminated hb (by simpa using hc)⟩
      | false =>
        refine ⟨_, .unprintable hb ?_ hc⟩
        rintro rfl
        cases hp

/-- A character that starts no trivia starts a token, or the text is refused there. -/
lemma exists_item (before text : List Char) (h : startsTrivia c = false) :
    (∃ e, Refused before (c :: text) e) ∨
      ∃ (k : Kind) (lexeme : String) (rest : List Char),
        c :: text = k.spell lexeme ++ rest ∧ k.Admits lexeme ∧ k.EndsBefore rest := by
  by_cases hq : c = '\''
  · subst hq
    obtain h | ⟨lexeme, rest, hs, ha, hr⟩ := exists_string before text
    · exact .inl h
    · exact .inr ⟨_, lexeme, rest, hs, ha, hr⟩
  cases hw : isWordPart c with
  | true =>
    right
    cases hd : c.isDigit with
    | true =>
      obtain ⟨digits, rest, rfl, hf, hr⟩ := exists_front Char.isDigit text
      refine ⟨.integerConstant, String.ofList (c :: digits), rest, ?_, .integer ?_ ?_, hr⟩
      · simp [Kind.spell]
      · intro he
        have := String.toList_eq_nil_iff.2 he
        simp at this
      · simpa using ⟨hd, hf⟩
    | false =>
      have hc : isWordStart c = true := by simpa [isWordPart, hd] using hw
      obtain ⟨word, rest, rfl, hf, hr⟩ := exists_front isWordPart text
      have hword : isWord (String.ofList (c :: word)).toList = true := by
        simpa [isWord, hc] using hf
      have hk := Kind.isWordlike_ofWord (String.ofList (c :: word))
      refine ⟨_, _, rest, ?_, Kind.admits_ofWord hword, ?_⟩
      · rw [Kind.spell_of_isWordlike hk, String.toList_ofList]
        rfl
      · intro d hd
        rw [Kind.goesOnWith_of_isWordlike hk]
        exact hr d hd
  | false =>
    cases hk : Kind.ofSymbolChar? c with
    | none => exact .inl ⟨_, .stray (isStray_of_ofSymbolChar? h hq hw hk)⟩
    | some k =>
      right
      have hs := Kind.symbol?_of_ofSymbolChar? hk
      by_cases hr : k.EndsBefore text
      · refine ⟨k, _, text, ?_, .symbol hs, hr⟩
        rw [Kind.spell_of_symbol? hs, String.toList_ofList]
        rfl
      · -- What goes on with a symbol is an equals sign, and it makes another symbol.
        obtain ⟨d, hd⟩ := Classical.not_forall.1 hr
        obtain ⟨hd, hg⟩ := Classical.not_imp.1 hd
        obtain ⟨rest, rfl⟩ := List.head?_eq_some_iff.1 hd
        rw [Kind.goesOnWith_of_symbol? hs, Bool.not_eq_false, Bool.and_eq_true] at hg
        obtain ⟨next, hn⟩ := Option.isSome_iff_exists.1 hg.1
        cases eq_of_beq hg.2
        have hs := Kind.symbol?_of_withEqual? hk hn
        refine ⟨next, _, rest, ?_, .symbol hs, ?_⟩
        · rw [Kind.spell_of_symbol? hs, String.toList_ofList]
          rfl
        · intro d _
          rw [Kind.goesOnWith_of_symbol? hs, Kind.withEqual?_eq_none hn]
          rfl

end PinsSyntax
