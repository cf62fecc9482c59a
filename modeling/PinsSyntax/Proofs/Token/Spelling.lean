import PinsSyntax.Proofs.Text.CharClass
import PinsSyntax.Token.Kind

/-!
# Spellings

`Kind.Admits k lexeme` says what the tokens of a kind can stand for, and `Kind.spell k lexeme` how
that is written. Every lexeme is written as it is, but that of a string constant, which stands in
quotes and has its own quotes doubled. A spelling is as long as it can be if what follows does not
go on with it (`Kind.EndsBefore`); two kinds fuse if the spelling of the second goes on with that of
the first (`Kind.fuses`, `Kind.StartsWith.fuses_of_goesOnWith`).

The tables by which kinds are found are shown to agree with the spellings: `Kind.Admits.ofWord_eq`
and `Kind.admits_ofWord` for words, `Kind.symbol?_cases` for symbols.
-/

namespace PinsSyntax

open CharClass

/-- A word is a letter or an underscore, and letters, underscores and digits behind it. -/
def isWord : List Char → Bool
  | [] => false
  | c :: cs => isWordStart c && cs.all isWordPart

/-- A text with every quote written twice. -/
def doubleQuotes : List Char → List Char
  | [] => []
  | c :: cs => if c = '\'' then '\'' :: '\'' :: doubleQuotes cs else c :: doubleQuotes cs

lemma isWordPart_of_mem {word : List Char} {c : Char} (h : isWord word = true) (hc : c ∈ word) :
    isWordPart c = true := by
  cases word with
  | nil => cases h
  | cons d cs =>
    rw [isWord, Bool.and_eq_true, List.all_eq_true] at h
    obtain rfl | hc := List.mem_cons.1 hc
    · exact isWordPart_of_isWordStart h.1
    · exact h.2 c hc

lemma doubleQuotes_append (value more : List Char) :
    doubleQuotes (value ++ more) = doubleQuotes value ++ doubleQuotes more := by
  induction value with
  | nil => rfl
  | cons c value ih =>
    simp only [List.cons_append, doubleQuotes, ih]
    split <;> rfl

lemma doubleQuotes_of_ne {value : List Char} (h : ∀ c ∈ value, c ≠ '\'') :
    doubleQuotes value = value := by
  induction value with
  | nil => rfl
  | cons c value ih =>
    obtain ⟨hc, h⟩ := List.forall_mem_cons.1 h
    rw [doubleQuotes, if_neg hc, ih h]

lemma doubleQuotes_replicate (m : Nat) :
    doubleQuotes (List.replicate m '\'') = List.replicate (2 * m) '\'' := by
  induction m with
  | zero => rfl
  | succ m ih =>
    rw [List.replicate_succ, doubleQuotes, if_pos rfl, ih]
    rfl

lemma mem_of_mem_doubleQuotes {cs : List Char} {c : Char} (h : c ∈ doubleQuotes cs) : c ∈ cs := by
  induction cs with
  | nil => cases h
  | cons d cs ih =>
    unfold doubleQuotes at h
    split at h
    · rename_i hd
      subst hd
      simp only [List.mem_cons, or_self_left] at h
      exact h.elim (· ▸ List.mem_cons_self) fun h => List.mem_cons_of_mem _ (ih h)
    · exact (List.mem_cons.1 h).elim (· ▸ List.mem_cons_self) fun h => List.mem_cons_of_mem _ (ih h)

lemma mem_doubleQuotes_of_mem {cs : List Char} {c : Char} (h : c ∈ cs) : c ∈ doubleQuotes cs := by
  induction cs with
  | nil => cases h
  | cons d cs ih =>
    unfold doubleQuotes
    obtain rfl | h := List.mem_cons.1 h
    · split
      · rename_i hc
        exact hc ▸ List.mem_cons_self
      · exact List.mem_cons_self
    · split
      · exact List.mem_cons_of_mem _ (List.mem_cons_of_mem _ (ih h))
      · exact List.mem_cons_of_mem _ (ih h)

lemma length_doubleQuotes (cs : List Char) :
    (doubleQuotes cs).length = cs.length + cs.count '\'' := by
  induction cs with
  | nil => rfl
  | cons c cs ih =>
    unfold doubleQuotes
    split
    · rename_i hc
      subst hc
      simp only [List.length_cons, ih, List.count_cons_self]
      omega
    · rename_i hc
      simp only [List.length_cons, ih, List.count_cons_of_ne hc]
      omega

namespace Kind

/-- The kinds whose tokens are words. -/
def isWordlike : Kind → Bool
  | identifier | logicalConstant => true
  | k => k.keyword?.isSome

/-- The lexemes of a kind. -/
inductive Admits : Kind → String → Prop where
  | keyword {k word} :
    k.keyword? = some word →
    Admits k word
  | symbol {k text} :
    k.symbol? = some text →
    Admits k text
  | logical {word} :
    word = "true" ∨ word = "false" →
    Admits logicalConstant word
  | integer {digits} :
    digits ≠ "" →
    (∀ c ∈ digits.toList, c.isDigit = true) →
    Admits integerConstant digits
  | identifier {word} :
    isWord word.toList = true →
    (∀ k : Kind, k.keyword? ≠ some word) →
    word ≠ "true" ∧ word ≠ "false" →
    Admits identifier word
  | string {value} :
    (∀ c ∈ value.toList, isPrintable c = true) →
    Admits stringConstant value

/-- How a lexeme of a kind is written. -/
def spell (k : Kind) (lexeme : String) : List Char :=
  match k with
  | stringConstant => '\'' :: (doubleQuotes lexeme.toList ++ ['\''])
  | _ => lexeme.toList

/-- Whether a character goes on with a spelling of the kind that stands in front of it. -/
def goesOnWith (k : Kind) (c : Char) : Bool :=
  match k with
  | integerConstant => c.isDigit
  | stringConstant => c == '\''
  | bang | equal | less | greater => c == '='
  | _ => k.isWordlike && isWordPart c

/-- A spelling of the kind is as long as it can be in front of `rest`. -/
def EndsBefore (k : Kind) (rest : List Char) : Prop :=
  ∀ c ∈ rest.head?, k.goesOnWith c = false

/-- Whether the spelling of a kind would be lengthened by that of the next one. -/
def fuses (k next : Kind) : Bool :=
  k.isWordlike && (next.isWordlike || next == integerConstant) ||
  k == integerConstant && next == integerConstant ||
  k == stringConstant && next == stringConstant ||
  [bang, equal, less, greater].contains k && [equal, doubleEqual].contains next

/-- The characters that a spelling of the kind can start with. -/
inductive StartsWith : Kind → Char → Prop where
  | word {k c} :
    k.isWordlike = true →
    isWordStart c = true →
    StartsWith k c
  | integer {c} :
    c.isDigit = true →
    StartsWith integerConstant c
  | string :
    StartsWith stringConstant '\''
  | symbol {k shorter c} :
    ofSymbolChar? c = some shorter →
    (c = '=' → k ∈ [equal, doubleEqual]) →
    StartsWith k c

variable {k next : Kind} {lexeme word text : String} {c : Char} {cs rest : List Char}

lemma Admits.ne_endOfInput (h : Admits k lexeme) : k ≠ endOfInput := by
  rintro rfl
  cases h with
  | keyword h => cases h
  | symbol h => cases h

lemma isWord_of_keyword? (h : k.keyword? = some word) : isWord word.toList = true := by
  cases k <;> cases h <;> rfl

lemma isWordlike_of_keyword? (h : k.keyword? = some word) : k.isWordlike = true := by
  cases k <;> cases h <;> rfl

lemma isWordlike_of_symbol? (h : k.symbol? = some text) : k.isWordlike = false := by
  cases k <;> cases h <;> rfl

/-- A symbol is one character that tells its kind, or has an equals sign behind it. -/
lemma symbol?_cases (h : k.symbol? = some text) :
    (∃ c, text.toList = [c] ∧ ofSymbolChar? c = some k) ∨
    ∃ c shorter, text.toList = [c, '='] ∧ ofSymbolChar? c = some shorter ∧
      shorter.withEqual? = some k := by
  cases k <;> cases h <;>
    first
    | exact .inl ⟨_, rfl, rfl⟩
    | exact .inr ⟨_, _, rfl, rfl, rfl⟩

/-- A character that tells the kind of a symbol is the symbol of that kind. -/
lemma symbol?_of_ofSymbolChar? (h : ofSymbolChar? c = some k) :
    k.symbol? = some (String.ofList [c]) := by
  unfold ofSymbolChar? at h
  split at h <;> cases h <;> rfl

/-- What makes a symbol longer is an equals sign behind it. -/
lemma symbol?_of_withEqual? (h : ofSymbolChar? c = some k) (hn : k.withEqual? = some next) :
    next.symbol? = some (String.ofList [c, '=']) := by
  unfold ofSymbolChar? at h
  split at h <;> cases h <;> cases hn <;> rfl

lemma withEqual?_eq_none (h : k.withEqual? = some next) : next.withEqual? = none := by
  cases k <;> cases h <;> rfl

lemma ofKeyword?_eq_some_iff : ofKeyword? word = some k ↔ k.keyword? = some word := by
  constructor
  · intro h
    obtain ⟨_, _, he, -⟩ := List.lookup_eq_some_iff.1 h
    have hm : (word, k) ∈ keywords := by rw [he]; simp
    obtain ⟨k', -, hk⟩ := List.mem_filterMap.1 hm
    obtain ⟨_, hw, hp⟩ := Option.map_eq_some_iff.1 hk
    cases hp
    exact hw
  · intro h
    cases k <;> cases h <;> decide

lemma Admits.ofWord_eq (h : Admits k word) (hk : k.isWordlike = true) : ofWord word = k := by
  cases h with
  | keyword h => rw [ofWord, ofKeyword?_eq_some_iff.2 h]
  | symbol h => simp [isWordlike_of_symbol? h] at hk
  | logical h => obtain rfl | rfl := h <;> decide
  | integer => cases hk
  | identifier _ hn hw =>
    have hf : ofKeyword? word = none := by
      rw [Option.eq_none_iff_forall_ne_some]
      exact fun k h => hn k (ofKeyword?_eq_some_iff.1 h)
    rw [ofWord, hf]
    exact if_neg (not_or.2 hw)
  | string => cases hk

lemma admits_ofWord (h : isWord word.toList = true) : Admits (ofWord word) word := by
  unfold ofWord
  split
  · rename_i k hk
    exact .keyword (ofKeyword?_eq_some_iff.1 hk)
  · rename_i hk
    split
    · rename_i hw
      exact .logical hw
    · rename_i hw
      refine .identifier h (fun k hk' => ?_) (not_or.1 hw)
      rw [ofKeyword?_eq_some_iff.2 hk'] at hk
      cases hk

lemma isWordlike_ofWord (word : String) : (ofWord word).isWordlike = true := by
  unfold ofWord
  split
  · rename_i k hk
    exact isWordlike_of_keyword? (ofKeyword?_eq_some_iff.1 hk)
  · split <;> rfl

/-- The kind of a symbol is told by no character of a word. -/
lemma isWordPart_of_ofSymbolChar? (h : ofSymbolChar? c = some k) : isWordPart c = false := by
  unfold ofSymbolChar? at h
  split at h <;> first | rfl | cases h

lemma isPrintable_of_ofSymbolChar? (h : ofSymbolChar? c = some k) : isPrintable c = true := by
  unfold ofSymbolChar? at h
  split at h <;> first | rfl | cases h

lemma isLineBreak_of_ofSymbolChar? (h : ofSymbolChar? c = some k) : isLineBreak c = false :=
  CharClass.isLineBreak_eq_false rfl rfl (isPrintable_of_ofSymbolChar? h)

lemma ofSymbolChar?_of_isWordPart (h : isWordPart c = true) : ofSymbolChar? c = none := by
  cases hk : ofSymbolChar? c with
  | none => rfl
  | some k => simp [isWordPart_of_ofSymbolChar? hk] at h

lemma goesOnWith_cases (h : k.goesOnWith c = true) :
    k.isWordlike = true ∧ isWordPart c = true ∨ k = integerConstant ∧ c.isDigit = true ∨
    k = stringConstant ∧ c = '\'' ∨ k ∈ [bang, equal, less, greater] ∧ c = '=' := by
  unfold goesOnWith at h
  split at h
  · exact .inr (.inl ⟨rfl, h⟩)
  · exact .inr (.inr (.inl ⟨rfl, eq_of_beq h⟩))
  all_goals first
    | exact .inr (.inr (.inr ⟨by decide, eq_of_beq h⟩))
    | exact .inl ((Bool.and_eq_true ..).mp h)

lemma goesOnWith_of_isWordlike (h : k.isWordlike = true) : k.goesOnWith c = isWordPart c := by
  cases k <;> first | rfl | cases h

lemma goesOnWith_of_symbol? (h : k.symbol? = some text) :
    k.goesOnWith c = (k.withEqual?.isSome && c == '=') := by
  cases k <;> first | rfl | cases h

lemma goesOnWith_of_startsTrivia (h : startsTrivia c = true) : k.goesOnWith c = false := by
  obtain rfl | rfl | rfl | rfl | rfl := startsTrivia_iff.1 h <;> cases k <;> rfl

/-- Trivia go on with no spelling. -/
lemma EndsBefore.append (h : k.EndsBefore rest) (hc : startsTrivia c = true) (text : List Char) :
    k.EndsBefore (rest ++ c :: text) := by
  cases rest with
  | nil =>
    intro d hd
    cases hd
    exact goesOnWith_of_startsTrivia hc
  | cons d rest => exact h

/-- A lexeme is a word, a symbol, an integer or the value of a string. -/
lemma Admits.shape (h : Admits k lexeme) :
    k.isWordlike = true ∧ isWord lexeme.toList = true ∨ k.symbol? = some lexeme ∨
    (k = integerConstant ∧ lexeme ≠ "" ∧ ∀ c ∈ lexeme.toList, c.isDigit = true) ∨
    (k = stringConstant ∧ ∀ c ∈ lexeme.toList, isPrintable c = true) := by
  cases h with
  | keyword h => exact .inl ⟨isWordlike_of_keyword? h, isWord_of_keyword? h⟩
  | symbol h => exact .inr (.inl h)
  | logical h => obtain rfl | rfl := h <;> exact .inl ⟨rfl, rfl⟩
  | integer hne hd => exact .inr (.inr (.inl ⟨rfl, hne, hd⟩))
  | identifier h => exact .inl ⟨rfl, h⟩
  | string h => exact .inr (.inr (.inr ⟨rfl, h⟩))

/-- The lexemes are told apart by their shape, and words by the kind that is found for them. -/
lemma admits_iff :
    Admits k lexeme ↔ (isWord lexeme.toList = true ∧ ofWord lexeme = k) ∨ k.symbol? = some lexeme ∨
      (k = integerConstant ∧ lexeme ≠ "" ∧ lexeme.toList.all Char.isDigit = true) ∨
      (k = stringConstant ∧ lexeme.toList.all isPrintable = true) := by
  rw [List.all_eq_true, List.all_eq_true]
  constructor
  · intro h
    exact h.shape.imp_left fun hw => ⟨hw.2, h.ofWord_eq hw.1⟩
  · rintro (⟨hw, rfl⟩ | hs | ⟨rfl, hne, hd⟩ | ⟨rfl, hv⟩)
    · exact admits_ofWord hw
    · exact .symbol hs
    · exact .integer hne hd
    · exact .string hv

instance : Decidable (Admits k lexeme) := decidable_of_iff' _ admits_iff

lemma endsBefore_iff : k.EndsBefore rest ↔ rest.head?.all (!k.goesOnWith ·) = true := by
  cases rest <;> simp [EndsBefore]

instance : Decidable (k.EndsBefore rest) := decidable_of_iff' _ endsBefore_iff

lemma spell_of_isWordlike (h : k.isWordlike = true) : k.spell lexeme = lexeme.toList := by
  cases k <;> first | rfl | cases h

lemma spell_of_symbol? (h : k.symbol? = some text) : k.spell text = text.toList := by
  cases k <;> first | rfl | cases h

lemma Admits.exists_cons (h : Admits k lexeme) :
    ∃ c cs, k.spell lexeme = c :: cs ∧ k.StartsWith c := by
  obtain ⟨hk, hw⟩ | hs | ⟨rfl, hne, hd⟩ | ⟨rfl, -⟩ := h.shape
  · rw [spell_of_isWordlike hk]
    cases hl : lexeme.toList with
    | nil => simp [hl, isWord] at hw
    | cons c cs =>
      rw [hl, isWord, Bool.and_eq_true] at hw
      exact ⟨c, cs, rfl, .word hk hw.1⟩
  · rw [spell_of_symbol? hs]
    obtain ⟨c, ht, hc⟩ | ⟨c, shorter, ht, hc, hn⟩ := symbol?_cases hs
    · refine ⟨c, [], ht, .symbol hc ?_⟩
      rintro rfl
      cases hc
      decide
    · refine ⟨c, ['='], ht, .symbol hc ?_⟩
      rintro rfl
      cases hc
      cases hn
      decide
  · cases hl : lexeme.toList with
    | nil => exact absurd (String.toList_eq_nil_iff.1 hl) hne
    | cons c cs => exact ⟨c, cs, hl, .integer (hd c (by simp [hl]))⟩
  · exact ⟨_, _, rfl, .string⟩

/-- Spellings are made of printable characters. -/
lemma Admits.isPrintable_of_mem (h : Admits k lexeme) (hc : c ∈ k.spell lexeme) :
    isPrintable c = true := by
  obtain ⟨hk, hw⟩ | hs | ⟨rfl, -, hd⟩ | ⟨rfl, hv⟩ := h.shape
  · rw [spell_of_isWordlike hk] at hc
    exact isPrintable_of_isWordPart (isWordPart_of_mem hw hc)
  · rw [spell_of_symbol? hs] at hc
    obtain ⟨d, ht, hd⟩ | ⟨d, shorter, ht, hd, -⟩ := symbol?_cases hs
    · rw [ht, List.mem_singleton] at hc
      exact hc ▸ isPrintable_of_ofSymbolChar? hd
    · rw [ht, List.mem_cons, List.mem_singleton] at hc
      obtain rfl | rfl := hc
      · exact isPrintable_of_ofSymbolChar? hd
      · rfl
  · exact isPrintable_of_isWordPart (isWordPart_of_isDigit (hd c hc))
  · have hs : stringConstant.spell lexeme =
        '\'' :: (doubleQuotes lexeme.toList ++ ['\'']) := rfl
    simp only [hs, List.mem_cons, List.mem_append, List.not_mem_nil, or_false] at hc
    obtain rfl | hc | rfl := hc
    · rfl
    · exact hv c (mem_of_mem_doubleQuotes hc)
    · rfl

/-- A lexeme is a part of its spelling. -/
lemma mem_spell_of_mem (k : Kind) (h : c ∈ lexeme.toList) : c ∈ k.spell lexeme := by
  cases k with
  | stringConstant =>
    exact List.mem_cons_of_mem _ (List.mem_append_left _ (mem_doubleQuotes_of_mem h))
  | _ => exact h

lemma Admits.isLineBreak_eq_false (h : Admits k lexeme) (hc : c ∈ k.spell lexeme) :
    isLineBreak c = false :=
  CharClass.isLineBreak_eq_false rfl rfl (h.isPrintable_of_mem hc)

lemma StartsWith.startsTrivia_eq_false (h : k.StartsWith c) : startsTrivia c = false := by
  rw [Bool.eq_false_iff]
  intro ht
  have hc := startsTrivia_iff.1 ht
  cases h with
  | word _ h | integer h | symbol h =>
    obtain rfl | rfl | rfl | rfl | rfl := hc <;> cases h
  | string => cases ht

/-- A first character that goes on with the spelling in front of it makes the two kinds fuse. -/
lemma StartsWith.fuses_of_goesOnWith (h : next.StartsWith c) (hc : k.goesOnWith c = true) :
    k.fuses next = true := by
  obtain ⟨hk, hp⟩ | ⟨rfl, hd⟩ | ⟨rfl, rfl⟩ | ⟨hk, rfl⟩ := goesOnWith_cases hc
  · cases h with
    | word hn => simp [fuses, hk, hn]
    | integer => simp [fuses, hk]
    | string => cases hp
    | symbol hs => simp [ofSymbolChar?_of_isWordPart hp] at hs
  · cases h with
    | word _ hs => simp [isDigit_of_isWordStart hs] at hd
    | integer => rfl
    | string => cases hd
    | symbol hs => simp [ofSymbolChar?_of_isWordPart (isWordPart_of_isDigit hd)] at hs
  · cases h with
    | word _ hs => cases hs
    | integer hs => cases hs
    | string => rfl
    | symbol hs => cases hs
  · cases h with
    | word _ hs => cases hs
    | integer hs => cases hs
    | symbol _ hn =>
      rw [fuses, List.contains_iff_mem.2 hk, List.contains_iff_mem.2 (hn rfl)]
      exact Bool.or_true _

end Kind

end PinsSyntax
