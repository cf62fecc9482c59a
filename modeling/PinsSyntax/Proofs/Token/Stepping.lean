import Mathlib.Logic.Function.Iterate
import PinsSyntax.Proofs.Token.Reaching

/-!
# Scanning step by step

A call of `Scanner.next` reads one character after another. A call in its course (`Course`) is what
it has come to between two of them: where it has marked the start of what it reads, how far it has
read, and what it is about (`Task`). In one step it reads one character or none, and leaves the mark
where it is or sets it to where it stands (`Course.step_cases`). Step by step, it comes to the item
that `Scanner.next` finds, with the same mark and reader (`Scanner.next_eq_or_course_eq`).
-/

namespace PinsSyntax

open CharClass

/-- What a call of `next` is about. -/
inductive Task where
  /-- To see what comes next: the end of the text, trivia or an item. -/
  | look
  /-- To read on in a row of one and the same blank. -/
  | blanks (c : Char)
  /-- To read on in a comment. -/
  | comment
  /-- To read the equals sign that may belong to a symbol of kind `k`. -/
  | symbol (k : Kind)
  /-- To read on in an integer. -/
  | integer
  /-- To read on in a word. -/
  | word
  /-- To read on in a string; `value` is what the body read so far stands for. -/
  | body (value : String)
  /-- To see whether a quote in a string is doubled. -/
  | quote (value : String)
  /-- Nothing any more. -/
  | found (item : Item)

/-- A call of `next` in its course: the place where the trivia or the item starts that it reads, the
place that it has come to, and what it is about. -/
structure Course where
  mark : Reader
  reader : Reader
  task : Task

/-- What a call is about when it has read the character `c` from `start` to `stop`. -/
def Task.ofFirst (start stop : Reader) (c : Char) : Task :=
  if isBlank c then blanks c
  else if c = '#' then comment
  else
    match Kind.ofSymbolChar? c with
    | some k => symbol k
    | none =>
      if c = '\'' then body ""
      else if c.isDigit then integer
      else if isWordStart c then word
      else found (.error ⟨start.spanTo stop, .unexpectedCharacter c⟩)

namespace Course

/-- Reads the next character if there is one that satisfies `p`, and otherwise turns to `next`. -/
def readIf (p : Char → Bool) (mark r : Reader) (task next : Task) : Course :=
  if r.peek?.any p then ⟨mark, r.advance, task⟩ else ⟨mark, r, next⟩

/-- What a call does next. -/
def step : Course → Course
  | ⟨_, r, .look⟩ =>
    match r.peek? with
    | none => ⟨r, r, .found (.ok (Token.endAt r.location))⟩
    | some c => ⟨r, r.advance, .ofFirst r r.advance c⟩
  | ⟨mark, r, .blanks c⟩ => readIf (· == c) mark r (.blanks c) .look
  | ⟨mark, r, .comment⟩ => readIf (!isLineBreak ·) mark r .comment .look
  | ⟨mark, r, .symbol k⟩ => ⟨mark, (mark.scanSymbol r k).2, .found (mark.scanSymbol r k).1⟩
  | ⟨mark, r, .integer⟩ =>
    readIf Char.isDigit mark r .integer (.found (.ok (mark.tokenTo r .integerConstant)))
  | ⟨mark, r, .word⟩ =>
    readIf isWordPart mark r .word (.found (.ok (mark.tokenTo r (Kind.ofWord (mark.textTo r)))))
  | ⟨mark, r, .body value⟩ =>
    match r.peek? with
    | none => ⟨mark, r, .found (.error ⟨mark.spanTo r, .unterminatedString⟩)⟩
    | some c =>
      if c = '\'' then ⟨mark, r.advance, .quote value⟩
      else if isPrintable c then ⟨mark, r.advance, .body (value.push c)⟩
      else if isLineBreak c then ⟨mark, r, .found (.error ⟨mark.spanTo r, .unterminatedString⟩)⟩
      else ⟨mark, r.advance, .found (.error ⟨r.spanTo r.advance, .unexpectedCharacter c⟩)⟩
  | ⟨mark, r, .quote value⟩ =>
    if r.peek? = some '\'' then ⟨mark, r.advance, .body (value.push '\'')⟩
    else ⟨mark, r, .found (.ok ⟨mark.spanTo r, .stringConstant, value⟩)⟩
  | ⟨mark, r, .found item⟩ => ⟨mark, r, .found item⟩

/-- In one step, a call leaves the mark where it is or sets it to the place that it has come to, and
reads one character or none. -/
lemma step_cases (s : Course) :
    (s.step.mark = s.mark ∨ s.step.mark = s.reader) ∧
      (s.step.reader = s.reader ∨ s.step.reader = s.reader.advance) := by
  obtain ⟨mark, r, task⟩ := s
  cases task with
  | look | quote =>
    simp only [step]
    split <;> simp
  | symbol =>
    simp only [step, Reader.scanSymbol]
    split <;> simp
  | blanks | comment | integer | word =>
    simp only [step, readIf]
    split <;> simp
  | body =>
    simp only [step]
    split
    · simp
    · split_ifs <;> simp
  | found => exact ⟨.inl rfl, .inl rfl⟩

/-- A call comes from `s` to `s'`, in as many steps as it takes. -/
def Leads (s s' : Course) : Prop := ∃ k, step^[k] s = s'

namespace Leads

variable {s s' s'' : Course}

lemma refl : Leads s s := ⟨0, rfl⟩

lemma step (h : Leads s.step s') : Leads s s' := by
  obtain ⟨k, rfl⟩ := h
  exact ⟨k + 1, rfl⟩

lemma trans (h : Leads s s') (h' : Leads s' s'') : Leads s s'' := by
  obtain ⟨k, rfl⟩ := h
  obtain ⟨l, rfl⟩ := h'
  exact ⟨l + k, Function.iterate_add_apply _ l k s⟩

end Leads

variable {mark r start : Reader} {c : Char} {p : Char → Bool} {task next : Task} {value : String}

lemma readIf_of_any (h : r.peek?.any p = true) :
    readIf p mark r task next = ⟨mark, r.advance, task⟩ := if_pos h

lemma readIf_of_not_any (h : r.peek?.any p = false) :
    readIf p mark r task next = ⟨mark, r, next⟩ := if_neg (by simp [h])

/-- A call reads on as long as the characters satisfy `p`, and then turns to what comes next. -/
lemma leads_skipWhile {after : Reader → Task}
    (h : ∀ r, (mk mark r task).step = readIf p mark r task (after r)) (r : Reader) :
    Leads ⟨mark, r, task⟩ ⟨mark, r.skipWhile p, after (r.skipWhile p)⟩ := by
  refine .step ?_
  fun_induction Reader.skipWhile p r with
  | case1 r hr =>
    rw [h, readIf_of_not_any (by simp [Reader.peek?, hr])]
    exact .refl
  | case2 r c rest hr hp ih =>
    rw [h, readIf_of_any (by simpa [Reader.peek?, hr] using hp)]
    exact .step ih
  | case3 r c rest hr hp =>
    rw [h, readIf_of_not_any (by simpa [Reader.peek?, hr] using hp)]
    exact .refl

lemma step_integer (r : Reader) :
    (mk mark r .integer).step = readIf Char.isDigit mark r .integer
      (.found (.ok (mark.tokenTo r .integerConstant))) := rfl

lemma step_word (r : Reader) :
    (mk mark r .word).step = readIf isWordPart mark r .word
      (.found (.ok (mark.tokenTo r (Kind.ofWord (mark.textTo r))))) := rfl

lemma step_look (h : r.peek? = some c) :
    (mk mark r .look).step = ⟨r, r.advance, .ofFirst r r.advance c⟩ := by
  rw [step, h]

/-- Behind a row of blanks a call looks. -/
lemma leads_look (h : r.peek? ≠ some c) : Leads ⟨mark, r, .blanks c⟩ ⟨mark, r, .look⟩ := by
  refine .step ?_
  rw [step, readIf_of_not_any]
  · exact .refl
  · cases hp : r.peek? with
    | none => rfl
    | some d => exact beq_false_of_ne fun hd => h (hd ▸ hp)

/-- A call that looks, or reads blanks, comes behind the trivia and looks. -/
lemma exists_leads_skipTrivia (r : Reader) :
    (∀ mark, ∃ mark', Leads ⟨mark, r, .look⟩ ⟨mark', r.skipTrivia, .look⟩) ∧
      ∀ mark c, isBlank c = true →
        ∃ mark', Leads ⟨mark, r, .blanks c⟩ ⟨mark', r.skipTrivia, .look⟩ := by
  fun_induction Reader.skipTrivia r with
  | case1 r hr =>
    refine ⟨fun mark => ⟨mark, .refl⟩, fun mark c _ => ⟨mark, leads_look ?_⟩⟩
    rw [Reader.peek?, hr]
    rintro ⟨⟩
  | case2 r c rest hr hc ih =>
    have hp := Reader.peek?_eq_some hr
    have hlook (mark : Reader) :
        ∃ mark', Leads ⟨mark, r, .look⟩ ⟨mark', r.advance.skipTrivia, .look⟩ := by
      obtain ⟨mark', hl⟩ := ih.2 r c hc
      refine ⟨mark', .step ?_⟩
      rw [step_look hp, Task.ofFirst, if_pos hc]
      exact hl
    refine ⟨hlook, fun mark d hd => ?_⟩
    by_cases he : c = d
    · subst he
      obtain ⟨mark', hl⟩ := ih.2 mark c hc
      refine ⟨mark', .step ?_⟩
      rw [step, readIf_of_any (by simp [hp])]
      exact hl
    · obtain ⟨mark', hl⟩ := hlook mark
      exact ⟨mark', (leads_look (by simpa [hp] using he)).trans hl⟩
  | case3 r rest hr hn ih =>
    have hp := Reader.peek?_eq_some hr
    have hlook (mark : Reader) : ∃ mark', Leads ⟨mark, r, .look⟩
        ⟨mark', (r.advance.skipWhile (!isLineBreak ·)).skipTrivia, .look⟩ := by
      obtain ⟨mark', hl⟩ := ih.1 r
      refine ⟨mark', .step ?_⟩
      rw [step_look hp]
      exact (leads_skipWhile (fun _ => rfl) _).trans hl
    refine ⟨hlook, fun mark d hd => ?_⟩
    obtain ⟨mark', hl⟩ := hlook mark
    refine ⟨mark', (leads_look ?_).trans hl⟩
    rw [hp]
    rintro ⟨⟩
    cases hd
  | case4 r c rest hr hb hn =>
    refine ⟨fun mark => ⟨mark, .refl⟩, fun mark d hd => ⟨mark, leads_look ?_⟩⟩
    rw [Reader.peek?, hr]
    rintro ⟨⟩
    exact hb hd

lemma step_body (h : r.peek? = some c) :
    (mk mark r (.body value)).step =
      if c = '\'' then ⟨mark, r.advance, .quote value⟩
      else if isPrintable c then ⟨mark, r.advance, .body (value.push c)⟩
      else if isLineBreak c then ⟨mark, r, .found (.error ⟨mark.spanTo r, .unterminatedString⟩)⟩
      else ⟨mark, r.advance, .found (.error ⟨r.spanTo r.advance, .unexpectedCharacter c⟩)⟩ := by
  rw [step, h]

/-- A call in a string comes to the token or the error that is scanned. -/
lemma leads_scanString (start r : Reader) (value : String) :
    Leads ⟨start, r, .body value⟩
      ⟨start, (start.scanString r value).2, .found (start.scanString r value).1⟩ := by
  refine .step ?_
  fun_induction Reader.scanString start r value with
  | case1 r value hr =>
    rw [step, Reader.peek?, hr]
    exact .refl
  | case2 r value rest hn hr ih =>
    rw [step_body (Reader.peek?_eq_some hr), if_pos rfl]
    refine .step ?_
    rw [step, if_pos ((Reader.peek?_advance_quote hr).trans hn)]
    exact .step ih
  | case3 r value rest hn hr =>
    rw [step_body (Reader.peek?_eq_some hr), if_pos rfl]
    refine .step ?_
    rw [step, if_neg (mt (Reader.peek?_advance_quote hr).symm.trans hn)]
    exact .refl
  | case4 r value c rest hr hq hp ih =>
    rw [step_body (Reader.peek?_eq_some hr), if_neg hq, if_pos hp]
    exact .step ih
  | case5 r value c rest hr hq hp hc =>
    rw [step_body (Reader.peek?_eq_some hr), if_neg hq, if_neg hp, if_pos hc]
    exact .refl
  | case6 r value c rest hr hq hp hc =>
    rw [step_body (Reader.peek?_eq_some hr), if_neg hq, if_neg hp, if_neg hc]
    exact .refl

/-- A call that has read the first character of an item comes to the item. -/
lemma leads_scanFrom (start next : Reader) (hb : startsTrivia c = false) :
    Leads ⟨start, next, .ofFirst start next c⟩
      ⟨start, (start.scanFrom next c).2, .found (start.scanFrom next c).1⟩ := by
  obtain ⟨hb, hn⟩ := Bool.or_eq_false_iff.1 hb
  rw [Task.ofFirst, if_neg (by simp [hb]), if_neg (ne_of_beq_false hn)]
  unfold Reader.scanFrom
  cases Kind.ofSymbolChar? c with
  | some k =>
    refine .step ?_
    exact .refl
  | none =>
    dsimp only
    split_ifs
    · exact leads_scanString start next ""
    · exact leads_skipWhile step_integer next
    · exact leads_skipWhile step_word next
    · exact .refl

/-- A call that looks where no trivia stand comes to the item there. -/
lemma leads_scanItem (mark r : Reader) (h : ∀ c ∈ r.peek?, startsTrivia c = false) :
    Leads ⟨mark, r, .look⟩ ⟨r, r.scanItem.2, .found r.scanItem.1⟩ := by
  refine .step ?_
  unfold Reader.scanItem
  cases hp : r.peek? with
  | none =>
    rw [step, hp]
    exact .refl
  | some c =>
    rw [step_look hp]
    exact leads_scanFrom r r.advance (h c hp)

end Course

namespace Scanner

/-- A call of `next` after `k` steps. -/
def course (s : Scanner) (k : Nat) : Course := Course.step^[k] ⟨s.mark, s.reader, .look⟩

lemma course_succ (s : Scanner) (k : Nat) : s.course (k + 1) = (s.course k).step :=
  Function.iterate_succ_apply' ..

/-- A call of `next` finds nothing and changes nothing, or it comes to the item that is found, where
the scanner has its mark and its reader afterwards. -/
lemma next_eq_or_course_eq (s : Scanner) :
    s.next = (none, s) ∨ ∃ item k, s.next.1 = some item ∧
      s.course k = ⟨s.next.2.mark, s.next.2.reader, .found item⟩ := by
  cases hs : s.finished with
  | true => exact .inl (if_pos hs)
  | false =>
    rw [next_of_not_finished hs]
    obtain ⟨mark, hl⟩ := (Course.exists_leads_skipTrivia s.reader).1 s.mark
    obtain ⟨k, hk⟩ := hl.trans (Course.leads_scanItem mark _ s.reader.startsTrivia_skipTrivia)
    exact .inr ⟨_, k, rfl, hk⟩

end Scanner

end PinsSyntax
