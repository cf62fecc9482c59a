import PinsSyntax.Proofs.Token.Stepping

/-!
# The offsets of a scanner

A scanner keeps the number of bytes that it has read beside the text that is left, and cuts the
text of a token out of the source by the two offsets where the token starts and ends. The offsets say
where the source is to be cut (`Reader.Cuts`), for the mark and the reader of a scanner come from the
start of the source and from one another by advancing (`Reader.Marks`). They do so at first
(`Scanner.marks_after`), and so they do between any two characters that a call of `next` reads
(`Scanner.marks_course`) and therefore behind the call (`Scanner.marks_next`). So what they cut out is
always there, and it is what has been read since the mark (`Scanner.offsets_cut`).
-/

namespace PinsSyntax

namespace Reader

/-- The readers `mark` and `r` cut `source` into what stands before the one, between the two, and
behind the other. -/
structure Cuts (mark r : Reader) (source front text rest : String) : Prop where
  source_eq : source = front ++ text ++ rest
  rest_mark_eq : mark.rest = (text ++ rest).toList
  rest_eq : r.rest = rest.toList
  offset_mark_eq : mark.offset = front.utf8ByteSize
  offset_eq : r.offset = (front ++ text).utf8ByteSize

/-- `mark` is a place of `source`, and `r` has come from there. -/
structure Marks (source : String) (mark r : Reader) : Prop where
  reaches_mark : (ofText source.toList).Reaches mark
  reaches : mark.Reaches r

variable {mark r : Reader} {source front text rest : String}

namespace Cuts

variable (h : mark.Cuts r source front text rest)
include h

lemma offset_eq_add : r.offset = mark.offset + text.utf8ByteSize := by
  rw [h.offset_eq, String.utf8ByteSize_append, h.offset_mark_eq]

lemma offset_mark_le : mark.offset ≤ r.offset := h.offset_eq_add ▸ Nat.le_add_right _ _

lemma offset_le : r.offset ≤ source.utf8ByteSize := by
  have hs : (front ++ text ++ rest).utf8ByteSize = r.offset + rest.utf8ByteSize :=
    h.offset_eq ▸ String.utf8ByteSize_append
  rw [h.source_eq, hs]
  exact Nat.le_add_right _ _

/-- The mark stands between two characters of the source. -/
lemma isValid_mark : (String.Pos.Raw.mk mark.offset).IsValid source := by
  refine String.Pos.Raw.isValid_iff_exists_append.2 ⟨front, text ++ rest, ?_, ?_⟩
  · rw [h.source_eq, String.append_assoc]
  · rw [h.offset_mark_eq]
    rfl

/-- The reader stands between two characters of the source. -/
lemma isValid : (String.Pos.Raw.mk r.offset).IsValid source := by
  refine String.Pos.Raw.isValid_iff_exists_append.2 ⟨front ++ text, rest, h.source_eq, ?_⟩
  rw [h.offset_eq]
  rfl

/-- The bytes between the two offsets are those of the text between the two readers. -/
lemma extract_eq : source.toByteArray.extract mark.offset r.offset = text.toByteArray := by
  rw [h.offset_eq_add, h.offset_mark_eq, h.source_eq, String.append_assoc,
    String.toByteArray_append, String.toByteArray_append, ← String.size_toByteArray,
    ← String.size_toByteArray]
  exact (ByteArray.extract_append_size_add (i := 0)).trans (ByteArray.extract_append_eq_left rfl)

/-- The text between the two readers is cut out. -/
lemma takeBytes?_eq : takeBytes? (r.offset - mark.offset) mark.rest = some text.toList := by
  have ho : r.offset - mark.offset = byteLength text.toList := by
    rw [h.offset_eq_add, Nat.add_sub_cancel_left, ← utf8ByteSize_ofList, String.ofList_toList]
  rw [ho, h.rest_mark_eq, String.toList_append, takeBytes?_byteLength]

lemma textTo_eq : mark.textTo r = text := by
  rw [textTo, h.takeBytes?_eq, Option.getD_some, String.ofList_toList]

end Cuts

namespace Marks

lemma refl (h : (ofText source.toList).Reaches r) : Marks source r r := ⟨h, .refl⟩

/-- What the reader reaches comes from the start of the source. -/
lemma reaches_start (h : Marks source mark r) : (ofText source.toList).Reaches r :=
  h.reaches_mark.trans h.reaches

lemma advance (h : Marks source mark r) : Marks source mark r.advance :=
  ⟨h.reaches_mark, h.reaches.advance⟩

/-- A mark and what has come from there cut the source. -/
lemma exists_cuts (h : Marks source mark r) :
    ∃ front text rest, mark.Cuts r source front text rest := by
  obtain ⟨front, hf⟩ := h.reaches_mark.exists_past
  obtain ⟨text, ht⟩ := h.reaches.exists_past
  refine ⟨String.ofList front, String.ofList text, String.ofList r.rest, ?_, ?_, ?_, ?_, ?_⟩
  · rw [← String.ofList_append, ← String.ofList_append, List.append_assoc, ← ht.rest_eq,
      ← hf.rest_eq]
    exact String.ofList_toList.symm
  · rw [← String.ofList_append, String.toList_ofList, ht.rest_eq]
  · rw [String.toList_ofList]
  · rw [hf.offset_eq, utf8ByteSize_ofList]
    exact Nat.zero_add _
  · rw [ht.offset_eq, hf.offset_eq, ← String.ofList_append, utf8ByteSize_ofList, byteLength_append]
    exact congrArg (· + byteLength text) (Nat.zero_add _)

end Marks

end Reader

namespace Course

/-- A step keeps the mark and the reader in their places. -/
lemma marks_step {source : String} {s : Course} (h : Reader.Marks source s.mark s.reader) :
    Reader.Marks source s.step.mark s.step.reader := by
  obtain ⟨hm | hm, hr | hr⟩ := s.step_cases
  all_goals rw [hm, hr]
  · exact h
  · exact h.advance
  · exact .refl h.reaches_start
  · exact (Reader.Marks.refl h.reaches_start).advance

end Course

namespace Scanner

variable {source : String} {s : Scanner}

lemma marks_course (h : Reader.Marks source s.mark s.reader) (k : Nat) :
    Reader.Marks source (s.course k).mark (s.course k).reader := by
  induction k with
  | zero => exact h
  | succ k ih =>
    rw [course_succ]
    exact Course.marks_step ih

lemma marks_next (h : Reader.Marks source s.mark s.reader) :
    Reader.Marks source s.next.2.mark s.next.2.reader := by
  obtain hn | ⟨item, k, -, hk⟩ := s.next_eq_or_course_eq
  · rwa [hn]
  · have hm := marks_course h k
    rwa [hk] at hm

lemma marks_after (source : String) (n : Nat) :
    Reader.Marks source ((ofString source).after n).mark ((ofString source).after n).reader := by
  induction n with
  | zero => exact .refl .refl
  | succ n ih =>
    rw [after_succ]
    exact marks_next ih

/-- A call of `next` finds nothing and changes nothing, or it reads by one character after another
until it has found an item. However often a scanner of `source` has been called, and however far it
has come in the next call, the source falls into what stands before the mark, what has been read since
then, and what is left to the reader. The offset of the reader is the number of bytes that have been
read, the offset of the mark is not behind it, both lie in the source and between two characters of
it, and what they cut out is what has been read since the mark. -/
theorem offsets_cut (source : String) :
    (∀ s : Scanner, s.next = (none, s) ∨ ∃ item k, s.next.1 = some item ∧
      s.course k = ⟨s.next.2.mark, s.next.2.reader, .found item⟩) ∧
    ∀ n k,
      let c := ((ofString source).after n).course k
      (c.step.reader = c.reader ∨ c.step.reader = c.reader.advance) ∧
      ∃ front text rest,
        c.mark.Cuts c.reader source front text rest ∧
        c.mark.offset ≤ c.reader.offset ∧ c.reader.offset ≤ source.utf8ByteSize ∧
        (String.Pos.Raw.mk c.mark.offset).IsValid source ∧
        (String.Pos.Raw.mk c.reader.offset).IsValid source ∧
        source.toByteArray.extract c.mark.offset c.reader.offset = text.toByteArray ∧
        takeBytes? (c.reader.offset - c.mark.offset) c.mark.rest = some text.toList ∧
        c.mark.textTo c.reader = text := by
  refine ⟨next_eq_or_course_eq, fun n k => ⟨(Course.step_cases _).2, ?_⟩⟩
  obtain ⟨front, text, rest, h⟩ := (marks_course (marks_after source n) k).exists_cuts
  exact ⟨front, text, rest, h, h.offset_mark_le, h.offset_le, h.isValid_mark, h.isValid,
    h.extract_eq, h.takeBytes?_eq, h.textTo_eq⟩

end Scanner

end PinsSyntax
