import Mathlib.Tactic.Lemma
import PinsSyntax.Trace.Device

/-!
# Writing to a device

What a device holds when bytes were written to it until all of them were taken or a write failed. A
device has room for the bytes up to its limit. Bytes that fit are taken as they are
(`Device.writeAll_of_fits`). Other bytes meet the fault behind the last one that fits: a failure
ends the writing there (`Device.writeAll_of_failure`), and an interruption makes no difference
(`Device.writeAll_of_interruption`). So it is of no account how bytes are divided among writes
(`Device.writeAll_append`).
-/

namespace PinsSyntax

/-- The failure that ends the writing at a fault; an interruption does not end it. -/
def DeviceFault.failure? : DeviceFault → Option WriteFailure
  | fails _ => some .closed
  | takesNothing _ => some .nothingTaken
  | interrupts => none

/-- The only fault that ends no writing is an interruption. -/
lemma DeviceFault.failure?_eq_none_iff {fault : DeviceFault} :
    fault.failure? = none ↔ fault = .interrupts := by
  cases fault <;> simp [failure?]

namespace Device

/-- A device has room for a number of bytes: it takes them without meeting its fault. -/
def Fits (d : Device) (count : Nat) : Prop :=
  ∀ limit, d.limit = some limit → count ≤ limit - d.contents.size

/-- A device that takes everything from now on. -/
def withoutLimit (d : Device) : Device := { d with limit := none }

/-- A device that has met its fault, and meets it again only if it is a lasting one. -/
def afterFault (d : Device) : Device := if d.fault.isLasting then d else d.withoutLimit

variable {d : Device} {bytes more : List UInt8} {limit : Nat} {failure : WriteFailure}

@[simp] lemma hold_nil : d.hold [] = d := by
  simp [hold]

@[simp] lemma toList_contents_hold :
    (d.hold bytes).contents.toList = d.contents.toList ++ bytes := by
  simp [hold]

lemma hold_append : d.hold (bytes ++ more) = (d.hold bytes).hold more := by
  have h : d.contents ++ (bytes ++ more) = d.contents ++ bytes ++ more := by
    apply Array.toList_inj.1
    simp
  simp only [hold, h]

@[simp] lemma contents_afterFault : d.afterFault.contents = d.contents := by
  unfold afterFault
  split <;> rfl

/-- Without a limit there is always room. -/
lemma fits_of_limit_eq_none (hl : d.limit = none) {count : Nat} : d.Fits count := by
  intro limit h
  rw [hl] at h
  cases h

lemma fits_iff (hl : d.limit = some limit) {count : Nat} :
    d.Fits count ↔ count ≤ limit - d.contents.size := by
  simp [Fits, hl]

/-- Either there is room, or there is a limit that leaves too little of it. -/
lemma fits_or (d : Device) (count : Nat) :
    d.Fits count ∨ ∃ limit, d.limit = some limit ∧ limit - d.contents.size < count := by
  cases hl : d.limit with
  | none => exact .inl (fits_of_limit_eq_none hl)
  | some limit =>
    by_cases h : count ≤ limit - d.contents.size
    · exact .inl ((fits_iff hl).2 h)
    · exact .inr ⟨limit, rfl, Nat.lt_of_not_le h⟩

/-! ### One write -/

lemma write_of_fits (hb : bytes ≠ []) (h : d.Fits bytes.length) :
    d.write bytes = (.took bytes.length, d.hold bytes) := by
  have hpos := List.length_pos_iff.2 hb
  cases hl : d.limit with
  | none => simp only [write, hl]
  | some limit =>
    have hle := (fits_iff hl).1 h
    have hroom : limit - d.contents.size ≠ 0 := by omega
    simp only [write, hl, if_neg hroom, Nat.min_eq_right hle, List.take_of_length_le hle]

lemma write_of_lt (hl : d.limit = some limit) (hpos : 0 < limit - d.contents.size)
    (hlt : limit - d.contents.size < bytes.length) :
    d.write bytes =
      (.took (limit - d.contents.size), d.hold (bytes.take (limit - d.contents.size))) := by
  have hroom : limit - d.contents.size ≠ 0 := by omega
  simp only [write, hl, if_neg hroom, Nat.min_eq_left (Nat.le_of_lt hlt)]

lemma write_of_full (hl : d.limit = some limit) (h : limit - d.contents.size = 0) :
    d.write bytes = (d.fault.answer, d.afterFault) := by
  simp only [write, hl, if_pos h]
  rfl

/-! ### Writing all bytes -/

@[simp] lemma writeAll_nil : d.writeAll [] = (none, d) := by
  rw [writeAll]
  rfl

/-- The answer to a write tells whether the writing goes on. -/
lemma writeAll_of_ne_nil (hb : bytes ≠ []) :
    d.writeAll bytes =
      match d.write bytes with
      | (.took 0, d') => (some .nothingTaken, d')
      | (.took (n + 1), d') => d'.writeAll (bytes.drop (n + 1))
      | (.failed, d') => (some .closed, d')
      | (.interrupted, d') => d'.writeAll bytes := by
  rw [writeAll, if_neg (by simpa using hb)]
  split <;> rename_i hw <;> rw [hw]

/-- Bytes that fit are taken. -/
lemma writeAll_of_fits (h : d.Fits bytes.length) : d.writeAll bytes = (none, d.hold bytes) := by
  cases bytes with
  | nil => rw [writeAll_nil, hold_nil]
  | cons b bytes =>
    rw [writeAll_of_ne_nil (List.cons_ne_nil _ _), write_of_fits (List.cons_ne_nil _ _) h]
    show (d.hold (b :: bytes)).writeAll ((b :: bytes).drop (b :: bytes).length) = _
    rw [List.drop_length, writeAll_nil]

/-- Where there is no room, a failure ends the writing at once. -/
lemma writeAll_of_full_failure (hl : d.limit = some limit) (h : limit - d.contents.size = 0)
    (hf : d.fault.failure? = some failure) (hb : bytes ≠ []) :
    d.writeAll bytes = (some failure, d.afterFault) := by
  rw [writeAll_of_ne_nil hb, write_of_full hl h]
  cases hd : d.fault with
  | fails lasting | takesNothing lasting =>
    rw [hd] at hf
    cases hf
    rfl
  | interrupts =>
    rw [hd] at hf
    cases hf

/-- Where there is no room, an interruption takes the limit away. -/
lemma writeAll_of_full_interruption (hl : d.limit = some limit)
    (h : limit - d.contents.size = 0) (hf : d.fault = .interrupts) (hb : bytes ≠ []) :
    d.writeAll bytes = (none, d.withoutLimit.hold bytes) := by
  have ha : d.fault.answer = .interrupted ∧ d.afterFault = d.withoutLimit := by
    simp only [afterFault, hf, DeviceFault.isLasting, DeviceFault.answer, Bool.false_eq_true,
      if_false, and_self]
  rw [writeAll_of_ne_nil hb, write_of_full hl h, ha.1, ha.2]
  exact writeAll_of_fits (fits_of_limit_eq_none rfl)

/-- Bytes that do not fit are taken as far as they fit, and the rest of them meets the fault. -/
lemma writeAll_eq_drop (hl : d.limit = some limit) (hlt : limit - d.contents.size < bytes.length) :
    d.writeAll bytes =
      (d.hold (bytes.take (limit - d.contents.size))).writeAll
        (bytes.drop (limit - d.contents.size)) := by
  have hb : bytes ≠ [] := List.ne_nil_of_length_pos (by omega)
  cases hr : limit - d.contents.size with
  | zero => rw [List.take_zero, hold_nil, List.drop_zero]
  | succ room => rw [writeAll_of_ne_nil hb, write_of_lt hl (by omega) hlt, hr]

/-- A device that has taken the bytes that fit has no room left. -/
lemma room_hold_take (hlt : limit - d.contents.size < bytes.length) :
    limit - (d.hold (bytes.take (limit - d.contents.size))).contents.size = 0 := by
  rw [← Array.length_toList, toList_contents_hold, List.length_append, List.length_take,
    Array.length_toList]
  omega

/-- A failure ends the writing behind the bytes that fit. -/
lemma writeAll_of_failure (hl : d.limit = some limit)
    (hlt : limit - d.contents.size < bytes.length) (hf : d.fault.failure? = some failure) :
    d.writeAll bytes =
      (some failure, (d.hold (bytes.take (limit - d.contents.size))).afterFault) := by
  rw [writeAll_eq_drop hl hlt]
  exact writeAll_of_full_failure hl (room_hold_take hlt) hf (by simpa using hlt)

/-- An interruption makes no difference to the bytes: all of them are taken. -/
lemma writeAll_of_interruption (hl : d.limit = some limit)
    (hlt : limit - d.contents.size < bytes.length) (hf : d.fault = .interrupts) :
    d.writeAll bytes = (none, d.withoutLimit.hold bytes) := by
  have hr : (d.hold (bytes.take (limit - d.contents.size))).writeAll
      (bytes.drop (limit - d.contents.size)) =
      (none, (d.withoutLimit.hold (bytes.take (limit - d.contents.size))).hold
        (bytes.drop (limit - d.contents.size))) :=
    writeAll_of_full_interruption hl (room_hold_take hlt) hf (by simpa using hlt)
  rw [writeAll_eq_drop hl hlt, hr, ← hold_append, List.take_append_drop]

/-! ### Bytes in two parts -/

/-- Bytes of which the first part fits are written as the second part behind the first. -/
lemma writeAll_append_of_fits (h : d.Fits bytes.length) :
    d.writeAll (bytes ++ more) = (d.hold bytes).writeAll more := by
  have hsize : (d.hold bytes).contents.size = d.contents.size + bytes.length := by
    rw [← Array.length_toList, toList_contents_hold, List.length_append, Array.length_toList]
  obtain hm | ⟨limit, hl, hlt⟩ := (d.hold bytes).fits_or more.length
  · have hall : d.Fits (bytes ++ more).length := by
      intro limit hl
      have hb := h limit hl
      have hm := hm limit hl
      rw [hsize] at hm
      rw [List.length_append]
      omega
    rw [writeAll_of_fits hall, writeAll_of_fits hm, hold_append]
  · -- Both sides come to the fault behind the same bytes.
    have hd : d.limit = some limit := hl
    have hb := h limit hd
    have hroom : limit - d.contents.size =
        bytes.length + (limit - (d.hold bytes).contents.size) := by omega
    have hall : limit - d.contents.size < (bytes ++ more).length := by
      rw [List.length_append]
      omega
    rw [writeAll_eq_drop hd hall, writeAll_eq_drop hl hlt, hroom, List.take_length_add_append,
      List.drop_length_add_append, hold_append]

/-- It makes no difference whether bytes are written at once or in two parts, the second of them
only if the first is taken. -/
lemma writeAll_append (d : Device) (bytes more : List UInt8) :
    d.writeAll (bytes ++ more) =
      match d.writeAll bytes with
      | (none, d') => d'.writeAll more
      | (some failure, d') => (some failure, d') := by
  obtain h | ⟨limit, hl, hlt⟩ := d.fits_or bytes.length
  · rw [writeAll_of_fits h, writeAll_append_of_fits h]
  have hall : limit - d.contents.size < (bytes ++ more).length := by
    rw [List.length_append]
    omega
  cases hf : d.fault.failure? with
  | some failure =>
    rw [writeAll_of_failure hl hlt hf, writeAll_of_failure hl hall hf,
      List.take_append_of_le_length (Nat.le_of_lt hlt)]
  | none =>
    have hi := DeviceFault.failure?_eq_none_iff.1 hf
    have hfits : (d.withoutLimit.hold bytes).Fits more.length := fits_of_limit_eq_none rfl
    rw [writeAll_of_interruption hl hlt hi, writeAll_of_interruption hl hall hi, hold_append]
    exact (writeAll_of_fits hfits).symm

end Device

end PinsSyntax
