import PinsSyntax.Proofs.Trace.Device
import PinsSyntax.Trace.Writer

/-!
# Writing a trace

Lines that a trace writer writes one after another reach its device as their bytes do that are
written at once (`TraceWriter.writeLines_eq_writeBytes`). So what a device holds in the end is the
part of these bytes that comes before its limit, and all of them if nothing fails
(`TraceWriter.writeLines_ofDevice`).
-/

namespace PinsSyntax

lemma utf8Bytes_append (s t : String) : utf8Bytes (s ++ t) = utf8Bytes s ++ utf8Bytes t := by
  unfold utf8Bytes String.toUTF8
  rw [String.toByteArray_append, ByteArray.toList_data_append]

namespace TraceWriter

/-- The bytes of a line with the line feed behind it. -/
def lineBytes (line : String) : List UInt8 := utf8Bytes (line ++ "\n")

/-- The bytes of lines, each with a line feed behind it. -/
def linesBytes (lines : List String) : List UInt8 := lines.flatMap lineBytes

variable {w : TraceWriter} {d : Device} {bytes more : List UInt8} {limit : Nat}
  {failure : WriteFailure}

/-- A writer that has failed drops what comes after. -/
lemma writeBytes_of_failed (h : w.failure = some failure) : w.writeBytes bytes = w := by
  simp only [writeBytes, h, Option.isSome_some, if_true]

lemma writeBytes_ofDevice :
    (ofDevice d).writeBytes bytes = ⟨(d.writeAll bytes).2, (d.writeAll bytes).1⟩ := rfl

@[simp] lemma writeBytes_nil : w.writeBytes [] = w := by
  obtain ⟨d, failure⟩ := w
  cases failure with
  | some failure => exact writeBytes_of_failed rfl
  | none =>
    show (ofDevice d).writeBytes [] = ofDevice d
    rw [writeBytes_ofDevice, Device.writeAll_nil]
    rfl

/-- It makes no difference whether bytes are written at once or in two parts. -/
lemma writeBytes_append : w.writeBytes (bytes ++ more) = (w.writeBytes bytes).writeBytes more := by
  obtain ⟨d, failure⟩ := w
  cases failure with
  | some failure =>
    rw [writeBytes_of_failed rfl, writeBytes_of_failed rfl, writeBytes_of_failed rfl]
  | none =>
    show (ofDevice d).writeBytes _ = ((ofDevice d).writeBytes _).writeBytes _
    rw [writeBytes_ofDevice, writeBytes_ofDevice, d.writeAll_append]
    obtain ⟨failure, d'⟩ := d.writeAll bytes
    cases failure with
    | some failure => rw [writeBytes_of_failed rfl]
    | none => exact writeBytes_ofDevice.symm

lemma writeLine_eq_writeBytes (line : String) :
    w.writeLine line = w.writeBytes (lineBytes line) := by
  rw [writeLine, lineBytes, utf8Bytes_append, writeBytes_append]

/-- Lines are written one after another as their bytes are written at once. -/
lemma writeLines_eq_writeBytes (w : TraceWriter) (lines : List String) :
    w.writeLines lines = w.writeBytes (linesBytes lines) := by
  induction lines generalizing w with
  | nil => exact writeBytes_nil.symm
  | cons line lines ih =>
    show (w.writeLine line).writeLines lines = _
    rw [ih, writeLine_eq_writeBytes, ← writeBytes_append]
    rfl

/-! ### The end of the writing -/

lemma finish_ofDevice :
    (ofDevice d).finish = if d.flushFails then .error .notFlushed else .ok () := by
  cases h : d.flushFails <;> simp [finish, ofDevice, Device.flush, h]

lemma finish_of_failed (h : w.failure = some failure) : w.finish = .error failure := by
  simp [finish, h]

/-- Bytes that fit, or that are only interrupted, are all held, and the device is flushed. -/
lemma writeBytes_of_complete (h : d.Fits bytes.length ∨ d.fault = .interrupts) :
    ((ofDevice d).writeBytes bytes).device.contents.toList = d.contents.toList ++ bytes ∧
      ((ofDevice d).writeBytes bytes).finish = (ofDevice d).finish := by
  obtain hfits | ⟨limit, hl, hlt⟩ := d.fits_or bytes.length
  · rw [writeBytes_ofDevice, Device.writeAll_of_fits hfits]
    exact ⟨Device.toList_contents_hold, rfl⟩
  · have hi : d.fault = .interrupts :=
      h.resolve_left fun hfits => Nat.not_lt.2 ((Device.fits_iff hl).1 hfits) hlt
    rw [writeBytes_ofDevice, Device.writeAll_of_interruption hl hlt hi]
    exact ⟨Device.toList_contents_hold, rfl⟩

/-- A device that fails at its limit holds the bytes before it. -/
lemma toList_contents_of_failure (hl : d.limit = some limit)
    (hf : d.fault.failure? = some failure) :
    ((ofDevice d).writeBytes bytes).device.contents.toList =
      d.contents.toList ++ bytes.take (limit - d.contents.size) := by
  rw [writeBytes_ofDevice]
  by_cases hfits : d.Fits bytes.length
  · rw [Device.writeAll_of_fits hfits, List.take_of_length_le ((Device.fits_iff hl).1 hfits)]
    exact Device.toList_contents_hold
  · have hlt := Nat.lt_of_not_le (mt (Device.fits_iff hl).2 hfits)
    rw [Device.writeAll_of_failure hl hlt hf, Device.contents_afterFault,
      Device.toList_contents_hold]

/-- The failure at the limit is the one that is reported. -/
lemma finish_of_failure (hl : d.limit = some limit)
    (hlt : limit - d.contents.size < bytes.length) (hf : d.fault.failure? = some failure) :
    ((ofDevice d).writeBytes bytes).finish = .error failure := by
  rw [writeBytes_ofDevice, Device.writeAll_of_failure hl hlt hf]
  exact finish_of_failed rfl

/-- Lines are written to an empty device. Their bytes are all held if there are no more of them than
the limit allows, or if the device only interrupts, and then the flush decides. Otherwise the device
holds the bytes before its limit after any number of lines, also if it would take bytes again, and
the failure at the limit is reported whether or not the flush would fail. -/
theorem writeLines_ofDevice (limit : Option Nat) (fault : DeviceFault) (flushFails : Bool)
    (lines : List String) :
    let start := ofDevice ⟨#[], limit, fault, flushFails⟩
    let held (w : TraceWriter) := w.device.contents.toList
    ((limit = none ∨ (∃ n, limit = some n ∧ (linesBytes lines).length ≤ n) ∨
        fault = .interrupts) →
      held (start.writeLines lines) = linesBytes lines ∧
      (start.writeLines lines).finish = if flushFails then .error .notFlushed else .ok ()) ∧
    ∀ n failure, limit = some n → n < (linesBytes lines).length →
      fault.failure? = some failure →
      held (start.writeLines lines) = (linesBytes lines).take n ∧
      (start.writeLines lines).finish = .error failure ∧
      ∀ i, (held (start.writeLines (lines.take i))).length =
        min n (linesBytes (lines.take i)).length := by
  intro start held
  constructor
  · intro h
    have hc : start.device.Fits (linesBytes lines).length ∨ start.device.fault = .interrupts := by
      obtain h | ⟨n, h, hle⟩ | h := h
      · exact .inl (Device.fits_of_limit_eq_none h)
      · exact .inl ((Device.fits_iff h).2 hle)
      · exact .inr h
    obtain ⟨hb, hf⟩ := writeBytes_of_complete hc
    rw [writeLines_eq_writeBytes]
    exact ⟨hb, hf.trans finish_ofDevice⟩
  · intro n failure hl hlt hf
    have hb (lines : List String) : held (start.writeLines lines) = (linesBytes lines).take n := by
      rw [writeLines_eq_writeBytes]
      exact toList_contents_of_failure (d := start.device) hl hf
    refine ⟨hb lines, ?_, fun i => ?_⟩
    · rw [writeLines_eq_writeBytes]
      exact finish_of_failure (d := start.device) hl hlt hf
    · rw [hb, List.length_take]

/-- A device meets its fault between the two bytes of a letter: a failure ends the trace there, also
if the device would take bytes again and then not be flushed, and an interruption only leaves the
flush to fail. -/
theorem writeLines_ofDevice_insideLetter :
    let start (fault : DeviceFault) := ofDevice ⟨#[], some 16, fault, true⟩
    let held (w : TraceWriter) := w.device.contents.toList
    let lines := ["parameters2 -> ε", "type -> integer"]
    (held ((start .interrupts).writeLines lines) = linesBytes lines ∧
      ((start .interrupts).writeLines lines).finish = .error .notFlushed) ∧
    (16 < (linesBytes lines).length ∧ DeviceFault.failure? (.fails false) = some .closed) ∧
    held ((start (.fails false)).writeLines lines) = (linesBytes lines).take 16 ∧
    ((start (.fails false)).writeLines lines).finish = .error .closed ∧
    ∀ i, (held ((start (.fails false)).writeLines (lines.take i))).length =
      min 16 (linesBytes (lines.take i)).length :=
  ⟨(writeLines_ofDevice (some 16) .interrupts true _).1 (.inr (.inr rfl)), ⟨by decide, rfl⟩,
    (writeLines_ofDevice (some 16) (.fails false) true _).2 16 .closed rfl (by decide) rfl⟩

end TraceWriter

end PinsSyntax
