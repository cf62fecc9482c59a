/-!
# Output devices

A device takes bytes until it holds as many as its limit allows, and the next byte offered to it
causes a fault: the write fails, or takes nothing, or is interrupted. A fault happens once, after
which the device takes everything, unless it is lasting. An interruption is never lasting, so
`Device.writeAll`, which writes on until all bytes are taken or a write fails, comes to an end.
-/

namespace PinsSyntax

/-- Why bytes did not reach a device. -/
inductive WriteFailure where
  | closed
  | nothingTaken
  | notFlushed
  deriving DecidableEq, Repr

/-- The text of a failure. -/
def WriteFailure.message : WriteFailure → String
  | closed => "closed"
  | nothingTaken => "failed to write whole buffer"
  | notFlushed => "flush failed"

/-- What becomes of a write to a device that has reached its limit. -/
inductive DeviceFault where
  | fails (lasting : Bool)
  | takesNothing (lasting : Bool)
  | interrupts
  deriving DecidableEq, Repr

/-- Whether a fault happens again at every later write. -/
def DeviceFault.isLasting : DeviceFault → Bool
  | fails lasting | takesNothing lasting => lasting
  | interrupts => false

/-- The answer to one write. -/
inductive WriteAnswer where
  | took (count : Nat)
  | failed
  | interrupted
  deriving DecidableEq, Repr

/-- The answer to a write that meets a fault. -/
def DeviceFault.answer : DeviceFault → WriteAnswer
  | fails _ => .failed
  | takesNothing _ => .took 0
  | interrupts => .interrupted

/-- A device: the bytes it holds, the number of bytes at which it meets its fault, the fault, and
whether it fails to flush. -/
structure Device where
  contents : Array UInt8
  limit : Option Nat
  fault : DeviceFault
  flushFails : Bool
  deriving DecidableEq, Repr

namespace Device

/-- An empty device that takes everything. -/
def unlimited : Device := ⟨#[], none, .interrupts, false⟩

/-- The device that takes a number of the bytes offered. -/
def hold (d : Device) (bytes : List UInt8) : Device := { d with contents := d.contents ++ bytes }

/-- Offers bytes to a device once: it takes as many as its limit allows, and meets its fault if that
is none of them. -/
def write (d : Device) (bytes : List UInt8) : WriteAnswer × Device :=
  match d.limit with
  | none => (.took bytes.length, d.hold bytes)
  | some limit =>
    let room := limit - d.contents.size
    if room = 0 then
      (d.fault.answer, if d.fault.isLasting then d else { d with limit := none })
    else (.took (min room bytes.length), d.hold (bytes.take room))

theorem limit_of_write_interrupted {d d' : Device} {bytes : List UInt8}
    (h : d.write bytes = (.interrupted, d')) : d.limit.isSome = true ∧ d'.limit = none := by
  unfold write at h
  split at h
  · simp at h
  · rename_i limit hl
    by_cases room : limit - d.contents.size = 0
    · cases hf : d.fault <;>
        simp [room, hf, DeviceFault.answer, DeviceFault.isLasting] at h
      simp [← h, hl]
    · simp [room] at h

/-- Writes until all bytes are taken or a write fails; an interrupted write is made again. -/
def writeAll (d : Device) (bytes : List UInt8) : Option WriteFailure × Device :=
  if bytes.isEmpty then (none, d)
  else
    match _ : d.write bytes with
    | (.took 0, d') => (some .nothingTaken, d')
    | (.took (n + 1), d') => d'.writeAll (bytes.drop (n + 1))
    | (.failed, d') => (some .closed, d')
    | (.interrupted, d') => d'.writeAll bytes
termination_by 2 * bytes.length + if d.limit.isSome then 1 else 0
decreasing_by
  · rename_i hb _
    have : 0 < bytes.length := List.length_pos_iff.2 (by simpa using hb)
    rw [List.length_drop]
    split <;> split <;> omega
  · rename_i h
    simp [limit_of_write_interrupted h]

/-- Flushes a device. -/
def flush (d : Device) : Option WriteFailure := if d.flushFails then some .notFlushed else none

end Device

end PinsSyntax
