import PinsSyntax.Recognizer.Run
import PinsSyntax.Trace.Device

/-!
# Writing a trace

A trace writer writes each production on a line of its own to a device. It keeps the first failure
and drops all that comes after it; `TraceWriter.finish` reports that failure.
-/

namespace PinsSyntax

/-- The bytes of a text in UTF-8. -/
def utf8Bytes (text : String) : List UInt8 := text.toUTF8.data.toList

/-- A writer of traces: its device, and the first failure if there was one. -/
structure TraceWriter where
  device : Device
  failure : Option WriteFailure
  deriving DecidableEq, Repr

namespace TraceWriter

/-- A writer to a device that has not failed yet. -/
def ofDevice (d : Device) : TraceWriter := ⟨d, none⟩

/-- Writes bytes, unless the writer has failed. -/
def writeBytes (w : TraceWriter) (bytes : List UInt8) : TraceWriter :=
  if w.failure.isSome then w
  else
    let (failure, device) := w.device.writeAll bytes
    ⟨device, failure⟩

/-- Writes a text and a line feed behind it; the line feed only if the text was written. -/
def writeLine (w : TraceWriter) (line : String) : TraceWriter :=
  (w.writeBytes (utf8Bytes line)).writeBytes (utf8Bytes "\n")

/-- Writes lines one after another. -/
def writeLines (w : TraceWriter) (lines : List String) : TraceWriter := lines.foldl writeLine w

/-- The sink that writes the productions of a run. -/
def sink : TraceSink TraceWriter := fun p w => w.writeLine p.text

/-- The first failure, or that of a last flush if there was none. -/
def finish (w : TraceWriter) : Except WriteFailure Unit :=
  match w.failure <|> w.device.flush with
  | some failure => .error failure
  | none => .ok ()

end TraceWriter

end PinsSyntax
