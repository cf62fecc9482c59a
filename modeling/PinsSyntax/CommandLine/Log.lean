import PinsSyntax.Recognizer.Run
import PinsSyntax.Token.Scanner

/-!
# The log

Scanning and recognizing tell a log what they do, event by event: each token that is found, each
production that is applied, and how either phase has ended. What becomes of the events is decided by
a writer that is no part of the program, and by the filter that the environment sets for it
(`Logging`). Without a filter there is no log.
-/

namespace PinsSyntax

/-- How much a filter has to let through for an event to be written. -/
inductive LogLevel where
  | debug
  | trace
  deriving DecidableEq, Repr

/-- What a part of the program, the target, tells the log: a message and one value with a name. -/
structure LogEvent where
  level : LogLevel
  target : String
  message : String
  name : String
  value : String
  deriving DecidableEq, Repr

namespace LogEvent

/-- A token has been found. -/
def found (t : Token) : LogEvent := ⟨.trace, "lex", "token", "token", t.render⟩

/-- A text has been scanned into so many tokens. -/
def scanned (count : Nat) : LogEvent := ⟨.debug, "lex", "scanned source", "count", count.repr⟩

/-- A production is applied. -/
def applied (p : Production) : LogEvent := ⟨.trace, "parse", "production", "production", p.text⟩

/-- A program of so many tokens has been accepted. -/
def parsed (count : Nat) : LogEvent := ⟨.debug, "parse", "parsed source", "tokens", count.repr⟩

/-- The syntax phase has ended. -/
def finished (success : Bool) : LogEvent :=
  ⟨.debug, "pins", "syntax analysis finished", "success", toString success⟩

end LogEvent

/-- What makes a log of events: the filter of the environment, if one is set, and what a writer
writes of the events told so far under a filter. -/
structure Logging where
  filter? : Option String
  write : String → List LogEvent → String

namespace Logging

/-- No filter is set. -/
def off : Logging := ⟨none, fun _ _ => ""⟩

/-- The text of the log; there is none unless a filter is set. -/
def text (l : Logging) (events : List LogEvent) : String :=
  match l.filter? with
  | none => ""
  | some filter => l.write filter events

end Logging

/-- The tokens still to come up to the end or the first error, behind the tokens `found` so far in
reverse. -/
def Scanner.gather (s : Scanner) (found : List Token) : List Token :=
  match _ : s.next with
  | (some (.ok t), s') => s'.gather (t :: found)
  | _ => found.reverse
termination_by s.itemBound
decreasing_by exact itemBound_next_lt ‹_›

/-- What scanning a text tells the log: the tokens, also those in front of an error, and their
number if there is none. -/
def scanLog (source : String) : List LogEvent :=
  ((Scanner.ofString source).gather []).map .found ++
    match scan source with
    | .ok tokens => [.scanned tokens.length]
    | .error _ => []

/-- What recognizing tokens as a program tells the log: the productions, the number of tokens if the
program is accepted, and whether it is. -/
def programLog (tokens : List Token) : List LogEvent :=
  let outcome := run TraceSink.record.observe .program tokens #[]
  outcome.observed.toList.map .applied ++
    match outcome.verdict with
    | .ok () => [.parsed (outcome.taken + 1), .finished true]
    | .error _ => [.finished false]

end PinsSyntax
