import PinsSyntax.CommandLine.Response
import PinsSyntax.Proofs.Recognizer.Tracing
import PinsSyntax.Proofs.Token.Scanning

/-!
# What the log is told

Scanning a text tells the log each token that the scanner yields (`scanLog_eq`), and recognizing
tokens as a program tells it each production of the trace and how many tokens there are
(`programLog_eq`). Where no filter is set, standard error holds only what the program prints there
itself (`Response.errorOutput_of_unset`).
-/

namespace PinsSyntax

open Token (Closed)

variable {source : String} {tokens found : List Token} {last : Item} {s : Scanner}

lemma Response.errorOutput_of_unset {l : Logging} (unset : l.filter? = none) (r : Response) :
    r.errorOutput l = r.stderr := by
  rw [errorOutput, Logging.text, unset]
  exact String.empty_append

namespace Scanner

lemma gather_eq (s : Scanner) (found : List Token) :
    s.gather found =
      match s.next.1 with
      | some (.ok t) => s.next.2.gather (t :: found)
      | _ => found.reverse := by
  rw [gather]
  split
  · rename_i hn
    rw [hn]
  · rename_i hn
    split
    · rename_i t ht
      exact (hn t s.next.2 (Prod.ext ht rfl)).elim
    · rfl

/-- The tokens that a scanner yields are gathered, also in front of an error. -/
lemma Yields.gather_eq (h : s.Yields (tokens.map .ok ++ [last])) :
    s.gather found = found.reverse ++ tokens ++ last.toOption.toList := by
  induction tokens generalizing s found with
  | nil =>
    obtain ⟨hn, hy⟩ := yields_cons_iff.1 h
    rw [Scanner.gather_eq, hn]
    cases last with
    | error e => simp [Except.toOption]
    | ok t =>
      show s.next.2.gather (t :: found) = _
      rw [Scanner.gather_eq, hy.next_eq_none]
      simp [Except.toOption]
  | cons t tokens ih =>
    obtain ⟨hn, hy⟩ := yields_cons_iff.1 h
    rw [Scanner.gather_eq, hn]
    show s.next.2.gather (t :: found) = _
    rw [ih hy, List.reverse_cons, List.append_assoc found.reverse]
    rfl

end Scanner

/-- Scanning a text tells the log the tokens that the scanner yields, and their number unless an
error comes last. -/
lemma scanLog_eq (h : (Scanner.ofString source).Yields (tokens.map .ok ++ [last])) :
    scanLog source =
      (tokens ++ last.toOption.toList).map .found ++
        match last with
        | .ok _ => [.scanned (tokens.length + 1)]
        | .error _ => [] := by
  rw [scanLog, h.gather_eq, scan, h.collect_eq]
  cases last with
  | error e => rfl
  | ok t => simp [Except.map]

/-- Recognizing tokens as a program tells the log the productions of the trace, the number of tokens
if all of them are accepted, and whether they are. -/
lemma programLog_eq (tokens : List Token) :
    programLog tokens =
      (productions .program tokens).map .applied ++
        match recognize .program tokens with
        | .ok () => [.parsed tokens.length, .finished true]
        | .error _ => [.finished false] := by
  by_cases h : Closed tokens
  · obtain ⟨r⟩ := Reading.exists_of_closed .program h
    have hp : (run TraceSink.record.observe .program tokens #[]).observed.toList =
        productions .program tokens := rfl
    rw [programLog, hp, r.run_eq h, r.recognize_eq h]
    cases hv : r.verdict with
    | ok => rw [r.length_before_of_ok h hv]
    | error => rfl
  · have hp : productions .program tokens = [] := by
      simp only [productions, recognizeInto, run_of_not_closed _ _ h]
    rw [programLog, recognize, hp]
    simp only [run_of_not_closed _ _ h]

end PinsSyntax
