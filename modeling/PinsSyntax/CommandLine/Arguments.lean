import PinsSyntax.CommandLine.Options

/-!
# Arguments of the command line

The program leaves its arguments to a parser that is no part of it, and it works with any
(`ArgumentParser`). `Arguments.parse` is one to run it with where there is no other. It takes one
source, at most one `--exec` phase and any number of `--dump` phases. An option has its value behind
an equals sign or as the next argument, and `--` ends the options. It gives no reasons for what it
refuses. Nothing is proved about it, for no property of the program rests on it.
-/

namespace PinsSyntax

/-- Why arguments give no options: they ask for help, or they are misused. -/
inductive Refusal where
  | help
  | misuse
  deriving DecidableEq, Repr

namespace Phase

/-- The name of a phase. -/
def name : Phase → String
  | lexical => "lex"
  | syntactic => "syn"

/-- The phase of a name. -/
def ofName? (text : String) : Option Phase :=
  [lexical, syntactic].find? (·.name == text)

end Phase

namespace Arguments

/-- The options that take a phase. -/
inductive PhaseOption where
  | exec
  | dump
  deriving DecidableEq, Repr

namespace PhaseOption

/-- The name of an option. -/
def name : PhaseOption → String
  | exec => "--exec"
  | dump => "--dump"

/-- The option of a name. -/
def ofName? (text : String) : Option PhaseOption := [exec, dump].find? (·.name == text)

end PhaseOption

/-- What the arguments read so far say. -/
structure Draft where
  source : Option String
  exec : Option Phase
  dumps : List Phase
  deriving DecidableEq, Repr

namespace Draft

/-- Nothing has been said yet. -/
def empty : Draft := ⟨none, none, []⟩

/-- Adds the source. -/
def addSource (d : Draft) (argument : String) : Except Refusal Draft :=
  if d.source.isSome || argument.isEmpty then .error .misuse
  else .ok { d with source := some argument }

/-- Adds an option and its value. -/
def addOption (d : Draft) (option : PhaseOption) (value : String) : Except Refusal Draft :=
  match option, Phase.ofName? value with
  | _, none => .error .misuse
  | .exec, some phase =>
    if d.exec.isSome then .error .misuse else .ok { d with exec := some phase }
  | .dump, some phase => .ok { d with dumps := d.dumps ++ [phase] }

/-- Adds arguments that are no options. -/
def addSources (d : Draft) (arguments : List String) : Except Refusal Draft :=
  arguments.foldlM addSource d

/-- The options, if there is a source; a check runs to the end unless it is told otherwise. -/
def complete (d : Draft) : Except Refusal Options :=
  match d.source with
  | none => .error .misuse
  | some source => .ok ⟨source, d.exec.getD .syntactic, d.dumps⟩

end Draft

/-- Whether an argument has the form of an option: a dash and something behind it. -/
def isOptionLike (argument : String) : Bool :=
  match argument.toList with
  | '-' :: _ :: _ => true
  | _ => false

/-- Whether an argument that has the form of an option asks for help. -/
def asksForHelp (argument : String) : Bool := argument == "--help" || argument.startsWith "-h"

/-- An argument cut at its first equals sign. -/
def splitValue (argument : String) : String × Option String :=
  match argument.toList.span (· != '=') with
  | (name, '=' :: value) => (String.ofList name, some (String.ofList value))
  | _ => (argument, none)

/-- Reads arguments one after another. -/
def read (d : Draft) : List String → Except Refusal Draft
  | [] => .ok d
  | argument :: arguments =>
    if argument = "--" then d.addSources arguments
    else if asksForHelp argument then .error .help
    else if isOptionLike argument then
      match PhaseOption.ofName? (splitValue argument).1, (splitValue argument).2 with
      | none, _ => .error .misuse
      | some option, some value => do read (← d.addOption option value) arguments
      | some option, none =>
        match arguments with
        | [] => .error .misuse
        | value :: arguments =>
          if isOptionLike value then .error .misuse
          else do read (← d.addOption option value) arguments
    else do read (← d.addSource argument) arguments

/-- Reads all arguments of the command line. -/
def parse (arguments : List String) : Except Refusal Options := do
  (← read .empty arguments).complete

end Arguments

end PinsSyntax
