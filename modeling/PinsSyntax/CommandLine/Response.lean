import PinsSyntax.Check
import PinsSyntax.CommandLine.Arguments
import PinsSyntax.CommandLine.FileTree
import PinsSyntax.CommandLine.Log

/-!
# Responses of the command line

What the program prints, what it tells the log, and the code it exits with: 0 if nothing is wrong,
and 1 if the source cannot be read or has an error. A dump of the tokens comes before the syntax
phase and only if all of the source was scanned; a dump of the productions goes as far as the
recognizer does.

Two things are left open, since others decide them: how the arguments are read (`ArgumentParser`),
and what becomes of the log (`Response.errorOutput`), which is written to standard error as well.
Writing to standard output and standard error is taken to succeed.
-/

namespace PinsSyntax

/-- An exit code, the texts printed to standard output and standard error, and what the log is
told. -/
structure Response where
  code : Nat
  stdout : String
  stderr : String
  log : List LogEvent
  deriving DecidableEq, Repr

namespace Response

/-- The response to a source that cannot be read. -/
def ofReadFault (source : String) (fault : ReadFault) : Response :=
  ⟨1, "", "Error: failed to read " ++ source ++ "\n\nCaused by:\n    " ++ fault.message ++ "\n", []⟩

/-- The response to a diagnostic, when `stdout` has been printed. -/
def ofDiagnostic (stdout : String) (log : List LogEvent) (d : Diagnostic) : Response :=
  ⟨1, stdout, d.report ++ "\n", log⟩

/-- The response to a verdict, when `stdout` has been printed. -/
def ofVerdict (stdout : String) (log : List LogEvent) : Except SyntaxError Unit → Response
  | .ok () => ⟨0, stdout, "", log⟩
  | .error e => ofDiagnostic stdout log (.syntactic e)

/-- All that appears on standard error: the log, and then what the program prints there itself,
which it does last. -/
def errorOutput (r : Response) (l : Logging) : String := l.text r.log ++ r.stderr

end Response

/-- The lines of a dump of tokens. -/
def dumpTokens (tokens : List Token) : String :=
  tokens.foldl (fun lines t => lines ++ t.render ++ "\n") ""

/-- The sink that adds the lines of a dump of productions to a text. -/
def TraceSink.lines : TraceSink String := fun p lines => lines ++ p.text ++ "\n"

namespace Options

/-- Checks a source as the options ask for. -/
def respondTo (o : Options) (source : String) : Response :=
  match scan source with
  | .error e => .ofDiagnostic "" (scanLog source) (.lexical e)
  | .ok tokens =>
    let stdout := if o.dumps.contains .lexical then dumpTokens tokens else ""
    match o.exec with
    | .lexical => ⟨0, stdout, "", scanLog source⟩
    | .syntactic =>
      let log := scanLog source ++ programLog tokens
      if o.dumps.contains .syntactic then
        let (verdict, stdout) := recognizeInto .lines .program tokens stdout
        .ofVerdict stdout log verdict
      else .ofVerdict stdout log (recognize .program tokens)

/-- Checks a source that has been read, or reports why it has not. -/
def respond (o : Options) : Except ReadFault String → Response
  | .error fault => .ofReadFault o.source fault
  | .ok source => o.respondTo source

end Options

/-- What reads the arguments: it gives options, or a response that ends the program at once. -/
abbrev ArgumentParser := List String → Except Response Options

/-- A parser of arguments to run the program with where there is no other. It says how the program
is called, to standard output if it is asked for help. -/
def ArgumentParser.plain : ArgumentParser := fun arguments =>
  let usage := "Usage: pins <SOURCE> [--exec lex|syn] [--dump lex|syn]...\n"
  match Arguments.parse arguments with
  | .ok o => .ok o
  | .error .help => .error ⟨0, usage, "", []⟩
  | .error .misuse => .error ⟨2, "", usage, []⟩

namespace FileTree.Place

/-- The response to arguments at a place of a tree of files, when a parser reads them. -/
def respondWith (parser : ArgumentParser) (p : Place) (arguments : List String) : Response :=
  match parser arguments with
  | .error r => r
  | .ok o => o.respond (p.readText o.source)

/-- The response to arguments that are read by the plain parser. -/
def respond (p : Place) (arguments : List String) : Response := p.respondWith .plain arguments

end FileTree.Place

end PinsSyntax
