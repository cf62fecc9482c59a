/-!
# Options of the command line

The program is asked to check one source, up to the last phase that is to be run, and to print what
some of the phases find.
-/

namespace PinsSyntax

/-- The phases of a check. -/
inductive Phase where
  | lexical
  | syntactic
  deriving DecidableEq, Repr

/-- What the arguments ask for: the source, the last phase to run, and the phases whose output is
printed. -/
structure Options where
  source : String
  exec : Phase
  dumps : List Phase
  deriving DecidableEq, Repr

end PinsSyntax
