import PinsSyntax.Grammar.Derivation
import PinsSyntax.Main
import PinsSyntax.Proofs.CommandLine.Agreement
import PinsSyntax.Proofs.CommandLine.ScannedTokens
import PinsSyntax.Proofs.Recognizer.ErrorPlace
import PinsSyntax.Proofs.Recognizer.Expected
import PinsSyntax.Proofs.Recognizer.Brackets
import PinsSyntax.Proofs.Recognizer.Cursor
import PinsSyntax.Proofs.Recognizer.FunctionBody
import PinsSyntax.Proofs.Recognizer.Joining
import PinsSyntax.Proofs.Recognizer.Kinds
import PinsSyntax.Proofs.Recognizer.Pace
import PinsSyntax.Proofs.Recognizer.Prediction
import PinsSyntax.Proofs.Text.LineBreaks
import PinsSyntax.Proofs.Token.LineBreaks
import PinsSyntax.Proofs.Token.Lines
import PinsSyntax.Proofs.Token.Order
import PinsSyntax.Proofs.Token.RoundTrip
import PinsSyntax.Proofs.Token.Splitting
import PinsSyntax.Recognizer.Lemmas
import PinsSyntax.Proofs.CommandLine.Listing
import PinsSyntax.Proofs.CommandLine.FoundTexts
import PinsSyntax.Proofs.Text.Moving
import PinsSyntax.Proofs.Token.Continuation
import PinsSyntax.Proofs.Token.Comments
import PinsSyntax.Proofs.Token.QuoteRuns
import PinsSyntax.Proofs.Token.Offsets
