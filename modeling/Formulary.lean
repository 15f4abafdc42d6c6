import Formulary.Text.Blank
import Formulary.Text.Lines
import Formulary.Text.Name
import Formulary.Text.Printable
import Formulary.Text.Quoted
import Formulary.Fault
import Formulary.Token.Basic
import Formulary.Token.Scanner
import Formulary.Token.Nesting
import Formulary.Token.Stream
import Formulary.Operator
import Formulary.Tree.Basic
import Formulary.Tree.Describe
import Formulary.Tree.Measure
import Formulary.Tree.Render
import Formulary.Tree.Spelling
import Formulary.Tree.Structure
import Formulary.Tree.WellFormed
import Formulary.Grammar.Derivation
import Formulary.Grammar.Phrase
import Formulary.Grammar.Reader
import Formulary.Grammar.Levels
import Formulary.Grammar.Reason
import Formulary.Grammar.Attempt
import Formulary.Grammar.Formula
import Formulary.Log
import Formulary.Session.Command
import Formulary.Session.Store
import Formulary.Session.Naming
import Formulary.Session.Reply
import Formulary.Session.Step
import Formulary.Session.Script
import Formulary.CommandLine.Argument
import Formulary.CommandLine.Request
import Formulary.CommandLine.Run
import Formulary.Main
import Formulary.Proofs.Text.Lines
import Formulary.Proofs.Token.Layout
import Formulary.Proofs.Token.Spacing
import Formulary.Proofs.Token.Scan
import Formulary.Proofs.Token.Place
import Formulary.Proofs.Token.Words
import Formulary.Proofs.Token.Misfit
import Formulary.Proofs.Grammar.Acceptance
import Formulary.Proofs.Grammar.Agreement
import Formulary.Proofs.Grammar.Attempt
import Formulary.Proofs.Grammar.Location
import Formulary.Proofs.Grammar.Lack
import Formulary.Proofs.Grammar.Attribution
import Formulary.Proofs.Grammar.TooDeep
import Formulary.Proofs.Tree.Measure
import Formulary.Proofs.Tree.Nesting
import Formulary.Proofs.Tree.Printing
import Formulary.Proofs.Tree.RoundTrip
import Formulary.Proofs.Tree.Unambiguous
import Formulary.Proofs.Tree.WellFormed
import Formulary.Proofs.Session.Sound
import Formulary.Proofs.Session.Change
import Formulary.Proofs.Session.Failure
import Formulary.Proofs.Session.Journal
import Formulary.Proofs.Grammar.Conservation
import Formulary.Proofs.Grammar.Contents
import Formulary.Proofs.Tree.Spacing
import Formulary.Proofs.Tree.Reentry
import Formulary.Proofs.CommandLine.Dialogue
import Formulary.Proofs.Grammar.FirstToken
import Formulary.Proofs.Text.Trim
import Formulary.Proofs.Tree.Composition
import Formulary.Proofs.Session.Command
import Formulary.Proofs.Session.Listing
import Formulary.Proofs.Tree.Trim
import Formulary.Proofs.Session.Agreement
