import Formulary.Grammar.Levels
import Formulary.Log
import Formulary.Token.Stream

/-!
This module contains attempts to read a phrase at a position of a list of tokens. A failure is no
error here; it leaves an entry in the log.
-/

namespace Formulary

structure Attempt where
  result : Option (Tree × Int)
  log : List LogEntry
  deriving DecidableEq, Repr

def Phrase.attempt [RecursionLimit] (phrase : Phrase) (tokens : List Token) (pos : Int) :
    Except Fault Attempt :=
  match tokensFrom tokens pos with
  | .error fault => .error fault
  | .ok ahead =>
    match phrase.read ahead with
    | .ok reading => .ok ⟨some (reading.tree, pos + (ahead.length - reading.rest.length)), []⟩
    | .error failure => .ok ⟨none, [.noPhrase phrase pos (failure.reason ahead)]⟩

end Formulary
