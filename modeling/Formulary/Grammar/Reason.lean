import Formulary.Grammar.Reader

/-!
This module contains what is said about a phrase that cannot be read.
-/

namespace Formulary

inductive Obstacle where
  | token
  | endOfInput
  deriving DecidableEq, Repr

namespace Obstacle

def ofTokens : List Token → Obstacle
  | [] => endOfInput
  | _ :: _ => token

def message : Obstacle → String
  | token => "got unexpected token"
  | endOfInput => "got unexpected end of input"

end Obstacle

inductive Reason where
  | unexpected (obstacle : Obstacle)
  | incomplete (part : Part) (obstacle : Obstacle)
  | tooDeep
  deriving DecidableEq, Repr

def Failure.reason (tokens : List Token) : Failure → Reason
  | mismatch => .unexpected (.ofTokens tokens)
  | missing part rest _ => .incomplete part (.ofTokens rest)
  | tooDeep => .tooDeep

def Reason.message : Reason → String
  | unexpected obstacle => obstacle.message
  | incomplete part obstacle => "expected " ++ part.title ++ " (" ++ obstacle.message ++ ")"
  | tooDeep => "nested too deeply"

end Formulary
