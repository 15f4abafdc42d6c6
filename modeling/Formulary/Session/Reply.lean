import Formulary.Grammar.Formula
import Formulary.Log
import Formulary.Operator
import Formulary.Session.Store

/-!
This module contains sessions and the answers to their commands: a command changes the session,
prints text and leaves entries in the log.
-/

namespace Formulary

structure Session where
  alphabet : Alphabet
  store : Store

/--
The answer to a command: the session after it, whether it stops the session or else the fault that
it ran into, and what it printed and logged.
-/
structure Reply where
  session : Session
  outcome : Except Fault Bool
  out : String
  log : List LogEntry

/--
The wording of an error under its heading. Like the wording of a lexical error, it may show a line
that is not there.
-/
def FormulaError.message : FormulaError → Except Fault String
  | lexical error => error.message
  | grammatical error => .ok error.message

def FormulaError.heading : FormulaError → String
  | lexical _ => "词法分析错误: "
  | grammatical _ => "语法分析错误: "

namespace Session

def start (alphabet : Alphabet) : Session :=
  ⟨alphabet, .empty⟩

def say (session : Session) (out : String) : Reply :=
  ⟨session, .ok false, out, []⟩

def fail (session : Session) (out : String) (fault : Fault) : Reply :=
  ⟨session, .error fault, out, []⟩

def reject (session : Session) (out text : String) (error : FormulaError) : Reply :=
  match error.message with
  | .error fault => session.fail out fault
  | .ok message =>
    { session.say (out ++ error.heading ++ message ++ "\n") with log := [.rejected text message] }

end Session

end Formulary
