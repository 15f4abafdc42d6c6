import Formulary.Grammar.Reason

/-!
This module contains the entries of the log and the lines they are written in.
-/

namespace Formulary

/--
An entry of the log: a phrase that could not be read, a text that is no formula, or a name that a
formula got or lost.
-/
inductive LogEntry where
  | noPhrase (phrase : Phrase) (pos : Int) (reason : Reason)
  | rejected (text : String) (message : String)
  | stored (name : String)
  | deleted (name : String)
  deriving DecidableEq, Repr

namespace LogEntry

def message : LogEntry → String
  | noPhrase phrase pos reason =>
    "no " ++ phrase.title ++ " at token " ++ toString pos ++ ": " ++ reason.message
  | rejected text message => "rejected " ++ quote text ++ ": " ++ message
  | stored name => "stored formula " ++ name
  | deleted name => "deleted formula " ++ name

def line (entry : LogEntry) : String :=
  let origin :=
    match entry with
    | noPhrase .. => "DEBUG [treeform.parser] "
    | rejected .. => "DEBUG [treeform.ui] "
    | stored _ => "INFO [treeform.ui] "
    | deleted _ => "INFO [treeform.ui] "
  origin ++ entry.message

end LogEntry

end Formulary
