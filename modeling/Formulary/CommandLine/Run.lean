import Formulary.CommandLine.Request
import Formulary.Session.Step
import Formulary.Text.Lines

/-!
This module contains runs of the whole program: from the arguments and the text of standard input to
what is printed and how the run ends.
-/

namespace Formulary

structure Exit where
  status : Except Fault Nat
  out : String
  err : String

def usage : String :=
  "usage: treeform [-h] [-u] [-v]\n"

def helpText : String :=
  usage ++ "\n"
    ++ "Parse propositional formulas and print their syntax trees.\n\n"
    ++ "options:\n"
    ++ "  -h, --help     show this help message and exit\n"
    ++ "  -u, --unicode  print operators as Unicode symbols\n"
    ++ "  -v, --verbose  log parser activity\n"

def greeting : String :=
  "输入 ? 或 help 以显示所有命令。\n"

def prompt : String :=
  "? "

/--
The answers to the commands on a list of lines. `waiting` is a command that asks for input and gets
the next line, which is then no command itself. The end of the lines is a command of its own, and
the first command that does not let the session go on is the last.
-/
def Session.replies [RecursionLimit] (session : Session) (waiting : Option String) :
    List String → List Reply
  | [] => [session.step (waiting.getD Verb.endOfInput.word) none]
  | line :: lines =>
    if waiting.isNone && session.asksInput line then
      session.replies (some line) lines
    else
      let reply :=
        match waiting with
        | none => session.step line none
        | some command => session.step command (some line)
      match reply.outcome with
      | .ok false => reply :: reply.session.replies none lines
      | _ => [reply]

def run [RecursionLimit] (arguments : List String) (input : String) : Exit :=
  match Request.ofArguments arguments with
  | .error error => ⟨.ok 2, "", usage ++ "treeform: error: " ++ error.message ++ "\n"⟩
  | .ok .help => ⟨.ok 0, helpText, ""⟩
  | .ok (.start options) =>
    let session := Session.start (if options.unicode then .unicode else .ascii)
    let replies := session.replies none (inputLines input)
    let out := String.join (replies.map fun reply => prompt ++ reply.out)
    let log := replies.flatMap Reply.log
    let err := if options.verbose then String.join (log.map fun entry => entry.line ++ "\n") else ""
    let status :=
      match replies.getLast?.map Reply.outcome with
      | some (.error fault) => .error fault
      | _ => .ok 0
    ⟨status, greeting ++ out, err⟩

end Formulary
