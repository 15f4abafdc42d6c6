import Formulary.Session.Command
import Formulary.Session.Naming
import Formulary.Session.Reply
import Formulary.Tree.Measure
import Formulary.Tree.Render

/-!
This module contains what the commands of a session do, one by one.
-/

namespace Formulary

/--
The printed formulas, one to a line behind its name, up to the first that cannot be printed.
-/
def Store.listing (alphabet : Alphabet) : List (String × Tree) → String × Except Fault Unit
  | [] => ("", .ok ())
  | (name, tree) :: entries =>
    match tree.render alphabet with
    | .error fault => ("", .error fault)
    | .ok form =>
      let (lines, result) := listing alphabet entries
      (name ++ ": " ++ form ++ "\n" ++ lines, result)

namespace Session

variable [RecursionLimit]

def alphabetFor (session : Session) (unicode : Bool) : Alphabet :=
  if unicode then
    .unicode
  else
    session.alphabet

def list (session : Session) (unicode : Bool) (name : String) : Reply :=
  let alphabet := session.alphabetFor unicode
  if session.store.entries.isEmpty then
    session.say "尚未加入任何公式。\n"
  else
    let chosen :=
      if name.isEmpty then
        .ok session.store.entries
      else
        (session.store.get name).map fun tree => [(name, tree)]
    match chosen with
    | .error error => session.say (error.message ++ "\n")
    | .ok entries =>
      match Store.listing alphabet entries with
      | (lines, .ok ()) => session.say lines
      | (lines, .error fault) => session.fail lines fault

/--
Stores the formula on the line of input under a new name. Without a line there is nothing to store.
-/
def new (session : Session) (name : String) (input : Option String) : Reply :=
  match session.store.checkNew name with
  | .error error => session.say (error.message ++ "\n")
  | .ok () =>
    let question := "输入公式: "
    match input with
    | none => session.fail question .endOfInput
    | some text =>
      match Tree.ofText text with
      | .error error => session.reject question text error
      | .ok tree =>
        let store := session.store.add name tree
        ⟨{ session with store := store }, .ok false, question, [.stored name]⟩

def delete (session : Session) (name : String) : Reply :=
  match session.store.get name with
  | .error error => session.say (error.message ++ "\n")
  | .ok _ =>
    let store := session.store.erase name
    ⟨{ session with store := store }, .ok false, "", [.deleted name]⟩

def analyze (session : Session) (unicode : Bool) (text : String) : Reply :=
  if text.isEmpty then
    session.say "公式未指定。\n"
  else
    match Tree.ofText text with
    | .error error => session.reject "" text error
    | .ok tree =>
      match tree.render (session.alphabetFor unicode) with
      | .error fault => session.fail "" fault
      | .ok form =>
        let formLine := "加括号形式: " ++ form ++ "\n"
        match tree.depth with
        | .error fault => session.fail formLine fault
        | .ok depth => session.say (formLine ++ "复杂度: " ++ toString depth ++ "\n")

def depth (session : Session) (name : String) : Reply :=
  match session.store.get name with
  | .error error => session.say (error.message ++ "\n")
  | .ok tree =>
    match tree.depth with
    | .error fault => session.fail "" fault
    | .ok depth => session.say ("复杂度是 " ++ toString depth ++ "。\n")

def identifiers (session : Session) (name : String) : Reply :=
  match session.store.get name with
  | .error error => session.say (error.message ++ "\n")
  | .ok tree =>
    match tree.identifiers with
    | .error fault => session.fail "" fault
    | .ok [] => session.say "给定公式不包含任何标识符。\n"
    | .ok names => session.say (" ".intercalate names ++ "\n")

def help (session : Session) (topic : String) : Reply :=
  if topic.isEmpty then
    session.say Verb.overview
  else
    match (Verb.ofWord? topic).bind Verb.explanation? with
    | some explanation => session.say (explanation ++ "\n")
    | none => session.say ("*** No help on " ++ topic ++ "\n")

/--
Runs a command. `input` is the line that it gets if it asks for one and there is one.
-/
def run (session : Session) (command : Command) (input : Option String) : Reply :=
  match command with
  | .nothing => session.say ""
  | .unknown line => session.say ("*** Unknown syntax: " ++ line ++ "\n")
  | .run .delete name => session.delete name
  | .run .depth name => session.depth name
  | .run .exit _ => { session.say "" with outcome := .ok true }
  | .run .help topic => session.help topic
  | .run .list name => session.list false name
  | .run .listUnicode name => session.list true name
  | .run .new name => session.new name input
  | .run .analyze text => session.analyze false text
  | .run .analyzeUnicode text => session.analyze true text
  | .run .identifiers name => session.identifiers name
  | .run .endOfInput _ => { session.say "" with outcome := .ok true }

def step (session : Session) (line : String) (input : Option String) : Reply :=
  session.run (.ofLine line) input

def asksInput (session : Session) (line : String) : Bool :=
  match Command.ofLine line with
  | .run .new name => (session.store.checkNew name).isOk
  | _ => false

end Session

end Formulary
