import Formulary.Text.Blank

/-!
This module contains the commands of a session and their reading from a line: a word, and an
argument that is the rest of the line.
-/

namespace Formulary

inductive Verb where
  | delete
  | depth
  | exit
  | help
  | list
  | listUnicode
  | new
  | analyze
  | analyzeUnicode
  | identifiers
  | endOfInput
  deriving DecidableEq, Repr

namespace Verb

def all : List Verb :=
  [endOfInput, delete, depth, exit, help, list, listUnicode, new, analyze, analyzeUnicode,
    identifiers]

def word : Verb → String
  | delete => "del"
  | depth => "depth"
  | exit => "exit"
  | help => "help"
  | list => "list"
  | listUnicode => "listu"
  | new => "new"
  | analyze => "show"
  | analyzeUnicode => "showu"
  | identifiers => "vars"
  | endOfInput => "EOF"

def ofWord? (word : String) : Option Verb :=
  all.find? (·.word == word)

@[simp]
theorem ofWord?_word (verb : Verb) : ofWord? verb.word = some verb := by
  cases verb <;> decide

/--
The explanation of a verb. The end of the input is no command that a user gives.
-/
def explanation? : Verb → Option String
  | delete => some "删除已有的公式。\n\ndel 公式名"
  | depth => some "打印公式的复杂度（语法树的最大深度）。\n\ndepth 公式名"
  | exit => some "退出程序。\n\n        exit\n        "
  | help => some "List available commands with \x22help\x22 or detailed help with \x22help cmd\x22."
  | list => some "列出所有已添加的公式，或指定的公式。\n\nlist [公式名]"
  | listUnicode => some "以 Unicode 字符列出所有已添加的公式，或指定的公式。另见 list 命令。"
  | new => some "添加新公式。\n\nnew 公式名"
  | analyze => some "分析给定的公式，打印其完全加括号的形式和复杂度。\n\nshow 公式"
  | analyzeUnicode => some "以 Unicode 字符分析给定的公式。另见 show 命令。"
  | identifiers => some "列出公式中出现的标识符。\n\nvars 公式名"
  | endOfInput => none

def topics (heading : String) (verbs : List Verb) : String :=
  heading ++ "\n" ++ String.ofList (List.replicate heading.length '=') ++ "\n"
    ++ "  ".intercalate (verbs.map word) ++ "\n\n"

def overview : String :=
  let (explained, unexplained) := all.partition (·.explanation?.isSome)
  "\n" ++ topics "Documented commands (type help <topic>):" explained
    ++ topics "Undocumented commands:" unexplained

end Verb

inductive Command where
  | nothing
  | unknown (line : String)
  | run (verb : Verb) (argument : String)
  deriving DecidableEq, Repr

namespace Command

def isWordChar (c : Char) : Bool :=
  c.isAlphanum || c = '_'

/--
The command on a line. Its word ends where the first other character stands, so that a formula may
follow without a blank. A question mark asks for help.
-/
def ofLine (line : String) : Command :=
  let line := trim line
  match line.toList with
  | [] => .nothing
  | '?' :: topic => .run .help (trim (String.ofList topic))
  | cs =>
    match Verb.ofWord? (String.ofList (cs.takeWhile isWordChar)) with
    | some verb => .run verb (trim (String.ofList (cs.dropWhile isWordChar)))
    | none => .unknown line

end Command

end Formulary
