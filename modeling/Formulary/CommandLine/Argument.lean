import Formulary.Text.Quoted

/-!
This module contains the arguments on the command line and the flags that they give. Flags take no
values. Short ones may share a hyphen, long ones may be cut short as long as no other one begins
alike, and after two hyphens that stand alone nothing is a flag.
-/

namespace Formulary

inductive Flag where
  | help
  | unicode
  | verbose
  deriving DecidableEq, Repr

namespace Flag

def all : List Flag :=
  [help, unicode, verbose]

def letter : Flag → Char
  | help => 'h'
  | unicode => 'u'
  | verbose => 'v'

def word : Flag → String
  | help => "--help"
  | unicode => "--unicode"
  | verbose => "--verbose"

def title (flag : Flag) : String :=
  String.ofList ['-', flag.letter] ++ "/" ++ flag.word

def ofLetter? (letter : Char) : Option Flag :=
  all.find? (·.letter == letter)

def startingWith (start : List Char) : List Flag :=
  all.filter fun flag => start.isPrefixOf flag.word.toList

end Flag

inductive Argument where
  /--
  A flag by its word, with what stands after an equals sign.
  -/
  | long (flag : Flag) (value : Option String)
  /--
  A flag by its letter, with the letters that share its hyphen, which may come after an equals sign.
  -/
  | short (flag : Flag) (more : Option (List Char))
  | other (text : String)
  deriving DecidableEq, Repr

inductive OptionError where
  | ambiguous (argument : String) (flags : List Flag)
  | valued (flag : Flag) (value : String)
  | unrecognized (arguments : List String)
  deriving DecidableEq, Repr

def OptionError.message : OptionError → String
  | ambiguous argument flags =>
    "ambiguous option: " ++ argument ++ " could match "
      ++ ", ".intercalate (flags.map Flag.word)
  | valued flag value => "argument " ++ flag.title ++ ": ignored explicit argument " ++ quote value
  | unrecognized arguments => "unrecognized arguments: " ++ " ".intercalate arguments

namespace Argument

def ofText (text : String) : Except OptionError Argument :=
  match text.toList with
  | '-' :: '-' :: cs =>
    let start := '-' :: '-' :: cs.takeWhile (· != '=')
    let value := (cs.dropWhile (· != '=')).tail?.map String.ofList
    match Flag.startingWith start with
    | [] => .ok (.other text)
    | [flag] => .ok (.long flag value)
    | flags => .error (.ambiguous text flags)
  | '-' :: letter :: cs =>
    match Flag.ofLetter? letter, cs with
    | none, _ => .ok (.other text)
    | some flag, [] => .ok (.short flag none)
    | some flag, '=' :: more => .ok (.short flag (some more))
    | some flag, more => .ok (.short flag (some more))
  | _ => .ok (.other text)

/--
What each of the arguments is. Two hyphens that stand alone, and what follows, are no options. An
ambiguous argument is refused before any other has an effect.
-/
def ofTexts : List String → Except OptionError (List Argument)
  | [] => .ok []
  | text :: texts =>
    if text = "--" then
      .ok ((text :: texts).map other)
    else
      match ofText text, ofTexts texts with
      | .error error, _ => .error error
      | _, .error error => .error error
      | .ok argument, .ok arguments => .ok (argument :: arguments)

def cluster (flag : Flag) : List Char → Except OptionError (List Flag)
  | [] => .ok [flag]
  | letter :: letters =>
    match Flag.ofLetter? letter with
    | none => .error (.valued flag (String.ofList (letter :: letters)))
    | some next => (cluster next letters).map (flag :: ·)

def flags : Argument → Except OptionError (List Flag)
  | long flag none => .ok [flag]
  | long flag (some value) => .error (.valued flag value)
  | short flag none => .ok [flag]
  | short flag (some []) => .error (.valued flag "")
  | short flag (some more) => cluster flag more
  | other _ => .ok []

end Argument

end Formulary
