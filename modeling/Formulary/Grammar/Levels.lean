import Formulary.Grammar.Reader

/-!
This module contains the reader of each phrase. Only parentheses lead from a tight phrase back to the
loosest one, so the readers recurse on the number of parentheses that may still be opened.
-/

namespace Formulary

def readIdentifier : Reader
  | [] => .error .mismatch
  | token :: tokens =>
    if token.isIdentifier then
      .ok ⟨.identifier token.text, tokens, none⟩
    else
      .error .mismatch

/--
Reads an atom. `inner` reads what stands in parentheses, which leave no trace in the tree.
-/
def readAtom (inner : Reader) : Reader
  | [] => .error .mismatch
  | token :: tokens =>
    if token.isSymbol "T" || token.isSymbol "F" then
      .ok ⟨.constant token.text, tokens, none⟩
    else if token.isIdentifier then
      .ok ⟨.identifier token.text, tokens, none⟩
    else if token.isSymbol "(" then
      match require .biconditional inner tokens with
      | .error failure => .error failure
      | .ok body =>
        match dropSymbol ")" body.rest with
        | none => .error (.missing .closing body.rest body.stub)
        | some rest => .ok ⟨body.tree, rest, none⟩
    else
      .error .mismatch

def readLiteral (inner : Reader) : Reader := fun tokens =>
  match readAtom inner tokens with
  | .error .mismatch =>
    match dropSymbol Operator.not.text tokens with
    | none => .error .mismatch
    | some rest =>
      match require .atom (readAtom inner) rest with
      | .error failure => .error failure
      | .ok operand => .ok { operand with tree := .unary Operator.not.text operand.tree }
  | result => result

def readConjunction (inner : Reader) : Reader :=
  readChain .and .literal (readLiteral inner)

def readDisjunction (inner : Reader) : Reader :=
  readChain .or .conjunction (readConjunction inner)

def readImplication (inner : Reader) : Reader :=
  readPair .implies .disjunction (readDisjunction inner)

def readBiconditional (inner : Reader) : Reader :=
  readPair .iff .implication (readImplication inner)

/--
Reads a biconditional that stands in parentheses, where at most `depth` pairs of them may be open,
its own included.
-/
def readNested (depth : Nat) : Reader :=
  match depth with
  | 0 => fun _ => .error .tooDeep
  | depth + 1 => readBiconditional (readNested depth)

/--
How many pairs of parentheses may be open at once. The grammar sets no bound. A reader calls itself
for each pair and gives up at the recursion limit of the interpreter, which counts calls: how many
pairs these are depends on the interpreter and its settings. What is proved holds for every number.
-/
class RecursionLimit where
  maxNesting : Nat

export RecursionLimit (maxNesting)

/--
The number that the program runs with. It stands for the recursion limit: fifty pairs of parentheses
have to be read, and two hundred are refused.
-/
instance defaultLimit : RecursionLimit where
  maxNesting := 100

def Phrase.read [RecursionLimit] : Phrase → Reader
  | identifier => readIdentifier
  | atom => readAtom (readNested maxNesting)
  | literal => readLiteral (readNested maxNesting)
  | conjunction => readConjunction (readNested maxNesting)
  | disjunction => readDisjunction (readNested maxNesting)
  | implication => readImplication (readNested maxNesting)
  | biconditional => readBiconditional (readNested maxNesting)

end Formulary
