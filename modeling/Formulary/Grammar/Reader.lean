import Formulary.Grammar.Phrase
import Formulary.Operator
import Formulary.Token.Basic
import Formulary.Tree.Basic

/-!
This module contains readers and the ways to build one from another. A reader takes the tokens ahead
and gives the tree of the longest phrase at their start together with the tokens after it. Once a
phrase has begun, its missing parts are an error and not a sign that another phrase stands there.
-/

namespace Formulary

/--
The first symbols of an operator, standing where the whole operator could: how many there are, and
the symbol that should come next.
-/
structure Stub where
  read : Nat
  wanted : String
  deriving DecidableEq, Repr

/--
A phrase that has been read: its tree, the tokens after it, and the stub at their start, if any.
-/
structure Reading where
  tree : Tree
  rest : List Token
  stub : Option Stub
  deriving DecidableEq, Repr

inductive Failure where
  /--
  The phrase does not begin with the first token.
  -/
  | mismatch
  /--
  The phrase has begun, but `part` is not there in front of `rest`.
  -/
  | missing (part : Part) (rest : List Token) (stub : Option Stub)
  | tooDeep
  deriving DecidableEq, Repr

abbrev Reader := List Token → Except Failure Reading

def dropSymbol (text : String) : List Token → Option (List Token)
  | [] => none
  | token :: tokens => if token.isSymbol text then some tokens else none

theorem dropSymbol_eq_some_iff {text : String} {tokens rest : List Token} :
    dropSymbol text tokens = some rest ↔ ∃ token, token.isSymbol text ∧ tokens = token :: rest := by
  cases tokens with
  | nil => simp [dropSymbol]
  | cons token tokens => grind [dropSymbol]

/--
The tokens after a row of symbols, if they begin with it, or else the stub they begin with, which
may hold no symbol at all.
-/
def dropSymbols : List String → List Token → Except Stub (List Token)
  | [], tokens => .ok tokens
  | text :: texts, tokens =>
    match dropSymbol text tokens with
    | none => .error ⟨0, text⟩
    | some rest =>
      match dropSymbols texts rest with
      | .ok rest => .ok rest
      | .error stub => .error ⟨stub.read + 1, stub.wanted⟩

theorem dropSymbols_eq_ok_iff {texts : List String} {tokens rest : List Token} :
    dropSymbols texts tokens = .ok rest ↔
      ∃ front, (∀ token ∈ front, token.kind = .symbol) ∧ front.map Token.text = texts
        ∧ tokens = front ++ rest := by
  induction texts generalizing tokens with
  | nil =>
    simp only [dropSymbols, Except.ok.injEq]
    constructor
    . rintro rfl
      exact ⟨[], by simp⟩
    . rintro ⟨front, _, hfront, rfl⟩
      simp [List.map_eq_nil_iff.1 hfront]
  | cons text texts ih =>
    simp only [dropSymbols]
    constructor
    . intro h
      split at h
      . simp at h
      . next later hlater =>
        split at h
        . next last hlast =>
          obtain rfl : last = rest := by simpa using h
          obtain ⟨token, htoken, rfl⟩ := dropSymbol_eq_some_iff.1 hlater
          obtain ⟨front, hkind, htext, rfl⟩ := ih.1 hlast
          rw [Token.isSymbol_iff] at htoken
          refine ⟨token :: front, ?_, ?_, rfl⟩
          . simp only [List.mem_cons, forall_eq_or_imp]
            exact ⟨htoken.1, hkind⟩
          . simp [htoken.2, htext]
        . simp at h
    . rintro ⟨front, hkind, htext, rfl⟩
      cases front with
      | nil => simp at htext
      | cons token front =>
        simp only [List.mem_cons, forall_eq_or_imp] at hkind
        simp only [List.map_cons, List.cons.injEq] at htext
        have hfirst : dropSymbol text (token :: (front ++ rest)) = some (front ++ rest) :=
          dropSymbol_eq_some_iff.2 ⟨token, Token.isSymbol_iff.2 ⟨hkind.1, htext.1⟩, rfl⟩
        have hlast := ih.2 ⟨front, hkind.2, htext.2, rfl⟩
        simp [hfirst, hlast]

def Stub.proper? (stub : Stub) : Option Stub :=
  if stub.read = 0 then
    none
  else
    some stub

def require (part : Phrase) (reader : Reader) : Reader := fun tokens =>
  match reader tokens with
  | .error .mismatch => .error (.missing (.phrase part) tokens none)
  | result => result

/--
Reads a chain of operands with `op` between them, which groups to the left. `part` says what the
operands are.
-/
def readChain (op : Operator) (part : Phrase) (operand : Reader) : Reader := fun tokens =>
  match operand tokens with
  | .error failure => .error failure
  | .ok first => go tokens first
where
  /--
  Reads on after the operands in `chain`, one of them for each token in `bound` at most. There are
  fewer operands than tokens.
  -/
  go (bound : List Token) (chain : Reading) : Except Failure Reading :=
    match bound with
    | [] => .ok chain
    | _ :: bound =>
      match dropSymbols op.spelling chain.rest with
      | .error _ => .ok chain
      | .ok rest =>
        match require part operand rest with
        | .error failure => .error failure
        | .ok next => go bound { next with tree := .binary op.text chain.tree next.tree }

/--
Reads an operand, or two of them with `op` in between. `part` says what the operands are. Where `op`
does not follow, its stub is kept unless the operand has left one.
-/
def readPair (op : Operator) (part : Phrase) (operand : Reader) : Reader := fun tokens =>
  match operand tokens with
  | .error failure => .error failure
  | .ok left =>
    match dropSymbols op.spelling left.rest with
    | .error stub => .ok { left with stub := left.stub <|> stub.proper? }
    | .ok rest =>
      match require part operand rest with
      | .error failure => .error failure
      | .ok right => .ok { right with tree := .binary op.text left.tree right.tree }

end Formulary
