import Formulary.Fault
import Formulary.Token.Basic

/-!
This module contains positions in a list of tokens. Position 0 is the first token, and reading goes
on to the end of the list. A negative position counts back from the end; reading from there goes
through the last token on to position 0.
-/

namespace Formulary

def tokenAt (tokens : Array Token) (pos : Int) : Option Token :=
  if 0 ≤ pos then
    tokens[pos.toNat]?
  else if 0 ≤ tokens.size + pos then
    tokens[(tokens.size + pos).toNat]?
  else
    none

def tokensFrom (tokens : List Token) (pos : Int) : Except Fault (List Token) :=
  if tokens.length + pos < 0 then
    .error .noSuchPosition
  else
    let store := tokens.toArray
    let count := (tokens.length - pos).toNat
    .ok ((List.range count).filterMap fun (i : Nat) => tokenAt store (pos + i))

/--
The position after the symbol `text`, if that symbol stands at `pos`.
-/
def accept (tokens : List Token) (pos : Int) (text : String) : Except Fault (Option Int) :=
  if tokens.length ≤ pos then
    .ok none
  else
    match tokenAt tokens.toArray pos with
    | some token => .ok (if token.isSymbol text then some (pos + 1) else none)
    | none => .error .noSuchPosition

end Formulary
