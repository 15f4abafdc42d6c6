import Formulary.Text.Printable

/-!
This module contains the quoted form of a text, in which messages show names and tokens. Single
quotes enclose it unless it holds one and no double quote, and what does not show on a page is
written as an escape.
-/

namespace Formulary

def hexDigits (width n : Nat) : List Char :=
  (Nat.toDigits 16 n).leftpad width '0'

/--
The escape of a character by its code point, in the shortest of the three forms that has room.
-/
def escapeCode (c : Char) : List Char :=
  let n := c.toNat
  if n ≤ 0xFF then
    '\x5c' :: 'x' :: hexDigits 2 n
  else if n ≤ 0xFFFF then
    '\x5c' :: 'u' :: hexDigits 4 n
  else
    '\x5c' :: 'U' :: hexDigits 8 n

def quoteChar (mark c : Char) : List Char :=
  if c = mark ∨ c = '\x5c' then
    ['\x5c', c]
  else if c = '\n' then
    ['\x5c', 'n']
  else if c = '\r' then
    ['\x5c', 'r']
  else if c = '\t' then
    ['\x5c', 't']
  else if isPrintable c then
    [c]
  else
    escapeCode c

def quoteMark (text : List Char) : Char :=
  if '\x27' ∈ text ∧ '\x22' ∉ text then
    '\x22'
  else
    '\x27'

def quote (text : String) : String :=
  let cs := text.toList
  let mark := quoteMark cs
  String.ofList (mark :: cs.flatMap (quoteChar mark) ++ [mark])

end Formulary
