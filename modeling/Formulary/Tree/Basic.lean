import Formulary.Fault

/-!
This module contains syntax trees. A tree may be built by hand, so its texts are arbitrary and a
node may be absent.
-/

namespace Formulary

inductive Tree where
  /--
  No node at all.
  -/
  | absent
  | constant (value : String)
  | identifier (name : String)
  | unary (op : String) (operand : Tree)
  | binary (op : String) (left right : Tree)
  deriving DecidableEq, Repr, Inhabited

namespace Tree

def size : Tree → Nat
  | absent => 1
  | constant _ => 1
  | identifier _ => 1
  | unary _ operand => operand.size + 1
  | binary _ left right => left.size + right.size + 1

def children : Tree → Except Fault (List Tree)
  | absent => .error .missingNode
  | constant _ => .ok []
  | identifier _ => .ok []
  | unary _ operand => .ok [operand]
  | binary _ left right => .ok [left, right]

end Tree

end Formulary
