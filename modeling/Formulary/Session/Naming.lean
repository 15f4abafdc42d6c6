import Formulary.Session.Store
import Formulary.Text.Name
import Formulary.Text.Quoted

/-!
This module contains the names that commands give to formulas, and their errors.
-/

namespace Formulary

inductive NameError where
  | missing
  | malformed (name : String)
  | unknown (name : String)
  | taken (name : String)
  deriving DecidableEq, Repr

def NameError.message : NameError → String
  | missing => "公式名未指定。"
  | malformed name => quote name ++ " 不是有效的公式名。"
  | unknown name => name ++ " 公式尚未被定义。"
  | taken name => name ++ " 公式已被定义。"

namespace Store

def get (store : Store) (name : String) : Except NameError Tree :=
  if name.isEmpty then
    .error .missing
  else if !isName name then
    .error (.malformed name)
  else
    match store.find? name with
    | some tree => .ok tree
    | none => .error (.unknown name)

def checkNew (store : Store) (name : String) : Except NameError Unit :=
  if name.isEmpty then
    .error .missing
  else if !isName name then
    .error (.malformed name)
  else
    match store.find? name with
    | some _ => .error (.taken name)
    | none => .ok ()

section

variable {store : Store} {name : String}

theorem isEmpty_of_isName (h : isName name = true) : name.isEmpty = false := by
  obtain ⟨c, cs, htext, _⟩ := isName_eq_true_iff.1 h
  rw [← Bool.not_eq_true, String.isEmpty_iff]
  rintro rfl
  cases htext

theorem get_eq_ok_iff {tree : Tree} :
    store.get name = .ok tree ↔ isName name = true ∧ store.find? name = some tree := by
  unfold get
  cases hname : isName name with
  | false => cases name.isEmpty <;> simp
  | true =>
    rw [isEmpty_of_isName hname]
    cases store.find? name with
    | none => simp
    | some => simp

theorem checkNew_eq_ok_iff :
    store.checkNew name = .ok () ↔ isName name = true ∧ name ∉ store.names := by
  unfold checkNew
  cases hname : isName name with
  | false => cases name.isEmpty <;> simp
  | true =>
    rw [isEmpty_of_isName hname, ← find?_eq_none_iff]
    cases store.find? name with
    | none => simp
    | some => simp

end

end Store

end Formulary
