import Formulary.Proofs.Grammar.Justified

/-!
This module contains the other direction of what readers answer: a phrase that is derived from
tokens is read from them, whatever follows, as long as no operator of the phrase follows.
-/

namespace Formulary

def Phrase.operators : Phrase → List Operator
  | identifier => []
  | atom => []
  | literal => []
  | conjunction => [.and]
  | disjunction => [.and, .or]
  | implication => [.and, .or, .implies]
  | biconditional => [.and, .or, .implies, .iff]

/--
The operators in front of which a reader does not come to the end of a phrase. A chain may go on
with its own operator.
-/
def Phrase.barred : Phrase → List Operator
  | conjunction => []
  | disjunction => [.and]
  | phrase => phrase.operators

def Ends (operators : List Operator) (tokens : List Token) : Prop :=
  ∀ op ∈ operators, ∃ stub, dropSymbols op.spelling tokens = .error stub

theorem Ends.subset {operators others : List Operator} {tokens : List Token}
    (h : Ends operators tokens) (hsubset : others ⊆ operators) : Ends others tokens :=
  fun op hop => h op (hsubset hop)

theorem dropSymbols_eq_error_of_head {op : Operator} {token : Token}
    (h : ∀ text ∈ op.spelling.head?, token.isSymbol text = false) (tokens : List Token) :
    ∃ wanted, dropSymbols op.spelling (token :: tokens) = .error ⟨0, wanted⟩ := by
  cases op with
  | _ =>
    simp only [Operator.spelling, List.head?_cons, Option.mem_def, Option.some.injEq,
      forall_eq'] at h
    simp [Operator.spelling, dropSymbols, dropSymbol, h]

theorem dropSymbols_closing {token : Token} (h : token.isSymbol ")") (op : Operator)
    (tokens : List Token) :
    ∃ wanted, dropSymbols op.spelling (token :: tokens) = .error ⟨0, wanted⟩ := by
  apply dropSymbols_eq_error_of_head
  rw [Token.isSymbol_iff] at h
  cases op <;> simp [Operator.spelling, Token.isSymbol, h.2]

theorem Operator.eq_of_head_spelling_eq {op other : Operator}
    (h : op.spelling.head? = other.spelling.head?) : op = other := by
  revert h
  cases op <;> cases other <;> decide

theorem dropSymbols_of_ne {op other : Operator} {token : Token} (hne : other ≠ op)
    (hhead : op.spelling.head? = some token.text) (tokens : List Token) :
    ∃ wanted, dropSymbols other.spelling (token :: tokens) = .error ⟨0, wanted⟩ := by
  apply dropSymbols_eq_error_of_head
  intro text htext
  rw [← Bool.not_eq_true, Token.isSymbol_iff]
  rintro ⟨_, rfl⟩
  apply hne
  apply Operator.eq_of_head_spelling_eq
  rw [hhead]
  exact htext

theorem ends_nil (operators : List Operator) : Ends operators [] := by
  intro op _
  cases op <;> simp [Operator.spelling, dropSymbols, dropSymbol]

theorem ends_closing {token : Token} (h : token.isSymbol ")") (operators : List Operator)
    (tokens : List Token) : Ends operators (token :: tokens) := by
  intro op _
  obtain ⟨wanted, hwanted⟩ := dropSymbols_closing h op tokens
  exact ⟨_, hwanted⟩

theorem ends_sign {op : Operator} {sign : List Token} (hop : op.Spelled sign)
    {operators : List Operator} (hmem : op ∉ operators) (tokens : List Token) :
    Ends operators (sign ++ tokens) := by
  intro other hother
  obtain ⟨_, htext⟩ := hop
  cases sign with
  | nil => cases op <;> simp [Operator.spelling] at htext
  | cons token sign =>
    have hhead : op.spelling.head? = some token.text := by
      rw [← htext]
      rfl
    have hne : other ≠ op := fun heq => hmem (heq ▸ hother)
    obtain ⟨wanted, hwanted⟩ := dropSymbols_of_ne hne hhead (sign ++ tokens)
    exact ⟨_, hwanted⟩

/--
A reader that has come to `reading`, from where a chain may still go on.
-/
def ComesTo (inner : Reader) (tokens : List Token) (reading : Reading) : Phrase → Prop
  | .conjunction =>
    readConjunction inner tokens = readOn .and .literal (readLiteral inner) reading
  | .disjunction =>
    readDisjunction inner tokens = readOn .or .conjunction (readConjunction inner) reading
  | phrase => phrase.reader inner tokens = .ok reading

section

variable {op : Operator} {part : Phrase} {operand : Reader}

theorem readOn_eq_ok {chain : Reading} (h : Ends [op] chain.rest) :
    readOn op part operand chain = .ok chain := by
  obtain ⟨stub, hstub⟩ := h op List.mem_cons_self
  apply readOn_of_error hstub

theorem dropSymbols_sign {sign : List Token} (hop : op.Spelled sign) (tokens : List Token) :
    dropSymbols op.spelling (sign ++ tokens) = .ok tokens :=
  dropSymbols_eq_ok_iff.2 ⟨sign, hop.1, hop.2, rfl⟩

theorem readOn_sign (hoperand : Shortens operand) {sign tokens : List Token} {chain next : Reading}
    (hop : op.Spelled sign) (hrest : chain.rest = sign ++ tokens)
    (hnext : operand tokens = .ok next) :
    readOn op part operand chain
      =
    readOn op part operand { next with tree := .binary op.text chain.tree next.tree } := by
  have hdrop : dropSymbols op.spelling chain.rest = .ok tokens := by
    rw [hrest]
    apply dropSymbols_sign hop
  rw [readOn_of_ok hoperand hdrop, require_eq_ok_iff.2 hnext]

theorem readPair_eq_ok_left {tokens : List Token} {left : Reading}
    (hleft : operand tokens = .ok left) (h : Ends [op] left.rest) :
    ∃ stub, readPair op part operand tokens = .ok { left with stub := stub } := by
  obtain ⟨stub, hstub⟩ := h op List.mem_cons_self
  simp [readPair, hleft, hstub]

end

section

variable {inner : Reader} {phrase : Phrase} {tokens : List Token}

theorem ComesTo.eq_ok {reading : Reading} (h : ComesTo inner tokens reading phrase)
    (hends : Ends phrase.operators reading.rest) : phrase.reader inner tokens = .ok reading := by
  cases phrase with
  | conjunction =>
    apply Eq.trans h (readOn_eq_ok hends)
  | disjunction =>
    apply Eq.trans h (readOn_eq_ok (hends.subset (by decide)))
  | _ => exact h

theorem readPair_complete {op : Operator} {part : Phrase} {leftTokens sign rest : List Token}
    {left right : Tree} {leftStub stub : Option Stub} (hop : op.Spelled sign)
    (hmem : op ∉ part.operators) (hends : Ends part.operators rest)
    (hleft : ComesTo inner (leftTokens ++ (sign ++ (tokens ++ rest)))
      ⟨left, sign ++ (tokens ++ rest), leftStub⟩ part)
    (hright : ComesTo inner (tokens ++ rest) ⟨right, rest, stub⟩ part) :
    readPair op part (part.reader inner) (leftTokens ++ sign ++ tokens ++ rest)
      =
    .ok ⟨.binary op.text left right, rest, stub⟩ := by
  have hleft := hleft.eq_ok (ends_sign hop hmem _)
  have hright := hright.eq_ok hends
  simp only [List.append_assoc, readPair, hleft, dropSymbols_sign hop, require_eq_ok_iff.2 hright]

theorem readAtom_of_parentheses {opening closing : Token} {body rest : List Token} {tree : Tree}
    {stub : Option Stub} (hopening : opening.isSymbol "(") (hclosing : closing.isSymbol ")")
    (h : inner (body ++ closing :: rest) = .ok ⟨tree, closing :: rest, stub⟩) :
    readAtom inner (opening :: (body ++ closing :: rest)) = .ok ⟨tree, rest, none⟩ := by
  rw [readAtom_of_opening hopening, require_eq_ok_iff.2 h]
  simp only [dropSymbol_cons_of_isSymbol hclosing]

theorem readLiteral_of_not {sign rest : List Token} {reading : Reading}
    (hop : Operator.not.Spelled sign) (h : readAtom inner rest = .ok reading) :
    readLiteral inner (sign ++ rest)
      =
    .ok { reading with tree := .unary Operator.not.text reading.tree } := by
  have hdrop : dropSymbol Operator.not.text (sign ++ rest) = some rest := by
    obtain ⟨hkind, htext⟩ := hop
    obtain ⟨token, rfl, htoken⟩ := List.map_eq_singleton_iff.1 htext
    have hkind := hkind token List.mem_cons_self
    apply dropSymbol_cons_of_isSymbol
    rw [Token.isSymbol_iff]
    exact ⟨hkind, htoken⟩
  simp only [readLiteral, readAtom_of_dropSymbol_not hdrop, hdrop, require_eq_ok_iff.2 h]

end

theorem Derives.comesTo {phrase : Phrase} {front rest : List Token} {tree : Tree} {depth : Nat}
    (h : Derives phrase front tree) (hdepth : front.length ≤ depth)
    (hends : Ends phrase.barred rest) :
    ∃ stub, ComesTo (readNested depth) (front ++ rest) ⟨tree, rest, stub⟩ phrase := by
  -- A chain is derived from the right, but read from the left: the derivation of its front only says
  -- that reading comes that far, so that the operand on the right can be added.
  induction h generalizing depth rest with
  | identifier h =>
    refine ⟨none, ?_⟩
    simp [ComesTo, Phrase.reader, readIdentifier, h]
  | constant h =>
    refine ⟨none, ?_⟩
    rw [← Bool.or_eq_true] at h
    simp only [ComesTo, Phrase.reader, readAtom, List.singleton_append, h, ↓reduceIte]
  | atom h ih =>
    refine ⟨none, ?_⟩
    cases h with
    | identifier h =>
      rw [Token.isIdentifier_iff] at h
      simp [ComesTo, Phrase.reader, readAtom, Token.isSymbol, Token.isIdentifier, h]
  | @parentheses tokens tree opening closing hopening hclosing h ih =>
    rw [List.length_append, List.length_cons] at hdepth
    cases depth with
    | zero => omega
    | succ depth =>
      have hlength : tokens.length ≤ depth := by omega
      have hends := ends_closing hclosing Phrase.biconditional.barred rest
      obtain ⟨stub, hbody⟩ := ih hlength hends
      refine ⟨none, ?_⟩
      simp only [List.cons_append, List.append_assoc, List.nil_append]
      apply readAtom_of_parentheses hopening hclosing hbody
  | literal h ih =>
    obtain ⟨stub, hatom⟩ := ih hdepth hends
    refine ⟨stub, ?_⟩
    change readLiteral _ _ = _
    have hatom : readAtom _ _ = .ok _ := hatom
    simp only [readLiteral, hatom]
  | @not sign tokens tree hop h ih =>
    rw [List.length_append] at hdepth
    have hlength : tokens.length ≤ depth := by omega
    obtain ⟨stub, hatom⟩ := ih hlength hends
    refine ⟨stub, ?_⟩
    rw [List.append_assoc]
    apply readLiteral_of_not hop hatom
  | conjunction h ih =>
    obtain ⟨stub, hliteral⟩ := ih hdepth hends
    exact ⟨stub, readChain_of_ok (Phrase.reader_shortens .literal depth) hliteral⟩
  | @and sign leftTokens left rightTokens right hop hleft hright lih rih =>
    simp only [List.length_append] at hdepth
    have hleftLength : leftTokens.length ≤ depth := by omega
    have hrightLength : rightTokens.length ≤ depth := by omega
    have hsign : Ends [] (sign ++ (rightTokens ++ rest)) := ends_sign hop (by decide) _
    obtain ⟨_, hleft⟩ := lih hleftLength hsign
    obtain ⟨stub, hright⟩ := rih hrightLength hends
    refine ⟨stub, ?_⟩
    simp only [List.append_assoc]
    have hshortens := Phrase.reader_shortens .literal depth
    apply hleft.trans (readOn_sign hshortens hop rfl hright)
  | disjunction h ih =>
    obtain ⟨stub, hconjunction⟩ := ih hdepth (fun _ h => by cases h)
    have hconjunction := hconjunction.eq_ok hends
    exact ⟨stub, readChain_of_ok (Phrase.reader_shortens .conjunction depth) hconjunction⟩
  | @or sign leftTokens left rightTokens right hop hleft hright lih rih =>
    simp only [List.length_append] at hdepth
    have hleftLength : leftTokens.length ≤ depth := by omega
    have hrightLength : rightTokens.length ≤ depth := by omega
    have hsign : Ends [.and] (sign ++ (rightTokens ++ rest)) := ends_sign hop (by decide) _
    obtain ⟨_, hleft⟩ := lih hleftLength hsign
    obtain ⟨stub, hright⟩ := rih hrightLength (fun _ h => by cases h)
    refine ⟨stub, ?_⟩
    simp only [List.append_assoc]
    have hshortens := Phrase.reader_shortens .conjunction depth
    apply hleft.trans (readOn_sign hshortens hop rfl (hright.eq_ok hends))
  | implication h ih =>
    obtain ⟨_, hleft⟩ := ih hdepth (hends.subset (by decide))
    apply readPair_eq_ok_left (hleft.eq_ok (hends.subset (by decide))) (hends.subset (by decide))
  | @implies sign leftTokens left rightTokens right hop hleft hright lih rih =>
    simp only [List.length_append] at hdepth
    have hleftLength : leftTokens.length ≤ depth := by omega
    have hrightLength : rightTokens.length ≤ depth := by omega
    have hsign : Ends [.and] (sign ++ (rightTokens ++ rest)) := ends_sign hop (by decide) _
    obtain ⟨_, hleft⟩ := lih hleftLength hsign
    obtain ⟨stub, hright⟩ := rih hrightLength (hends.subset (by decide))
    exact ⟨stub, readPair_complete hop (by decide) (hends.subset (by decide)) hleft hright⟩
  | biconditional h ih =>
    obtain ⟨_, hleft⟩ := ih hdepth (hends.subset (by decide))
    apply readPair_eq_ok_left (hleft.eq_ok (hends.subset (by decide))) (hends.subset (by decide))
  | @iff sign leftTokens left rightTokens right hop hleft hright lih rih =>
    simp only [List.length_append] at hdepth
    have hleftLength : leftTokens.length ≤ depth := by omega
    have hrightLength : rightTokens.length ≤ depth := by omega
    have hsign : Ends Phrase.implication.operators (sign ++ (rightTokens ++ rest)) :=
      ends_sign hop (by decide) _
    obtain ⟨_, hleft⟩ := lih hleftLength hsign
    obtain ⟨stub, hright⟩ := rih hrightLength (hends.subset (by decide))
    exact ⟨stub, readPair_complete hop (by decide) (hends.subset (by decide)) hleft hright⟩

theorem Phrase.reader_complete {phrase : Phrase} {front rest : List Token} {tree : Tree}
    {depth : Nat} (h : Derives phrase front tree) (hdepth : front.length ≤ depth)
    (hends : Ends phrase.operators rest) :
    ∃ stub, phrase.reader (readNested depth) (front ++ rest) = .ok ⟨tree, rest, stub⟩ := by
  have hsubset : phrase.barred ⊆ phrase.operators := by
    cases phrase <;> decide
  obtain ⟨stub, hcomes⟩ := h.comesTo hdepth (hends.subset hsubset)
  exact ⟨stub, hcomes.eq_ok hends⟩

end Formulary
