import Formulary.Proofs.Grammar.Conservation
import Formulary.Proofs.Session.Listing
import Formulary.Proofs.Tree.Measure
import Formulary.Proofs.Tree.Trim

/-!
This module contains the agreement of the two ways to a formula: from the argument of a command, which
has lost the blanks around it, and from a line of input, which is stored under a name as it is. What
is printed at once is what the commands print later that look the formula up.
-/

namespace Formulary

def Reply.Shows (reply : Reply) (form : String) (depth : Nat) : Prop :=
  reply.out = "加括号形式: " ++ form ++ "\n" ++ "复杂度: " ++ toString depth ++ "\n"

def Reply.Rejects (reply : Reply) (question heading : String) : Prop :=
  ∃ message, reply.out = question ++ heading ++ message ++ "\n"

def Verb.analyzer (unicode : Bool) : Verb :=
  if unicode then .analyzeUnicode else .analyze

def identifierNames (tokens : List Token) : List String :=
  ((tokens.filter Token.isIdentifier).map Token.text).toFinset.sort

theorem trim_ne_empty {text : String} (h : ¬ Blank text) : trim text ≠ "" := by
  obtain ⟨front, back, htext, hfront, hback, _⟩ := exists_trim text
  intro hempty
  apply h
  rw [Blank, htext, hempty, String.toList_empty, List.append_nil, List.forall_mem_append]
  exact ⟨hfront, hback⟩

theorem Store.find?_add {store : Store} {name : String} (h : name ∉ store.names) (tree : Tree) :
    (store.add name tree).find? name = some tree := by
  apply find?_of_mem
  rw [entries_add h]
  simp

theorem Spells.sort_names {tokens : List Token} {tree : Tree} (h : Spells tokens tree) :
    tree.names.sort = identifierNames tokens := by
  have hnames : tree.names = ((tokens.filter Token.isIdentifier).map Token.text).toFinset := by
    ext name
    rw [← Tree.toFinset_occurrences, List.mem_toFinset, List.mem_toFinset, h.mem_occurrences_iff]
    simp only [List.mem_map, List.mem_filter, and_assoc]
  rw [hnames, identifierNames]

theorem identifierNames_eq_nil_iff {tokens : List Token} :
    identifierNames tokens = [] ↔ ∀ token ∈ tokens, token.isIdentifier = false := by
  rw [identifierNames, ← List.length_eq_zero_iff, Finset.length_sort, Finset.card_eq_zero,
    List.toFinset_eq_empty_iff, List.map_eq_nil_iff, List.filter_eq_nil_iff]
  simp only [Bool.not_eq_true]

theorem isName_of_mem_identifierNames {tokens : List Token} (h : ∀ token ∈ tokens, token.Named) :
    ∀ name ∈ identifierNames tokens, isName name = true := by
  intro name hname
  rw [identifierNames, Finset.mem_sort, List.mem_toFinset, List.mem_map] at hname
  obtain ⟨token, htoken, rfl⟩ := hname
  obtain ⟨hmem, hidentifier⟩ := List.mem_filter.1 htoken
  exact (h token hmem hidentifier).1

theorem exists_intercalate_cons (name : String) (names : List String) :
    ∃ rest, " ".intercalate (name :: names) = name ++ rest := by
  cases names with
  | nil => exact ⟨"", by rw [String.intercalate_singleton, String.append_empty]⟩
  | cons other names => exact ⟨_, by rw [String.intercalate_cons_cons, String.append_assoc]⟩

namespace Session

section

variable {session : Session} {name text input : String} {tree : Tree} {unicode : Bool}
variable {error : FormulaError}

theorem not_shows_of_rejects {reply : Reply} (h : reply.Rejects "" error.heading) (form : String)
    (depth : Nat) : ¬ reply.Shows form depth := by
  obtain ⟨message, hmessage⟩ := h
  intro hshows
  have hhead := congrArg (List.head? ∘ String.toList) (hmessage.symm.trans hshows)
  cases error <;> simp [FormulaError.heading] at hhead

theorem identifiers_eq_message_iff {tokens : List Token} (h : ∀ token ∈ tokens, token.Named) :
    (if identifierNames tokens = [] then
      "给定公式不包含任何标识符。\n"
    else
      " ".intercalate (identifierNames tokens) ++ "\n") = "给定公式不包含任何标识符。\n"
      ↔
    ∀ token ∈ tokens, token.isIdentifier = false := by
  rw [← identifierNames_eq_nil_iff]
  cases hnames : identifierNames tokens with
  | nil => simp
  | cons name names =>
    obtain ⟨rest, hrest⟩ := exists_intercalate_cons name names
    have hname := isName_of_mem_identifierNames h name (by simp [hnames])
    have hmessage : EndsWord "给定公式不包含任何标识符。\n".toList := .of_head rfl _
    rw [if_neg (List.cons_ne_nil name names), hrest]
    refine iff_of_false ?_ (List.cons_ne_nil name names)
    -- The names start with a word in ASCII, and the message does not.
    intro heq
    rw [← heq, String.append_assoc, String.toList_append] at hmessage
    exact not_endsWord_name hname _ hmessage

theorem ofLine_new (hname : isName name = true) :
    Command.ofLine (Turn.mk (Verb.new.word ++ " " ++ name) input).line = .run .new name := by
  rw [Command.ofLine_argument, trim_name hname]

variable [RecursionLimit]

theorem answer_analyzer (argument : String) :
    session.answer ⟨(Verb.analyzer unicode).word ++ " " ++ argument, input⟩
      =
    session.analyze unicode (trim argument) := by
  rw [answer_argument]
  cases unicode <;> rfl

theorem reject_rejects (h : Tree.ofText text = .error error) (question : String) :
    (session.reject question text error).Rejects question error.heading := by
  obtain ⟨message, hmessage⟩ := FormulaError.exists_message h
  simp only [reject, hmessage]
  exact ⟨message, rfl⟩

theorem analyze_of_ofText (hne : text ≠ "") (h : Tree.ofText text = .ok tree) :
    (session.analyze unicode text).Shows (tree.form (session.alphabetFor unicode).spell)
      tree.height := by
  have hformed := Tree.wellFormed_of_ofText h
  simp only [analyze, String.isEmpty_iff, hne, ↓reduceIte, h, Tree.render_of_wellFormed hformed,
    Tree.depth_of_complete hformed.complete]
  rfl

theorem analyze_of_error (hne : text ≠ "") (h : Tree.ofText text = .error error) :
    (session.analyze unicode text).Rejects "" error.heading := by
  simp only [analyze, String.isEmpty_iff, hne, ↓reduceIte, h]
  exact reject_rejects h ""

theorem answer_lister_name (hsound : session.store.Sound) (hname : isName name = true)
    (h : session.store.find? name = some tree) :
    (session.answer ⟨(Verb.lister unicode).word ++ " " ++ name, input⟩).out
      =
    name ++ ": " ++ tree.form (session.alphabetFor unicode).spell ++ "\n" := by
  rw [answer_lister, trim_name hname, list_of_find? hsound hname h]
  rfl

theorem answer_depth (hsound : session.store.Sound) (hname : isName name = true)
    (h : session.store.find? name = some tree) :
    (session.answer ⟨Verb.depth.word ++ " " ++ name, input⟩).out
      =
    "复杂度是 " ++ toString tree.height ++ "。\n" := by
  have hget := Store.get_eq_ok_iff.2 ⟨hname, h⟩
  have hcomplete := (hsound.wellFormed_of_get hget).complete
  rw [answer_argument, trim_name hname]
  simp only [run, depth, hget, Tree.depth_of_complete hcomplete]
  rfl

theorem answer_identifiers (hsound : session.store.Sound) (hname : isName name = true)
    (h : session.store.find? name = some tree) :
    (session.answer ⟨Verb.identifiers.word ++ " " ++ name, input⟩).out
      =
    if tree.names.sort = [] then
      "给定公式不包含任何标识符。\n"
    else
      " ".intercalate tree.names.sort ++ "\n" := by
  have hget := Store.get_eq_ok_iff.2 ⟨hname, h⟩
  have hcomplete := (hsound.wellFormed_of_get hget).complete
  have hidentifiers := Tree.identifiers_of_not_mem (Tree.complete_iff.1 hcomplete)
  rw [answer_argument, trim_name hname]
  generalize tree.names.sort = names at hidentifiers
  cases names with
  | nil =>
    simp only [run, identifiers, hget, hidentifiers]
    rfl
  | cons first names =>
    simp only [run, identifiers, hget, hidentifiers]
    rfl

theorem answer_new_of_error (hname : isName name = true) (hnew : name ∉ session.store.names)
    (hinput : firstLine? input = some text) (h : Tree.ofText text = .error error) :
    (session.answer ⟨Verb.new.word ++ " " ++ name, input⟩).session = session
      ∧ (session.answer ⟨Verb.new.word ++ " " ++ name, input⟩).Rejects "输入公式: "
        error.heading := by
  have hcheck := Store.checkNew_eq_ok_iff.2 ⟨hname, hnew⟩
  rw [answer_eq (ofLine_new hname)]
  simp only [run, new, hcheck, hinput, h]
  exact ⟨(reject_keeps session h _).session_eq, reject_rejects h _⟩

end

theorem showing_agrees_with_storing [RecursionLimit] (alphabet : Alphabet) (turns : List Turn)
    {name text input : String} (hname : isName name = true)
    (hnew : name ∉ ((start alphabet).after turns).store.names)
    (hinput : firstLine? input = some text) (hblank : ¬ Blank text) (unicode : Bool)
    (other : String) :
    let session := (start alphabet).after turns
    let shown := session.answer ⟨(Verb.analyzer unicode).word ++ " " ++ text, other⟩
    let stored := session.answer ⟨Verb.new.word ++ " " ++ name, input⟩
    let later (verb : Verb) := (stored.session.answer ⟨verb.word ++ " " ++ name, other⟩).out
    ((∃ form depth, shown.Shows form depth) ↔ name ∈ stored.session.store.names)
      ∧ (name ∉ stored.session.store.names →
        ∃ heading ∈ ["词法分析错误: ", "语法分析错误: "],
          shown.Rejects "" heading ∧ stored.Rejects "输入公式: " heading)
      ∧ (name ∈ stored.session.store.names →
        ∃ tree form depth tokens, Tree.ofText text = .ok tree
          ∧ stored.session.store.find? name = some tree
          ∧ tree.render (session.alphabetFor unicode) = .ok form ∧ tree.depth = .ok depth
          ∧ shown.Shows form depth
          ∧ later (.lister unicode) = name ++ ": " ++ form ++ "\n"
          ∧ later .depth = "复杂度是 " ++ toString depth ++ "。\n"
          ∧ scan text = .ok tokens
          ∧ later .identifiers = (if identifierNames tokens = [] then "给定公式不包含任何标识符。\n"
            else " ".intercalate (identifierNames tokens) ++ "\n")
          ∧ (later .identifiers = "给定公式不包含任何标识符。\n"
            ↔ ∀ token ∈ tokens, token.isIdentifier = false)) := by
  intro session shown stored later
  have hsound : session.store.Sound := sound_after alphabet turns
  have hne := trim_ne_empty hblank
  have hshown : shown = session.analyze unicode (trim text) := answer_analyzer text
  have hrejected {error again : FormulaError} (htrim : Tree.ofText (trim text) = .error error)
      (hread : Tree.ofText text = .error again) :
      (¬ ∃ form depth, shown.Shows form depth) ∧ name ∉ stored.session.store.names
        ∧ shown.Rejects "" error.heading ∧ stored.Rejects "输入公式: " again.heading := by
    have hreject : shown.Rejects "" error.heading := hshown ▸ analyze_of_error hne htrim
    obtain ⟨hsession, hstored⟩ := answer_new_of_error hname hnew hinput hread
    refine ⟨?_, ?_, hreject, hstored⟩
    . rintro ⟨form, depth, hform⟩
      exact not_shows_of_rejects hreject form depth hform
    . rw [hsession]
      exact hnew
  have hkind := Tree.ofText_trim text
  generalize htrim : Tree.ofText (trim text) = answer, hread : Tree.ofText text = again at hkind
  cases hkind with
  | ok tree =>
    -- From here on the tree that is shown is the tree that is looked up.
    have hformed := Tree.wellFormed_of_ofText hread
    have hstored : stored = _ :=
      answer_of_stores ⟨ofLine_new hname, hname, hnew, text, hinput, hread⟩
    have hfind : stored.session.store.find? name = some tree := by
      rw [hstored]
      exact Store.find?_add hnew tree
    have hlater : stored.session.store.Sound := by
      rw [hstored]
      exact hsound.add hname hnew hformed
    have halphabet : stored.session.alphabetFor unicode = session.alphabetFor unicode := by
      rw [hstored]
      rfl
    have hmem := Store.mem_names_iff.2 ⟨tree, hfind⟩
    have hshows : shown.Shows (tree.form (session.alphabetFor unicode).spell) tree.height :=
      hshown ▸ analyze_of_ofText hne htrim
    have hexists : ∃ form depth, shown.Shows form depth := ⟨_, _, hshows⟩
    obtain ⟨tokens, hscan, htokens⟩ := Tree.ofText_eq_ok_iff.1 hread
    have hspells := (Tree.derives_of_ofTokens htokens).spells
    have hidentifiers : later .identifiers = _ := answer_identifiers hlater hname hfind
    rw [hspells.sort_names] at hidentifiers
    refine ⟨iff_of_true hexists hmem, fun hnot => absurd hmem hnot, ?_⟩
    intro _
    refine ⟨tree, _, _, tokens, rfl, hfind, Tree.render_of_wellFormed hformed _,
      Tree.depth_of_complete hformed.complete, hshows, ?_, ?_, hscan, hidentifiers, ?_⟩
    . rw [← halphabet]
      exact answer_lister_name hlater hname hfind
    . exact answer_depth hlater hname hfind
    . rw [hidentifiers]
      exact identifiers_eq_message_iff (named_of_scan hscan)
  | lexical error other =>
    obtain ⟨hshows, hmem, hreject, hstored⟩ := hrejected htrim hread
    exact ⟨iff_of_false hshows hmem, fun _ => ⟨_, List.mem_cons_self, hreject, hstored⟩,
      fun h => absurd h hmem⟩
  | grammatical error other =>
    obtain ⟨hshows, hmem, hreject, hstored⟩ := hrejected htrim hread
    exact ⟨iff_of_false hshows hmem, fun _ => ⟨_, by simp [FormulaError.heading], hreject, hstored⟩,
      fun h => absurd h hmem⟩

/--
A formula with blanks around it, and one whose first word starts with a digit.
-/
theorem showing_agrees_with_storing_blanks :
    let session := (start .ascii).after [⟨"new f", "~a\n"⟩]
    let stored := session.answer ⟨Verb.new.word ++ " " ++ "g", "\tq & p \nr\n"⟩
    let refused := session.answer ⟨Verb.new.word ++ " " ++ "g", "\t1 & p \n"⟩
    "g" ∉ session.store.names
      ∧ "g" ∈ stored.session.store.names
      ∧ (∃ form depth,
        (session.answer ⟨(Verb.analyzer true).word ++ " " ++ "\tq & p ", ""⟩).Shows form depth
          ∧ (stored.session.answer ⟨(Verb.lister true).word ++ " " ++ "g", ""⟩).out
            = "g" ++ ": " ++ form ++ "\n")
      ∧ "g" ∉ refused.session.store.names
      ∧ ∃ heading ∈ ["词法分析错误: ", "语法分析错误: "],
        (session.answer ⟨(Verb.analyzer true).word ++ " " ++ "\t1 & p ", ""⟩).Rejects "" heading
          ∧ refused.Rejects "输入公式: " heading := by
  intro session stored refused
  have hnames : session.store.names = ["f"] := by rfl
  have hnew : "g" ∉ session.store.names := by simp [hnames]
  have hname : isName "g" = true := by decide
  have hinput : firstLine? "\tq & p \nr\n" = some "\tq & p " := by decide
  have hrefusedInput : firstLine? "\t1 & p \n" = some "\t1 & p " := by decide
  have hblank : ¬ Blank "\tq & p " := by decide
  have hrefusedBlank : ¬ Blank "\t1 & p " := by decide
  have hmem : "g" ∈ stored.session.store.names := by decide +kernel
  have hrefused : "g" ∉ refused.session.store.names := by decide +kernel
  obtain ⟨_, _, hagree⟩ :=
    showing_agrees_with_storing .ascii [⟨"new f", "~a\n"⟩] hname hnew hinput hblank true ""
  obtain ⟨_, hreject, _⟩ := showing_agrees_with_storing .ascii [⟨"new f", "~a\n"⟩] hname hnew
    hrefusedInput hrefusedBlank true ""
  obtain ⟨_, form, depth, _, _, _, _, _, hshows, hlisted, _⟩ := hagree hmem
  exact ⟨hnew, hmem, ⟨form, depth, hshows, hlisted⟩, hrefused, hreject hrefused⟩

end Session

end Formulary
