/-
# What the grammar can write

Everything that the grammar reads is made of what the scanner found.  So an expression in a parsed
row function has only forms with a spelling, its literals have the values of their spellings, and
its names are names.  Of statements more can be said: a constant has a value, and an `else` belongs
to the nearest `if` that it can belong to.  Each rule is taken apart once, with the rules that it
calls, along the weight of the tokens.  The main statement is `RowFunction.spelled_of_parse`.
-/
import RowExpr.Grammar.Function
import RowExpr.Proofs.Expr.Parts
import RowExpr.Proofs.Stmt.Exprs
import RowExpr.Proofs.Token.Run

namespace RowExpr

/-- Whether a text may be the name of an object entry: a word that is no literal. -/
def Token.isKeyName (name : String) : Bool :=
  isWord name &&
    match ofWord name with
    | .identifier _ | .keyword _ => true
    | _ => false

/-- The key is spelled as the scanner reads it. -/
def Key.IsSpelled {ε : Type} : Key ε → Prop
  | .name word => Token.isKeyName word
  | .string value raw => Token.StringText value raw
  | .number value raw => Token.NumberText value raw
  | .computed _ => True

namespace Expr

open Token (isName isWord NumberText StringText Chunk)

/-- Whether the form of a node has a spelling. -/
def isWritten : Expr → Bool
  | column _ | constant _ | opCall _ _ | opRef _ | fnCall _ _ => false
  | _ => true

/-- All nodes of an expression have forms with a spelling. -/
def Written (e : Expr) : Prop := ∀ s ∈ e.subterms, s.isWritten = true

instance (e : Expr) : Decidable e.Written :=
  inferInstanceAs (Decidable (∀ s ∈ e.subterms, s.isWritten = true))

lemma written_iff (e : Expr) : e.Written ↔ e.isWritten = true ∧ ∀ c ∈ e.children, c.Written :=
  forall_subterms_iff e

lemma Written.child {e c : Expr} (h : e.Written) (hc : c ∈ e.children) : c.Written :=
  ((written_iff e).mp h).2 c hc

/-- Whether the expression is anything but a reserved word in the place of a name.  A reserved word
may stand alone as an entry of an object. -/
def isNamed : Expr → Bool
  | identifier name => isName name
  | _ => true

/-- The node is spelled as the scanner reads it. -/
def IsSpelled : Expr → Prop
  | literal (.number value raw) => NumberText value raw
  | literal (.string value raw) => StringText value raw
  | object entries => ∀ entry ∈ entries, entry.key.IsSpelled
  | template head parts => Chunk head.toList ∧ ∀ part ∈ parts, Chunk part.2.toList
  | member owner name => owner.isNamed = true ∧ isWord name
  | index owner _ => owner.isNamed = true
  | call callee _ => callee.isNamed = true
  | column _ | constant _ | opCall _ _ | opRef _ | fnCall _ _ => False
  | _ => True

/-- All nodes of an expression are spelled as the scanner reads them. -/
def Spelled (e : Expr) : Prop := ∀ s ∈ e.subterms, s.IsSpelled

/-- The expression is spelled as the scanner reads it, and is no reserved word. -/
def Named (e : Expr) : Prop := e.isNamed = true ∧ e.Spelled

lemma Spelled.written {e : Expr} (h : e.Spelled) : e.Written := by
  intro s hs
  have hspelled := h s hs
  cases s with
  | column _ | constant _ | opCall _ _ | opRef _ | fnCall _ _ => exact hspelled.elim
  | _ => rfl

lemma spelled_iff (e : Expr) : e.Spelled ↔ e.IsSpelled ∧ ∀ c ∈ e.children, c.Spelled :=
  forall_subterms_iff e

lemma Spelled.child {e c : Expr} (h : e.Spelled) (hc : c ∈ e.children) : c.Spelled :=
  ((spelled_iff e).mp h).2 c hc

section Nodes

variable {a b c : Expr} {args : List Expr}

/-- A node is spelled if its parts are. -/
lemma named_of_node {e : Expr} (hnamed : e.isNamed = true) (hnode : e.IsSpelled)
    (hchildren : ∀ c ∈ e.children, c.Spelled) : e.Named :=
  ⟨hnamed, (spelled_iff e).mpr ⟨hnode, hchildren⟩⟩

lemma named_array (h : ∀ e ∈ args, e.Named) : (array args).Named :=
  named_of_node rfl trivial fun e he => (h e he).2

lemma named_object {entries : List (Entry Expr)}
    (h : ∀ entry ∈ entries, entry.key.IsSpelled ∧ ∀ e ∈ entry.children, e.Spelled) :
    (object entries).Named := by
  refine named_of_node rfl (fun entry hentry => (h entry hentry).1) ?_
  rw [children, List.forall_mem_flatMap]
  exact fun entry hentry => (h entry hentry).2

lemma named_template {head : String} {parts : List (Expr × String)} (hhead : Chunk head.toList)
    (h : ∀ part ∈ parts, part.1.Named ∧ Chunk part.2.toList) : (template head parts).Named := by
  refine named_of_node rfl ⟨hhead, fun part hpart => (h part hpart).2⟩ ?_
  rw [children, List.forall_mem_map]
  exact fun part hpart => (h part hpart).1.2

lemma named_member {name : String} (h : a.Named) (hname : isWord name) : (member a name).Named :=
  named_of_node rfl ⟨h.1, hname⟩ (List.forall_mem_singleton.mpr h.2)

lemma forall_mem_pair_iff {p : Expr → Prop} : (∀ e ∈ [a, b], p e) ↔ p a ∧ p b := by
  rw [List.forall_mem_cons, List.forall_mem_singleton]

lemma named_index (h : a.Named) (h' : b.Named) : (index a b).Named :=
  named_of_node rfl h.1 (forall_mem_pair_iff.mpr ⟨h.2, h'.2⟩)

lemma named_call (h : a.Named) (hargs : ∀ e ∈ args, e.Named) : (call a args).Named :=
  named_of_node rfl h.1 (List.forall_mem_cons.mpr ⟨h.2, fun e he => (hargs e he).2⟩)

lemma named_new (h : a.Named) (hargs : ∀ e ∈ args, e.Named) : (new a args).Named :=
  named_of_node rfl trivial (List.forall_mem_cons.mpr ⟨h.2, fun e he => (hargs e he).2⟩)

lemma named_unary {op : UnaryOp} (h : a.Named) : (unary op a).Named :=
  named_of_node rfl trivial (List.forall_mem_singleton.mpr h.2)

lemma named_update {op : UpdateOp} {before : Bool} (h : a.Named) : (update op before a).Named :=
  named_of_node rfl trivial (List.forall_mem_singleton.mpr h.2)

lemma named_binary {op : BinaryOp} (h : a.Named) (h' : b.Named) : (binary op a b).Named :=
  named_of_node rfl trivial (forall_mem_pair_iff.mpr ⟨h.2, h'.2⟩)

lemma named_logical {op : LogicalOp} (h : a.Named) (h' : b.Named) : (logical op a b).Named :=
  named_of_node rfl trivial (forall_mem_pair_iff.mpr ⟨h.2, h'.2⟩)

lemma named_conditional (h : a.Named) (h' : b.Named) (h'' : c.Named) :
    (conditional a b c).Named :=
  named_of_node rfl trivial
    (List.forall_mem_cons.mpr ⟨h.2, forall_mem_pair_iff.mpr ⟨h'.2, h''.2⟩⟩)

lemma named_assign {op : AssignOp} (h : a.Named) (h' : b.Named) : (assign op a b).Named :=
  named_of_node rfl trivial (forall_mem_pair_iff.mpr ⟨h.2, h'.2⟩)

lemma named_of_leaf {e : Expr} (hnamed : e.isNamed = true) (hnode : e.IsSpelled)
    (hchildren : e.children = []) : e.Named :=
  named_of_node hnamed hnode (by simp [hchildren])

end Nodes

/-- All expressions of a list are spelled. -/
def AllSpelled (es : List Expr) : Prop := ∀ e ∈ es, e.Spelled

lemma allSpelled_nil : AllSpelled [] := by simp [AllSpelled]

lemma allSpelled_singleton {e : Expr} (h : e.Spelled) : AllSpelled [e] :=
  List.forall_mem_singleton.mpr h

lemma AllSpelled.append {es es' : List Expr} (h : AllSpelled es) (h' : AllSpelled es') :
    AllSpelled (es ++ es') :=
  List.forall_mem_append.mpr ⟨h, h'⟩

end Expr

namespace Stmt

open RowExpr.Expr (AllSpelled allSpelled_nil allSpelled_singleton)

/-- Whether an `else` behind the statement would belong to an `if` in it. -/
def dangling : Stmt → Bool
  | if_ _ _ none => true
  | if_ _ _ (some no) => no.dangling
  | for_ _ _ _ body | forEach _ _ _ _ body | while_ _ body => body.dangling
  | _ => false

/-- The statement is spelled as the grammar wants it, its parts apart. -/
def IsSpelled : Stmt → Prop
  | declare kind name init => Token.isName name ∧ (kind = .const → init.isSome)
  | if_ _ yes (some _) => yes.dangling = false
  | _ => True

/-- The statement is spelled as the grammar wants it, and so is everything in it. -/
structure Spelled (s : Stmt) : Prop where
  exprs : AllSpelled s.exprs
  inner : ∀ inSwitch, ∀ p ∈ s.inner inSwitch, p.2.IsSpelled

/-- The same for statements one after the other. -/
structure SpelledList (body : List Stmt) : Prop where
  exprs : AllSpelled (exprsOfList body)
  inner : ∀ inSwitch, ∀ p ∈ innerOfList inSwitch body, p.2.IsSpelled

/-- The same for the arms of a switch. -/
structure SpelledArms (arms : List (Arm Stmt)) : Prop where
  exprs : AllSpelled (exprsOfArms arms)
  inner : ∀ p ∈ innerOfArms arms, p.2.IsSpelled

/-- A statement without statements in it. -/
lemma spelled_of_simple {s : Stmt} (hinner : ∀ inSwitch, s.inner inSwitch = [(inSwitch, s)])
    (hself : s.IsSpelled) (hexprs : AllSpelled s.exprs) : s.Spelled := by
  refine ⟨hexprs, fun inSwitch p hp => ?_⟩
  rw [hinner] at hp
  rw [List.mem_singleton.mp hp]
  exact hself

/-- A choice without an `else`. -/
lemma Spelled.choice {test : Expr} {yes : Stmt} (htest : test.Spelled) (hyes : yes.Spelled) :
    (if_ test yes none).Spelled where
  exprs := (allSpelled_singleton htest).append (AllSpelled.append hyes.exprs allSpelled_nil)
  inner inSwitch := List.forall_mem_cons.mpr
    ⟨trivial, List.forall_mem_append.mpr ⟨hyes.inner inSwitch, List.forall_mem_nil _⟩⟩

/-- A choice with an `else`, which the first branch could not take. -/
lemma Spelled.choiceElse {test : Expr} {yes no : Stmt} (htest : test.Spelled)
    (hyes : yes.Spelled) (hno : no.Spelled) (hdangling : yes.dangling = false) :
    (if_ test yes (some no)).Spelled where
  exprs := (allSpelled_singleton htest).append (AllSpelled.append hyes.exprs hno.exprs)
  inner inSwitch := List.forall_mem_cons.mpr
    ⟨hdangling, List.forall_mem_append.mpr ⟨hyes.inner inSwitch, hno.inner inSwitch⟩⟩

lemma SpelledList.cons {first : Stmt} {others : List Stmt} (h : first.Spelled)
    (hothers : SpelledList others) : SpelledList (first :: others) where
  exprs := AllSpelled.append h.exprs hothers.exprs
  inner inSwitch := List.forall_mem_append.mpr ⟨h.inner inSwitch, hothers.inner inSwitch⟩

lemma spelledList_nil : SpelledList [] where
  exprs := allSpelled_nil
  inner _ := List.forall_mem_nil _

end Stmt

/-- The body of a row function is spelled as the grammar wants it. -/
structure Body.Spelled (body : Body) : Prop where
  exprs : Expr.AllSpelled body.exprs
  inner : ∀ p ∈ body.inner, p.2.IsSpelled

/-- A row function is spelled as the grammar wants it. -/
structure RowFunction.Spelled (f : RowFunction) : Prop where
  param : ∀ name ∈ f.param, Token.isName name = true
  body : f.body.Spelled

namespace Grammar

open RowExpr.Expr (Named AllSpelled allSpelled_nil allSpelled_singleton)
open RowExpr.Stmt (spelled_of_simple)

/-! ## What a rule gives -/

section Gives

variable {α β : Type} {p : α → Prop} {q : β → Prop}

/-- Whatever a rule gives has the property `p`. -/
def Gives (p : α → Prop) (result : Except Malformed α) : Prop := ∀ a, result = .ok a → p a

lemma gives_ok {a : α} (h : p a) : Gives p (.ok a) := by
  rintro _ ⟨rfl⟩
  exact h

lemma gives_error (m : Malformed) : Gives p (.error m) := by
  rintro _ ⟨⟩

lemma gives_failAt (ending : Ending) (ts : List Lexeme) (fault : TextFault) :
    Gives p (failAt ending ts fault) :=
  gives_error _

lemma gives_unexpected (ending : Ending) (ts : List Lexeme) (place : Place) :
    Gives p (unexpected ending ts place) :=
  gives_error _

/-- What the first of two rules gives goes into the second. -/
lemma Gives.bind {result : Except Malformed β} {next : β → Except Malformed α}
    (h : Gives q result) (hnext : ∀ b, q b → Gives p (next b)) : Gives p (result >>= next) := by
  cases result with
  | error m => exact gives_error m
  | ok b => exact hnext b (h b rfl)

/-- The first of two rules does not matter where the second gives `p` in any case. -/
lemma gives_bind (result : Except Malformed β) {next : β → Except Malformed α}
    (hnext : ∀ b, Gives p (next b)) : Gives p (result >>= next) := by
  cases result with
  | error m => exact gives_error m
  | ok b => exact hnext b

end Gives

/-- The tokens are ones that the scanner returns. -/
def Scanned (ts : List Lexeme) : Prop := ∀ l ∈ ts, l.token.Sound

lemma Scanned.tail {l : Lexeme} {r : List Lexeme} (h : Scanned (l :: r)) : Scanned r :=
  fun l' hl' => h l' (List.mem_cons_of_mem l hl')

lemma Scanned.head {l : Lexeme} {r : List Lexeme} (h : Scanned (l :: r)) : l.token.Sound :=
  h l List.mem_cons_self

/-- Whatever a rule reads from a row of tokens has the property `p`, and leaves tokens that the
scanner returns. -/
abbrev Reads {α : Type} {n : Nat} (p : α → Prop) (result : Except Malformed (Step n α)) : Prop :=
  Gives (fun step => p step.value ∧ Scanned step.rest) result

/-- The step that takes one more token has the same value. -/
lemma Step.of_next? {α : Type} {p : α → Prop} {n : Nat} {s after : Step n α} {l : Lexeme}
    (h : s.next? = some (l, after)) (hp : p s.value ∧ Scanned s.rest) :
    p after.value ∧ Scanned after.rest := by
  obtain ⟨value, _ | ⟨l, r⟩, fits⟩ := s
  · cases h
  · cases h
    exact ⟨hp.1, hp.2.tail⟩

lemma reads_take {α : Type} {p : α → Prop} {l : Lexeme} (ending : Ending) {r : List Lexeme}
    (hr : Scanned r) {value : α} (h : p value) : Reads p (take (l := l) ending r value) :=
  gives_bind _ fun _ => gives_ok ⟨h, hr⟩

lemma reads_expect (ending : Ending) (mark : Punct) (ts : List Lexeme) (h : Scanned ts) :
    Reads (fun _ => True) (expect ending mark ts) := by
  unfold expect
  split
  · split
    · exact reads_take ending h.tail trivial
    · exact gives_failAt _ _ _
  · exact gives_failAt _ _ _

/-! ## The rules for expressions -/

lemma named_apply (op : Infix) {left right : Expr} (hleft : left.Named) (hright : right.Named) :
    (op.apply left right).Named := by
  cases op with
  | binary op => exact Expr.named_binary hleft hright
  | logical op => exact Expr.named_logical hleft hright

lemma isWord_of_propertyName? {token : Token} {name : String} (h : token.Sound)
    (hname : propertyName? token = some name) : Token.isWord name := by
  unfold propertyName? at hname
  split at hname
  case h_1 =>
    cases hname
    exact Token.isWord_of_isName h
  case h_2 word =>
    cases hname
    exact Token.isWord_spelling word
  case h_3 value =>
    cases hname
    cases value <;> decide
  case h_4 =>
    cases hname
    decide
  case h_5 => cases hname

lemma isKeyName_of_isName {name : String} (h : Token.isName name) : Token.isKeyName name := by
  simp [Token.isKeyName, Token.isWord_of_isName h, Token.ofWord_of_isName h]

lemma isKeyName_spelling (word : Keyword) : Token.isKeyName word.spelling := by
  cases word <;> decide

/-- A key is spelled as the scanner reads it, and so is its expression. -/
def SpelledKey (key : Key Expr) : Prop := key.IsSpelled ∧ ∀ e ∈ key.children, e.Spelled

/-- An entry is spelled as the scanner reads it. -/
def SpelledEntry (entry : Entry Expr) : Prop :=
  entry.key.IsSpelled ∧ ∀ e ∈ entry.children, e.Spelled

mutual

lemma named_assignment (ending : Ending) (ts : List Lexeme) (hts : Scanned ts) :
    Reads Named (assignment ending ts) := by
  unfold assignment
  refine (named_conditional ending ts hts).bind fun target htarget => ?_
  split
  · rename_i op e r h hnext
    obtain ⟨he, hr⟩ := Step.of_next? hnext htarget
    split
    · refine gives_bind _ fun _ => (named_assignment ending r hr).bind fun value hvalue => ?_
      exact gives_ok ⟨Expr.named_assign he hvalue.1, hvalue.2⟩
    · exact gives_error _
  · exact gives_ok htarget
termination_by weight ts * 16 + 9
decreasing_by all_goals omega

lemma named_conditional (ending : Ending) (ts : List Lexeme) (hts : Scanned ts) :
    Reads Named (conditional ending ts) := by
  unfold conditional
  refine (named_binary ending 0 ts hts).bind fun test htest => ?_
  split
  · rename_i e r h hnext
    obtain ⟨he, hr⟩ := Step.of_next? hnext htest
    refine gives_bind _ fun _ =>
      (named_assignment ending r hr).bind fun ⟨yes, r₁, h₁⟩ ⟨hyes, hr₁⟩ => ?_
    refine (reads_expect ending .colon r₁ hr₁).bind fun ⟨_, r₂, h₂⟩ ⟨_, hr₂⟩ => ?_
    refine (named_assignment ending r₂ hr₂).bind fun no hno => ?_
    exact gives_ok ⟨Expr.named_conditional he hyes hno.1, hno.2⟩
  · exact gives_ok htest
termination_by weight ts * 16 + 8
decreasing_by all_goals omega

lemma named_binary (ending : Ending) (min : Nat) (ts : List Lexeme) (hts : Scanned ts) :
    Reads Named (binary ending min ts) := by
  unfold binary
  refine (named_exponent ending ts hts).bind fun ⟨left, r, h⟩ ⟨hleft, hr⟩ => ?_
  exact (named_binaryTail ending min left r hleft hr).bind fun all hall => gives_ok hall
termination_by weight ts * 16 + 7
decreasing_by all_goals omega

lemma named_binaryTail (ending : Ending) (min : Nat) (left : Expr) (ts : List Lexeme)
    (hleft : left.Named) (hts : Scanned ts) : Reads Named (binaryTail ending min left ts) := by
  unfold binaryTail
  split
  · exact gives_ok ⟨hleft, hts⟩
  · rename_i l _ r h hfirst
    have hr : Scanned r := by
      cases ts with
      | nil => cases hfirst
      | cons l r =>
        cases hfirst
        exact hts.tail
    split
    · exact gives_ok ⟨hleft, hts⟩
    · rename_i strength op _
      split
      · exact gives_ok ⟨hleft, hts⟩
      · refine gives_bind _ fun _ =>
          (named_binary ending strength r hr).bind fun ⟨right, r₁, h₁⟩ ⟨hright, hr₁⟩ => ?_
        exact (named_binaryTail ending min _ r₁ (named_apply op hleft hright) hr₁).bind
          fun all hall => gives_ok hall
termination_by weight ts * 16 + 7
decreasing_by all_goals omega

lemma named_exponent (ending : Ending) (ts : List Lexeme) (hts : Scanned ts) :
    Reads Named (exponent ending ts) := by
  unfold exponent
  refine (named_unary ending ts hts).bind fun base hbase => ?_
  split
  · rename_i e r h hnext
    obtain ⟨he, hr⟩ := Step.of_next? hnext hbase
    split
    · exact gives_error _
    · refine gives_bind _ fun _ => (named_exponent ending r hr).bind fun power hpower => ?_
      exact gives_ok ⟨Expr.named_binary he hpower.1, hpower.2⟩
  · exact gives_ok hbase
termination_by weight ts * 16 + 6
decreasing_by all_goals omega

lemma named_unary (ending : Ending) (ts : List Lexeme) (hts : Scanned ts) :
    Reads Named (unary ending ts) := by
  unfold unary
  split
  · exact named_suffixed ending ts hts
  · rename_i l _ r h hfirst
    have hr : Scanned r := by
      cases ts with
      | nil => cases hfirst
      | cons l r =>
        cases hfirst
        exact hts.tail
    split
    · refine gives_bind _ fun _ => (named_unary ending r hr).bind fun argument hargument => ?_
      exact gives_ok ⟨Expr.named_unary hargument.1, hargument.2⟩
    · refine gives_bind _ fun _ => (named_unary ending r hr).bind fun argument hargument => ?_
      exact gives_ok ⟨Expr.named_update hargument.1, hargument.2⟩
    · exact named_suffixed ending ts hts
termination_by weight ts * 16 + 5
decreasing_by all_goals omega

lemma named_suffixed (ending : Ending) (ts : List Lexeme) (hts : Scanned ts) :
    Reads Named (suffixed ending ts) := by
  unfold suffixed
  refine (named_access ending ts hts).bind fun operand hoperand => ?_
  split
  · rename_i l after hnext
    obtain ⟨he, hr⟩ := Step.of_next? hnext hoperand
    split
    · exact gives_bind _ fun _ => gives_ok ⟨Expr.named_update he, hr⟩
    · exact gives_ok hoperand
  · exact gives_ok hoperand
termination_by weight ts * 16 + 4
decreasing_by all_goals omega

lemma named_access (ending : Ending) (ts : List Lexeme) (hts : Scanned ts) :
    Reads Named (access ending ts) := by
  unfold access
  refine (named_operand ending ts hts).bind fun ⟨head, r, h⟩ ⟨hhead, hr⟩ => ?_
  exact (named_chain ending true head r hhead hr).bind fun all hall => gives_ok hall
termination_by weight ts * 16 + 3
decreasing_by all_goals omega

lemma named_operand (ending : Ending) (ts : List Lexeme) (hts : Scanned ts) :
    Reads Named (operand ending ts) := by
  unfold operand
  split
  · rename_i r
    refine gives_bind _ fun _ =>
      (named_operand ending r hts.tail).bind fun ⟨head, r₁, h₁⟩ ⟨hhead, hr₁⟩ => ?_
    refine (named_chain ending false head r₁ hhead hr₁).bind fun callee hcallee => ?_
    split
    · rename_i p' e r₂ h₂ hnext
      obtain ⟨he, hr₂⟩ : e.Named ∧ Scanned r₂ := Step.of_next? hnext hcallee
      refine gives_bind _ fun _ => (named_items ending .rparen r₂ hr₂).bind fun args hargs => ?_
      exact gives_ok ⟨Expr.named_new he hargs.1, hargs.2⟩
    · exact gives_ok ⟨Expr.named_new hcallee.1 (by simp), hcallee.2⟩
  · exact named_primary ending ts hts
termination_by weight ts * 16 + 2
decreasing_by
  all_goals
    subst_vars
    simp -failIfUnchanged only [weight_cons, Token.weight_keyword] at *
    omega

lemma named_chain (ending : Ending) (calls : Bool) (head : Expr) (ts : List Lexeme)
    (hhead : head.Named) (hts : Scanned ts) : Reads Named (chain ending calls head ts) := by
  -- each link of the chain puts the head into a larger expression, which goes on as the head
  unfold chain
  split
  · exact gives_bind _ fun _ => gives_unexpected _ _ _
  · rename_i l r
    split
    · exact gives_unexpected _ _ _
    · rename_i name hname
      have hmember : (Expr.member head name).Named :=
        Expr.named_member hhead (isWord_of_propertyName? hts.tail.head hname)
      refine gives_bind _ fun _ => (named_chain ending calls _ r hmember hts.tail.tail).bind
        fun all hall => ?_
      exact gives_ok hall
  · rename_i r
    refine gives_bind _ fun _ =>
      (named_assignment ending r hts.tail).bind fun ⟨key, r₁, h₁⟩ ⟨hkey, hr₁⟩ => ?_
    refine (reads_expect ending .rbracket r₁ hr₁).bind fun ⟨_, r₂, h₂⟩ ⟨_, hr₂⟩ => ?_
    have hindex : (Expr.index head key).Named := Expr.named_index hhead hkey
    exact (named_chain ending calls _ r₂ hindex hr₂).bind fun all hall => gives_ok hall
  · rename_i r
    split
    · refine gives_bind _ fun _ =>
        (named_items ending .rparen r hts.tail).bind fun ⟨args, r₁, h₁⟩ ⟨hargs, hr₁⟩ => ?_
      have hcall : (Expr.call head args).Named := Expr.named_call hhead hargs
      exact (named_chain ending calls _ r₁ hcall hr₁).bind fun all hall => gives_ok hall
    · exact gives_ok ⟨hhead, hts⟩
  · split
    · exact gives_error _
    · exact gives_ok ⟨hhead, hts⟩
  · exact gives_ok ⟨hhead, hts⟩
termination_by weight ts * 16 + 2
decreasing_by
  all_goals
    subst_vars
    simp -failIfUnchanged only [weight_cons, Token.weight_punct] at *
    omega

lemma named_items (ending : Ending) (close : Punct) (ts : List Lexeme) (hts : Scanned ts) :
    Reads (fun es => ∀ e ∈ es, Named e) (items ending close ts) := by
  unfold items
  split
  · refine (reads_expect ending close ts hts).bind fun step hstep => ?_
    exact gives_ok ⟨by simp [Step.map], hstep.2⟩
  · split
    · exact gives_failAt _ _ _
    · refine (named_assignment ending ts hts).bind fun ⟨item, r, h⟩ ⟨hitem, hr⟩ => ?_
      dsimp only
      split
      · refine (named_items ending close r hr).bind fun others hothers => ?_
        exact gives_ok ⟨List.forall_mem_cons.mpr ⟨hitem, hothers.1⟩, hothers.2⟩
      · refine (reads_expect ending .comma r hr).bind fun ⟨_, r₁, h₁⟩ ⟨_, hr₁⟩ => ?_
        refine (named_items ending close r₁ hr₁).bind fun others hothers => ?_
        exact gives_ok ⟨List.forall_mem_cons.mpr ⟨hitem, hothers.1⟩, hothers.2⟩
termination_by weight ts * 16 + 10
decreasing_by all_goals omega

lemma named_primary (ending : Ending) (ts : List Lexeme) (hts : Scanned ts) :
    Reads Named (primary ending ts) := by
  unfold primary
  split
  · exact reads_take _ hts.tail (Expr.named_of_leaf rfl hts.head rfl)
  · exact reads_take _ hts.tail (Expr.named_of_leaf rfl hts.head rfl)
  · exact reads_take _ hts.tail (Expr.named_of_leaf rfl trivial rfl)
  · exact reads_take _ hts.tail (Expr.named_of_leaf rfl trivial rfl)
  · rename_i head parts r
    obtain ⟨hhead, hparts⟩ : Token.Sound (.template head parts) := hts.head
    refine gives_bind _ fun _ => (named_holes parts hparts).bind fun exprs hexprs => ?_
    exact reads_take _ hts.tail (Expr.named_template hhead hexprs)
  · split
    · exact gives_failAt _ _ _
    · exact reads_take _ hts.tail (Expr.named_of_leaf hts.head trivial rfl)
  · exact reads_take _ hts.tail (Expr.named_of_leaf rfl trivial rfl)
  · rename_i r
    refine gives_bind _ fun _ =>
      (named_assignment ending r hts.tail).bind fun ⟨inner, r₁, h₁⟩ ⟨hinner, hr₁⟩ => ?_
    refine (reads_expect ending .rparen r₁ hr₁).bind fun close hclose => ?_
    split
    · exact gives_failAt _ _ _
    · exact gives_ok ⟨hinner, hclose.2⟩
  · rename_i r
    refine gives_bind _ fun _ => (named_items ending .rbracket r hts.tail).bind fun step hstep => ?_
    exact gives_ok ⟨Expr.named_array hstep.1, hstep.2⟩
  · rename_i r
    refine gives_bind _ fun _ => (spelled_entries ending r hts.tail).bind fun step hstep => ?_
    exact gives_ok ⟨Expr.named_object hstep.1, hstep.2⟩
  · exact gives_error _
  · exact gives_unexpected _ _ _
termination_by weight ts * 16 + 1
decreasing_by
  all_goals
    subst_vars
    simp -failIfUnchanged only [weight_cons, Token.weight_punct, Token.weight_template] at *
    omega

lemma named_holes (parts : List (Hole × String))
    (hparts : ∀ part ∈ parts, Token.Chunk part.2.toList) :
    Gives (fun exprs => ∀ part ∈ exprs, part.1.Named ∧ Token.Chunk part.2.toList)
      (holes parts) := by
  unfold holes
  split
  · exact gives_ok (by simp)
  · rename_i hole text others
    -- the tokens of a hole are read on their own; they weigh less than the template they stand in
    have hscanned : Scanned (tokensOfHole hole).1.tokens := TokenRun.sound_scan _ _
    generalize tokensOfHole hole = tokens at hscanned ⊢
    obtain ⟨run, hrun⟩ := tokens
    have hlt : weight run.tokens < holesWeight ((hole, text) :: others) := by
      simp only [holesWeight_cons]
      omega
    obtain ⟨htext, hothers⟩ := List.forall_mem_cons.mp hparts
    refine gives_bind _ fun _ => ?_
    refine (named_assignment run.ending run.tokens hscanned).bind fun inner hinner => ?_
    refine gives_bind _ fun _ => (named_holes others hothers).bind fun exprs hexprs => ?_
    exact gives_ok (List.forall_mem_cons.mpr ⟨⟨hinner.1, htext⟩, hexprs⟩)
termination_by holesWeight parts * 16 + 1

lemma spelled_key (ending : Ending) (ts : List Lexeme) (hts : Scanned ts) :
    Reads SpelledKey (key ending ts) := by
  unfold key
  split
  · exact reads_take _ hts.tail ⟨isKeyName_of_isName hts.head, by simp [Key.children]⟩
  · exact reads_take _ hts.tail ⟨isKeyName_spelling _, by simp [Key.children]⟩
  · exact reads_take _ hts.tail ⟨hts.head, by simp [Key.children]⟩
  · exact reads_take _ hts.tail ⟨hts.head, by simp [Key.children]⟩
  · rename_i r
    refine gives_bind _ fun _ => (named_assignment ending r hts.tail).bind fun inner hinner => ?_
    split
    · rename_i p' after hnext
      obtain ⟨he, hr⟩ := Step.of_next? hnext hinner
      refine gives_bind _ fun _ => gives_ok ⟨⟨trivial, ?_⟩, hr⟩
      exact List.forall_mem_singleton.mpr he.2
    · exact gives_unexpected _ _ _
  · exact gives_unexpected _ _ _
termination_by weight ts * 16 + 10
decreasing_by
  all_goals
    subst_vars
    simp -failIfUnchanged only [weight_cons, Token.weight_punct] at *
    omega

lemma spelled_entries (ending : Ending) (ts : List Lexeme) (hts : Scanned ts) :
    Reads (fun entries => ∀ entry ∈ entries, SpelledEntry entry) (entries ending ts) := by
  unfold entries
  split
  · refine (reads_expect ending .rbrace ts hts).bind fun step hstep => ?_
    exact gives_ok ⟨by simp [Step.map], hstep.2⟩
  · refine (spelled_key ending ts hts).bind fun ⟨name, r, h⟩ ⟨hname, hr⟩ => ?_
    refine (spelled_value ending name r hname hr).bind fun ⟨entry, r₁, h₁⟩ ⟨hentry, hr₁⟩ => ?_
    dsimp only
    split
    · refine (spelled_entries ending r₁ hr₁).bind fun others hothers => ?_
      exact gives_ok ⟨List.forall_mem_cons.mpr ⟨hentry, hothers.1⟩, hothers.2⟩
    · refine (reads_expect ending .comma r₁ hr₁).bind fun ⟨_, r₂, h₂⟩ ⟨_, hr₂⟩ => ?_
      refine (spelled_entries ending r₂ hr₂).bind fun others hothers => ?_
      exact gives_ok ⟨List.forall_mem_cons.mpr ⟨hentry, hothers.1⟩, hothers.2⟩
termination_by weight ts * 16 + 11
decreasing_by all_goals omega

lemma spelled_value (ending : Ending) (key : Key Expr) (ts : List Lexeme) (hkey : SpelledKey key)
    (hts : Scanned ts) : Reads SpelledEntry (value ending key ts) := by
  unfold value
  split
  · -- a reserved word may stand here as if it were a name, until the check finds no such variable
    refine gives_ok ⟨⟨hkey.1, ?_⟩, hts⟩
    simp [Step.stay, Entry.children, Key.children, Expr.Spelled, Expr.subterms, Expr.IsSpelled]
  · refine (reads_expect ending .colon ts hts).bind fun ⟨_, r, h⟩ ⟨_, hr⟩ => ?_
    refine (named_assignment ending r hr).bind fun e he => ?_
    exact gives_ok ⟨⟨hkey.1, List.forall_mem_append.mpr
      ⟨hkey.2, List.forall_mem_singleton.mpr he.1.2⟩⟩, he.2⟩
termination_by weight ts * 16 + 10
decreasing_by all_goals omega

end

/-! ## The rules for statements -/

lemma named_parenthesized (ending : Ending) (ts : List Lexeme) (hts : Scanned ts) :
    Reads Named (parenthesized ending ts) := by
  refine (reads_expect ending .lparen ts hts).bind fun ⟨_, r, h⟩ ⟨_, hr⟩ => ?_
  refine (named_assignment ending r hr).bind fun ⟨inner, r₁, h₁⟩ ⟨hinner, hr₁⟩ => ?_
  exact (reads_expect ending .rparen r₁ hr₁).bind fun close hclose => gives_ok ⟨hinner, hclose.2⟩

lemma reads_skipSemicolon (ending : Ending) (ts : List Lexeme) (hts : Scanned ts) :
    Reads (fun _ => True) (skipSemicolon ending ts) := by
  unfold skipSemicolon
  split
  · exact (reads_expect ending .semicolon ts hts).bind fun step hstep => gives_ok hstep
  · exact gives_ok ⟨trivial, hts⟩

lemma isName_identifier (ending : Ending) (place : Place) (ts : List Lexeme) (hts : Scanned ts) :
    Reads (fun name => Token.isName name = true) (identifier ending place ts) := by
  unfold identifier
  split
  · exact reads_take _ hts.tail hts.head
  · exact gives_unexpected _ _ _

lemma spelled_initialValue (ending : Ending) (ts : List Lexeme) (hts : Scanned ts) :
    Reads (fun init => AllSpelled init.toList) (initialValue ending ts) := by
  unfold initialValue
  split
  · rename_i r
    refine gives_bind _ fun _ => (named_assignment ending r hts.tail).bind fun value hvalue => ?_
    exact gives_ok ⟨allSpelled_singleton hvalue.1.2, hvalue.2⟩
  · exact gives_ok ⟨allSpelled_nil, hts⟩

/-- What a statement that ends without statements in it gives. -/
def SpelledSimple (s : Stmt) : Prop := s.Spelled ∧ s.dangling = false

lemma spelled_initializer (ending : Ending) (kind : DeclKind) {name : String} (ts : List Lexeme)
    (hname : Token.isName name) (hts : Scanned ts) :
    Reads SpelledSimple (initializer ending kind name ts) := by
  refine (spelled_initialValue ending ts hts).bind fun init hinit => ?_
  split
  · exact gives_failAt _ _ _
  · rename_i hconst
    split
    · exact gives_failAt _ _ _
    · refine gives_ok ⟨⟨spelled_of_simple (fun _ => rfl) ⟨hname, fun hkind => ?_⟩ hinit.1, rfl⟩,
        hinit.2⟩
      by_contra hnone
      exact hconst ⟨by simpa using hnone, hkind⟩

lemma spelled_declaration (ending : Ending) (kind : DeclKind) (ts : List Lexeme)
    (hts : Scanned ts) : Reads SpelledSimple (declaration ending kind ts) := by
  unfold declaration
  split
  · exact gives_unexpected _ _ _
  · rename_i l r
    refine gives_bind _ fun _ =>
      (isName_identifier ending .declaration r hts.tail).bind fun ⟨name, r₁, h₁⟩ ⟨hname, hr₁⟩ => ?_
    exact (spelled_initializer ending kind r₁ hname hr₁).bind fun step hstep => gives_ok hstep

namespace LoopHead

/-- The expressions in the head of a loop. -/
def exprs : LoopHead → List Expr
  | members _ _ _ iterable => [iterable]
  | steps init test update => Stmt.exprsOfOption init ++ test.toList ++ update.toList

/-- The statement that a loop starts with. -/
def init? : LoopHead → Option Stmt
  | members _ _ _ _ => none
  | steps init _ _ => init

/-- The head of a loop is spelled as the grammar wants it. -/
structure Spelled (head : LoopHead) : Prop where
  exprs : AllSpelled head.exprs
  init : ∀ s ∈ head.init?, s.Spelled

lemma spelled_members {kind : Option DeclKind} {name : String} {of : Bool} {iterable : Expr}
    (h : iterable.Spelled) : (members kind name of iterable).Spelled where
  exprs := allSpelled_singleton h
  init := by simp [init?]

lemma Spelled.loop {head : LoopHead} {body : Stmt} (h : head.Spelled) (hbody : body.Spelled) :
    (head.loop body).Spelled ∧ (head.loop body).dangling = body.dangling := by
  cases head with
  | members kind name of iterable =>
    refine ⟨⟨h.exprs.append hbody.exprs, fun inSwitch => ?_⟩, rfl⟩
    exact List.forall_mem_cons.mpr ⟨trivial, hbody.inner inSwitch⟩
  | steps init test update =>
    refine ⟨⟨h.exprs.append hbody.exprs, fun inSwitch => ?_⟩, rfl⟩
    refine List.forall_mem_cons.mpr ⟨trivial, List.forall_mem_append.mpr ⟨?_, hbody.inner inSwitch⟩⟩
    cases init with
    | none => simp [Stmt.innerOfOption]
    | some s => exact (h.init s rfl).inner inSwitch

end LoopHead

lemma spelled_optional (ending : Ending) (mark : Punct) (ts : List Lexeme) (hts : Scanned ts) :
    Reads (fun e? => AllSpelled e?.toList) (optional ending mark ts) := by
  unfold optional
  split
  · exact gives_ok ⟨allSpelled_nil, hts⟩
  · refine (named_assignment ending ts hts).bind fun step hstep => ?_
    exact gives_ok ⟨allSpelled_singleton hstep.1.2, hstep.2⟩

lemma spelled_loopSteps (ending : Ending) (init : Option Stmt) (ts : List Lexeme)
    (hinit : ∀ s ∈ init, s.Spelled) (hts : Scanned ts) :
    Reads LoopHead.Spelled (loopSteps ending init ts) := by
  refine (reads_expect ending .semicolon ts hts).bind fun ⟨_, r₁, h₁⟩ ⟨_, hr₁⟩ => ?_
  refine (spelled_optional ending .semicolon r₁ hr₁).bind fun ⟨test, r₂, h₂⟩ ⟨htest, hr₂⟩ => ?_
  refine (reads_expect ending .semicolon r₂ hr₂).bind fun ⟨_, r₃, h₃⟩ ⟨_, hr₃⟩ => ?_
  refine (spelled_optional ending .rparen r₃ hr₃).bind fun ⟨update, r₄, h₄⟩ ⟨hupdate, hr₄⟩ => ?_
  refine (reads_expect ending .rparen r₄ hr₄).bind fun close hclose => ?_
  have hexprs : AllSpelled (Stmt.exprsOfOption init) := by
    cases init with
    | none => exact allSpelled_nil
    | some s => exact (hinit s rfl).exprs
  exact gives_ok ⟨⟨(hexprs.append htest).append hupdate, hinit⟩, hclose.2⟩

lemma spelled_loopMembers (ending : Ending) (kind : Option DeclKind) (name : String) (of : Bool)
    (ts : List Lexeme) (hts : Scanned ts) :
    Reads LoopHead.Spelled (loopMembers ending kind name of ts) := by
  refine (named_assignment ending ts hts).bind fun ⟨iterable, r, h⟩ ⟨hiterable, hr⟩ => ?_
  refine (reads_expect ending .rparen r hr).bind fun close hclose => ?_
  exact gives_ok ⟨LoopHead.spelled_members hiterable.2, hclose.2⟩

lemma spelled_declaredLoop (ending : Ending) (kind : DeclKind) {name : String} (ts : List Lexeme)
    (hname : Token.isName name) (hts : Scanned ts) :
    Reads LoopHead.Spelled (declaredLoop ending kind name ts) := by
  unfold declaredLoop
  generalize memberWord? (front ts) = word
  split
  · refine gives_bind _ fun _ => ?_
    exact (spelled_loopMembers ending (some kind) name _ _ hts.tail).bind
      fun step hstep => gives_ok hstep
  · refine (spelled_initializer ending kind _ hname hts).bind fun ⟨init, r, h⟩ ⟨hinit, hr⟩ => ?_
    have hinit : ∀ s ∈ some init, s.Spelled := by simpa using hinit.1
    exact (spelled_loopSteps ending (some init) r hinit hr).bind fun step hstep => gives_ok hstep

lemma spelled_plainLoop (ending : Ending) {start : Expr} (ts : List Lexeme)
    (hstart : start.Spelled) (hts : Scanned ts) :
    Reads LoopHead.Spelled (plainLoop ending start ts) := by
  unfold plainLoop
  generalize memberWord? (front ts) = word
  split
  · -- `for (x in e)` was read as the operation `x in e`
    rename_i _ iterable _ _
    have hiterable : iterable.Spelled := hstart.child (by simp [Expr.children])
    exact reads_take _ hts.tail (LoopHead.spelled_members hiterable)
  · refine gives_bind _ fun _ => ?_
    exact (spelled_loopMembers ending none _ _ _ hts.tail).bind fun step hstep => gives_ok hstep
  · have hexpr : ∀ s ∈ some (Stmt.expr start), s.Spelled := by
      rintro _ ⟨⟩
      exact spelled_of_simple (fun _ => rfl) trivial (allSpelled_singleton hstart)
    exact spelled_loopSteps ending (some (.expr start)) _ hexpr hts

lemma spelled_loopHead (ending : Ending) (ts : List Lexeme) (hts : Scanned ts) :
    Reads LoopHead.Spelled (loopHead ending ts) := by
  unfold loopHead
  split
  · exact spelled_loopSteps ending none ts nofun hts
  · generalize declKind? (front ts) = kind
    split
    · refine gives_bind _ fun _ =>
        (isName_identifier ending .loopHead _ hts.tail).bind fun ⟨name, r, h⟩ ⟨hname, hr⟩ => ?_
      exact (spelled_declaredLoop ending _ r hname hr).bind fun step hstep => gives_ok hstep
    · refine (named_assignment ending _ hts).bind fun ⟨start, r, h⟩ ⟨hstart, hr⟩ => ?_
      exact (spelled_plainLoop ending r hstart.2 hr).bind fun step hstep => gives_ok hstep

lemma spelled_simpleStatement (ending : Ending) (ts : List Lexeme) (hts : Scanned ts) :
    Reads SpelledSimple (simpleStatement ending ts) := by
  unfold simpleStatement
  generalize declKind? (front ts) = kind
  split
  · exact spelled_declaration ending _ _ hts
  · refine gives_bind _ fun _ => ?_
    split
    · exact reads_take _ hts.tail ⟨spelled_of_simple (fun _ => rfl) trivial allSpelled_nil, rfl⟩
    · refine (named_assignment ending _ hts.tail).bind fun value hvalue => ?_
      have hreturn := spelled_of_simple (s := .return_ (some value.value)) (fun _ => rfl) trivial
        (allSpelled_singleton hvalue.1.2)
      exact gives_ok ⟨⟨hreturn, rfl⟩, hvalue.2⟩
  · exact reads_take _ hts.tail ⟨spelled_of_simple (fun _ => rfl) trivial allSpelled_nil, rfl⟩
  · exact reads_take _ hts.tail ⟨spelled_of_simple (fun _ => rfl) trivial allSpelled_nil, rfl⟩
  · refine (named_assignment ending _ hts).bind fun value hvalue => ?_
    have hexpr := spelled_of_simple (s := .expr value.value) (fun _ => rfl) trivial
      (allSpelled_singleton hvalue.1.2)
    exact gives_ok ⟨⟨hexpr, rfl⟩, hvalue.2⟩

lemma spelled_armTest (ending : Ending) (ts : List Lexeme) (hts : Scanned ts) :
    Reads (fun test => AllSpelled test.toList) (armTest ending ts) := by
  unfold armTest
  split
  · refine gives_bind _ fun _ => ?_
    refine (named_assignment ending _ hts.tail).bind fun ⟨test, r, h⟩ ⟨htest, hr⟩ => ?_
    refine (reads_expect ending .colon r hr).bind fun colon hcolon => ?_
    exact gives_ok ⟨allSpelled_singleton htest.2, hcolon.2⟩
  · refine gives_bind _ fun _ => (reads_expect ending .colon _ hts.tail).bind fun colon hcolon => ?_
    exact gives_ok ⟨allSpelled_nil, hcolon.2⟩
  · exact gives_unexpected _ _ _

lemma Step.front_of_next? {α : Type} {n : Nat} {s after : Step n α} {l : Lexeme}
    (h : s.next? = some (l, after)) : front s.rest = l.token := by
  obtain ⟨value, _ | ⟨l, r⟩, fits⟩ := s
  · cases h
  · cases h
    rfl

/-- What the rule for statements gives.  Whatever may take an `else` has taken it. -/
structure SpelledStep {n : Nat} (step : Step n Stmt) : Prop where
  value : step.value.Spelled
  rest : Scanned step.rest
  closed : step.value.dangling = true → front step.rest ≠ .keyword .else_

mutual

lemma spelled_statement (ending : Ending) (ts : List Lexeme) (hts : Scanned ts) :
    Gives SpelledStep (statement ending ts) := by
  unfold statement
  split
  · rename_i r
    refine gives_bind _ fun _ => (spelled_block ending r hts.tail).bind fun body hbody => ?_
    refine gives_ok ⟨⟨hbody.1.exprs, fun inSwitch => ?_⟩, hbody.2, nofun⟩
    exact List.forall_mem_cons.mpr ⟨trivial, hbody.1.inner inSwitch⟩
  · have hempty : Stmt.empty.Spelled := spelled_of_simple (fun _ => rfl) trivial allSpelled_nil
    exact gives_bind _ fun _ => gives_ok ⟨hempty, hts.tail, nofun⟩
  · rename_i p r
    refine gives_bind _ fun _ =>
      (named_parenthesized ending r hts.tail).bind fun ⟨test, r₁, h₁⟩ ⟨htest, hr₁⟩ => ?_
    refine (spelled_statement ending r₁ hr₁).bind fun yes hyes => ?_
    split
    · rename_i p' s r₂ h₂ hnext
      have hs := Step.of_next? (p := Stmt.Spelled) hnext ⟨hyes.value, hyes.rest⟩
      have hdangling : s.dangling = false := by
        have hvalue := Step.of_next? (p := fun s => s = yes.value) hnext ⟨rfl, hyes.rest⟩
        rw [show s = yes.value from hvalue.1]
        by_contra htrue
        exact hyes.closed (by simpa using htrue) (Step.front_of_next? hnext)
      refine gives_bind _ fun _ => (spelled_statement ending r₂ hs.2).bind fun no hno => ?_
      exact gives_ok ⟨.choiceElse htest.2 hs.1 hno.value hdangling, hno.rest, hno.closed⟩
    · rename_i hnone
      refine gives_ok ⟨.choice htest.2 hyes.value, hyes.rest, fun _ hfront => ?_⟩
      obtain ⟨value, rest, fits⟩ := yes
      cases rest with
      | nil => cases hfront
      | cons l after =>
        obtain ⟨p', token⟩ := l
        obtain rfl : token = .keyword .else_ := hfront
        exact hnone p' value after _ rfl
  · rename_i r
    refine gives_bind _ fun _ =>
      (named_parenthesized ending r hts.tail).bind fun ⟨subject, r₁, h₁⟩ ⟨hsubject, hr₁⟩ => ?_
    refine (reads_expect ending .lbrace r₁ hr₁).bind fun ⟨_, r₂, h₂⟩ ⟨_, hr₂⟩ => ?_
    refine (spelled_arms ending r₂ hr₂).bind fun arms harms => ?_
    refine gives_ok ⟨⟨(allSpelled_singleton hsubject.2).append harms.1.exprs, fun inSwitch => ?_⟩,
      harms.2, nofun⟩
    exact List.forall_mem_cons.mpr ⟨trivial, harms.1.inner⟩
  · rename_i r
    refine gives_bind _ fun _ =>
      (reads_expect ending .lparen r hts.tail).bind fun ⟨_, r₁, h₁⟩ ⟨_, hr₁⟩ => ?_
    -- loops are read like everything else and only rejected by the check
    refine (spelled_loopHead ending r₁ hr₁).bind fun ⟨head, r₂, h₂⟩ ⟨hhead, hr₂⟩ => ?_
    refine (spelled_statement ending r₂ hr₂).bind fun body hbody => ?_
    obtain ⟨hloop, hdangling⟩ := LoopHead.Spelled.loop hhead hbody.value
    exact gives_ok ⟨hloop, hbody.rest, fun h => hbody.closed (hdangling ▸ h)⟩
  · rename_i r
    refine gives_bind _ fun _ =>
      (named_parenthesized ending r hts.tail).bind fun ⟨test, r₁, h₁⟩ ⟨htest, hr₁⟩ => ?_
    refine (spelled_statement ending r₁ hr₁).bind fun body hbody => ?_
    refine gives_ok ⟨⟨(allSpelled_singleton htest.2).append hbody.value.exprs, fun inSwitch => ?_⟩,
      hbody.rest, hbody.closed⟩
    exact List.forall_mem_cons.mpr ⟨trivial, hbody.value.inner inSwitch⟩
  · rename_i p r
    refine gives_bind _ fun _ => (spelled_statement ending r hts.tail).bind fun body hbody => ?_
    split
    · rename_i p' s r₁ h₁ hnext
      obtain ⟨hs, hr₁⟩ := Step.of_next? (p := Stmt.Spelled) hnext ⟨hbody.value, hbody.rest⟩
      refine gives_bind _ fun _ =>
        (named_parenthesized ending r₁ hr₁).bind fun ⟨test, r₂, h₂⟩ ⟨htest, hr₂⟩ => ?_
      refine (reads_skipSemicolon ending r₂ hr₂).bind fun semicolon hsemicolon => ?_
      have hexprs := AllSpelled.append hs.exprs (allSpelled_singleton htest.2)
      refine gives_ok ⟨⟨hexprs, fun inSwitch => ?_⟩, hsemicolon.2, nofun⟩
      exact List.forall_mem_cons.mpr ⟨trivial, hs.inner inSwitch⟩
    · exact gives_unexpected _ _ _
  · exact gives_error _
  · refine (spelled_simpleStatement ending ts hts).bind fun ⟨simple, r, h⟩ ⟨hsimple, hr⟩ => ?_
    refine (reads_skipSemicolon ending r hr).bind fun semicolon hsemicolon => ?_
    refine gives_ok ⟨hsimple.1, hsemicolon.2, fun hdangling => ?_⟩
    cases hsimple.2.symm.trans hdangling
termination_by weight ts * 4 + 1
decreasing_by
  all_goals
    subst_vars
    simp -failIfUnchanged only [weight_cons, Token.weight_punct, Token.weight_keyword] at *
    omega

lemma spelled_block (ending : Ending) (ts : List Lexeme) (hts : Scanned ts) :
    Reads Stmt.SpelledList (block ending ts) := by
  unfold block
  split
  · refine (reads_expect ending .rbrace ts hts).bind fun step hstep => ?_
    exact gives_ok ⟨Stmt.spelledList_nil, hstep.2⟩
  · split
    · exact gives_failAt _ _ _
    · refine (spelled_statement ending ts hts).bind fun ⟨first, r, h⟩ ⟨hfirst, hr, _⟩ => ?_
      refine (spelled_block ending r hr).bind fun others hothers => ?_
      exact gives_ok ⟨hothers.1.cons hfirst, hothers.2⟩
termination_by weight ts * 4 + 2
decreasing_by all_goals omega

lemma spelled_arms (ending : Ending) (ts : List Lexeme) (hts : Scanned ts) :
    Reads Stmt.SpelledArms (arms ending ts) := by
  unfold arms
  split
  · refine (reads_expect ending .rbrace ts hts).bind fun step hstep => ?_
    exact gives_ok ⟨⟨allSpelled_nil, List.forall_mem_nil _⟩, hstep.2⟩
  · refine (spelled_armTest ending ts hts).bind fun ⟨test, r, h⟩ ⟨htest, hr⟩ => ?_
    refine (spelled_armBody ending r hr).bind fun ⟨body, r₁, h₁⟩ ⟨hbody, hr₁⟩ => ?_
    refine (spelled_arms ending r₁ hr₁).bind fun others hothers => ?_
    exact gives_ok ⟨⟨(AllSpelled.append htest hbody.exprs).append hothers.1.exprs,
      List.forall_mem_append.mpr ⟨hbody.inner true, hothers.1.inner⟩⟩, hothers.2⟩
termination_by weight ts * 4 + 3
decreasing_by all_goals omega

lemma spelled_armBody (ending : Ending) (ts : List Lexeme) (hts : Scanned ts) :
    Reads Stmt.SpelledList (armBody ending ts) := by
  unfold armBody
  split
  · exact gives_ok ⟨Stmt.spelledList_nil, hts⟩
  · refine (spelled_statement ending ts hts).bind fun ⟨first, r, h⟩ ⟨hfirst, hr, _⟩ => ?_
    refine (spelled_armBody ending r hr).bind fun others hothers => ?_
    exact gives_ok ⟨hothers.1.cons hfirst, hothers.2⟩
termination_by weight ts * 4 + 2
decreasing_by all_goals omega

end

/-! ## The rules for functions -/

lemma isName_parameters (ending : Ending) (ts : List Lexeme) (hts : Scanned ts) :
    Reads (fun param => ∀ name ∈ param, Token.isName name = true) (parameters ending ts) := by
  refine (reads_expect ending .lparen ts hts).bind fun ⟨_, r, h⟩ ⟨_, hr⟩ => ?_
  dsimp only
  split
  · refine (reads_expect ending .rparen r hr).bind fun close hclose => ?_
    exact gives_ok ⟨nofun, hclose.2⟩
  · refine (isName_identifier ending .parameterList r hr).bind fun ⟨name, r₁, h₁⟩ ⟨hname, hr₁⟩ => ?_
    dsimp only
    split
    · exact gives_failAt _ _ _
    · refine (reads_expect ending .rparen r₁ hr₁).bind fun close hclose => gives_ok ⟨?_, hclose.2⟩
      rintro _ ⟨⟩
      exact hname

lemma isName_arrowParameter (ending : Ending) (ts : List Lexeme) (hts : Scanned ts) :
    Reads (fun param => ∀ name ∈ param, Token.isName name = true) (arrowParameter ending ts) := by
  unfold arrowParameter
  split
  · exact isName_parameters ending ts hts
  · refine (isName_identifier ending .parameter ts hts).bind fun name hname => ?_
    refine gives_ok ⟨?_, hname.2⟩
    rintro _ ⟨⟩
    exact hname.1

lemma spelled_arrowBody (ending : Ending) (ts : List Lexeme) (hts : Scanned ts) :
    Reads Body.Spelled (arrowBody ending ts) := by
  unfold arrowBody
  split
  · refine (reads_expect ending .lbrace ts hts).bind fun ⟨_, r, h⟩ ⟨_, hr⟩ => ?_
    refine (spelled_block ending r hr).bind fun body hbody => ?_
    exact gives_ok ⟨⟨hbody.1.exprs, hbody.1.inner false⟩, hbody.2⟩
  · refine (named_assignment ending ts hts).bind fun value hvalue => ?_
    exact gives_ok ⟨⟨allSpelled_singleton hvalue.1.2, List.forall_mem_nil _⟩, hvalue.2⟩

lemma spelled_arrowFunction (ending : Ending) (ts : List Lexeme) (hts : Scanned ts) :
    Reads RowFunction.Spelled (arrowFunction ending ts) := by
  refine (isName_arrowParameter ending ts hts).bind fun ⟨param, r, h⟩ ⟨hparam, hr⟩ => ?_
  refine (reads_expect ending .arrow r hr).bind fun ⟨_, r₁, h₁⟩ ⟨_, hr₁⟩ => ?_
  exact (spelled_arrowBody ending r₁ hr₁).bind fun body hbody =>
    gives_ok ⟨⟨hparam, hbody.1⟩, hbody.2⟩

lemma reads_skipName (ending : Ending) (ts : List Lexeme) (hts : Scanned ts) :
    Reads (fun _ => True) (skipName ending ts) := by
  unfold skipName
  split
  · exact (reads_take (p := fun _ => True) _ hts.tail trivial).bind fun step hstep => gives_ok hstep
  · exact gives_ok ⟨trivial, hts⟩

lemma spelled_wordFunction (ending : Ending) (ts : List Lexeme) (hts : Scanned ts) :
    Reads RowFunction.Spelled (wordFunction ending ts) := by
  refine (reads_skipName ending ts hts).bind fun ⟨_, r, h⟩ ⟨_, hr⟩ => ?_
  refine (isName_parameters ending r hr).bind fun ⟨param, r₁, h₁⟩ ⟨hparam, hr₁⟩ => ?_
  dsimp only
  split
  · refine (reads_expect ending .lbrace r₁ hr₁).bind fun ⟨_, r₂, h₂⟩ ⟨_, hr₂⟩ => ?_
    refine (spelled_block ending r₂ hr₂).bind fun body hbody => ?_
    exact gives_ok ⟨⟨hparam, hbody.1.exprs, hbody.1.inner false⟩, hbody.2⟩
  · exact gives_unexpected _ _ _

lemma spelled_function (ending : Ending) (ts : List Lexeme) (hts : Scanned ts) :
    Reads RowFunction.Spelled (function ending ts) := by
  unfold function
  split
  · refine gives_bind _ fun _ => ?_
    exact (spelled_wordFunction ending _ hts.tail).bind fun step hstep => gives_ok hstep
  · exact spelled_arrowFunction ending _ hts

end Grammar

/-- A parsed row function is spelled as the scanner and the grammar want it. -/
theorem RowFunction.spelled_of_parse {text : String} {f : RowFunction}
    (h : RowFunction.parse text = .ok f) : f.Spelled := by
  have hscanned : Grammar.Scanned (TokenRun.ofText 0 text).tokens := TokenRun.sound_scan _ _
  have hparse : Grammar.Gives RowFunction.Spelled (RowFunction.parse text) := by
    refine Grammar.gives_bind _ fun _ => ?_
    refine (Grammar.spelled_function _ _ hscanned).bind fun step hstep => ?_
    exact Grammar.gives_bind _ fun _ => Grammar.gives_ok hstep.1
  exact hparse f h

/-- The expressions in a parsed row function are made of written forms only. -/
theorem RowFunction.written_of_parse {text : String} {f : RowFunction}
    (h : RowFunction.parse text = .ok f) : ∀ e ∈ f.body.exprs, e.Written :=
  fun e he => ((RowFunction.spelled_of_parse h).body.exprs e he).written

end RowExpr
