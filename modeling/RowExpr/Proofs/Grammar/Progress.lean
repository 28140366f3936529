/-
# Progress through a row of tokens

A rule of the grammar that succeeds leaves an end piece of the tokens that it was given.  A rule
that fails blames one of the tokens, or the end of the row, or it hands on the error of a hole in a
template among the tokens.  All rules are taken apart once for both, each with the rules that it
calls, along the weight of the tokens.

* `Located`: where an error can be;
* `Grammar.tracks_assignment`, `Grammar.tracks_statement`, `Grammar.tracks_function`: what the rules
  leave, and where their errors are;
* `Grammar.Tracks.exists_taken`: a rule that has to find something takes a token.
-/
import RowExpr.Proofs.Grammar.Alike

namespace RowExpr

/-- The expression that is written in a hole, which is a text of its own. -/
def Hole.parse (hole : Hole) : Except Malformed Expr := do
  let run := TokenRun.ofText hole.position hole.source
  Grammar.reach run.ending run.tokens
  let step ← Grammar.assignment run.ending run.tokens
  Grammar.expectEnd run.ending step.rest
  return step.value

/-- Where an error is that the rules find in a row of tokens: at the end of the row, at a token, or
anywhere in the hole of a template. -/
inductive Located (ending : Ending) (all : List Lexeme) (m : Malformed) : Prop
  | atEnd (hposition : m.position = Grammar.endPosition ending)
  | atToken {l : Lexeme} (hl : l ∈ all) (hposition : m.position = l.position)
  | inHole {p : Nat} {head : String} {parts : List (Hole × String)} {part : Hole × String}
      (hl : ⟨p, .template head parts⟩ ∈ all) (hpart : part ∈ parts) (h : part.1.parse = .error m)

namespace Grammar

section Tracks

variable {α β : Type} {n m : Nat} {ending : Ending} {all ts : List Lexeme}

lemma tail_suffix {l : Lexeme} (h : l :: ts <:+ all) : ts <:+ all :=
  (List.suffix_cons l ts).trans h

lemma head_mem {l : Lexeme} (h : l :: ts <:+ all) : l ∈ all := h.mem List.mem_cons_self

/-- A rule leaves an end piece of the row `all`, or its error has a place there. -/
structure Tracks (ending : Ending) (all : List Lexeme) (result : Except Malformed (Step n α)) :
    Prop where
  rest : ∀ s, result = .ok s → s.rest <:+ all
  error : ∀ m, result = .error m → Located ending all m

lemma tracks_ok {s : Step n α} (h : s.rest <:+ all) : Tracks ending all (.ok s) where
  rest := by
    rintro _ ⟨⟩
    exact h
  error := by rintro _ ⟨⟩

lemma tracks_error {f : Malformed} (h : Located ending all f) :
    Tracks ending all (.error f : Except Malformed (Step n α)) where
  rest := by rintro _ ⟨⟩
  error := by
    rintro _ ⟨⟩
    exact h

lemma located_position (h : ts <:+ all) (fault : TextFault) :
    Located ending all ⟨fault, position ending ts⟩ := by
  cases ts with
  | nil => exact .atEnd rfl
  | cons l r => exact .atToken (head_mem h) rfl

lemma tracks_failAt (h : ts <:+ all) (fault : TextFault) :
    Tracks ending all (failAt ending ts fault : Except Malformed (Step n α)) :=
  tracks_error (located_position h fault)

lemma tracks_unexpected (h : ts <:+ all) (place : Place) :
    Tracks ending all (unexpected ending ts place : Except Malformed (Step n α)) :=
  tracks_failAt h _

/-- What the first of two rules leaves is given to the second. -/
lemma Tracks.bind {result : Except Malformed (Step n α)}
    {next : Step n α → Except Malformed (Step m β)} (h : Tracks ending all result)
    (hnext : ∀ s : Step n α, s.rest <:+ all → Tracks ending all (next s)) :
    Tracks ending all (result >>= next) := by
  cases result with
  | error f => exact tracks_error (h.error f rfl)
  | ok s => exact hnext s (h.rest s rfl)

/-- What is made of what a rule has read leaves the same tokens. -/
lemma Tracks.map {result : Except Malformed (Step n α)} {f : Step n α → Step m β}
    (h : Tracks ending all result) (hf : ∀ s, (f s).rest = s.rest) :
    Tracks ending all (do return f (← result)) :=
  h.bind fun s hs => tracks_ok ((hf s).symm ▸ hs)

lemma located_of_reach {f : Malformed} (h : reach ending ts = .error f) : Located ending all f := by
  unfold reach at h
  split at h
  · split at h
    · cases h
    · cases h
      exact .atEnd rfl
  · cases h

lemma tracks_reach {next : Unit → Except Malformed (Step n α)}
    (hnext : Tracks ending all (next ())) : Tracks ending all (reach ending ts >>= next) := by
  cases hreach : reach ending ts with
  | error f => exact tracks_error (located_of_reach hreach)
  | ok _ => exact hnext

lemma tracks_take {l : Lexeme} (h : l :: ts <:+ all) (value : α) :
    Tracks ending all (take (l := l) ending ts value) :=
  tracks_reach (tracks_ok (tail_suffix h))

lemma tracks_expect (ending : Ending) (mark : Punct) (ts : List Lexeme) (h : ts <:+ all) :
    Tracks ending all (expect ending mark ts) := by
  unfold expect
  split
  · split
    · exact tracks_take h ()
    · exact tracks_failAt h _
  · exact tracks_failAt h _

/-- The token behind what was read, and what is behind that token. -/
lemma Step.suffix_of_next? {s after : Step n α} {l : Lexeme} (h : s.next? = some (l, after))
    (hs : s.rest <:+ all) : l :: after.rest <:+ all := by
  obtain ⟨value, _ | ⟨l', r⟩, fits⟩ := s
  · cases h
  · cases h
    exact hs

lemma suffix_of_first? {l : Lexeme} {after : Step (weight ts) Unit}
    (h : first? ts = some (l, after)) (hts : ts <:+ all) : after.rest <:+ all := by
  cases ts with
  | nil => cases h
  | cons l r =>
    cases h
    exact tail_suffix hts

end Tracks

/-! ## Holes -/

lemma holes_cons (part : Hole × String) (others : List (Hole × String)) :
    holes (part :: others) = do
      let e ← part.1.parse
      let es ← holes others
      return (e, part.2) :: es := by
  rw [holes]
  simp only [Hole.parse, tokensOfHole, bind_assoc, pure_bind]

/-- The error in holes is the error of one of them. -/
lemma exists_of_holes {parts : List (Hole × String)} {f : Malformed}
    (h : holes parts = .error f) : ∃ part ∈ parts, part.1.parse = .error f := by
  induction parts with
  | nil =>
    rw [holes] at h
    cases h
  | cons part others ih =>
    rw [holes_cons] at h
    cases hpart : part.1.parse with
    | error f' =>
      rw [hpart] at h
      cases h
      exact ⟨part, List.mem_cons_self, hpart⟩
    | ok e =>
      rw [hpart] at h
      cases hothers : holes others with
      | error f' =>
        rw [hothers] at h
        cases h
        obtain ⟨part', hmem, hpart'⟩ := ih hothers
        exact ⟨part', List.mem_cons_of_mem part hmem, hpart'⟩
      | ok es =>
        rw [hothers] at h
        cases h

/-! ## The rules for expressions -/

mutual

lemma tracks_assignment (ending : Ending) {all : List Lexeme} (ts : List Lexeme)
    (hts : ts <:+ all) : Tracks ending all (assignment ending ts) := by
  unfold assignment
  refine (tracks_conditional ending ts hts).bind fun target htarget => ?_
  split
  · rename_i p op e r h hnext
    have hr := Step.suffix_of_next? hnext htarget
    split
    · exact tracks_reach ((tracks_assignment ending r (tail_suffix hr)).map fun _ => rfl)
    · exact tracks_error (.atToken (head_mem hr) rfl)
  · exact tracks_ok htarget
termination_by weight ts * 16 + 9
decreasing_by all_goals omega

lemma tracks_conditional (ending : Ending) {all : List Lexeme} (ts : List Lexeme)
    (hts : ts <:+ all) : Tracks ending all (conditional ending ts) := by
  unfold conditional
  refine (tracks_binary ending 0 ts hts).bind fun test htest => ?_
  split
  · rename_i p e r h hnext
    have hr := tail_suffix (Step.suffix_of_next? hnext htest)
    refine tracks_reach ((tracks_assignment ending r hr).bind fun ⟨yes, r₁, h₁⟩ hr₁ => ?_)
    refine (tracks_expect ending .colon r₁ hr₁).bind fun ⟨_, r₂, h₂⟩ hr₂ => ?_
    exact (tracks_assignment ending r₂ hr₂).map fun _ => rfl
  · exact tracks_ok htest
termination_by weight ts * 16 + 8
decreasing_by all_goals omega

lemma tracks_binary (ending : Ending) {all : List Lexeme} (min : Nat) (ts : List Lexeme)
    (hts : ts <:+ all) : Tracks ending all (binary ending min ts) := by
  unfold binary
  refine (tracks_exponent ending ts hts).bind fun ⟨left, r, h⟩ hr => ?_
  exact (tracks_binaryTail ending min left r hr).map fun _ => rfl
termination_by weight ts * 16 + 7
decreasing_by all_goals omega

lemma tracks_binaryTail (ending : Ending) {all : List Lexeme} (min : Nat) (left : Expr)
    (ts : List Lexeme) (hts : ts <:+ all) :
    Tracks ending all (binaryTail ending min left ts) := by
  unfold binaryTail
  split
  · exact tracks_ok hts
  · rename_i l _ r h hfirst
    have hr := suffix_of_first? hfirst hts
    split
    · exact tracks_ok hts
    · rename_i strength op _
      split
      · exact tracks_ok hts
      · refine tracks_reach ((tracks_binary ending strength r hr).bind
          fun ⟨right, r₁, h₁⟩ hr₁ => ?_)
        exact (tracks_binaryTail ending min _ r₁ hr₁).map fun _ => rfl
termination_by weight ts * 16 + 7
decreasing_by all_goals omega

lemma tracks_exponent (ending : Ending) {all : List Lexeme} (ts : List Lexeme)
    (hts : ts <:+ all) : Tracks ending all (exponent ending ts) := by
  unfold exponent
  refine (tracks_unary ending ts hts).bind fun base hbase => ?_
  split
  · rename_i p e r h hnext
    have hr := Step.suffix_of_next? hnext hbase
    split
    · exact tracks_error (.atToken (head_mem hr) rfl)
    · exact tracks_reach ((tracks_exponent ending r (tail_suffix hr)).map fun _ => rfl)
  · exact tracks_ok hbase
termination_by weight ts * 16 + 6
decreasing_by all_goals omega

lemma tracks_unary (ending : Ending) {all : List Lexeme} (ts : List Lexeme)
    (hts : ts <:+ all) : Tracks ending all (unary ending ts) := by
  unfold unary
  split
  · exact tracks_suffixed ending ts hts
  · rename_i l _ r h hfirst
    have hr := suffix_of_first? hfirst hts
    split
    · exact tracks_reach ((tracks_unary ending r hr).map fun _ => rfl)
    · exact tracks_reach ((tracks_unary ending r hr).map fun _ => rfl)
    · exact tracks_suffixed ending ts hts
termination_by weight ts * 16 + 5
decreasing_by all_goals omega

lemma tracks_suffixed (ending : Ending) {all : List Lexeme} (ts : List Lexeme)
    (hts : ts <:+ all) : Tracks ending all (suffixed ending ts) := by
  unfold suffixed
  refine (tracks_access ending ts hts).bind fun operand hoperand => ?_
  split
  · rename_i l after hnext
    have hafter := tail_suffix (Step.suffix_of_next? hnext hoperand)
    split
    · exact tracks_reach (tracks_ok hafter)
    · exact tracks_ok hoperand
  · exact tracks_ok hoperand
termination_by weight ts * 16 + 4
decreasing_by all_goals omega

lemma tracks_access (ending : Ending) {all : List Lexeme} (ts : List Lexeme)
    (hts : ts <:+ all) : Tracks ending all (access ending ts) := by
  unfold access
  refine (tracks_operand ending ts hts).bind fun ⟨head, r, h⟩ hr => ?_
  exact (tracks_chain ending true head r hr).map fun _ => rfl
termination_by weight ts * 16 + 3
decreasing_by all_goals omega

lemma tracks_operand (ending : Ending) {all : List Lexeme} (ts : List Lexeme)
    (hts : ts <:+ all) : Tracks ending all (operand ending ts) := by
  unfold operand
  split
  · rename_i r
    refine tracks_reach ((tracks_operand ending r (tail_suffix hts)).bind
      fun ⟨head, r₁, h₁⟩ hr₁ => ?_)
    refine (tracks_chain ending false head r₁ hr₁).bind fun callee hcallee => ?_
    split
    · rename_i p' e r₂ h₂ hnext
      have hr₂ : r₂ <:+ all := tail_suffix (Step.suffix_of_next? hnext hcallee)
      exact tracks_reach ((tracks_items ending .rparen r₂ hr₂).map fun _ => rfl)
    · exact tracks_ok hcallee
  · exact tracks_primary ending ts hts
termination_by weight ts * 16 + 2
decreasing_by
  all_goals
    subst_vars
    simp -failIfUnchanged only [weight_cons, Token.weight_keyword]
    omega

lemma tracks_chain (ending : Ending) {all : List Lexeme} (calls : Bool) (head : Expr)
    (ts : List Lexeme) (hts : ts <:+ all) : Tracks ending all (chain ending calls head ts) := by
  unfold chain
  split
  · -- a dot at the end of the row
    exact tracks_reach (tracks_unexpected (tail_suffix hts) _)
  · -- a dot and one more token
    rename_i l r
    split
    · exact tracks_unexpected (tail_suffix hts) _
    · have hr := tail_suffix (tail_suffix hts)
      exact tracks_reach ((tracks_chain ending calls _ r hr).map fun _ => rfl)
  · -- a key in brackets
    rename_i r
    refine tracks_reach ((tracks_assignment ending r (tail_suffix hts)).bind
      fun ⟨key, r₁, h₁⟩ hr₁ => ?_)
    refine (tracks_expect ending .rbracket r₁ hr₁).bind fun ⟨_, r₂, h₂⟩ hr₂ => ?_
    exact (tracks_chain ending calls _ r₂ hr₂).map fun _ => rfl
  · -- arguments, if calls are allowed here
    rename_i p r
    split
    · refine tracks_reach ((tracks_items ending .rparen r (tail_suffix hts)).bind
        fun ⟨args, r₁, h₁⟩ hr₁ => ?_)
      exact (tracks_chain ending calls _ r₁ hr₁).map fun _ => rfl
    · exact tracks_ok hts
  · -- a template, which is no tag's
    split
    · exact tracks_error (.atToken (head_mem hts) rfl)
    · exact tracks_ok hts
  · exact tracks_ok hts
termination_by weight ts * 16 + 2
decreasing_by
  all_goals
    subst_vars
    simp -failIfUnchanged only [weight_cons, Token.weight_punct]
    omega

lemma tracks_items (ending : Ending) {all : List Lexeme} (close : Punct) (ts : List Lexeme)
    (hts : ts <:+ all) : Tracks ending all (items ending close ts) := by
  unfold items
  split
  · exact (tracks_expect ending close ts hts).map fun _ => rfl
  · split
    · exact tracks_failAt hts _
    · refine (tracks_assignment ending ts hts).bind fun ⟨item, r, h⟩ hr => ?_
      dsimp only
      split
      · exact (tracks_items ending close r hr).map fun _ => rfl
      · refine (tracks_expect ending .comma r hr).bind fun ⟨_, r₁, h₁⟩ hr₁ => ?_
        exact (tracks_items ending close r₁ hr₁).map fun _ => rfl
termination_by weight ts * 16 + 10
decreasing_by all_goals omega

lemma tracks_primary (ending : Ending) {all : List Lexeme} (ts : List Lexeme)
    (hts : ts <:+ all) : Tracks ending all (primary ending ts) := by
  unfold primary
  split
  · exact tracks_take hts _
  · exact tracks_take hts _
  · exact tracks_take hts _
  · exact tracks_take hts _
  · rename_i head parts r
    refine tracks_reach ?_
    cases hholes : holes parts with
    | error f =>
      -- a hole is read from a row of its own, so its error need not be at a token of this row
      obtain ⟨part, hpart, herror⟩ := exists_of_holes hholes
      exact tracks_error (.inHole (head_mem hts) hpart herror)
    | ok exprs => exact tracks_take hts _
  · -- a name, unless an arrow follows it
    split
    · exact tracks_failAt (tail_suffix hts) _
    · exact tracks_take hts _
  · exact tracks_take hts _
  · -- parentheses, unless an arrow follows them
    rename_i r
    refine tracks_reach ((tracks_assignment ending r (tail_suffix hts)).bind
      fun ⟨inner, r₁, h₁⟩ hr₁ => ?_)
    refine (tracks_expect ending .rparen r₁ hr₁).bind fun close hclose => ?_
    split
    · exact tracks_failAt hclose _
    · exact tracks_ok hclose
  · rename_i r
    exact tracks_reach ((tracks_items ending .rbracket r (tail_suffix hts)).map fun _ => rfl)
  · rename_i r
    exact tracks_reach ((tracks_entries ending r (tail_suffix hts)).map fun _ => rfl)
  · exact tracks_error (.atToken (head_mem hts) rfl)
  · exact tracks_unexpected hts _
termination_by weight ts * 16 + 1
decreasing_by
  all_goals
    subst_vars
    simp -failIfUnchanged only [weight_cons, Token.weight_punct]
    omega

lemma tracks_key (ending : Ending) {all : List Lexeme} (ts : List Lexeme)
    (hts : ts <:+ all) : Tracks ending all (key ending ts) := by
  unfold key
  split
  · exact tracks_take hts _
  · exact tracks_take hts _
  · exact tracks_take hts _
  · exact tracks_take hts _
  · rename_i r
    refine tracks_reach ((tracks_assignment ending r (tail_suffix hts)).bind fun inner hinner => ?_)
    split
    · rename_i p after hnext
      have hafter := tail_suffix (Step.suffix_of_next? hnext hinner)
      exact tracks_reach (tracks_ok hafter)
    · exact tracks_unexpected hinner _
  · exact tracks_unexpected hts _
termination_by weight ts * 16 + 10
decreasing_by
  all_goals
    subst_vars
    simp -failIfUnchanged only [weight_cons, Token.weight_punct]
    omega

lemma tracks_entries (ending : Ending) {all : List Lexeme} (ts : List Lexeme)
    (hts : ts <:+ all) : Tracks ending all (entries ending ts) := by
  unfold entries
  split
  · exact (tracks_expect ending .rbrace ts hts).map fun _ => rfl
  · refine (tracks_key ending ts hts).bind fun ⟨name, r, h⟩ hr => ?_
    refine (tracks_value ending name r hr).bind fun ⟨entry, r₁, h₁⟩ hr₁ => ?_
    dsimp only
    split
    · exact (tracks_entries ending r₁ hr₁).map fun _ => rfl
    · refine (tracks_expect ending .comma r₁ hr₁).bind fun ⟨_, r₂, h₂⟩ hr₂ => ?_
      exact (tracks_entries ending r₂ hr₂).map fun _ => rfl
termination_by weight ts * 16 + 11
decreasing_by all_goals omega

lemma tracks_value (ending : Ending) {all : List Lexeme} (name : Key Expr) (ts : List Lexeme)
    (hts : ts <:+ all) : Tracks ending all (value ending name ts) := by
  unfold value
  split
  · exact tracks_ok hts
  · refine (tracks_expect ending .colon ts hts).bind fun ⟨_, r, h⟩ hr => ?_
    exact (tracks_assignment ending r hr).map fun _ => rfl
termination_by weight ts * 16 + 10
decreasing_by all_goals omega

end

/-! ## The rules for statements -/

section Statement

variable {all : List Lexeme} (ending : Ending) (ts : List Lexeme)

lemma tracks_skipSemicolon (hts : ts <:+ all) : Tracks ending all (skipSemicolon ending ts) := by
  unfold skipSemicolon
  split
  · exact (tracks_expect ending .semicolon ts hts).map fun _ => rfl
  · exact tracks_ok hts

lemma tracks_identifier (place : Place) (hts : ts <:+ all) :
    Tracks ending all (identifier ending place ts) := by
  unfold identifier
  split
  · exact tracks_take hts _
  · exact tracks_unexpected hts _

lemma tracks_parenthesized (hts : ts <:+ all) : Tracks ending all (parenthesized ending ts) := by
  unfold parenthesized
  refine (tracks_expect ending .lparen ts hts).bind fun ⟨_, r, _⟩ hr => ?_
  refine (tracks_assignment ending r hr).bind fun ⟨_, r₁, _⟩ hr₁ => ?_
  exact (tracks_expect ending .rparen r₁ hr₁).map fun _ => rfl

lemma tracks_initialValue (hts : ts <:+ all) : Tracks ending all (initialValue ending ts) := by
  unfold initialValue
  split
  · rename_i r
    exact tracks_reach ((tracks_assignment ending r (tail_suffix hts)).map fun _ => rfl)
  · exact tracks_ok hts

lemma tracks_initializer (kind : DeclKind) (name : String) (hts : ts <:+ all) :
    Tracks ending all (initializer ending kind name ts) := by
  unfold initializer
  refine (tracks_initialValue ending ts hts).bind fun init hinit => ?_
  split
  · exact tracks_failAt hinit _
  · split
    · exact tracks_failAt hinit _
    · exact tracks_ok hinit

lemma tracks_declaration (kind : DeclKind) (hts : ts <:+ all) :
    Tracks ending all (declaration ending kind ts) := by
  unfold declaration
  split
  · exact tracks_unexpected hts _
  · rename_i l r
    refine tracks_reach ((tracks_identifier ending r .declaration (tail_suffix hts)).bind
      fun ⟨name, r₁, _⟩ hr₁ => ?_)
    exact (tracks_initializer ending r₁ kind name hr₁).map fun _ => rfl

lemma tracks_optional (mark : Punct) (hts : ts <:+ all) :
    Tracks ending all (optional ending mark ts) := by
  unfold optional
  split
  · exact tracks_ok hts
  · exact (tracks_assignment ending ts hts).map fun _ => rfl

lemma tracks_loopSteps (init : Option Stmt) (hts : ts <:+ all) :
    Tracks ending all (loopSteps ending init ts) := by
  unfold loopSteps
  refine (tracks_expect ending .semicolon ts hts).bind fun ⟨_, r₁, _⟩ hr₁ => ?_
  refine (tracks_optional ending r₁ .semicolon hr₁).bind fun ⟨_, r₂, _⟩ hr₂ => ?_
  refine (tracks_expect ending .semicolon r₂ hr₂).bind fun ⟨_, r₃, _⟩ hr₃ => ?_
  refine (tracks_optional ending r₃ .rparen hr₃).bind fun ⟨_, r₄, _⟩ hr₄ => ?_
  exact (tracks_expect ending .rparen r₄ hr₄).map fun _ => rfl

lemma tracks_loopMembers (kind : Option DeclKind) (name : String) (of : Bool) (hts : ts <:+ all) :
    Tracks ending all (loopMembers ending kind name of ts) := by
  unfold loopMembers
  refine (tracks_assignment ending ts hts).bind fun ⟨_, r, _⟩ hr => ?_
  exact (tracks_expect ending .rparen r hr).map fun _ => rfl

lemma tracks_declaredLoop (kind : DeclKind) (name : String) (hts : ts <:+ all) :
    Tracks ending all (declaredLoop ending kind name ts) := by
  unfold declaredLoop
  generalize memberWord? (front ts) = word
  split
  · rename_i of l r
    have hmembers := tracks_loopMembers ending r (some kind) name of (tail_suffix hts)
    exact tracks_reach (hmembers.map fun _ => rfl)
  · refine (tracks_initializer ending _ kind name hts).bind fun ⟨init, r, _⟩ hr => ?_
    exact (tracks_loopSteps ending r (some init) hr).map fun _ => rfl

lemma tracks_plainLoop (start : Expr) (hts : ts <:+ all) :
    Tracks ending all (plainLoop ending start ts) := by
  unfold plainLoop
  generalize memberWord? (front ts) = word
  split
  · exact tracks_take hts _
  · rename_i name of l r
    have hmembers := tracks_loopMembers ending r none name of (tail_suffix hts)
    exact tracks_reach (hmembers.map fun _ => rfl)
  · exact tracks_loopSteps ending _ _ hts

lemma tracks_loopHead (hts : ts <:+ all) : Tracks ending all (loopHead ending ts) := by
  unfold loopHead
  split
  · exact tracks_loopSteps ending ts none hts
  · generalize declKind? (front ts) = kind?
    split
    · rename_i kind l r _
      refine tracks_reach ((tracks_identifier ending r .loopHead (tail_suffix hts)).bind
        fun ⟨name, r₁, _⟩ hr₁ => ?_)
      exact (tracks_declaredLoop ending r₁ kind name hr₁).map fun _ => rfl
    · refine (tracks_assignment ending _ hts).bind fun ⟨start, r, _⟩ hr => ?_
      exact (tracks_plainLoop ending r start hr).map fun _ => rfl

lemma tracks_simpleStatement (hts : ts <:+ all) :
    Tracks ending all (simpleStatement ending ts) := by
  unfold simpleStatement
  generalize declKind? (front ts) = kind?
  split
  · exact tracks_declaration ending _ _ hts
  · rename_i r
    refine tracks_reach ?_
    split
    · exact tracks_take hts _
    · exact (tracks_assignment ending r (tail_suffix hts)).map fun _ => rfl
  · exact tracks_take hts _
  · exact tracks_take hts _
  · exact (tracks_assignment ending _ hts).map fun _ => rfl

lemma tracks_armTest (hts : ts <:+ all) : Tracks ending all (armTest ending ts) := by
  unfold armTest
  split
  · rename_i r
    refine tracks_reach ((tracks_assignment ending r (tail_suffix hts)).bind
      fun ⟨_, r₁, _⟩ hr₁ => ?_)
    exact (tracks_expect ending .colon r₁ hr₁).map fun _ => rfl
  · rename_i r
    exact tracks_reach ((tracks_expect ending .colon r (tail_suffix hts)).map fun _ => rfl)
  · exact tracks_unexpected hts _

end Statement

mutual

lemma tracks_statement (ending : Ending) {all : List Lexeme} (ts : List Lexeme)
    (hts : ts <:+ all) : Tracks ending all (statement ending ts) := by
  unfold statement
  split
  · rename_i r
    exact tracks_reach ((tracks_block ending r (tail_suffix hts)).map fun _ => rfl)
  · exact tracks_take hts _
  · -- a choice, with or without the other branch
    rename_i r
    refine tracks_reach ((tracks_parenthesized ending r (tail_suffix hts)).bind
      fun ⟨test, r₁, h₁⟩ hr₁ => ?_)
    refine (tracks_statement ending r₁ hr₁).bind fun yes hyes => ?_
    split
    · rename_i p' yes r₂ h₂ hnext
      have hr₂ : r₂ <:+ all := tail_suffix (Step.suffix_of_next? hnext hyes)
      exact tracks_reach ((tracks_statement ending r₂ hr₂).map fun _ => rfl)
    · exact tracks_ok hyes
  · -- a switch
    rename_i r
    refine tracks_reach ((tracks_parenthesized ending r (tail_suffix hts)).bind
      fun ⟨subject, r₁, h₁⟩ hr₁ => ?_)
    refine (tracks_expect ending .lbrace r₁ hr₁).bind fun ⟨_, r₂, h₂⟩ hr₂ => ?_
    exact (tracks_arms ending r₂ hr₂).map fun _ => rfl
  · -- the loops, with the test last in the third of them
    rename_i r
    refine tracks_reach ((tracks_expect ending .lparen r (tail_suffix hts)).bind
      fun ⟨_, r₁, h₁⟩ hr₁ => ?_)
    refine (tracks_loopHead ending r₁ hr₁).bind fun ⟨head, r₂, h₂⟩ hr₂ => ?_
    exact (tracks_statement ending r₂ hr₂).map fun _ => rfl
  · rename_i r
    refine tracks_reach ((tracks_parenthesized ending r (tail_suffix hts)).bind
      fun ⟨test, r₁, h₁⟩ hr₁ => ?_)
    exact (tracks_statement ending r₁ hr₁).map fun _ => rfl
  · rename_i r
    refine tracks_reach ((tracks_statement ending r (tail_suffix hts)).bind fun body hbody => ?_)
    split
    · rename_i p' body r₁ h₁ hnext
      have hr₁ : r₁ <:+ all := tail_suffix (Step.suffix_of_next? hnext hbody)
      refine tracks_reach ((tracks_parenthesized ending r₁ hr₁).bind fun ⟨test, r₂, h₂⟩ hr₂ => ?_)
      exact (tracks_skipSemicolon ending r₂ hr₂).map fun _ => rfl
    · exact tracks_unexpected hbody _
  · exact tracks_error (.atToken (head_mem hts) rfl)
  · refine (tracks_simpleStatement ending ts hts).bind fun ⟨simple, r, h⟩ hr => ?_
    exact (tracks_skipSemicolon ending r hr).map fun _ => rfl
termination_by weight ts * 4 + 1
decreasing_by
  all_goals
    subst_vars
    simp -failIfUnchanged only [weight_cons, Token.weight_punct, Token.weight_keyword]
    omega

lemma tracks_block (ending : Ending) {all : List Lexeme} (ts : List Lexeme)
    (hts : ts <:+ all) : Tracks ending all (block ending ts) := by
  unfold block
  split
  · exact (tracks_expect ending .rbrace ts hts).map fun _ => rfl
  · split
    · exact tracks_failAt hts _
    · refine (tracks_statement ending ts hts).bind fun ⟨first, r, h⟩ hr => ?_
      exact (tracks_block ending r hr).map fun _ => rfl
termination_by weight ts * 4 + 2
decreasing_by all_goals omega

lemma tracks_arms (ending : Ending) {all : List Lexeme} (ts : List Lexeme)
    (hts : ts <:+ all) : Tracks ending all (arms ending ts) := by
  unfold arms
  split
  · exact (tracks_expect ending .rbrace ts hts).map fun _ => rfl
  · refine (tracks_armTest ending ts hts).bind fun ⟨test, r, h⟩ hr => ?_
    refine (tracks_armBody ending r hr).bind fun ⟨body, r₁, h₁⟩ hr₁ => ?_
    exact (tracks_arms ending r₁ hr₁).map fun _ => rfl
termination_by weight ts * 4 + 3
decreasing_by all_goals omega

lemma tracks_armBody (ending : Ending) {all : List Lexeme} (ts : List Lexeme)
    (hts : ts <:+ all) : Tracks ending all (armBody ending ts) := by
  unfold armBody
  split
  · exact tracks_ok hts
  · refine (tracks_statement ending ts hts).bind fun ⟨first, r, h⟩ hr => ?_
    exact (tracks_armBody ending r hr).map fun _ => rfl
termination_by weight ts * 4 + 2
decreasing_by all_goals omega

end

/-! ## The rules for row functions -/

section Function

variable {all : List Lexeme} (ending : Ending) (ts : List Lexeme)

lemma tracks_parameters (hts : ts <:+ all) : Tracks ending all (parameters ending ts) := by
  unfold parameters
  refine (tracks_expect ending .lparen ts hts).bind fun ⟨_, r, _⟩ hr => ?_
  dsimp only
  split
  · exact (tracks_expect ending .rparen r hr).map fun _ => rfl
  · refine (tracks_identifier ending r .parameterList hr).bind fun ⟨_, r₁, _⟩ hr₁ => ?_
    dsimp only
    split
    · exact tracks_failAt hr₁ _
    · exact (tracks_expect ending .rparen r₁ hr₁).map fun _ => rfl

lemma tracks_arrowParameter (hts : ts <:+ all) :
    Tracks ending all (arrowParameter ending ts) := by
  unfold arrowParameter
  split
  · exact tracks_parameters ending ts hts
  · exact (tracks_identifier ending ts .parameter hts).map fun _ => rfl

lemma tracks_arrowBody (hts : ts <:+ all) : Tracks ending all (arrowBody ending ts) := by
  unfold arrowBody
  split
  · refine (tracks_expect ending .lbrace ts hts).bind fun ⟨_, r, _⟩ hr => ?_
    exact (tracks_block ending r hr).map fun _ => rfl
  · exact (tracks_assignment ending ts hts).map fun _ => rfl

lemma tracks_arrowFunction (hts : ts <:+ all) : Tracks ending all (arrowFunction ending ts) := by
  unfold arrowFunction
  refine (tracks_arrowParameter ending ts hts).bind fun ⟨_, r, _⟩ hr => ?_
  refine (tracks_expect ending .arrow r hr).bind fun ⟨_, r₁, _⟩ hr₁ => ?_
  exact (tracks_arrowBody ending r₁ hr₁).map fun _ => rfl

lemma tracks_skipName (hts : ts <:+ all) : Tracks ending all (skipName ending ts) := by
  unfold skipName
  split
  · exact (tracks_take hts _).map fun _ => rfl
  · exact tracks_ok hts

lemma tracks_wordFunction (hts : ts <:+ all) : Tracks ending all (wordFunction ending ts) := by
  unfold wordFunction
  refine (tracks_skipName ending ts hts).bind fun ⟨_, r, _⟩ hr => ?_
  refine (tracks_parameters ending r hr).bind fun ⟨_, r₁, _⟩ hr₁ => ?_
  dsimp only
  split
  · refine (tracks_expect ending .lbrace r₁ hr₁).bind fun ⟨_, r₂, _⟩ hr₂ => ?_
    exact (tracks_block ending r₂ hr₂).map fun _ => rfl
  · exact tracks_unexpected hr₁ _

lemma tracks_function (hts : ts <:+ all) : Tracks ending all (function ending ts) := by
  unfold function
  split
  · rename_i r
    exact tracks_reach ((tracks_wordFunction ending r (tail_suffix hts)).map fun _ => rfl)
  · exact tracks_arrowFunction ending _ hts

end Function

/-! ## Whole rows -/

section Whole

variable {α : Type} {n : Nat} {ending : Ending} {ts : List Lexeme}
  {result : Except Malformed (Step n α)}

/-- If a rule has to read a row to its end, then its error is in the row. -/
lemma located_of_whole (htracks : Tracks ending ts result) {m : Malformed}
    (h : (do
      reach ending ts
      let step ← result
      expectEnd ending step.rest
      return step.value) = .error m) : Located ending ts m := by
  cases hreach : reach ending ts with
  | error f =>
    rw [hreach] at h
    cases h
    exact located_of_reach hreach
  | ok _ =>
    rw [hreach] at h
    cases result with
    | error f =>
      cases h
      exact htracks.error _ rfl
    | ok s =>
      obtain ⟨value, _ | ⟨l, r⟩, fits⟩ := s
      · cases h
      · cases h
        exact located_position (htracks.rest _ rfl) _

/-- A rule that leaves less than it was given has taken a token. -/
lemma Tracks.exists_taken {result : Except Malformed (Step (weight ts) α)}
    (htracks : Tracks ending ts result) {s : Step (weight ts) α} (h : result = .ok s) :
    ∃ taken, taken ≠ [] ∧ ts = taken ++ s.rest := by
  obtain ⟨taken, htaken⟩ := htracks.rest s h
  refine ⟨taken, ?_, htaken.symm⟩
  rintro rfl
  rw [List.nil_append] at htaken
  exact absurd s.fits (by rw [htaken]; exact lt_irrefl _)

end Whole

end Grammar

end RowExpr
