/-
# Tokens that differ in their places

The rules of the grammar look at the places of tokens for their errors only.  Two rows of tokens
that differ in their places, and in the places of the holes of their templates, are read as the same
expression, or neither is read.  What is read as an expression has as many braces that open as
braces that close, and never more of the latter: the tokens behind it are as deep as the tokens in
front of it.

* `Grammar.carries_assignment`: what is read from one row is read from the other, and the depth is
  the same behind it.
-/
import RowExpr.Proofs.Check.Expression
import RowExpr.Proofs.Token.Alike
import RowExpr.Proofs.Token.Braces

namespace RowExpr

namespace Grammar

/-! ## Tokens in front -/

section Front

variable {γ : Type} {token token' : Token} {ts ts' : List Lexeme}

/-- What is asked of a token has the same answer for both, if the holes of a template do not enter
into it. -/
lemma eq_of_alike (h : token.Alike token') (f : Token → γ)
    (hf : ∀ head parts parts', f (.template head parts') = f (.template head parts)) :
    f token' = f token := by
  cases h with
  | refl => rfl
  | template _ => exact hf _ _ _

lemma startsWith_alike (h : Alike ts ts') (mark : Punct) :
    startsWith mark ts' = startsWith mark ts := by
  cases h with
  | nil => rfl
  | @cons l l' _ _ hl _ =>
    obtain ⟨_, token⟩ := l
    obtain ⟨_, token'⟩ := l'
    cases hl with
    | refl => cases token <;> rfl
    | template => rfl

lemma unary?_front_alike (h : Alike ts ts') : unary? (front ts') = unary? (front ts) := by
  cases h with
  | nil => rfl
  | cons hl _ => exact eq_of_alike hl unary? fun _ _ _ => rfl

/-- The depth that each depth in front of the tokens becomes behind them. -/
abbrev level (ts : List Lexeme) : Nat → Option Nat := (depthBehindAll · ts)

lemma level_cons {l : Lexeme} (h : ∀ n, Token.depthBehind n l.token = some n) :
    level (l :: ts) = level ts := by
  funext n
  rw [level, depthBehindAll, h]
  rfl

/-- A token with an answer to a question that no brace answers leaves the depth as it is. -/
lemma level_cons_of_eq_some {l : Lexeme} {f : Token → Option γ} {answer : γ}
    (h : f l.token = some answer) (hopen : f (.punct .lbrace) = none)
    (hclose : f (.punct .rbrace) = none) : level (l :: ts) = level ts := by
  refine level_cons fun n => ?_
  cases htoken : l.token with
  | punct mark =>
    rw [htoken] at h
    cases mark with
    | lbrace => cases hopen.symm.trans h
    | rbrace => cases hclose.symm.trans h
    | _ => rfl
  | _ => rfl

end Front

/-! ## What is carried from one row to the other -/

section Carries

variable {α β : Type} {n n' m m' : Nat} {ending ending' : Ending} {depth depth' : Nat → Option Nat}

/-- What the first rule reads is read by the second one as well, and leaves the same tokens.  Where
the tokens that are left stand, the depth is the given one, and no fault. -/
def Carries (ending : Ending) (depth : Nat → Option Nat) (result : Except Malformed (Step n α))
    (result' : Except Malformed (Step n' α)) : Prop :=
  ∀ s, result = .ok s → level s.rest = depth ∧ reach ending s.rest = .ok () ∧
    ∃ s', result' = .ok s' ∧ s'.value = s.value ∧ Alike s.rest s'.rest

lemma carries_error (f : Malformed) {result' : Except Malformed (Step n' α)} :
    Carries ending depth (.error f : Except Malformed (Step n α)) result' :=
  nofun

lemma carries_ok {s : Step n α} {s' : Step n' α} (hdepth : level s.rest = depth)
    (hreach : reach ending s.rest = .ok ()) (hrest : Alike s.rest s'.rest)
    (hvalue : s'.value = s.value) : Carries ending depth (.ok s) (.ok s') := by
  rintro _ ⟨rfl⟩
  exact ⟨hdepth, hreach, s', rfl, hvalue, hrest⟩

/-- What is carried by the first of two rules goes into the second. -/
lemma Carries.bind {result : Except Malformed (Step n α)} {result' : Except Malformed (Step n' α)}
    {next : Step n α → Except Malformed (Step m β)}
    {next' : Step n' α → Except Malformed (Step m' β)}
    (h : Carries ending depth result result')
    (hnext : ∀ value rest fits rest' fits', level rest = depth → reach ending rest = .ok () →
      Alike rest rest' → Carries ending depth' (next ⟨value, rest, fits⟩)
        (next' ⟨value, rest', fits'⟩)) :
    Carries ending depth' (result >>= next) (result' >>= next') := by
  cases result with
  | error f => exact carries_error f
  | ok s =>
    obtain ⟨hdepth, hreach, s', rfl, hvalue, hrest⟩ := h s rfl
    obtain ⟨value, rest, fits⟩ := s
    obtain ⟨value', rest', fits'⟩ := s'
    obtain rfl : value' = value := hvalue
    exact hnext value' rest fits rest' fits' hdepth hreach hrest

lemma reach_alike (he : ending.Alike ending') {ts ts' : List Lexeme} (h : Alike ts ts')
    (hreach : reach ending ts = .ok ()) : reach ending' ts' = .ok () := by
  cases h with
  | nil =>
    cases ending with
    | eof stop =>
      obtain ⟨stop', rfl⟩ := he ⟨stop, rfl⟩
      rfl
    | fault f => cases hreach
  | cons _ _ => rfl

/-- A row that must not end with a fault here goes on, and so does the other. -/
lemma carries_reach (he : ending.Alike ending') {ts ts' : List Lexeme} (h : Alike ts ts')
    {result : Except Malformed (Step n α)} {result' : Except Malformed (Step n' α)}
    (hnext : reach ending ts = .ok () → Carries ending depth result result') :
    Carries ending depth (reach ending ts >>= fun _ => result)
      (reach ending' ts' >>= fun _ => result') := by
  cases hreach : reach ending ts with
  | error f => exact carries_error f
  | ok _ =>
    rw [reach_alike he h hreach]
    exact hnext hreach

lemma carries_take (he : ending.Alike ending') {l l' : Lexeme} {r r' : List Lexeme} (h : Alike r r')
    (hdepth : level r = depth) (value : α) :
    Carries ending depth (take (l := l) ending r value) (take (l := l') ending' r' value) :=
  carries_reach he h fun hreach => carries_ok hdepth hreach h rfl

/-- A mark that is expected is taken from both rows. -/
lemma carries_expect_of (he : ending.Alike ending') {ts ts' : List Lexeme} (h : Alike ts ts')
    {mark : Punct} (hdepth : ∀ p r, ts = ⟨p, .punct mark⟩ :: r → level r = depth) :
    Carries ending depth (expect ending mark ts) (expect ending' mark ts') := by
  cases h with
  | nil => exact carries_error _
  | @cons l l' r r' hl hr =>
    obtain ⟨p, token⟩ := l
    obtain ⟨p', token'⟩ := l'
    cases token with
    | punct m =>
      cases hl
      unfold expect
      dsimp only
      by_cases hm : m = mark
      · rw [if_pos hm, if_pos hm]
        exact carries_take he hr (hdepth p r (by rw [hm])) ()
      · rw [if_neg hm]
        exact carries_error _
    | _ => exact carries_error _

lemma carries_expect (he : ending.Alike ending') {ts ts' : List Lexeme} (h : Alike ts ts')
    (hdepth : level ts = depth) {mark : Punct}
    (hmark : ∀ n, Token.depthBehind n (.punct mark) = some n) :
    Carries ending depth (expect ending mark ts) (expect ending' mark ts') := by
  refine carries_expect_of he h ?_
  rintro p r rfl
  exact (level_cons hmark).symm.trans hdepth

lemma carries_expect_rbrace (he : ending.Alike ending') {ts ts' : List Lexeme} (h : Alike ts ts')
    (hdepth : (fun n => level ts (n + 1)) = depth) :
    Carries ending depth (expect ending .rbrace ts) (expect ending' .rbrace ts') := by
  refine carries_expect_of he h ?_
  rintro p r rfl
  exact hdepth

end Carries

/-! ## Whole rows -/

lemma expectEnd_eq_ok_iff {ending : Ending} {ts : List Lexeme} {u : Unit} :
    expectEnd ending ts = .ok u ↔ ts = [] := by
  cases ts with
  | nil => exact iff_of_true rfl rfl
  | cons l r => exact iff_of_false nofun nofun

/-- All of the tokens are read as the expression, and the text ends behind them. -/
def Whole (run : TokenRun) (e : Expr) : Prop :=
  reach run.ending run.tokens = .ok () ∧
    ∃ step, assignment run.ending run.tokens = .ok step ∧ step.rest = [] ∧ step.value = e

lemma Whole.of_carries {run run' : TokenRun} {e : Expr} (h : Whole run e)
    (he : run.ending.Alike run'.ending) (htokens : Alike run.tokens run'.tokens)
    (hcarries : Carries run.ending (level run.tokens) (assignment run.ending run.tokens)
      (assignment run'.ending run'.tokens)) : Whole run' e := by
  obtain ⟨hreach, step, hstep, hend, hvalue⟩ := h
  obtain ⟨_, _, step', hstep', hvalue', hrest⟩ := hcarries step hstep
  rw [hend] at hrest
  exact ⟨reach_alike he htokens hreach, step', hstep', List.forall₂_nil_left_iff.mp hrest,
    hvalue'.trans hvalue⟩

lemma holes_cons_eq_ok_iff {part : Hole × String} {others : List (Hole × String)}
    {exprs : List (Expr × String)} :
    holes (part :: others) = .ok exprs ↔
      ∃ e es, Whole (TokenRun.ofText part.1.position part.1.source) e ∧ holes others = .ok es ∧
        (e, part.2) :: es = exprs := by
  rw [holes]
  simp only [tokensOfHole, Expr.bind_eq_ok_iff, expectEnd_eq_ok_iff, pure, Except.pure,
    Except.ok.injEq]
  constructor
  · rintro ⟨_, hreach, step, hstep, _, hend, es, hes, rfl⟩
    exact ⟨step.value, es, ⟨hreach, step, hstep, hend, rfl⟩, hes, rfl⟩
  · rintro ⟨_, es, ⟨hreach, step, hstep, hend, rfl⟩, hes, rfl⟩
    exact ⟨(), hreach, step, hstep, (), hend, es, hes, rfl⟩

/-! ## The rules for expressions

One statement for each rule, with the weights that the rules themselves end by.  The cases are the
tokens that the rule looks at; on all others it leaves the row as it is or fails. -/

mutual

lemma carries_assignment {ending ending' : Ending} (he : ending.Alike ending')
    {ts ts' : List Lexeme} (h : Alike ts ts') :
    Carries ending (level ts) (assignment ending ts) (assignment ending' ts') := by
  unfold assignment
  refine (carries_conditional he h).bind fun target rest fits rest' fits' hdepth hreach hrest => ?_
  cases hrest with
  | nil => exact carries_ok hdepth hreach .nil rfl
  | @cons l l' r r' hl hr =>
    have hlt := (weight_lt_cons l r).trans fits
    have hall : Alike (l :: r) (l' :: r') := .cons hl hr
    obtain ⟨p, token⟩ := l
    obtain ⟨p', token'⟩ := l'
    cases token with
    | assign op =>
      cases hl
      dsimp only [Step.next?]
      split
      · refine carries_reach he hr fun _ => ?_
        refine (carries_assignment he hr).bind fun value _ _ _ _ hdepth' hreach' hrest' => ?_
        exact carries_ok (hdepth'.trans hdepth) hreach' hrest' rfl
      · exact carries_error _
    | _ => cases hl <;> exact carries_ok hdepth hreach hall rfl
termination_by weight ts * 16 + 9
decreasing_by all_goals omega

lemma carries_conditional {ending ending' : Ending} (he : ending.Alike ending')
    {ts ts' : List Lexeme} (h : Alike ts ts') :
    Carries ending (level ts) (conditional ending ts) (conditional ending' ts') := by
  unfold conditional
  refine (carries_binary he 0 h).bind fun test rest fits rest' fits' hdepth hreach hrest => ?_
  cases hrest with
  | nil => exact carries_ok hdepth hreach .nil rfl
  | @cons l l' r r' hl hr =>
    have hlt := (weight_lt_cons l r).trans fits
    have hall : Alike (l :: r) (l' :: r') := .cons hl hr
    obtain ⟨p, token⟩ := l
    obtain ⟨p', token'⟩ := l'
    cases token with
    | punct mark =>
      cases hl
      cases mark with
      | question =>
        refine carries_reach he hr fun _ => ?_
        refine (carries_assignment he hr).bind fun yes r₁ h₁ r₁' _ hdepth₁ _ hr₁ => ?_
        refine (carries_expect he hr₁ (hdepth₁.trans hdepth) fun _ => rfl).bind
          fun _ r₂ h₂ r₂' _ hdepth₂ _ hr₂ => ?_
        refine (carries_assignment he hr₂).bind fun no _ _ _ _ hdepth₃ hreach₃ hr₃ => ?_
        exact carries_ok (hdepth₃.trans hdepth₂) hreach₃ hr₃ rfl
      | _ => exact carries_ok hdepth hreach hall rfl
    | _ => cases hl <;> exact carries_ok hdepth hreach hall rfl
termination_by weight ts * 16 + 8
decreasing_by all_goals omega

lemma carries_binary {ending ending' : Ending} (he : ending.Alike ending') (min : Nat)
    {ts ts' : List Lexeme} (h : Alike ts ts') :
    Carries ending (level ts) (binary ending min ts) (binary ending' min ts') := by
  unfold binary
  refine (carries_exponent he h).bind fun left r fits r' fits' hdepth hreach hr => ?_
  refine (carries_binaryTail he min left hr hreach).bind fun _ _ _ _ _ hdepth' hreach' hr' => ?_
  exact carries_ok (hdepth'.trans hdepth) hreach' hr' rfl
termination_by weight ts * 16 + 7
decreasing_by all_goals omega

lemma carries_binaryTail {ending ending' : Ending} (he : ending.Alike ending') (min : Nat)
    (left : Expr) {ts ts' : List Lexeme} (h : Alike ts ts') (hreach : reach ending ts = .ok ()) :
    Carries ending (level ts) (binaryTail ending min left ts)
      (binaryTail ending' min left ts') := by
  unfold binaryTail
  cases h with
  | nil => exact carries_ok rfl hreach .nil rfl
  | @cons l l' r r' hl hr =>
    have hall : Alike (l :: r) (l' :: r') := .cons hl hr
    have hlt := weight_lt_cons l r
    dsimp only [first?]
    rw [eq_of_alike hl infixOp? fun _ _ _ => rfl]
    cases hop : infixOp? l.token with
    | none => exact carries_ok rfl hreach hall rfl
    | some op =>
      obtain ⟨strength, op⟩ := op
      have hdepth : level r = level (l :: r) := (level_cons_of_eq_some hop rfl rfl).symm
      dsimp only
      split
      · exact carries_ok rfl hreach hall rfl
      · refine carries_reach he hr fun _ => ?_
        refine (carries_binary he strength hr).bind fun right r₁ h₁ r₁' _ hdepth₁ hreach₁ hr₁ => ?_
        refine (carries_binaryTail he min (op.apply left right) hr₁ hreach₁).bind
          fun _ _ _ _ _ hdepth₂ hreach₂ hr₂ => ?_
        exact carries_ok (hdepth₂.trans (hdepth₁.trans hdepth)) hreach₂ hr₂ rfl
termination_by weight ts * 16 + 7
decreasing_by
  all_goals subst_vars
  all_goals omega

lemma carries_exponent {ending ending' : Ending} (he : ending.Alike ending')
    {ts ts' : List Lexeme} (h : Alike ts ts') :
    Carries ending (level ts) (exponent ending ts) (exponent ending' ts') := by
  unfold exponent
  refine (carries_unary he h).bind fun base rest fits rest' fits' hdepth hreach hrest => ?_
  cases hrest with
  | nil => exact carries_ok hdepth hreach .nil rfl
  | @cons l l' r r' hl hr =>
    have hlt := (weight_lt_cons l r).trans fits
    have hall : Alike (l :: r) (l' :: r') := .cons hl hr
    obtain ⟨p, token⟩ := l
    obtain ⟨p', token'⟩ := l'
    cases token with
    | punct mark =>
      cases hl
      cases mark with
      | starStar =>
        dsimp only [Step.next?]
        rw [unary?_front_alike h]
        split
        · exact carries_error _
        · refine carries_reach he hr fun _ => ?_
          refine (carries_exponent he hr).bind fun power _ _ _ _ hdepth' hreach' hr' => ?_
          exact carries_ok (hdepth'.trans hdepth) hreach' hr' rfl
      | _ => exact carries_ok hdepth hreach hall rfl
    | _ => cases hl <;> exact carries_ok hdepth hreach hall rfl
termination_by weight ts * 16 + 6
decreasing_by all_goals omega

lemma carries_unary {ending ending' : Ending} (he : ending.Alike ending')
    {ts ts' : List Lexeme} (h : Alike ts ts') :
    Carries ending (level ts) (unary ending ts) (unary ending' ts') := by
  unfold unary
  cases h with
  | nil => exact carries_suffixed he .nil
  | @cons l l' r r' hl hr =>
    have hall : Alike (l :: r) (l' :: r') := .cons hl hr
    have hlt := weight_lt_cons l r
    dsimp only [first?]
    rw [eq_of_alike hl unary? fun _ _ _ => rfl, eq_of_alike hl update? fun _ _ _ => rfl]
    cases hunary : unary? l.token with
    | some op =>
      have hdepth : level r = level (l :: r) := (level_cons_of_eq_some hunary rfl rfl).symm
      refine carries_reach he hr fun _ => ?_
      refine (carries_unary he hr).bind fun argument _ _ _ _ hdepth' hreach' hr' => ?_
      exact carries_ok (hdepth'.trans hdepth) hreach' hr' rfl
    | none =>
      cases hupdate : update? l.token with
      | some op =>
        have hdepth : level r = level (l :: r) := (level_cons_of_eq_some hupdate rfl rfl).symm
        refine carries_reach he hr fun _ => ?_
        refine (carries_unary he hr).bind fun argument _ _ _ _ hdepth' hreach' hr' => ?_
        exact carries_ok (hdepth'.trans hdepth) hreach' hr' rfl
      | none => exact carries_suffixed he hall
termination_by weight ts * 16 + 5
decreasing_by
  all_goals subst_vars
  all_goals omega

lemma carries_suffixed {ending ending' : Ending} (he : ending.Alike ending')
    {ts ts' : List Lexeme} (h : Alike ts ts') :
    Carries ending (level ts) (suffixed ending ts) (suffixed ending' ts') := by
  unfold suffixed
  refine (carries_access he h).bind fun operand rest fits rest' fits' hdepth hreach hrest => ?_
  cases hrest with
  | nil => exact carries_ok hdepth hreach .nil rfl
  | @cons l l' r r' hl hr =>
    have hall : Alike (l :: r) (l' :: r') := .cons hl hr
    dsimp only [Step.next?]
    rw [eq_of_alike hl update? fun _ _ _ => rfl]
    cases hupdate : update? l.token with
    | none => exact carries_ok hdepth hreach hall rfl
    | some op =>
      have hcons : level (l :: r) = level r := level_cons_of_eq_some hupdate rfl rfl
      exact carries_reach he hr fun hreach' => carries_ok (hcons.symm.trans hdepth) hreach' hr rfl
termination_by weight ts * 16 + 4
decreasing_by all_goals omega

lemma carries_access {ending ending' : Ending} (he : ending.Alike ending')
    {ts ts' : List Lexeme} (h : Alike ts ts') :
    Carries ending (level ts) (access ending ts) (access ending' ts') := by
  unfold access
  refine (carries_operand he h).bind fun head r fits r' fits' hdepth hreach hr => ?_
  refine (carries_chain he true head hr hreach).bind fun _ _ _ _ _ hdepth' hreach' hr' => ?_
  exact carries_ok (hdepth'.trans hdepth) hreach' hr' rfl
termination_by weight ts * 16 + 3
decreasing_by all_goals omega

lemma carries_operand {ending ending' : Ending} (he : ending.Alike ending')
    {ts ts' : List Lexeme} (h : Alike ts ts') :
    Carries ending (level ts) (operand ending ts) (operand ending' ts') := by
  have hprimary := carries_primary he h
  unfold operand
  cases h with
  | nil => exact hprimary
  | @cons l l' r r' hl hr =>
    have hlt := weight_lt_cons l r
    obtain ⟨p, token⟩ := l
    obtain ⟨p', token'⟩ := l'
    cases token with
    | keyword word =>
      cases hl
      cases word with
      | new =>
        refine carries_reach he hr fun _ => ?_
        refine (carries_operand he hr).bind fun head r₁ h₁ r₁' _ hdepth₁ hreach₁ hr₁ => ?_
        refine (carries_chain he false head hr₁ hreach₁).bind
          fun callee r₂ h₂ r₂' _ hdepth₂ hreach₂ hr₂ => ?_
        have hdepth := hdepth₂.trans hdepth₁
        cases hr₂ with
        | nil => exact carries_ok hdepth hreach₂ .nil rfl
        | @cons l l' r₃ r₃' hl hr₃ =>
          have hlt₃ := weight_lt_cons l r₃
          have hall₃ : Alike (l :: r₃) (l' :: r₃') := .cons hl hr₃
          obtain ⟨_, token⟩ := l
          obtain ⟨_, token'⟩ := l'
          cases token with
          | punct mark =>
            cases hl
            cases mark with
            | lparen =>
              refine carries_reach he hr₃ fun _ => ?_
              refine (carries_items he (fun _ => rfl) hr₃).bind
                fun args _ _ _ _ hdepth₄ hreach₄ hr₄ => ?_
              exact carries_ok (hdepth₄.trans hdepth) hreach₄ hr₄ rfl
            | _ => exact carries_ok hdepth hreach₂ hall₃ rfl
          | _ => cases hl <;> exact carries_ok hdepth hreach₂ hall₃ rfl
      | _ => exact hprimary
    | _ => cases hl <;> exact hprimary
termination_by weight ts * 16 + 2
decreasing_by
  all_goals subst_vars
  all_goals omega

lemma carries_chain {ending ending' : Ending} (he : ending.Alike ending') (calls : Bool)
    (head : Expr) {ts ts' : List Lexeme} (h : Alike ts ts') (hreach : reach ending ts = .ok ()) :
    Carries ending (level ts) (chain ending calls head ts) (chain ending' calls head ts') := by
  unfold chain
  cases h with
  | nil => exact carries_ok rfl hreach .nil rfl
  | @cons l l' r r' hl hr =>
    have hall : Alike (l :: r) (l' :: r') := .cons hl hr
    have hlt := weight_lt_cons l r
    obtain ⟨p, token⟩ := l
    obtain ⟨p', token'⟩ := l'
    cases token with
    | punct mark =>
      cases hl
      cases mark with
      | dot =>
        cases hr with
        | nil => exact carries_reach he .nil fun _ => carries_error _
        | @cons l l' r r' hl hr =>
          have hlt := weight_lt_cons l r
          dsimp only
          rw [eq_of_alike hl propertyName? fun _ _ _ => rfl]
          cases hname : propertyName? l.token with
          | none => exact carries_error _
          | some name =>
            have hdepth : level r = level (l :: r) :=
              (level_cons_of_eq_some hname rfl rfl).symm
            refine carries_reach he hr fun hreach' => ?_
            refine (carries_chain he calls (.member head name) hr hreach').bind
              fun _ _ _ _ _ hdepth₁ hreach₁ hr₁ => ?_
            exact carries_ok (hdepth₁.trans hdepth) hreach₁ hr₁ rfl
      | lbracket =>
        refine carries_reach he hr fun _ => ?_
        refine (carries_assignment he hr).bind fun key r₁ h₁ r₁' _ hdepth₁ _ hr₁ => ?_
        refine (carries_expect he hr₁ hdepth₁ fun _ => rfl).bind
          fun _ r₂ h₂ r₂' _ hdepth₂ hreach₂ hr₂ => ?_
        refine (carries_chain he calls (.index head key) hr₂ hreach₂).bind
          fun _ _ _ _ _ hdepth₃ hreach₃ hr₃ => ?_
        exact carries_ok (hdepth₃.trans hdepth₂) hreach₃ hr₃ rfl
      | lparen =>
        cases calls with
        | true =>
          refine carries_reach he hr fun _ => ?_
          refine (carries_items he (fun _ => rfl) hr).bind
            fun args r₁ h₁ r₁' _ hdepth₁ hreach₁ hr₁ => ?_
          refine (carries_chain he true (.call head args) hr₁ hreach₁).bind
            fun _ _ _ _ _ hdepth₂ hreach₂ hr₂ => ?_
          exact carries_ok (hdepth₂.trans hdepth₁) hreach₂ hr₂ rfl
        | false => exact carries_ok rfl hreach hall rfl
      | _ => exact carries_ok rfl hreach hall rfl
    | template text parts =>
      cases calls with
      | true => exact carries_error _
      | false => cases hl <;> exact carries_ok rfl hreach hall rfl
    | _ =>
      cases hl
      exact carries_ok rfl hreach hall rfl
termination_by weight ts * 16 + 2
decreasing_by
  all_goals subst_vars
  all_goals omega

lemma carries_items {ending ending' : Ending} (he : ending.Alike ending') {close : Punct}
    (hclose : ∀ n, Token.depthBehind n (.punct close) = some n) {ts ts' : List Lexeme}
    (h : Alike ts ts') :
    Carries ending (level ts) (items ending close ts) (items ending' close ts') := by
  unfold items
  rw [startsWith_alike h, startsWith_alike h]
  split
  · refine (carries_expect he h rfl hclose).bind fun _ _ _ _ _ hdepth hreach hr => ?_
    exact carries_ok hdepth hreach hr rfl
  · split
    · exact carries_error _
    · refine (carries_assignment he h).bind fun item r fits r' _ hdepth hreach hr => ?_
      dsimp only
      rw [startsWith_alike hr]
      split
      · refine (carries_items he hclose hr).bind fun others _ _ _ _ hdepth₁ hreach₁ hr₁ => ?_
        exact carries_ok (hdepth₁.trans hdepth) hreach₁ hr₁ rfl
      · refine (carries_expect he hr hdepth fun _ => rfl).bind
          fun _ r₁ h₁ r₁' _ hdepth₁ _ hr₁ => ?_
        refine (carries_items he hclose hr₁).bind fun others _ _ _ _ hdepth₂ hreach₂ hr₂ => ?_
        exact carries_ok (hdepth₂.trans hdepth₁) hreach₂ hr₂ rfl
termination_by weight ts * 16 + 10
decreasing_by all_goals omega

lemma carries_primary {ending ending' : Ending} (he : ending.Alike ending')
    {ts ts' : List Lexeme} (h : Alike ts ts') :
    Carries ending (level ts) (primary ending ts) (primary ending' ts') := by
  have hholes {p : Nat} {head : String} {parts parts' : List (Hole × String)} {r : List Lexeme}
      (hts : ts = ⟨p, .template head parts⟩ :: r) (hparts : HolesAlike parts parts')
      {exprs : List (Expr × String)} (hok : holes parts = .ok exprs) :
      holes parts' = .ok exprs := by
    -- the holes weigh less than the template they stand in
    have hlt : holesWeight parts < weight ts := by
      rw [hts, weight_cons, Token.weight_template]
      omega
    exact holes_alike hparts hok
  unfold primary
  cases h with
  | nil => exact carries_error _
  | @cons l l' r r' hl hr =>
    have hlt := weight_lt_cons l r
    obtain ⟨p, token⟩ := l
    obtain ⟨p', token'⟩ := l'
    cases token with
    | number value raw =>
      cases hl
      exact carries_take he hr rfl _
    | string value raw =>
      cases hl
      exact carries_take he hr rfl _
    | boolean value =>
      cases hl
      exact carries_take he hr rfl _
    | null =>
      cases hl
      exact carries_take he hr rfl _
    | template head parts =>
      obtain ⟨parts', rfl, hparts⟩ := hl.exists_template
      refine carries_reach he hr fun _ => ?_
      cases hok : holes parts with
      | error f => exact carries_error f
      | ok exprs =>
        rw [hholes rfl hparts hok]
        exact carries_take he hr rfl _
    | identifier name =>
      cases hl
      dsimp only
      rw [startsWith_alike hr]
      split
      · exact carries_error _
      · exact carries_take he hr rfl _
    | keyword word =>
      cases hl
      cases word with
      | this => exact carries_take he hr rfl _
      | _ => exact carries_error _
    | punct mark =>
      cases hl
      cases mark with
      | lparen =>
        refine carries_reach he hr fun _ => ?_
        refine (carries_assignment he hr).bind fun inner r₁ h₁ r₁' _ hdepth₁ _ hr₁ => ?_
        refine (carries_expect he hr₁ hdepth₁ fun _ => rfl).bind
          fun _ r₂ h₂ r₂' _ hdepth₂ hreach₂ hr₂ => ?_
        dsimp only
        rw [startsWith_alike hr₂]
        split
        · exact carries_error _
        · exact carries_ok hdepth₂ hreach₂ hr₂ rfl
      | lbracket =>
        refine carries_reach he hr fun _ => ?_
        refine (carries_items he (fun _ => rfl) hr).bind
          fun _ _ _ _ _ hdepth₁ hreach₁ hr₁ => ?_
        exact carries_ok hdepth₁ hreach₁ hr₁ rfl
      | lbrace =>
        refine carries_reach he hr fun _ => ?_
        refine (carries_entries he hr).bind fun _ _ _ _ _ hdepth₁ hreach₁ hr₁ => ?_
        exact carries_ok hdepth₁ hreach₁ hr₁ rfl
      | _ => exact carries_error _
    | _ => exact carries_error _
termination_by weight ts * 16 + 1
decreasing_by
  all_goals subst_vars
  all_goals omega

lemma holes_alike {parts parts' : List (Hole × String)} (h : HolesAlike parts parts')
    {exprs : List (Expr × String)} (hholes : holes parts = .ok exprs) :
    holes parts' = .ok exprs := by
  cases h with
  | nil => exact hholes
  | @cons part part' others others' hpart hothers =>
    obtain ⟨e, es, hwhole, hes, rfl⟩ := holes_cons_eq_ok_iff.mp hholes
    -- the tokens of a hole are read on their own, each time from the place of the hole
    have hlt := weight_ofText part.1.position part.1.source
    obtain ⟨htokens, hending⟩ :=
      TokenRun.alike_ofText part.1.position part'.1.position part.1.source
    have hwhole' := hwhole.of_carries hending htokens (carries_assignment hending htokens)
    rw [hpart.1] at hwhole'
    rw [hpart.2]
    exact holes_cons_eq_ok_iff.mpr ⟨e, es, hwhole', holes_alike hothers hes, rfl⟩
termination_by holesWeight parts * 16 + 1
decreasing_by
  all_goals subst_vars
  all_goals simp only [holesWeight_cons]
  all_goals omega

lemma carries_key {ending ending' : Ending} (he : ending.Alike ending')
    {ts ts' : List Lexeme} (h : Alike ts ts') :
    Carries ending (level ts) (key ending ts) (key ending' ts') := by
  unfold key
  cases h with
  | nil => exact carries_error _
  | @cons l l' r r' hl hr =>
    have hlt := weight_lt_cons l r
    obtain ⟨p, token⟩ := l
    obtain ⟨p', token'⟩ := l'
    cases token with
    | identifier name =>
      cases hl
      exact carries_take he hr rfl _
    | keyword word =>
      cases hl
      exact carries_take he hr rfl _
    | string value raw =>
      cases hl
      exact carries_take he hr rfl _
    | number value raw =>
      cases hl
      exact carries_take he hr rfl _
    | punct mark =>
      cases hl
      cases mark with
      | lbracket =>
        refine carries_reach he hr fun _ => ?_
        refine (carries_assignment he hr).bind fun inner r₁ h₁ r₁' _ hdepth₁ _ hr₁ => ?_
        cases hr₁ with
        | nil => exact carries_error _
        | @cons l l' r₂ r₂' hl hr₂ =>
          obtain ⟨_, token⟩ := l
          obtain ⟨_, token'⟩ := l'
          cases token with
          | punct mark =>
            cases hl
            cases mark with
            | rbracket => exact carries_reach he hr₂ fun hreach => carries_ok hdepth₁ hreach hr₂ rfl
            | _ => exact carries_error _
          | _ => exact carries_error _
      | _ => exact carries_error _
    | _ => exact carries_error _
termination_by weight ts * 16 + 10
decreasing_by
  all_goals subst_vars
  all_goals omega

lemma carries_entries {ending ending' : Ending} (he : ending.Alike ending')
    {ts ts' : List Lexeme} (h : Alike ts ts') :
    Carries ending (fun n => level ts (n + 1)) (entries ending ts) (entries ending' ts') := by
  unfold entries
  rw [startsWith_alike h]
  split
  · refine (carries_expect_rbrace he h rfl).bind fun _ _ _ _ _ hdepth hreach hr => ?_
    exact carries_ok hdepth hreach hr rfl
  · refine (carries_key he h).bind fun name r fits r' _ hdepth hreach hr => ?_
    refine (carries_value he name hr hreach).bind fun entry r₁ fits₁ r₁' _ hdepth₁ _ hr₁ => ?_
    have hbehind : level r₁ = level ts := hdepth₁.trans hdepth
    dsimp only
    rw [startsWith_alike hr₁]
    split
    · refine (carries_entries he hr₁).bind fun others _ _ _ _ hdepth₂ hreach₂ hr₂ => ?_
      exact carries_ok (hdepth₂.trans (by rw [hbehind])) hreach₂ hr₂ rfl
    · refine (carries_expect he hr₁ hbehind fun _ => rfl).bind
        fun _ r₂ fits₂ r₂' _ hdepth₂ _ hr₂ => ?_
      refine (carries_entries he hr₂).bind fun others _ _ _ _ hdepth₃ hreach₃ hr₃ => ?_
      exact carries_ok (hdepth₃.trans (by rw [hdepth₂])) hreach₃ hr₃ rfl
termination_by weight ts * 16 + 11
decreasing_by all_goals omega

lemma carries_value {ending ending' : Ending} (he : ending.Alike ending') (name : Key Expr)
    {ts ts' : List Lexeme} (h : Alike ts ts') (hreach : reach ending ts = .ok ()) :
    Carries ending (level ts) (value ending name ts) (value ending' name ts') := by
  have hwritten : Carries ending (level ts)
      (do
        let ⟨_, r, h⟩ ← expect ending .colon ts
        let step ← assignment ending r
        return (Step.under h (step.map fun e => (⟨name, e, false⟩ : Entry Expr))).loosen)
      (do
        let ⟨_, r, h⟩ ← expect ending' .colon ts'
        let step ← assignment ending' r
        return (Step.under h (step.map fun e => (⟨name, e, false⟩ : Entry Expr))).loosen) := by
    refine (carries_expect he h rfl fun _ => rfl).bind fun _ r fits r' _ hdepth _ hr => ?_
    refine (carries_assignment he hr).bind fun e _ _ _ _ hdepth₁ hreach₁ hr₁ => ?_
    exact carries_ok (hdepth₁.trans hdepth) hreach₁ hr₁ rfl
  unfold value
  rw [startsWith_alike h, startsWith_alike h]
  cases name with
  | name name =>
    cases startsWith .comma ts || startsWith .rbrace ts with
    | true => exact carries_ok rfl hreach h rfl
    | false => exact hwritten
  | _ => exact hwritten
termination_by weight ts * 16 + 10
decreasing_by all_goals omega

end

/-- The expression that a row writes as a whole is the one that the other row writes. -/
theorem Whole.alike {run run' : TokenRun} {e : Expr} (h : Whole run e)
    (he : run.ending.Alike run'.ending) (htokens : Alike run.tokens run'.tokens) : Whole run' e :=
  h.of_carries he htokens (carries_assignment he htokens)

/-- The braces among the tokens of a whole expression match, and the text ends behind them. -/
theorem Whole.balanced {run : TokenRun} {e : Expr} (h : Whole run e) :
    (∃ stop, run.ending = .eof stop) ∧ ∀ n, depthBehindAll n run.tokens = some n := by
  obtain ⟨_, step, hstep, hend, _⟩ := h
  have hself : Alike run.tokens run.tokens := List.forall₂_same.mpr fun l _ => .refl l.token
  have he : run.ending.Alike run.ending := id
  obtain ⟨hdepth, hreach, _⟩ := carries_assignment he hself step hstep
  rw [hend] at hdepth hreach
  refine ⟨?_, fun n => (congrFun hdepth n).symm⟩
  cases hending : run.ending with
  | eof stop => exact ⟨stop, rfl⟩
  | fault f =>
    rw [hending] at hreach
    cases hreach

end Grammar

end RowExpr
