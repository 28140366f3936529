/-
# Row functions in other places

The rules for statements and functions look at the places of tokens for their errors only, as the
rules for expressions do.  So a row function is read from any text that has its tokens, and blanks
around them make no difference: a line break ends nothing.

* `Grammar.carries_statement`, `Grammar.carries_function`: what is read from one row of tokens is
  read from the other;
* `RowFunction.parse_of_alike`: texts with the same tokens write the same row function;
* `RowFunction.parse_of_spread`: so do texts that differ in the blanks around their tokens.
-/
import RowExpr.Proofs.Grammar.Alike
import RowExpr.Proofs.Token.Spacing

namespace RowExpr

namespace Grammar

variable {ending ending' : Ending} {ts ts' : List Lexeme}

/-- What is asked of the first token has the same answer for both rows. -/
lemma front_alike {γ : Type} (f : Token → γ)
    (hf : ∀ head parts parts', f (.template head parts') = f (.template head parts))
    (h : Alike ts ts') : f (front ts') = f (front ts) := by
  cases h with
  | nil => rfl
  | cons hl _ => exact eq_of_alike hl f hf

/-- Behind a brace that opens, the depth is one more than in front of it. -/
lemma carries_lbrace {α : Type} {m m' : Nat} {depth : Nat → Option Nat}
    {next : Step (weight ts) Unit → Except Malformed (Step m α)}
    {next' : Step (weight ts') Unit → Except Malformed (Step m' α)}
    (he : ending.Alike ending') (h : Alike ts ts')
    (hnext : ∀ rest fits rest' fits', (fun n => level rest (n + 1)) = level ts →
      Alike rest rest' → Carries ending depth (next ⟨(), rest, fits⟩) (next' ⟨(), rest', fits'⟩)) :
    Carries ending depth (expect ending .lbrace ts >>= next)
      (expect ending' .lbrace ts' >>= next') := by
  cases h with
  | nil => exact carries_error _
  | @cons l l' r r' hl hr =>
    obtain ⟨p, token⟩ := l
    obtain ⟨p', token'⟩ := l'
    cases token with
    | punct mark =>
      cases hl
      cases mark with
      | lbrace =>
        have hexpect : Carries ending (level r) (expect ending .lbrace (⟨p, .punct .lbrace⟩ :: r))
            (expect ending' .lbrace (⟨p', .punct .lbrace⟩ :: r')) := by
          refine carries_expect_of he (.cons (.refl _) hr) ?_
          rintro _ _ ⟨⟩
          rfl
        refine hexpect.bind fun _ rest fits rest' fits' hdepth _ hrest => ?_
        exact hnext rest fits rest' fits' (by rw [hdepth]; rfl) hrest
      | _ => exact carries_error _
    | _ => exact carries_error _

/-! ## Parts of statements -/

lemma carries_skipSemicolon (he : ending.Alike ending') (h : Alike ts ts')
    (hreach : reach ending ts = .ok ()) :
    Carries ending (level ts) (skipSemicolon ending ts) (skipSemicolon ending' ts') := by
  unfold skipSemicolon
  rw [startsWith_alike h]
  split
  · refine (carries_expect he h rfl fun _ => rfl).bind fun _ _ _ _ _ hdepth hreach hr => ?_
    exact carries_ok hdepth hreach hr rfl
  · exact carries_ok rfl hreach h rfl

lemma carries_identifier (he : ending.Alike ending') (place : Place) (h : Alike ts ts') :
    Carries ending (level ts) (identifier ending place ts) (identifier ending' place ts') := by
  unfold identifier
  cases h with
  | nil => exact carries_error _
  | @cons l l' r r' hl hr =>
    obtain ⟨p, token⟩ := l
    obtain ⟨p', token'⟩ := l'
    cases token with
    | identifier name =>
      cases hl
      exact carries_take he hr rfl name
    | _ => exact carries_error _

lemma carries_parenthesized (he : ending.Alike ending') (h : Alike ts ts') :
    Carries ending (level ts) (parenthesized ending ts) (parenthesized ending' ts') := by
  refine (carries_expect he h rfl fun _ => rfl).bind fun _ r _ r' _ hdepth _ hr => ?_
  refine (carries_assignment he hr).bind fun inner r₁ _ r₁' _ hdepth₁ _ hr₁ => ?_
  refine (carries_expect he hr₁ (hdepth₁.trans hdepth) fun _ => rfl).bind
    fun _ _ _ _ _ hdepth₂ hreach₂ hr₂ => ?_
  exact carries_ok hdepth₂ hreach₂ hr₂ rfl

lemma carries_initialValue (he : ending.Alike ending') (h : Alike ts ts')
    (hreach : reach ending ts = .ok ()) :
    Carries ending (level ts) (initialValue ending ts) (initialValue ending' ts') := by
  unfold initialValue
  cases h with
  | nil => exact carries_ok rfl hreach .nil rfl
  | @cons l l' r r' hl hr =>
    have hall : Alike (l :: r) (l' :: r') := .cons hl hr
    obtain ⟨p, token⟩ := l
    obtain ⟨p', token'⟩ := l'
    cases token with
    | assign op =>
      cases hl
      cases op with
      | plain =>
        refine carries_reach he hr fun _ => ?_
        refine (carries_assignment he hr).bind fun _ _ _ _ _ hdepth₁ hreach₁ hr₁ => ?_
        exact carries_ok hdepth₁ hreach₁ hr₁ rfl
      | _ => exact carries_ok rfl hreach hall rfl
    | _ => cases hl <;> exact carries_ok rfl hreach hall rfl

lemma carries_initializer (he : ending.Alike ending') (kind : DeclKind) (name : String)
    (h : Alike ts ts') (hreach : reach ending ts = .ok ()) :
    Carries ending (level ts) (initializer ending kind name ts)
      (initializer ending' kind name ts') := by
  unfold initializer
  refine (carries_initialValue he h hreach).bind fun init r _ r' _ hdepth hreach' hr => ?_
  dsimp only
  rw [startsWith_alike hr]
  split
  · exact carries_error _
  · split
    · exact carries_error _
    · exact carries_ok hdepth hreach' hr rfl

lemma carries_declaration (he : ending.Alike ending') (kind : DeclKind) {l l' : Lexeme}
    {r r' : List Lexeme} (hr : Alike r r') :
    Carries ending (level r) (declaration ending kind (l :: r))
      (declaration ending' kind (l' :: r')) := by
  unfold declaration
  refine carries_reach he hr fun _ => ?_
  refine (carries_identifier he .declaration hr).bind fun name r₁ _ r₁' _ hdepth₁ hreach₁ hr₁ => ?_
  refine (carries_initializer he kind name hr₁ hreach₁).bind
    fun _ _ _ _ _ hdepth₂ hreach₂ hr₂ => ?_
  exact carries_ok (hdepth₂.trans hdepth₁) hreach₂ hr₂ rfl

/-! ## Loop heads -/

lemma carries_optional (he : ending.Alike ending') (mark : Punct) (h : Alike ts ts')
    (hreach : reach ending ts = .ok ()) :
    Carries ending (level ts) (optional ending mark ts) (optional ending' mark ts') := by
  unfold optional
  rw [startsWith_alike h]
  split
  · exact carries_ok rfl hreach h rfl
  · refine (carries_assignment he h).bind fun _ _ _ _ _ hdepth₁ hreach₁ hr₁ => ?_
    exact carries_ok hdepth₁ hreach₁ hr₁ rfl

lemma carries_loopSteps (he : ending.Alike ending') (init : Option Stmt) (h : Alike ts ts') :
    Carries ending (level ts) (loopSteps ending init ts) (loopSteps ending' init ts') := by
  unfold loopSteps
  refine (carries_expect he h rfl fun _ => rfl).bind fun _ r₁ _ r₁' _ hdepth₁ hreach₁ hr₁ => ?_
  refine (carries_optional he .semicolon hr₁ hreach₁).bind
    fun test r₂ _ r₂' _ hdepth₂ _ hr₂ => ?_
  refine (carries_expect he hr₂ (hdepth₂.trans hdepth₁) fun _ => rfl).bind
    fun _ r₃ _ r₃' _ hdepth₃ hreach₃ hr₃ => ?_
  refine (carries_optional he .rparen hr₃ hreach₃).bind
    fun update r₄ _ r₄' _ hdepth₄ _ hr₄ => ?_
  refine (carries_expect he hr₄ (hdepth₄.trans hdepth₃) fun _ => rfl).bind
    fun _ _ _ _ _ hdepth₅ hreach₅ hr₅ => ?_
  exact carries_ok hdepth₅ hreach₅ hr₅ rfl

lemma carries_loopMembers (he : ending.Alike ending') (kind : Option DeclKind) (name : String)
    (of : Bool) (h : Alike ts ts') :
    Carries ending (level ts) (loopMembers ending kind name of ts)
      (loopMembers ending' kind name of ts') := by
  refine (carries_assignment he h).bind fun iterable r _ r' _ hdepth _ hr => ?_
  refine (carries_expect he hr hdepth fun _ => rfl).bind fun _ _ _ _ _ hdepth₁ hreach₁ hr₁ => ?_
  exact carries_ok hdepth₁ hreach₁ hr₁ rfl

/-- The rest of a loop head behind `in` or `of`, if one of them comes first. -/
lemma carries_memberWord (he : ending.Alike ending') (kind : Option DeclKind) (name : String)
    {of : Bool} {l l' : Lexeme} {r r' : List Lexeme} (hword : memberWord? l.token = some of)
    (hr : Alike r r') :
    Carries ending (level (l :: r))
      (do reach ending r
          let step ← loopMembers ending kind name of r
          return (step.past : Step (weight (l :: r)) LoopHead))
      (do reach ending' r'
          let step ← loopMembers ending' kind name of r'
          return (step.past : Step (weight (l' :: r')) LoopHead)) := by
  refine carries_reach he hr fun _ => ?_
  refine (carries_loopMembers he kind name of hr).bind fun _ _ _ _ _ hdepth hreach hr₁ => ?_
  have hcons : level (l :: r) = level r := level_cons_of_eq_some hword rfl rfl
  exact carries_ok (hdepth.trans hcons.symm) hreach hr₁ rfl

lemma carries_declaredLoop (he : ending.Alike ending') (kind : DeclKind) (name : String)
    (h : Alike ts ts') (hreach : reach ending ts = .ok ()) :
    Carries ending (level ts) (declaredLoop ending kind name ts)
      (declaredLoop ending' kind name ts') := by
  have hsteps : Carries ending (level ts)
      (do
        let init ← initializer ending kind name ts
        let step ← loopSteps ending (some init.value) init.rest
        return Step.below init.fits step)
      (do
        let init ← initializer ending' kind name ts'
        let step ← loopSteps ending' (some init.value) init.rest
        return Step.below init.fits step) := by
    refine (carries_initializer he kind name h hreach).bind fun init r _ r' _ hdepth _ hr => ?_
    refine (carries_loopSteps he (some init) hr).bind fun _ _ _ _ _ hdepth₁ hreach₁ hr₁ => ?_
    exact carries_ok (hdepth₁.trans hdepth) hreach₁ hr₁ rfl
  unfold declaredLoop
  rw [front_alike memberWord? (fun _ _ _ => rfl) h]
  cases h with
  | nil => exact hsteps
  | @cons l l' r r' hl hr =>
    cases hword : memberWord? (front (l :: r)) with
    | some of => exact carries_memberWord he (some kind) name hword hr
    | none => exact hsteps

lemma carries_plainLoop (he : ending.Alike ending') (start : Expr) (h : Alike ts ts') :
    Carries ending (level ts) (plainLoop ending start ts) (plainLoop ending' start ts') := by
  have hsteps := carries_loopSteps he (some (.expr start)) h
  unfold plainLoop
  rw [front_alike memberWord? (fun _ _ _ => rfl) h]
  cases start with
  | identifier name =>
    cases h with
    | nil => exact hsteps
    | @cons l l' r r' hl hr =>
      cases hword : memberWord? (front (l :: r)) with
      | some of => exact carries_memberWord he none name hword hr
      | none => exact hsteps
  | binary op left iterable =>
    cases op with
    | memberOf =>
      cases left with
      | identifier name =>
        -- a loop over keys was read as a single expression, and its head ends here
        cases h with
        | nil => exact hsteps
        | @cons l l' r r' hl hr =>
          obtain ⟨p, token⟩ := l
          obtain ⟨p', token'⟩ := l'
          cases token with
          | punct mark =>
            cases hl
            cases mark with
            | rparen => exact carries_take he hr rfl _
            | _ => exact hsteps
          | _ => cases hl <;> exact hsteps
      | _ => exact hsteps
    | _ => exact hsteps
  | _ => exact hsteps

lemma carries_loopHead (he : ending.Alike ending') (h : Alike ts ts') :
    Carries ending (level ts) (loopHead ending ts) (loopHead ending' ts') := by
  have hplain : Carries ending (level ts)
      (do
        let start ← assignment ending ts
        let step ← plainLoop ending start.value start.rest
        return Step.under start.fits step)
      (do
        let start ← assignment ending' ts'
        let step ← plainLoop ending' start.value start.rest
        return Step.under start.fits step) := by
    refine (carries_assignment he h).bind fun start r _ r' _ hdepth _ hr => ?_
    refine (carries_plainLoop he start hr).bind fun _ _ _ _ _ hdepth₁ hreach₁ hr₁ => ?_
    exact carries_ok (hdepth₁.trans hdepth) hreach₁ hr₁ rfl
  unfold loopHead
  rw [startsWith_alike h, front_alike declKind? (fun _ _ _ => rfl) h]
  split
  · exact carries_loopSteps he none h
  · cases h with
    | nil => exact hplain
    | @cons l l' r r' hl hr =>
      cases hkind : declKind? (front (l :: r)) with
      | none => exact hplain
      | some kind =>
        have hcons : level (l :: r) = level r := level_cons_of_eq_some hkind rfl rfl
        refine carries_reach he hr fun _ => ?_
        refine (carries_identifier he .loopHead hr).bind
          fun name r₁ _ r₁' _ hdepth₁ hreach₁ hr₁ => ?_
        refine (carries_declaredLoop he kind name hr₁ hreach₁).bind
          fun _ _ _ _ _ hdepth₂ hreach₂ hr₂ => ?_
        exact carries_ok ((hdepth₂.trans hdepth₁).trans hcons.symm) hreach₂ hr₂ rfl

/-! ## Statements -/

lemma carries_simpleStatement (he : ending.Alike ending') (h : Alike ts ts') :
    Carries ending (level ts) (simpleStatement ending ts) (simpleStatement ending' ts') := by
  have hexpr : Carries ending (level ts)
      (do let value ← assignment ending ts; return value.map Stmt.expr)
      (do let value ← assignment ending' ts'; return value.map Stmt.expr) := by
    refine (carries_assignment he h).bind fun _ _ _ _ _ hdepth hreach hr => ?_
    exact carries_ok hdepth hreach hr rfl
  unfold simpleStatement
  rw [front_alike declKind? (fun _ _ _ => rfl) h]
  cases h with
  | nil => exact hexpr
  | @cons l l' r r' hl hr =>
    cases hkind : declKind? (front (l :: r)) with
    | some kind =>
      have hcons : level (l :: r) = level r := level_cons_of_eq_some hkind rfl rfl
      rw [hcons]
      exact carries_declaration he kind hr
    | none =>
      obtain ⟨p, token⟩ := l
      obtain ⟨p', token'⟩ := l'
      cases token with
      | keyword word =>
        cases hl
        cases word with
        | return_ =>
          refine carries_reach he hr fun _ => ?_
          rw [front_alike endsReturn (fun _ _ _ => rfl) hr]
          split
          · exact carries_take he hr rfl _
          · refine (carries_assignment he hr).bind fun _ _ _ _ _ hdepth hreach hr₁ => ?_
            exact carries_ok hdepth hreach hr₁ rfl
        | break_ => exact carries_take he hr rfl _
        | continue_ => exact carries_take he hr rfl _
        | _ => exact hexpr
      | _ => cases hl <;> exact hexpr

lemma carries_armTest (he : ending.Alike ending') (h : Alike ts ts') :
    Carries ending (level ts) (armTest ending ts) (armTest ending' ts') := by
  unfold armTest
  cases h with
  | nil => exact carries_error _
  | @cons l l' r r' hl hr =>
    obtain ⟨p, token⟩ := l
    obtain ⟨p', token'⟩ := l'
    cases token with
    | keyword word =>
      cases hl
      cases word with
      | case =>
        refine carries_reach he hr fun _ => ?_
        refine (carries_assignment he hr).bind fun test r₁ _ r₁' _ hdepth₁ _ hr₁ => ?_
        refine (carries_expect he hr₁ hdepth₁ fun _ => rfl).bind
          fun _ _ _ _ _ hdepth₂ hreach₂ hr₂ => ?_
        exact carries_ok hdepth₂ hreach₂ hr₂ rfl
      | default =>
        refine carries_reach he hr fun _ => ?_
        refine (carries_expect he hr rfl fun _ => rfl).bind
          fun _ _ _ _ _ hdepth₁ hreach₁ hr₁ => ?_
        exact carries_ok hdepth₁ hreach₁ hr₁ rfl
      | _ => exact carries_error _
    | _ => exact carries_error _

mutual

lemma carries_statement {ending ending' : Ending} (he : ending.Alike ending')
    {ts ts' : List Lexeme} (h : Alike ts ts') :
    Carries ending (level ts) (statement ending ts) (statement ending' ts') := by
  have hsimple : Carries ending (level ts)
      (do
        let ⟨simple, r, h⟩ ← simpleStatement ending ts
        let semicolon ← skipSemicolon ending r
        return Step.upTo h (semicolon.map fun _ => simple))
      (do
        let ⟨simple, r, h⟩ ← simpleStatement ending' ts'
        let semicolon ← skipSemicolon ending' r
        return Step.upTo h (semicolon.map fun _ => simple)) := by
    refine (carries_simpleStatement he h).bind fun simple r _ r' _ hdepth hreach hr => ?_
    refine (carries_skipSemicolon he hr hreach).bind fun _ _ _ _ _ hdepth₁ hreach₁ hr₁ => ?_
    exact carries_ok (hdepth₁.trans hdepth) hreach₁ hr₁ rfl
  unfold statement
  cases h with
  | nil => exact hsimple
  | @cons l l' r r' hl hr =>
    have hlt := weight_lt_cons l r
    obtain ⟨p, token⟩ := l
    obtain ⟨p', token'⟩ := l'
    cases token with
    | punct mark =>
      cases hl
      cases mark with
      | lbrace =>
        refine carries_reach he hr fun _ => ?_
        refine (carries_block he hr).bind fun _ _ _ _ _ hdepth₁ hreach₁ hr₁ => ?_
        exact carries_ok hdepth₁ hreach₁ hr₁ rfl
      | semicolon => exact carries_take he hr rfl _
      | _ => exact hsimple
    | keyword word =>
      cases hl
      cases word with
      | if_ =>
        refine carries_reach he hr fun _ => ?_
        refine (carries_parenthesized he hr).bind fun test r₁ h₁ r₁' _ hdepth₁ _ hr₁ => ?_
        refine (carries_statement he hr₁).bind fun yes r₂ h₂ r₂' _ hdepth₂ hreach₂ hr₂ => ?_
        have hdepth := hdepth₂.trans hdepth₁
        cases hr₂ with
        | nil => exact carries_ok hdepth hreach₂ .nil rfl
        | @cons l l' r₃ r₃' hl hr₃ =>
          have hlt₃ := weight_lt_cons l r₃
          have hall₃ : Alike (l :: r₃) (l' :: r₃') := .cons hl hr₃
          obtain ⟨_, token⟩ := l
          obtain ⟨_, token'⟩ := l'
          cases token with
          | keyword word =>
            cases hl
            cases word with
            | else_ =>
              refine carries_reach he hr₃ fun _ => ?_
              refine (carries_statement he hr₃).bind fun no _ _ _ _ hdepth₄ hreach₄ hr₄ => ?_
              exact carries_ok (hdepth₄.trans hdepth) hreach₄ hr₄ rfl
            | _ => exact carries_ok hdepth hreach₂ hall₃ rfl
          | _ => cases hl <;> exact carries_ok hdepth hreach₂ hall₃ rfl
      | switch =>
        refine carries_reach he hr fun _ => ?_
        refine (carries_parenthesized he hr).bind fun subject r₁ h₁ r₁' _ hdepth₁ _ hr₁ => ?_
        refine carries_lbrace he hr₁ fun r₂ h₂ r₂' _ hdepth₂ hr₂ => ?_
        refine (carries_arms he hr₂).bind fun _ _ _ _ _ hdepth₃ hreach₃ hr₃ => ?_
        exact carries_ok ((hdepth₃.trans hdepth₂).trans hdepth₁) hreach₃ hr₃ rfl
      | for_ =>
        refine carries_reach he hr fun _ => ?_
        refine (carries_expect he hr rfl fun _ => rfl).bind fun _ r₁ h₁ r₁' _ hdepth₁ _ hr₁ => ?_
        refine (carries_loopHead he hr₁).bind fun head r₂ h₂ r₂' _ hdepth₂ _ hr₂ => ?_
        refine (carries_statement he hr₂).bind fun _ _ _ _ _ hdepth₃ hreach₃ hr₃ => ?_
        exact carries_ok ((hdepth₃.trans hdepth₂).trans hdepth₁) hreach₃ hr₃ rfl
      | while_ =>
        refine carries_reach he hr fun _ => ?_
        refine (carries_parenthesized he hr).bind fun test r₁ h₁ r₁' _ hdepth₁ _ hr₁ => ?_
        refine (carries_statement he hr₁).bind fun _ _ _ _ _ hdepth₂ hreach₂ hr₂ => ?_
        exact carries_ok (hdepth₂.trans hdepth₁) hreach₂ hr₂ rfl
      | do_ =>
        refine carries_reach he hr fun _ => ?_
        refine (carries_statement he hr).bind fun body r₁ h₁ r₁' _ hdepth₁ hreach₁ hr₁ => ?_
        cases hr₁ with
        | nil => exact carries_error _
        | @cons l l' r₂ r₂' hl hr₂ =>
          have hlt₂ := weight_lt_cons l r₂
          obtain ⟨_, token⟩ := l
          obtain ⟨_, token'⟩ := l'
          cases token with
          | keyword word =>
            cases hl
            cases word with
            | while_ =>
              refine carries_reach he hr₂ fun _ => ?_
              refine (carries_parenthesized he hr₂).bind
                fun test r₃ _ r₃' _ hdepth₃ hreach₃ hr₃ => ?_
              refine (carries_skipSemicolon he hr₃ hreach₃).bind
                fun _ _ _ _ _ hdepth₄ hreach₄ hr₄ => ?_
              exact carries_ok ((hdepth₄.trans hdepth₃).trans hdepth₁) hreach₄ hr₄ rfl
            | _ => exact carries_error _
          | _ => exact carries_error _
      | function => exact carries_error _
      | _ => exact hsimple
    | _ => cases hl <;> exact hsimple
termination_by weight ts * 4 + 1
decreasing_by
  all_goals subst_vars
  all_goals omega

lemma carries_block {ending ending' : Ending} (he : ending.Alike ending')
    {ts ts' : List Lexeme} (h : Alike ts ts') :
    Carries ending (fun n => level ts (n + 1)) (block ending ts) (block ending' ts') := by
  have hempty : ts'.isEmpty = ts.isEmpty := by cases h <;> rfl
  unfold block
  rw [startsWith_alike h, hempty]
  split
  · refine (carries_expect_rbrace he h rfl).bind fun _ _ _ _ _ hdepth hreach hr => ?_
    exact carries_ok hdepth hreach hr rfl
  · split
    · exact carries_error _
    · refine (carries_statement he h).bind fun first r fits r' _ hdepth _ hr => ?_
      refine (carries_block he hr).bind fun _ _ _ _ _ hdepth₁ hreach₁ hr₁ => ?_
      exact carries_ok (hdepth₁.trans (by rw [hdepth])) hreach₁ hr₁ rfl
termination_by weight ts * 4 + 2
decreasing_by all_goals omega

lemma carries_arms {ending ending' : Ending} (he : ending.Alike ending')
    {ts ts' : List Lexeme} (h : Alike ts ts') :
    Carries ending (fun n => level ts (n + 1)) (arms ending ts) (arms ending' ts') := by
  unfold arms
  rw [startsWith_alike h]
  split
  · refine (carries_expect_rbrace he h rfl).bind fun _ _ _ _ _ hdepth hreach hr => ?_
    exact carries_ok hdepth hreach hr rfl
  · refine (carries_armTest he h).bind fun test r fits r' _ hdepth hreach hr => ?_
    refine (carries_armBody he hr hreach).bind fun body r₁ fits₁ r₁' _ hdepth₁ _ hr₁ => ?_
    refine (carries_arms he hr₁).bind fun _ _ _ _ _ hdepth₂ hreach₂ hr₂ => ?_
    exact carries_ok (hdepth₂.trans (by rw [hdepth₁, hdepth])) hreach₂ hr₂ rfl
termination_by weight ts * 4 + 3
decreasing_by all_goals omega

lemma carries_armBody {ending ending' : Ending} (he : ending.Alike ending')
    {ts ts' : List Lexeme} (h : Alike ts ts') (hreach : reach ending ts = .ok ()) :
    Carries ending (level ts) (armBody ending ts) (armBody ending' ts') := by
  unfold armBody
  rw [front_alike endsArm (fun _ _ _ => rfl) h]
  split
  · exact carries_ok rfl hreach h rfl
  · refine (carries_statement he h).bind fun first r fits r' _ hdepth hreach₁ hr => ?_
    refine (carries_armBody he hr hreach₁).bind fun _ _ _ _ _ hdepth₂ hreach₂ hr₂ => ?_
    exact carries_ok (hdepth₂.trans hdepth) hreach₂ hr₂ rfl
termination_by weight ts * 4 + 2
decreasing_by all_goals omega

end

/-! ## Functions -/

lemma carries_parameters (he : ending.Alike ending') (h : Alike ts ts') :
    Carries ending (level ts) (parameters ending ts) (parameters ending' ts') := by
  refine (carries_expect he h rfl fun _ => rfl).bind fun _ r _ r' _ hdepth _ hr => ?_
  dsimp only
  rw [startsWith_alike hr]
  split
  · refine (carries_expect he hr hdepth fun _ => rfl).bind fun _ _ _ _ _ hdepth₁ hreach₁ hr₁ => ?_
    exact carries_ok hdepth₁ hreach₁ hr₁ rfl
  · refine (carries_identifier he .parameterList hr).bind fun name r₁ _ r₁' _ hdepth₁ _ hr₁ => ?_
    dsimp only
    rw [startsWith_alike hr₁]
    split
    · exact carries_error _
    · refine (carries_expect he hr₁ (hdepth₁.trans hdepth) fun _ => rfl).bind
        fun _ _ _ _ _ hdepth₂ hreach₂ hr₂ => ?_
      exact carries_ok hdepth₂ hreach₂ hr₂ rfl

lemma carries_arrowParameter (he : ending.Alike ending') (h : Alike ts ts') :
    Carries ending (level ts) (arrowParameter ending ts) (arrowParameter ending' ts') := by
  unfold arrowParameter
  rw [startsWith_alike h]
  split
  · exact carries_parameters he h
  · refine (carries_identifier he .parameter h).bind fun _ _ _ _ _ hdepth hreach hr => ?_
    exact carries_ok hdepth hreach hr rfl

lemma carries_arrowBody (he : ending.Alike ending') (h : Alike ts ts') :
    Carries ending (level ts) (arrowBody ending ts) (arrowBody ending' ts') := by
  unfold arrowBody
  rw [startsWith_alike h]
  split
  · refine carries_lbrace he h fun r _ r' _ hdepth hr => ?_
    refine (carries_block he hr).bind fun _ _ _ _ _ hdepth₁ hreach₁ hr₁ => ?_
    exact carries_ok (hdepth₁.trans hdepth) hreach₁ hr₁ rfl
  · refine (carries_assignment he h).bind fun _ _ _ _ _ hdepth hreach hr => ?_
    exact carries_ok hdepth hreach hr rfl

lemma carries_arrowFunction (he : ending.Alike ending') (h : Alike ts ts') :
    Carries ending (level ts) (arrowFunction ending ts) (arrowFunction ending' ts') := by
  refine (carries_arrowParameter he h).bind fun param r _ r' _ hdepth _ hr => ?_
  refine (carries_expect he hr hdepth fun _ => rfl).bind fun _ r₁ _ r₁' _ hdepth₁ _ hr₁ => ?_
  refine (carries_arrowBody he hr₁).bind fun _ _ _ _ _ hdepth₂ hreach₂ hr₂ => ?_
  exact carries_ok (hdepth₂.trans hdepth₁) hreach₂ hr₂ rfl

lemma carries_skipName (he : ending.Alike ending') (h : Alike ts ts')
    (hreach : reach ending ts = .ok ()) :
    Carries ending (level ts) (skipName ending ts) (skipName ending' ts') := by
  unfold skipName
  cases h with
  | nil => exact carries_ok rfl hreach .nil rfl
  | @cons l l' r r' hl hr =>
    have hall : Alike (l :: r) (l' :: r') := .cons hl hr
    obtain ⟨p, token⟩ := l
    obtain ⟨p', token'⟩ := l'
    cases token with
    | identifier name =>
      cases hl
      refine (carries_take he hr rfl ()).bind fun _ _ _ _ _ hdepth₁ hreach₁ hr₁ => ?_
      exact carries_ok hdepth₁ hreach₁ hr₁ rfl
    | _ => cases hl <;> exact carries_ok rfl hreach hall rfl

lemma carries_wordFunction (he : ending.Alike ending') (h : Alike ts ts')
    (hreach : reach ending ts = .ok ()) :
    Carries ending (level ts) (wordFunction ending ts) (wordFunction ending' ts') := by
  refine (carries_skipName he h hreach).bind fun _ r _ r' _ hdepth _ hr => ?_
  refine (carries_parameters he hr).bind fun param r₁ _ r₁' _ hdepth₁ _ hr₁ => ?_
  dsimp only
  rw [startsWith_alike hr₁]
  split
  · refine carries_lbrace he hr₁ fun r₂ _ r₂' _ hdepth₂ hr₂ => ?_
    refine (carries_block he hr₂).bind fun _ _ _ _ _ hdepth₃ hreach₃ hr₃ => ?_
    exact carries_ok (((hdepth₃.trans hdepth₂).trans hdepth₁).trans hdepth) hreach₃ hr₃ rfl
  · exact carries_error _

lemma carries_function (he : ending.Alike ending') (h : Alike ts ts') :
    Carries ending (level ts) (function ending ts) (function ending' ts') := by
  have harrow := carries_arrowFunction he h
  unfold function
  cases h with
  | nil => exact harrow
  | @cons l l' r r' hl hr =>
    obtain ⟨p, token⟩ := l
    obtain ⟨p', token'⟩ := l'
    cases token with
    | keyword word =>
      cases hl
      cases word with
      | function =>
        refine carries_reach he hr fun hreach => ?_
        refine (carries_wordFunction he hr hreach).bind fun _ _ _ _ _ hdepth₁ hreach₁ hr₁ => ?_
        exact carries_ok hdepth₁ hreach₁ hr₁ rfl
      | _ => exact harrow
    | _ => cases hl <;> exact harrow

end Grammar

namespace RowFunction

open Grammar

lemma parse_eq_ok_iff {text : String} {f : RowFunction} :
    parse text = .ok f ↔
      reach (TokenRun.ofText 0 text).ending (TokenRun.ofText 0 text).tokens = .ok () ∧
      ∃ step, function (TokenRun.ofText 0 text).ending (TokenRun.ofText 0 text).tokens = .ok step ∧
        step.rest = [] ∧ step.value = f := by
  simp only [parse, Expr.bind_eq_ok_iff, expectEnd_eq_ok_iff, pure, Except.pure, Except.ok.injEq]
  constructor
  · rintro ⟨_, hreach, step, hstep, _, hend, hvalue⟩
    exact ⟨hreach, step, hstep, hend, hvalue⟩
  · rintro ⟨hreach, step, hstep, hend, hvalue⟩
    exact ⟨(), hreach, step, hstep, (), hend, hvalue⟩

/-- A text that is a row function is read up to its end. -/
lemma ending_of_parse {text : String} {f : RowFunction} (h : parse text = .ok f) :
    ∃ stop, (TokenRun.ofText 0 text).ending = .eof stop := by
  obtain ⟨-, step, hstep, hend, -⟩ := parse_eq_ok_iff.mp h
  have hself : Alike (TokenRun.ofText 0 text).tokens (TokenRun.ofText 0 text).tokens :=
    List.forall₂_same.mpr fun l _ => .refl l.token
  have he : (TokenRun.ofText 0 text).ending.Alike (TokenRun.ofText 0 text).ending := id
  obtain ⟨-, hreach, -⟩ := carries_function he hself step hstep
  rw [hend] at hreach
  cases hending : (TokenRun.ofText 0 text).ending with
  | eof stop => exact ⟨stop, rfl⟩
  | fault f =>
    rw [hending] at hreach
    cases hreach

/-- Texts with the same tokens write the same row function. -/
lemma parse_of_alike {text text' : String} {f : RowFunction} (h : parse text = .ok f)
    (htokens : Alike (TokenRun.ofText 0 text).tokens (TokenRun.ofText 0 text').tokens)
    (hending : (TokenRun.ofText 0 text).ending.Alike (TokenRun.ofText 0 text').ending) :
    parse text' = .ok f := by
  obtain ⟨hreach, step, hstep, hend, hvalue⟩ := parse_eq_ok_iff.mp h
  obtain ⟨-, -, step', hstep', hvalue', hrest⟩ := carries_function hending htokens step hstep
  rw [hend] at hrest
  exact parse_eq_ok_iff.mpr ⟨reach_alike hending htokens hreach, step', hstep',
    List.forall₂_nil_left_iff.mp hrest, hvalue'.trans hvalue⟩

/-- Blanks around tokens, line breaks among them, do not matter: a text that is a row function is
the same row function with more of them. -/
theorem parse_of_spread {text text' : String} {f : RowFunction} (h : parse text = .ok f)
    (hspread : Spread 0 (TokenRun.ofText 0 text).tokens text.toList text'.toList) :
    parse text' = .ok f := by
  obtain ⟨stop, hending⟩ := ending_of_parse h
  have hscan : TokenRun.scan (0 + text.toList.length) text.toList =
      ⟨(TokenRun.ofText 0 text).tokens, .eof stop⟩ := by
    rw [← hending]
    rfl
  obtain ⟨htokens, hending'⟩ :=
    TokenRun.alike_of_spread (0 + text'.toList.length) hspread hscan rfl
  exact parse_of_alike h htokens fun _ => ⟨_, hending'⟩

/-- A function with a body that returns a column. -/
def returnColumn : RowFunction :=
  ⟨some "d", .block [.return_ (some (.member (.identifier "d") "x"))]⟩

/-- The tokens of that function, with a comment behind `return`. -/
def returnColumnTokens : List Lexeme :=
  [⟨0, .identifier "d"⟩, ⟨1, .punct .arrow⟩, ⟨3, .punct .lbrace⟩, ⟨4, .keyword .return_⟩,
    ⟨14, .identifier "d"⟩, ⟨15, .punct .dot⟩, ⟨16, .identifier "x"⟩, ⟨17, .punct .rbrace⟩]

set_option maxRecDepth 2000 in
lemma parse_returnColumn : parse "d=>\x7breturn/**/d.x\x7d" = .ok returnColumn := by
  unfold parse
  conv in TokenRun.ofText _ _ => cbv
  cbv

/-- Line breaks in front of the text, behind `return`, and in front of what it returns. -/
theorem parse_of_spread_returnColumn :
    parse "d=>\x7breturn/**/d.x\x7d" = .ok returnColumn ∧
      parse "\nd=>\x7breturn\n/**/\nd.x\x7d\n" = .ok returnColumn := by
  have htokens : (TokenRun.ofText 0 "d=>\x7breturn/**/d.x\x7d").tokens = returnColumnTokens := by
    cbv
  have hbreak : ∀ c ∈ ['\n'], Text.isBlank c = true := List.forall_mem_singleton.mpr rfl
  have hnone : ∀ c ∈ [], Text.isBlank c = true := List.forall_mem_nil _
  have hspread : Spread 0 returnColumnTokens "d=>\x7breturn/**/d.x\x7d".toList
      "\nd=>\x7breturn\n/**/\nd.x\x7d\n".toList := by
    refine @Spread.token 0 [] ['\n'] [] ⟨0, .identifier "d"⟩ _ _ _ rfl hbreak hnone ?_
    refine @Spread.token 1 [] [] [] ⟨1, .punct .arrow⟩ _ _ _ rfl hnone hnone ?_
    refine @Spread.token 3 [] [] [] ⟨3, .punct .lbrace⟩ _ _ _ rfl hnone hnone ?_
    refine @Spread.token 4 [] [] ['\n'] ⟨4, .keyword .return_⟩ _ _ _ rfl hnone hbreak ?_
    refine @Spread.token 10 "/**/".toList ['\n'] [] ⟨14, .identifier "d"⟩ _ _ _ rfl hbreak hnone ?_
    refine @Spread.token 15 [] [] [] ⟨15, .punct .dot⟩ _ _ _ rfl hnone hnone ?_
    refine @Spread.token 16 [] [] [] ⟨16, .identifier "x"⟩ _ _ _ rfl hnone hnone ?_
    refine @Spread.token 17 [] [] [] ⟨17, .punct .rbrace⟩ _ _ _ rfl hnone hnone ?_
    exact @Spread.last 18 [] ['\n'] hbreak
  exact ⟨parse_returnColumn, parse_of_spread parse_returnColumn (htokens ▸ hspread)⟩

end RowFunction

end RowExpr
