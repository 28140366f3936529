/-
# What a rule for statements makes of a run

The rules for statements on the tokens they are for, as the rules for expressions.  One new kind of
outcome is needed: a rule may leave a semicolon and an `else` behind it, which no other rule can
read.  It is then not the rule that fails, but the list that the statement stands in
(`outcome_choice`, `outcome_choiceElse`).
-/
import RowExpr.Grammar.Statement
import RowExpr.Proofs.Grammar.Outcome

namespace RowExpr.Grammar

variable {n : Nat} {ending : Ending} {ok : Prop} {run run₁ run₂ run₃ run₄ run₅ : TokenRun}
  {ts : List Lexeme} {e test subject : Expr} {s yes no first : Stmt} {others : List Stmt}

/-! ## Parts of statements -/

lemma readsIff_parenthesized (hopen : run.Starts (.punct .lparen) run₁) (hreach : Reached run₁)
    (hread : ending = run₁.ending → ReadsIff ending ok e run₂ (assignment ending run₁.tokens))
    (hclose : run₂.Starts (.punct .rparen) run₃) (hending : ending = run.ending) :
    ReadsIff ending (ok ∧ Reached run₃) e run₃ (parenthesized ending run.tokens) := by
  refine ((readsIff_expect hopen hending).bind fun _ hending _ => (hread hending).bind
    fun _ hending _ => (readsIff_expect hclose hending).bind fun _ hending _ => ?_).congr
      ⟨fun h => ⟨h.2.1, h.2.2.1⟩, fun h => ⟨hreach, h.1, h.2, trivial⟩⟩
  exact readsIff_ok rfl rfl hending

lemma readsIff_skipSemicolon (h : run.Starts (.punct .semicolon) run₁)
    (hending : ending = run.ending) :
    ReadsIff ending (Reached run₁) () run₁ (skipSemicolon ending run.tokens) := by
  unfold skipSemicolon
  rw [if_pos (startsWith_mark h)]
  refine ((readsIff_expect h hending).bind fun _ hending _ => ?_).congr (and_iff_left trivial)
  exact readsIff_ok rfl rfl hending

lemma readsIff_identifier {name : String} {place : Place}
    (h : run.Starts (.identifier name) run₁) (hending : ending = run.ending) :
    ReadsIff ending (Reached run₁) name run₁ (identifier ending place run.tokens) := by
  rw [ending_of_starts h] at hending
  obtain ⟨position, rfl⟩ := h
  exact readsIff_take hending

/-! ## Statements -/

lemma readsIff_statement_block (hopen : run.Starts (.punct .lbrace) run₁)
    (hreach : Reached run₁)
    (hread : ending = run₁.ending → ReadsIff ending ok others run₂ (block ending run₁.tokens))
    (hending : ending = run.ending) :
    ReadsIff ending ok (.block others) run₂ (statement ending run.tokens) := by
  rw [ending_of_starts hopen] at hending
  obtain ⟨p, rfl⟩ := hopen
  change ReadsIff _ _ _ _ (statement ending (⟨p, .punct .lbrace⟩ :: run₁.tokens))
  rw [statement.eq_1]
  refine (readsIff_reach hending fun _ => (hread hending).bind fun _ hending _ => ?_).congr
    ⟨fun h => h.2.1, fun h => ⟨hreach, h, trivial⟩⟩
  exact readsIff_ok rfl rfl hending

lemma readsIff_statement_empty (h : run.Starts (.punct .semicolon) run₁)
    (hending : ending = run.ending) :
    ReadsIff ending (Reached run₁) .empty run₁ (statement ending run.tokens) := by
  rw [ending_of_starts h] at hending
  obtain ⟨p, rfl⟩ := h
  change ReadsIff _ _ _ _ (statement ending (⟨p, .punct .semicolon⟩ :: run₁.tokens))
  rw [statement.eq_2]
  exact readsIff_take hending

lemma readsIff_statement_switch {list : List (Arm Stmt)}
    (hword : run.Starts (.keyword .switch) run₁) (hreach : Reached run₁)
    (hsubject : ending = run₁.ending →
      ReadsIff ending True subject run₂ (parenthesized ending run₁.tokens))
    (hopen : run₂.Starts (.punct .lbrace) run₃) (hreach₃ : Reached run₃)
    (hread : ending = run₃.ending → ReadsIff ending ok list run₄ (arms ending run₃.tokens))
    (hending : ending = run.ending) :
    ReadsIff ending ok (.switch subject list) run₄ (statement ending run.tokens) := by
  rw [ending_of_starts hword] at hending
  obtain ⟨p, rfl⟩ := hword
  change ReadsIff _ _ _ _ (statement ending (⟨p, .keyword .switch⟩ :: run₁.tokens))
  rw [statement.eq_4]
  refine (readsIff_reach hending fun _ => (hsubject hending).bind fun _ hending _ =>
    (readsIff_expect hopen hending).bind fun _ hending _ =>
      (hread hending).bind fun _ hending _ => ?_).congr
        ⟨fun h => h.2.2.2.1, fun h => ⟨hreach, trivial, hreach₃, h, trivial⟩⟩
  exact readsIff_ok rfl rfl hending

/-- Whether a simple statement may start with the token. -/
def startsSimple : Token → Bool
  | .punct .lbrace | .punct .semicolon | .keyword .if_ | .keyword .switch | .keyword .for_
  | .keyword .while_ | .keyword .do_ | .keyword .function => false
  | _ => true

lemma readsIff_statement_simple (hsimple : startsSimple (front ts))
    (hread : ReadsIff ending ok s run (simpleStatement ending ts))
    (hsemicolon : run.Starts (.punct .semicolon) run₁) (hreach : Reached run₁) :
    ReadsIff ending ok s run₁ (statement ending ts) := by
  have hne : ∀ token, startsSimple token = false → ∀ p r, ts ≠ ⟨p, token⟩ :: r := by
    rintro token htoken p r rfl
    rw [show front (⟨p, token⟩ :: r) = token from rfl, htoken] at hsimple
    cases hsimple
  rw [statement.eq_9 _ _ (hne _ rfl) (hne _ rfl) (hne _ rfl) (hne _ rfl) (hne _ rfl) (hne _ rfl)
    (hne _ rfl) (hne _ rfl)]
  refine (hread.bind fun _ hending _ => (readsIff_skipSemicolon hsemicolon hending).bind
    fun _ hending _ => ?_).congr ⟨fun h => h.1, fun h => ⟨h, hreach, trivial⟩⟩
  exact readsIff_ok rfl rfl hending

/-! ## Simple statements -/

lemma readsIff_simple_expr (hkind : declKind? (front ts) = none)
    (hword : ∀ word ∈ [.return_, .break_, .continue_], front ts ≠ .keyword word)
    (hread : ReadsIff ending ok e run (assignment ending ts)) :
    ReadsIff ending ok (.expr e) run (simpleStatement ending ts) := by
  have hne : ∀ word ∈ [Keyword.return_, .break_, .continue_],
      ∀ p r, ts ≠ ⟨p, .keyword word⟩ :: r := by
    rintro word hmem p r rfl
    exact hword word hmem rfl
  have hsimple : simpleStatement ending ts = (do
      let value ← assignment ending ts
      return value.map .expr) := by
    unfold simpleStatement
    revert hkind
    generalize declKind? (front ts) = kind
    intro hkind
    split
    · cases hkind
    · exact absurd rfl (hne .return_ (by simp) _ _)
    · exact absurd rfl (hne .break_ (by simp) _ _)
    · exact absurd rfl (hne .continue_ (by simp) _ _)
    · rfl
  rw [hsimple]
  refine (hread.bind fun _ hending _ => ?_).congr (and_iff_left trivial)
  exact readsIff_ok rfl rfl hending

lemma readsIff_simple_return (hword : run.Starts (.keyword .return_) run₁)
    (hend : endsReturn (front run₁.tokens)) (hreach : Reached run₁)
    (hending : ending = run.ending) :
    ReadsIff ending True (.return_ none) run₁ (simpleStatement ending run.tokens) := by
  rw [ending_of_starts hword] at hending
  obtain ⟨p, rfl⟩ := hword
  refine (readsIff_reach hending fun _ => ?_).congr (iff_true_intro ⟨hreach, hreach⟩)
  rw [if_pos hend]
  exact readsIff_take hending

lemma readsIff_simple_returnValue (hword : run.Starts (.keyword .return_) run₁)
    (hend : endsReturn (front run₁.tokens) = false) (hreach : Reached run₁)
    (hread : ending = run₁.ending → ReadsIff ending ok e run₂ (assignment ending run₁.tokens))
    (hending : ending = run.ending) :
    ReadsIff ending ok (.return_ (some e)) run₂ (simpleStatement ending run.tokens) := by
  rw [ending_of_starts hword] at hending
  obtain ⟨p, rfl⟩ := hword
  refine (readsIff_reach hending fun _ => ?_).congr (and_iff_right hreach)
  rw [if_neg (by simp [hend])]
  refine ((hread hending).bind fun _ hending _ => ?_).congr (and_iff_left trivial)
  exact readsIff_ok rfl rfl hending

/-- A word that is a statement by itself. -/
lemma readsIff_simple_word {word : Keyword}
    (h : word = .break_ ∧ s = .break_ ∨ word = .continue_ ∧ s = .continue_)
    (hword : run.Starts (.keyword word) run₁) (hreach : Reached run₁)
    (hending : ending = run.ending) :
    ReadsIff ending True s run₁ (simpleStatement ending run.tokens) := by
  rw [ending_of_starts hword] at hending
  obtain ⟨p, rfl⟩ := hword
  rcases h with ⟨rfl, rfl⟩ | ⟨rfl, rfl⟩
  · exact (readsIff_take hending).congr (iff_true_intro hreach)
  · exact (readsIff_take hending).congr (iff_true_intro hreach)

lemma readsIff_initialValue (hassign : run.Starts (.assign .plain) run₁) (hreach : Reached run₁)
    (hread : ending = run₁.ending → ReadsIff ending ok e run₂ (assignment ending run₁.tokens))
    (hending : ending = run.ending) :
    ReadsIff ending ok (some e) run₂ (initialValue ending run.tokens) := by
  rw [ending_of_starts hassign] at hending
  obtain ⟨p, rfl⟩ := hassign
  refine (readsIff_reach hending fun _ => (hread hending).bind fun _ hending _ => ?_).congr
    ⟨fun h => h.2.1, fun h => ⟨hreach, h, trivial⟩⟩
  exact readsIff_ok rfl rfl hending

lemma readsIff_initialValue_none (h : front run.tokens ≠ .assign .plain)
    (hending : ending = run.ending) :
    ReadsIff ending True none run (initialValue ending run.tokens) := by
  have hnone : ∀ ts, front ts ≠ .assign .plain →
      initialValue ending ts = .ok (.stay none ts) := by
    intro ts hts
    unfold initialValue
    split
    · exact absurd rfl hts
    · rfl
  rw [hnone _ h]
  exact readsIff_ok rfl rfl hending

lemma readsIff_initializer {kind : DeclKind} {name : String} {init : Option Expr}
    (hvalue : ReadsIff ending ok init run (initialValue ending ts))
    (hconst : kind = .const → init.isSome) (hcomma : startsWith .comma run.tokens = false) :
    ReadsIff ending ok (.declare kind name init) run (initializer ending kind name ts) := by
  have hvalued : ¬ (init.isNone ∧ kind = .const) := by
    rintro ⟨hnone, hkind⟩
    rw [Option.isNone_iff_eq_none.mp hnone] at hconst
    cases hconst hkind
  refine (hvalue.bind fun _ hending _ => ?_).congr (and_iff_left trivial)
  dsimp only
  rw [if_neg hvalued, if_neg (by simp [hcomma])]
  exact readsIff_ok rfl rfl hending

lemma readsIff_simple_declare {token : Token} {kind : DeclKind} {name : String}
    {init : Option Expr}
    (hkind : run.Starts token run₁) (htoken : declKind? token = some kind)
    (hname : run₁.Starts (.identifier name) run₂) (hreach₂ : Reached run₂)
    (hvalue : ending = run₂.ending →
      ReadsIff ending ok init run₃ (initialValue ending run₂.tokens))
    (hconst : kind = .const → init.isSome) (hcomma : startsWith .comma run₃.tokens = false)
    (hending : ending = run.ending) :
    ReadsIff ending ok (.declare kind name init) run₃ (simpleStatement ending run.tokens) := by
  rw [ending_of_starts hkind] at hending
  obtain ⟨p, rfl⟩ := hkind
  have hsimple : simpleStatement ending (⟨p, token⟩ :: run₁.tokens) =
      declaration ending kind (⟨p, token⟩ :: run₁.tokens) := by
    unfold simpleStatement
    rw [show declKind? (front (⟨p, token⟩ :: run₁.tokens)) = some kind from htoken]
  change ReadsIff _ _ _ _ (simpleStatement ending (⟨p, token⟩ :: run₁.tokens))
  rw [hsimple]
  refine (readsIff_reach hending fun _ => (readsIff_identifier hname hending).bind
    fun _ hending _ => (readsIff_initializer (hvalue hending) hconst hcomma).bind
      fun _ hending _ => ?_).congr
        ⟨fun h => h.2.2.1, fun h => ⟨reached_of_starts hname, hreach₂, h, trivial⟩⟩
  exact readsIff_ok rfl rfl hending

/-! ## Lost branches -/

/-- The row starts with a semicolon and an `else`. -/
def AtElse (ts : List Lexeme) : Prop :=
  ∃ p p' r, ts = ⟨p, .punct .semicolon⟩ :: ⟨p', .keyword .else_⟩ :: r

/-- The rule fails, or leaves a semicolon and an `else`. -/
def Stuck (result : Except Malformed (Step n Stmt)) : Prop :=
  ∀ step, result = .ok step → AtElse step.rest

/-- If `kept`, the rule reads `s` and leaves `run`; if not, it is stuck. -/
structure Outcome (ending : Ending) (kept : Prop) (s : Stmt) (run : TokenRun)
    (result : Except Malformed (Step n Stmt)) : Prop where
  reads : kept → ReadsIff ending True s run result
  stuck : ¬ kept → Stuck result

lemma ReadsIff.outcome {kept : Prop} {result : Except Malformed (Step n Stmt)}
    (h : ReadsIff ending kept s run result) : Outcome ending kept s run result where
  reads hkept := h.congr (iff_true_intro hkept)
  stuck hlost := by
    obtain ⟨m, rfl⟩ := h.2 hlost
    exact nofun

lemma Outcome.congr {kept kept' : Prop} {result : Except Malformed (Step n Stmt)}
    (h : Outcome ending kept s run result) (hkept : kept ↔ kept') :
    Outcome ending kept' s run result := by
  rwa [← propext hkept]

/-- Something is read in front of a statement. -/
lemma ReadsIff.before {m : Nat} {α : Type} {a : α} {kept : Prop}
    {x : Except Malformed (Step m α)} {f : Step m α → Except Malformed (Step n Stmt)}
    (hx : ReadsIff ending True a run x)
    (hf : ending = run.ending → ∀ fits, Outcome ending kept s run₁ (f ⟨a, run.tokens, fits⟩)) :
    Outcome ending kept s run₁ (x >>= f) := by
  obtain ⟨hending, fits, rfl⟩ := hx.1 trivial
  exact hf hending fits

/-- Something is done behind a statement; where it is stuck, nothing more is read. -/
lemma Outcome.bind {m : Nat} {kept : Prop} {x : Except Malformed (Step m Stmt)}
    {f : Step m Stmt → Except Malformed (Step n Stmt)} (hx : Outcome ending kept yes run x)
    (hreads : kept → ending = run.ending → ∀ fits,
      ReadsIff ending True s run₁ (f ⟨yes, run.tokens, fits⟩))
    (hstuck : ∀ step, AtElse step.rest → Stuck (f step)) :
    Outcome ending kept s run₁ (x >>= f) where
  reads hkept := by
    obtain ⟨hending, fits, rfl⟩ := (hx.reads hkept).1 trivial
    exact hreads hkept hending fits
  stuck hlost := by
    cases x with
    | error m => exact nofun
    | ok step => exact hstuck step (hx.stuck hlost step rfl)

lemma outcome_reach {kept : Prop} {f : Unit → Except Malformed (Step n Stmt)}
    (hending : ending = run₁.ending) (hreach : Reached run₁)
    (h : Outcome ending kept s run (f ())) :
    Outcome ending kept s run (reach ending run₁.tokens >>= f) := by
  subst hending
  rw [reach_eq_ok hreach]
  exact h

lemma stuck_ok {step : Step n Stmt} (h : AtElse step.rest) : Stuck (.ok step) := by
  rintro _ ⟨⟩
  exact h

/-! ## Choices -/

/-- A choice whose first branch no `else` follows. -/
theorem outcome_choice {kept : Prop} (hword : run.Starts (.keyword .if_) run₁)
    (hreach : Reached run₁)
    (htest : ending = run₁.ending →
      ReadsIff ending True test run₂ (parenthesized ending run₁.tokens))
    (hyes : ending = run₂.ending → Outcome ending kept yes run₃ (statement ending run₂.tokens))
    (helse : kept → front run₃.tokens ≠ .keyword .else_) (hending : ending = run.ending) :
    Outcome ending kept (.if_ test yes none) run₃ (statement ending run.tokens) := by
  rw [ending_of_starts hword] at hending
  obtain ⟨p, rfl⟩ := hword
  change Outcome _ _ _ _ (statement ending (⟨p, .keyword .if_⟩ :: run₁.tokens))
  rw [statement.eq_3]
  refine outcome_reach hending hreach ((htest hending).before fun hending _ =>
    (hyes hending).bind ?_ ?_)
  · intro hkept hending fits
    split
    · rename_i hnext
      exact absurd (front_of_next? hnext) (helse hkept)
    · exact readsIff_ok rfl rfl hending
  · rintro ⟨value, rest, fits⟩ ⟨p, p', r, rfl⟩
    exact stuck_ok ⟨p, p', r, rfl⟩

/-- A choice with two branches. -/
theorem outcome_choiceElse {kept : Prop} (hword : run.Starts (.keyword .if_) run₁)
    (hreach : Reached run₁)
    (htest : ending = run₁.ending →
      ReadsIff ending True test run₂ (parenthesized ending run₁.tokens))
    (hyes : ending = run₂.ending → ReadsIff ending True yes run₃ (statement ending run₂.tokens))
    (helse : run₃.Starts (.keyword .else_) run₄) (hreach₄ : Reached run₄)
    (hno : ending = run₄.ending → Outcome ending kept no run₅ (statement ending run₄.tokens))
    (hending : ending = run.ending) :
    Outcome ending kept (.if_ test yes (some no)) run₅ (statement ending run.tokens) := by
  rw [ending_of_starts hword] at hending
  obtain ⟨p, rfl⟩ := hword
  change Outcome _ _ _ _ (statement ending (⟨p, .keyword .if_⟩ :: run₁.tokens))
  rw [statement.eq_3]
  refine outcome_reach hending hreach ((htest hending).before fun hending _ =>
    (hyes hending).before fun hending fits => ?_)
  rw [ending_of_starts helse] at hending
  obtain ⟨p', rfl⟩ := helse
  refine outcome_reach hending hreach₄ ((hno hending).bind ?_ ?_)
  · intro _ hending _
    exact readsIff_ok rfl rfl hending
  · exact fun step hstep => stuck_ok hstep

/-! ## Lists of statements -/

/-- No expression starts with an `else`. -/
lemma assignment_else (ending : Ending) (p : Nat) (r : List Lexeme) :
    ∃ m, assignment ending (⟨p, .keyword .else_⟩ :: r) = .error m := by
  have hoperand : ReadsIff ending False .this ⟨[], ending⟩
      (operand ending (⟨p, .keyword .else_⟩ :: r)) := by
    rw [operand.eq_2 _ _ (by simp)]
    unfold primary
    exact readsIff_error id
  have haccess : ReadsIff ending (False ∧ True) .this ⟨[], ending⟩
      (access ending (⟨p, .keyword .else_⟩ :: r)) := readsIff_access hoperand fun h => h.elim
  have hunary := readsIff_suffixed haccess rfl
  rw [← unary_eq_suffixed rfl rfl] at hunary
  exact (readsIff_assignment_of_unary hunary rfl).2 fun h => h.1

lemma statement_else (ending : Ending) (p : Nat) (r : List Lexeme) :
    ∃ m, statement ending (⟨p, .keyword .else_⟩ :: r) = .error m := by
  obtain ⟨m, hm⟩ := assignment_else ending p r
  have hsimple : simpleStatement ending (⟨p, .keyword .else_⟩ :: r) = .error m := by
    change (assignment ending (⟨p, .keyword .else_⟩ :: r) >>= _) = _
    rw [hm]
    rfl
  refine ⟨m, ?_⟩
  rw [statement.eq_9]
  · rw [hsimple]
    rfl
  all_goals rintro _ _ ⟨⟩

/-- A list of statements does not go on where a statement is stuck. -/
lemma block_of_atElse (ending : Ending) (h : AtElse ts) : ∃ m, block ending ts = .error m := by
  obtain ⟨p, p', r, rfl⟩ := h
  obtain ⟨m, hm⟩ := statement_else ending p' r
  have helse : block ending (⟨p', .keyword .else_⟩ :: r) = .error m := by
    rw [block.eq_1, if_neg (by simp [startsWith]), if_neg (by simp), hm]
    rfl
  refine ⟨m, ?_⟩
  rw [block.eq_1, if_neg (by simp [startsWith]), if_neg (by simp), statement.eq_2]
  change (block ending (⟨p', .keyword .else_⟩ :: r) >>= _) = _
  rw [helse]
  rfl

lemma armBody_of_atElse (ending : Ending) (h : AtElse ts) :
    ∃ m, armBody ending ts = .error m := by
  obtain ⟨p, p', r, rfl⟩ := h
  obtain ⟨m, hm⟩ := statement_else ending p' r
  have helse : armBody ending (⟨p', .keyword .else_⟩ :: r) = .error m := by
    rw [armBody.eq_1, if_neg (by simp [endsArm, front]), hm]
    rfl
  refine ⟨m, ?_⟩
  rw [armBody.eq_1, if_neg (by simp [endsArm, front]), statement.eq_2]
  change (armBody ending (⟨p', .keyword .else_⟩ :: r) >>= _) = _
  rw [helse]
  rfl

lemma Stuck.error {m : Nat} {α : Type} {x : Except Malformed (Step m Stmt)}
    {f : Step m Stmt → Except Malformed α} (h : Stuck x)
    (hf : ∀ step, AtElse step.rest → ∃ m, f step = .error m) : ∃ m, (x >>= f) = .error m := by
  cases x with
  | error m => exact ⟨m, rfl⟩
  | ok step => exact hf step (h step rfl)

lemma readsIff_block_nil (hclose : run.Starts (.punct .rbrace) run₁)
    (hending : ending = run.ending) :
    ReadsIff ending (Reached run₁) [] run₁ (block ending run.tokens) := by
  rw [block.eq_1, if_pos (startsWith_mark hclose)]
  refine ((readsIff_expect hclose hending).bind fun _ hending _ => ?_).congr (and_iff_left trivial)
  exact readsIff_ok rfl rfl hending

lemma readsIff_block_cons {token : Token} {kept : Prop} (hstarts : run.Starts token run₃)
    (htoken : token ≠ .punct .rbrace)
    (hfirst : ending = run.ending → Outcome ending kept first run₁ (statement ending run.tokens))
    (hothers : kept → ending = run₁.ending →
      ReadsIff ending ok others run₂ (block ending run₁.tokens))
    (hending : ending = run.ending) :
    ReadsIff ending (kept ∧ ok) (first :: others) run₂ (block ending run.tokens) := by
  have hempty : run.tokens.isEmpty = false := by
    obtain ⟨p, rfl⟩ := hstarts
    rfl
  rw [block.eq_1, if_neg (by simp [startsWith_of_starts hstarts htoken]), if_neg (by simp [hempty])]
  by_cases hkept : kept
  · refine (((hfirst hending).reads hkept).bind fun _ hending _ => (hothers hkept hending).bind
      fun _ hending _ => ?_).congr ⟨fun h => ⟨hkept, h.2.1⟩, fun h => ⟨trivial, h.2, trivial⟩⟩
    exact readsIff_ok rfl rfl hending
  · refine ⟨fun h => absurd h.1 hkept, fun _ => ?_⟩
    refine ((hfirst hending).stuck hkept).error fun step hstep => ?_
    obtain ⟨m, hm⟩ := block_of_atElse ending hstep
    refine ⟨m, ?_⟩
    dsimp only
    rw [hm]
    rfl

lemma readsIff_armBody_nil (hend : endsArm (front run.tokens)) (hending : ending = run.ending) :
    ReadsIff ending True [] run (armBody ending run.tokens) := by
  rw [armBody.eq_1, if_pos hend]
  exact readsIff_ok rfl rfl hending

lemma readsIff_armBody_cons {kept : Prop} (hgoes : endsArm (front run.tokens) = false)
    (hfirst : ending = run.ending → Outcome ending kept first run₁ (statement ending run.tokens))
    (hothers : kept → ending = run₁.ending →
      ReadsIff ending ok others run₂ (armBody ending run₁.tokens))
    (hending : ending = run.ending) :
    ReadsIff ending (kept ∧ ok) (first :: others) run₂ (armBody ending run.tokens) := by
  rw [armBody.eq_1, if_neg (by simp [hgoes])]
  by_cases hkept : kept
  · refine (((hfirst hending).reads hkept).bind fun _ hending _ => (hothers hkept hending).bind
      fun _ hending _ => ?_).congr ⟨fun h => ⟨hkept, h.2.1⟩, fun h => ⟨trivial, h.2, trivial⟩⟩
    exact readsIff_ok rfl rfl hending
  · refine ⟨fun h => absurd h.1 hkept, fun _ => ?_⟩
    refine ((hfirst hending).stuck hkept).error fun step hstep => ?_
    obtain ⟨m, hm⟩ := armBody_of_atElse ending hstep
    refine ⟨m, ?_⟩
    dsimp only
    rw [hm]
    rfl

/-! ## Arms of a switch -/

lemma readsIff_armTest_case (hword : run.Starts (.keyword .case) run₁) (hreach : Reached run₁)
    (hread : ending = run₁.ending → ReadsIff ending ok e run₂ (assignment ending run₁.tokens))
    (hcolon : run₂.Starts (.punct .colon) run₃) (hending : ending = run.ending) :
    ReadsIff ending (ok ∧ Reached run₃) (some e) run₃ (armTest ending run.tokens) := by
  rw [ending_of_starts hword] at hending
  obtain ⟨p, rfl⟩ := hword
  refine (readsIff_reach hending fun _ => (hread hending).bind fun _ hending _ =>
    (readsIff_expect hcolon hending).bind fun _ hending _ => ?_).congr
      ⟨fun h => ⟨h.2.1, h.2.2.1⟩, fun h => ⟨hreach, h.1, h.2, trivial⟩⟩
  exact readsIff_ok rfl rfl hending

lemma readsIff_armTest_default (hword : run.Starts (.keyword .default) run₁)
    (hcolon : run₁.Starts (.punct .colon) run₂) (hending : ending = run.ending) :
    ReadsIff ending (Reached run₂) none run₂ (armTest ending run.tokens) := by
  rw [ending_of_starts hword] at hending
  obtain ⟨p, rfl⟩ := hword
  refine (readsIff_reach hending fun _ =>
    (readsIff_expect hcolon hending).bind fun _ hending _ => ?_).congr
      ⟨fun h => h.2.1, fun h => ⟨reached_of_starts hcolon, h, trivial⟩⟩
  exact readsIff_ok rfl rfl hending

lemma readsIff_arms_nil (hclose : run.Starts (.punct .rbrace) run₁)
    (hending : ending = run.ending) :
    ReadsIff ending (Reached run₁) [] run₁ (arms ending run.tokens) := by
  rw [arms.eq_1, if_pos (startsWith_mark hclose)]
  refine ((readsIff_expect hclose hending).bind fun _ hending _ => ?_).congr (and_iff_left trivial)
  exact readsIff_ok rfl rfl hending

lemma readsIff_arms_cons {ok' : Prop} {value : Option Expr} {list : List (Arm Stmt)}
    (hgoes : startsWith .rbrace run.tokens = false)
    (htest : ending = run.ending → ReadsIff ending True value run₁ (armTest ending run.tokens))
    (hbody : ending = run₁.ending → ReadsIff ending ok others run₂ (armBody ending run₁.tokens))
    (hlist : ending = run₂.ending → ReadsIff ending ok' list run₃ (arms ending run₂.tokens))
    (hending : ending = run.ending) :
    ReadsIff ending (ok ∧ ok') (⟨value, others⟩ :: list) run₃ (arms ending run.tokens) := by
  rw [arms.eq_1, if_neg (by simp [hgoes])]
  refine ((htest hending).bind fun _ hending _ => (hbody hending).bind fun _ hending _ =>
    (hlist hending).bind fun _ hending _ => ?_).congr
      ⟨fun h => ⟨h.2.1, h.2.2.1⟩, fun h => ⟨trivial, h.1, h.2, trivial⟩⟩
  exact readsIff_ok rfl rfl hending

end RowExpr.Grammar
