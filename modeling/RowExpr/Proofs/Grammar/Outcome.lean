/-
# What a rule makes of a run

A rule of the grammar either reads something from the front of a run of tokens and leaves a run, or
it fails. `ReadsIff` says exactly when it does which, so that the reading of a long text can be put
together from the readings of its pieces, and so can its failure. The lemmas here are about rules
and tokens only: how one reading follows another, and how an expression that was read on one level
of the grammar is read on the levels above when the token behind it does not continue it.

* `ReadsIff.bind`: one reading after another;
* `readsIff_assignment_of_unary`: an operand is read through all levels of the grammar.
-/
import RowExpr.Grammar.Expression
import RowExpr.Proofs.Token.Run

namespace RowExpr.Grammar

variable {m n : Nat} {α β : Type} {ending : Ending} {ok ok' : Prop} {a : α} {b : β}
  {run run' : TokenRun}

/-- The run has a token, or ends where the text does. -/
def Reached (run : TokenRun) : Prop := run.tokens ≠ [] ∨ ∃ position, run.ending = .eof position

lemma reached_of_starts {token : Token} (h : run.Starts token run') : Reached run := by
  obtain ⟨_, rfl⟩ := h
  exact .inl (by simp [TokenRun.cons])

lemma ending_of_starts {token : Token} (h : run.Starts token run') :
    run.ending = run'.ending := by
  obtain ⟨_, rfl⟩ := h
  rfl

lemma front_of_starts {token : Token} (h : run.Starts token run') :
    front run.tokens = token := by
  obtain ⟨_, rfl⟩ := h
  rfl

lemma reach_eq_ok (h : Reached run) : reach run.ending run.tokens = .ok () := by
  unfold reach
  split
  case h_1 hnil =>
    rcases h with h | ⟨position, h⟩
    · exact absurd hnil h
    · rw [h]
  case h_2 => rfl

lemma reach_eq_error (h : ¬ Reached run) : ∃ m, reach run.ending run.tokens = .error m := by
  unfold reach
  split
  case h_1 hnil =>
    cases hending : run.ending with
    | eof position => exact absurd (.inr ⟨position, hending⟩) h
    | fault m => exact ⟨m, rfl⟩
  case h_2 l r hcons => exact absurd (.inl (by simp [hcons])) h

/-! ## Readings -/

/-- If `ok`, the rule reads `a` and leaves `run`, which ends as the whole does; if not, it fails. -/
def ReadsIff (ending : Ending) (ok : Prop) (a : α) (run : TokenRun)
    (result : Except Malformed (Step n α)) : Prop :=
  (ok → ending = run.ending ∧ ∃ fits, result = .ok ⟨a, run.tokens, fits⟩) ∧
    (¬ ok → ∃ m, result = .error m)

lemma readsIff_ok {s : Step n α} (hvalue : s.value = a) (hrest : s.rest = run.tokens)
    (hending : ending = run.ending) : ReadsIff ending True a run (.ok s) := by
  subst hvalue
  obtain ⟨value, rest, fits⟩ := s
  subst hrest
  exact ⟨fun _ => ⟨hending, fits, rfl⟩, fun h => absurd trivial h⟩

lemma readsIff_error {m : Malformed} (h : ¬ ok) :
    ReadsIff ending ok a run (.error m : Except Malformed (Step n α)) :=
  ⟨fun hok => absurd hok h, fun _ => ⟨m, rfl⟩⟩

lemma ReadsIff.congr {result : Except Malformed (Step n α)} (h : ReadsIff ending ok a run result)
    (hok : ok ↔ ok') : ReadsIff ending ok' a run result := by
  rwa [← propext hok]

/-- One reading after another succeeds if both do. -/
theorem ReadsIff.bind {x : Except Malformed (Step m α)}
    {f : Step m α → Except Malformed (Step n β)} (hx : ReadsIff ending ok a run x)
    (hf : ok → ending = run.ending → ∀ fits, ReadsIff ending ok' b run' (f ⟨a, run.tokens, fits⟩)) :
    ReadsIff ending (ok ∧ ok') b run' (x >>= f) := by
  by_cases hok : ok
  · obtain ⟨hending, fits, rfl⟩ := hx.1 hok
    exact (hf hok hending fits).congr ⟨fun h => ⟨hok, h⟩, fun h => h.2⟩
  · obtain ⟨m, rfl⟩ := hx.2 hok
    exact readsIff_error fun h => hok h.1

/-- If `ok`, the result is `b`; if not, it is a failure. -/
def GivesIff (ok : Prop) (b : β) (result : Except Malformed β) : Prop :=
  (ok → result = .ok b) ∧ (¬ ok → ∃ m, result = .error m)

lemma GivesIff.congr {result : Except Malformed β} (h : GivesIff ok b result) (hok : ok ↔ ok') :
    GivesIff ok' b result := by
  rwa [← propext hok]

lemma givesIff_ok : GivesIff True b (.ok b) := ⟨fun _ => rfl, fun h => absurd trivial h⟩

lemma GivesIff.bind {x : Except Malformed α} {f : α → Except Malformed β} (hx : GivesIff ok a x)
    (hf : ok → GivesIff ok' b (f a)) : GivesIff (ok ∧ ok') b (x >>= f) := by
  by_cases hok : ok
  · rw [hx.1 hok]
    exact (hf hok).congr ⟨fun h => ⟨hok, h⟩, fun h => h.2⟩
  · obtain ⟨m, rfl⟩ := hx.2 hok
    exact ⟨fun h => absurd h.1 hok, fun _ => ⟨m, rfl⟩⟩

lemma ReadsIff.gives {x : Except Malformed (Step m α)} {f : Step m α → Except Malformed β}
    (hx : ReadsIff ending ok a run x)
    (hf : ok → ending = run.ending → ∀ fits, GivesIff ok' b (f ⟨a, run.tokens, fits⟩)) :
    GivesIff (ok ∧ ok') b (x >>= f) := by
  by_cases hok : ok
  · obtain ⟨hending, fits, rfl⟩ := hx.1 hok
    exact (hf hok hending fits).congr ⟨fun h => ⟨hok, h⟩, fun h => h.2⟩
  · obtain ⟨m, rfl⟩ := hx.2 hok
    exact ⟨fun h => absurd h.1 hok, fun _ => ⟨m, rfl⟩⟩

lemma GivesIff.reads {x : Except Malformed β} {f : β → Except Malformed (Step n α)}
    (hx : GivesIff ok b x) (hf : ok → ReadsIff ending ok' a run (f b)) :
    ReadsIff ending (ok ∧ ok') a run (x >>= f) := by
  by_cases hok : ok
  · rw [hx.1 hok]
    exact (hf hok).congr ⟨fun h => ⟨hok, h⟩, fun h => h.2⟩
  · obtain ⟨m, rfl⟩ := hx.2 hok
    exact readsIff_error fun h => hok h.1

lemma givesIff_reach : GivesIff (Reached run) () (reach run.ending run.tokens) :=
  ⟨fun h => reach_eq_ok h, fun h => reach_eq_error h⟩

lemma readsIff_reach {f : Unit → Except Malformed (Step n α)} (hending : ending = run'.ending)
    (hf : Reached run' → ReadsIff ending ok a run (f ())) :
    ReadsIff ending (Reached run' ∧ ok) a run (reach ending run'.tokens >>= f) := by
  subst hending
  exact givesIff_reach.reads hf

lemma readsIff_take {l : Lexeme} (hending : ending = run.ending) :
    ReadsIff ending (Reached run) a run (take (l := l) ending run.tokens a) :=
  (readsIff_reach hending fun _ => readsIff_ok rfl rfl hending).congr (and_iff_left trivial)

lemma readsIff_expect {mark : Punct} (h : run.Starts (.punct mark) run')
    (hending : ending = run.ending) :
    ReadsIff ending (Reached run') () run' (expect ending mark run.tokens) := by
  rw [ending_of_starts h] at hending
  obtain ⟨position, rfl⟩ := h
  change ReadsIff ending (Reached run') () run'
    (if mark = mark then take ending run'.tokens () else _)
  rw [if_pos rfl]
  exact readsIff_take hending

/-! ## From one level of the grammar to the next -/

/-- Whether a token behind an operand accesses a member of it or calls it. -/
def continuesAccess : Token → Bool
  | .punct .dot | .punct .lbracket | .punct .lparen | .template _ _ => true
  | _ => false

/-- Whether a token behind an operand makes it part of a larger operand, or of a function. -/
def continuesOperand : Token → Bool
  | .punct .plusPlus | .punct .minusMinus | .punct .arrow => true
  | token => continuesAccess token

/-- Whether a token stands only behind complete expressions. -/
def closes : Token → Bool
  | .punct .rparen | .punct .rbracket | .punct .rbrace | .punct .comma | .punct .colon
  | .punct .semicolon | .eof => true
  | _ => false

lemma Step.rest_of_next? {s after : Step n α} {l : Lexeme} (h : s.next? = some (l, after)) :
    s.rest = l :: after.rest := by
  obtain ⟨value, _ | ⟨l, r⟩, fits⟩ := s
  · cases h
  · cases h
    rfl

lemma front_of_next? {fits : weight run.tokens < n} {after : Step n α} {l : Lexeme}
    (h : (Step.mk a run.tokens fits).next? = some (l, after)) : front run.tokens = l.token := by
  have hrest := Step.rest_of_next? h
  dsimp only at hrest
  rw [hrest]
  rfl

variable {ts : List Lexeme} {e : Expr}

lemma readsIff_access {e' : Expr} (h : ReadsIff ending ok e run (operand ending ts))
    (hchain : ok → ending = run.ending →
      ReadsIff ending ok' e' run' (chain ending true e run.tokens)) :
    ReadsIff ending (ok ∧ ok') e' run' (access ending ts) := by
  unfold access
  refine h.bind fun hok hending fits => ?_
  refine ((hchain hok hending).bind fun _ hending' _ => ?_).congr (and_iff_left trivial)
  exact readsIff_ok rfl rfl hending'

/-- Nothing is read behind an operand that no token continues. -/
lemma readsIff_chain {calls : Bool} (hfront : continuesAccess (front run.tokens) = false)
    (hending : ending = run.ending) :
    ReadsIff ending True e run (chain ending calls e run.tokens) := by
  have hne : ∀ token, continuesAccess token = true → ∀ p r, run.tokens ≠ ⟨p, token⟩ :: r := by
    intro token htoken p r htokens
    rw [htokens, show front (⟨p, token⟩ :: r) = token from rfl, htoken] at hfront
    cases hfront
  rw [chain.eq_6 _ _ _ _ (fun p => hne _ rfl p _) (fun p _ _ => hne _ rfl p _)
    (fun p => hne _ rfl p) (fun p => hne _ rfl p) (fun p _ _ => hne _ rfl p)]
  exact readsIff_ok rfl rfl hending

lemma readsIff_suffixed (h : ReadsIff ending ok e run (access ending ts))
    (hfront : continuesOperand (front run.tokens) = false) :
    ReadsIff ending ok e run (suffixed ending ts) := by
  unfold suffixed
  refine (h.bind fun _ hending fits => ?_).congr (and_iff_left trivial)
  split
  case h_1 l after hnext =>
    rw [front_of_next? hnext] at hfront
    split
    case h_1 op hop =>
      unfold update? at hop
      split at hop
      case h_1 hl => simp [hl, continuesOperand] at hfront
      case h_2 hl => simp [hl, continuesOperand] at hfront
      case h_3 => cases hop
    case h_2 => exact readsIff_ok rfl rfl hending
  case h_2 => exact readsIff_ok rfl rfl hending

/-- An operand without operators before it is read as on the level below. -/
lemma unary_eq_suffixed (hunary : unary? (front ts) = none)
    (hupdate : update? (front ts) = none) :
    unary ending ts = suffixed ending ts := by
  unfold unary
  cases ts with
  | nil => rfl
  | cons l r =>
    simp only [first?, show unary? l.token = none from hunary,
      show update? l.token = none from hupdate]

lemma readsIff_exponent (h : ReadsIff ending ok e run (unary ending ts))
    (hfront : front run.tokens ≠ .punct .starStar) :
    ReadsIff ending ok e run (exponent ending ts) := by
  unfold exponent
  refine (h.bind fun _ hending fits => ?_).congr (and_iff_left trivial)
  split
  case h_1 hnext => exact absurd (front_of_next? hnext) hfront
  case h_2 => exact readsIff_ok rfl rfl hending

/-- No operator is read that the token behind an expression is not. -/
lemma readsIff_binaryTail {min : Nat} (hfront : infixOp? (front run.tokens) = none)
    (hending : ending = run.ending) :
    ReadsIff ending True e run (binaryTail ending min e run.tokens) := by
  unfold binaryTail
  split
  case h_1 => exact readsIff_ok rfl rfl hending
  case h_2 l _ r h hfirst =>
    split
    case h_1 => exact readsIff_ok rfl rfl hending
    case h_2 strength op hop =>
      obtain ⟨tokens, ending'⟩ := run
      cases tokens with
      | nil => cases hfirst
      | cons l' r' =>
        cases hfirst
        rw [show infixOp? l.token = none from hfront] at hop
        cases hop

lemma readsIff_binary {min : Nat} (h : ReadsIff ending ok e run (exponent ending ts))
    (hfront : infixOp? (front run.tokens) = none) :
    ReadsIff ending ok e run (binary ending min ts) := by
  unfold binary
  refine (h.bind fun _ hending fits => ?_).congr (and_iff_left trivial)
  refine ((readsIff_binaryTail hfront hending).bind fun _ hending _ => ?_).congr
    (and_iff_left trivial)
  exact readsIff_ok rfl rfl hending

lemma readsIff_conditional (h : ReadsIff ending ok e run (binary ending 0 ts))
    (hfront : front run.tokens ≠ .punct .question) :
    ReadsIff ending ok e run (conditional ending ts) := by
  unfold conditional
  refine (h.bind fun _ hending fits => ?_).congr (and_iff_left trivial)
  split
  case h_1 hnext => exact absurd (front_of_next? hnext) hfront
  case h_2 => exact readsIff_ok rfl rfl hending

lemma readsIff_assignment (h : ReadsIff ending ok e run (conditional ending ts))
    (hfront : ∀ op, front run.tokens ≠ .assign op) :
    ReadsIff ending ok e run (assignment ending ts) := by
  unfold assignment
  refine (h.bind fun _ hending fits => ?_).congr (and_iff_left trivial)
  split
  case h_1 p op target r _ hnext => exact absurd (front_of_next? hnext) (hfront op)
  case h_2 => exact readsIff_ok rfl rfl hending

/-- What a token that closes an expression is not. -/
lemma not_operator_of_closes {token : Token} (h : closes token) :
    token ≠ .punct .starStar ∧ infixOp? token = none ∧ token ≠ .punct .question ∧
      (∀ op, token ≠ .assign op) ∧ continuesOperand token = false ∧ update? token = none := by
  unfold closes at h
  split at h
  all_goals first | exact ⟨by simp, rfl, by simp, by simp, rfl, rfl⟩ | cases h

/-- An operand in front of a token that closes it is a complete expression. -/
theorem readsIff_assignment_of_unary (h : ReadsIff ending ok e run (unary ending ts))
    (hfront : closes (front run.tokens)) : ReadsIff ending ok e run (assignment ending ts) := by
  obtain ⟨hpower, hinfixOp, hquestion, hassign, _⟩ := not_operator_of_closes hfront
  exact readsIff_assignment (readsIff_conditional
    (readsIff_binary (readsIff_exponent h hpower) hinfixOp) hquestion) hassign

/-! ## The rules on the tokens they are for -/

section Rules

variable {run₁ run₂ run₃ : TokenRun} {ok₁ ok₂ : Prop} {e' l r : Expr}

lemma startsWith_of_starts {mark : Punct} {token : Token} (h : run.Starts token run')
    (hne : token ≠ .punct mark) : startsWith mark run.tokens = false := by
  obtain ⟨p, rfl⟩ := h
  change startsWith mark (⟨p, token⟩ :: run'.tokens) = false
  unfold startsWith
  split
  case h_1 p' m r heq =>
    cases heq
    simpa using hne
  case h_2 => rfl

lemma startsWith_mark {mark : Punct} (h : run.Starts (.punct mark) run') :
    startsWith mark run.tokens = true := by
  obtain ⟨p, rfl⟩ := h
  exact beq_self_eq_true mark

/-- A token that is an operand by itself. -/
lemma readsIff_operand_token {token : Token} (h : run.Starts token run')
    (hread : ∀ p, operand ending (⟨p, token⟩ :: run'.tokens) = take ending run'.tokens e)
    (hending : ending = run.ending) :
    ReadsIff ending (Reached run') e run' (operand ending run.tokens) := by
  rw [ending_of_starts h] at hending
  obtain ⟨p, rfl⟩ := h
  change ReadsIff _ _ _ _ (operand ending (⟨p, token⟩ :: run'.tokens))
  rw [hread p]
  exact readsIff_take hending

lemma readsIff_operand_paren (hopen : run.Starts (.punct .lparen) run₁) (hreach : Reached run₁)
    (hread : ending = run₁.ending → ReadsIff ending ok e run₂ (assignment ending run₁.tokens))
    (hclose : run₂.Starts (.punct .rparen) run₃) (harrow : startsWith .arrow run₃.tokens = false)
    (hending : ending = run.ending) :
    ReadsIff ending (ok ∧ Reached run₃) e run₃ (operand ending run.tokens) := by
  rw [ending_of_starts hopen] at hending
  obtain ⟨p, rfl⟩ := hopen
  change ReadsIff _ _ _ _ (operand ending (⟨p, .punct .lparen⟩ :: run₁.tokens))
  rw [operand.eq_2 _ _ (by simp), primary.eq_8]
  refine (readsIff_reach hending fun _ => (hread hending).bind fun _ hending₂ _ =>
    (readsIff_expect hclose hending₂).bind fun _ hending₃ _ => ?_).congr
      (⟨fun h => ⟨h.2.1, h.2.2.1⟩, fun h => ⟨hreach, h.1, h.2, trivial⟩⟩)
  dsimp only
  rw [if_neg (by simp [harrow])]
  exact readsIff_ok rfl rfl hending₃

lemma readsIff_operand_array {es : List Expr} (hopen : run.Starts (.punct .lbracket) run₁)
    (hreach : Reached run₁)
    (hread : ending = run₁.ending → ReadsIff ending ok es run₂ (items ending .rbracket run₁.tokens))
    (hending : ending = run.ending) :
    ReadsIff ending ok (.array es) run₂ (operand ending run.tokens) := by
  rw [ending_of_starts hopen] at hending
  obtain ⟨p, rfl⟩ := hopen
  change ReadsIff _ _ _ _ (operand ending (⟨p, .punct .lbracket⟩ :: run₁.tokens))
  rw [operand.eq_2 _ _ (by simp), primary.eq_9]
  refine (readsIff_reach hending fun _ => (hread hending).bind fun _ hending₂ _ => ?_).congr
    (⟨fun h => h.2.1, fun h => ⟨hreach, h, trivial⟩⟩)
  exact readsIff_ok rfl rfl hending₂

lemma readsIff_operand_object {es : List (Entry Expr)} (hopen : run.Starts (.punct .lbrace) run₁)
    (hreach : Reached run₁)
    (hread : ending = run₁.ending → ReadsIff ending ok es run₂ (entries ending run₁.tokens))
    (hending : ending = run.ending) :
    ReadsIff ending ok (.object es) run₂ (operand ending run.tokens) := by
  rw [ending_of_starts hopen] at hending
  obtain ⟨p, rfl⟩ := hopen
  change ReadsIff _ _ _ _ (operand ending (⟨p, .punct .lbrace⟩ :: run₁.tokens))
  rw [operand.eq_2 _ _ (by simp), primary.eq_10]
  refine (readsIff_reach hending fun _ => (hread hending).bind fun _ hending₂ _ => ?_).congr
    (⟨fun h => h.2.1, fun h => ⟨hreach, h, trivial⟩⟩)
  exact readsIff_ok rfl rfl hending₂

lemma readsIff_operand_template {head : String} {parts : List (Hole × String)}
    {exprs : List (Expr × String)} (h : run.Starts (.template head parts) run₁)
    (hholes : GivesIff ok exprs (holes parts))
    (hending : ending = run.ending) :
    ReadsIff ending (ok ∧ Reached run₁) (.template head exprs) run₁
      (operand ending run.tokens) := by
  rw [ending_of_starts h] at hending
  obtain ⟨p, rfl⟩ := h
  change ReadsIff _ _ _ _ (operand ending (⟨p, .template head parts⟩ :: run₁.tokens))
  rw [operand.eq_2 _ _ (by simp), primary.eq_5]
  refine (readsIff_reach hending fun _ => ?_).congr ⟨fun h => h.2, fun h => ⟨h.2, h⟩⟩
  exact hholes.reads fun _ => readsIff_take hending

lemma readsIff_chain_member {calls : Bool} {name : String} {token : Token}
    (hdot : run.Starts (.punct .dot) run₁) (hname : run₁.Starts token run₂)
    (hproperty : propertyName? token = some name)
    (hchain : ending = run₂.ending →
      ReadsIff ending ok e' run₃ (chain ending calls (.member e name) run₂.tokens))
    (hending : ending = run.ending) :
    ReadsIff ending (Reached run₂ ∧ ok) e' run₃ (chain ending calls e run.tokens) := by
  rw [ending_of_starts hdot, ending_of_starts hname] at hending
  obtain ⟨p, rfl⟩ := hdot
  obtain ⟨p', rfl⟩ := hname
  change ReadsIff _ _ _ _
    (chain ending calls e (⟨p, .punct .dot⟩ :: ⟨p', token⟩ :: run₂.tokens))
  rw [chain.eq_2]
  simp only [hproperty]
  refine readsIff_reach hending fun _ => ?_
  refine ((hchain hending).bind fun _ hending₃ _ => ?_).congr (and_iff_left trivial)
  exact readsIff_ok rfl rfl hending₃

lemma readsIff_chain_index {calls : Bool} (hopen : run.Starts (.punct .lbracket) run₁)
    (hreach : Reached run₁)
    (hkey : ending = run₁.ending → ReadsIff ending ok r run₂ (assignment ending run₁.tokens))
    (hclose : run₂.Starts (.punct .rbracket) run₃)
    (hchain : ending = run₃.ending →
      ReadsIff ending ok' e' run' (chain ending calls (.index e r) run₃.tokens))
    (hending : ending = run.ending) :
    ReadsIff ending (ok ∧ Reached run₃ ∧ ok') e' run' (chain ending calls e run.tokens) := by
  rw [ending_of_starts hopen] at hending
  obtain ⟨p, rfl⟩ := hopen
  change ReadsIff _ _ _ _ (chain ending calls e (⟨p, .punct .lbracket⟩ :: run₁.tokens))
  rw [chain.eq_3]
  refine (readsIff_reach hending fun _ => (hkey hending).bind fun _ hending₂ _ =>
    (readsIff_expect hclose hending₂).bind fun _ hending₃ _ =>
      (hchain hending₃).bind fun _ hending' _ => ?_).congr
        ⟨fun h => ⟨h.2.1, h.2.2.1, h.2.2.2.1⟩, fun h => ⟨hreach, h.1, h.2.1, h.2.2, trivial⟩⟩
  exact readsIff_ok rfl rfl hending'

lemma readsIff_chain_call {es : List Expr} (hopen : run.Starts (.punct .lparen) run₁)
    (hreach : Reached run₁)
    (hargs : ending = run₁.ending → ReadsIff ending ok es run₂ (items ending .rparen run₁.tokens))
    (hchain : ending = run₂.ending →
      ReadsIff ending ok' e' run' (chain ending true (.call e es) run₂.tokens))
    (hending : ending = run.ending) :
    ReadsIff ending (ok ∧ ok') e' run' (chain ending true e run.tokens) := by
  rw [ending_of_starts hopen] at hending
  obtain ⟨p, rfl⟩ := hopen
  change ReadsIff _ _ _ _ (chain ending true e (⟨p, .punct .lparen⟩ :: run₁.tokens))
  rw [chain.eq_4, if_pos rfl]
  refine (readsIff_reach hending fun _ => (hargs hending).bind fun _ hending₂ _ =>
    (hchain hending₂).bind fun _ hending' _ => ?_).congr
      ⟨fun h => ⟨h.2.1, h.2.2.1⟩, fun h => ⟨hreach, h.1, h.2, trivial⟩⟩
  exact readsIff_ok rfl rfl hending'

lemma readsIff_items_nil {close : Punct} (hclose : run.Starts (.punct close) run')
    (hending : ending = run.ending) :
    ReadsIff ending (Reached run') [] run' (items ending close run.tokens) := by
  unfold items
  rw [if_pos (startsWith_mark hclose)]
  refine ((readsIff_expect hclose hending).bind fun _ hending' _ => ?_).congr (and_iff_left trivial)
  exact readsIff_ok rfl rfl hending'

/-- The first of several items, which neither the closing mark nor a comma begins. -/
lemma readsIff_items_cons {close : Punct} {es : List Expr} {token : Token}
    (hstarts : run.Starts token run₁) (htoken : closes token = false)
    (hclose : closes (.punct close)) (hcomma : close ≠ .comma)
    (hread : ending = run.ending → ReadsIff ending ok e run₂ (assignment ending run.tokens))
    (hothers : run₂.Starts (.punct close) run₃ ∧ (ending = run₂.ending →
        ReadsIff ending ok' es run' (items ending close run₂.tokens)) ∨
      run₂.Starts (.punct .comma) run₃ ∧ Reached run₃ ∧ (ending = run₃.ending →
        ReadsIff ending ok' es run' (items ending close run₃.tokens)))
    (hending : ending = run.ending) :
    ReadsIff ending (ok ∧ ok') (e :: es) run' (items ending close run.tokens) := by
  have hne : ∀ mark, closes (.punct mark) → token ≠ .punct mark := by
    rintro mark hmark rfl
    rw [htoken] at hmark
    cases hmark
  unfold items
  rw [if_neg (by simp [startsWith_of_starts hstarts (hne close hclose)]),
    if_neg (by simp [startsWith_of_starts hstarts (hne .comma rfl)])]
  refine (hread hending).bind fun _ hending₂ _ => ?_
  rcases hothers with ⟨hmark, hothers⟩ | ⟨hmark, hreach, hothers⟩
  · dsimp only
    rw [if_pos (startsWith_mark hmark)]
    refine ((hothers hending₂).bind fun _ hending' _ => ?_).congr (and_iff_left trivial)
    exact readsIff_ok rfl rfl hending'
  · dsimp only
    rw [if_neg (by simp [startsWith_of_starts hmark (by simpa using hcomma.symm)])]
    refine ((readsIff_expect hmark hending₂).bind fun _ hending₃ _ =>
      (hothers hending₃).bind fun _ hending' _ => ?_).congr
        ⟨fun h => h.2.1, fun h => ⟨hreach, h, trivial⟩⟩
    exact readsIff_ok rfl rfl hending'

lemma readsIff_key_token {token : Token} {key : Key Expr} (h : run.Starts token run')
    (hread : ∀ p, Grammar.key ending (⟨p, token⟩ :: run'.tokens) = take ending run'.tokens key)
    (hending : ending = run.ending) :
    ReadsIff ending (Reached run') key run' (Grammar.key ending run.tokens) := by
  rw [ending_of_starts h] at hending
  obtain ⟨p, rfl⟩ := h
  change ReadsIff _ _ _ _ (Grammar.key ending (⟨p, token⟩ :: run'.tokens))
  rw [hread p]
  exact readsIff_take hending

lemma readsIff_key_computed (hopen : run.Starts (.punct .lbracket) run₁) (hreach : Reached run₁)
    (hread : ending = run₁.ending → ReadsIff ending ok e run₂ (assignment ending run₁.tokens))
    (hclose : run₂.Starts (.punct .rbracket) run₃) (hending : ending = run.ending) :
    ReadsIff ending (ok ∧ Reached run₃) (.computed e) run₃ (Grammar.key ending run.tokens) := by
  rw [ending_of_starts hopen] at hending
  obtain ⟨p, rfl⟩ := hopen
  change ReadsIff _ _ _ _ (Grammar.key ending (⟨p, .punct .lbracket⟩ :: run₁.tokens))
  rw [key.eq_5]
  refine (readsIff_reach hending fun _ => ?_).congr ⟨fun h => h.2, fun h => ⟨hreach, h⟩⟩
  refine (hread hending).bind fun _ hending₂ _ => ?_
  rw [ending_of_starts hclose] at hending₂
  obtain ⟨p', rfl⟩ := hclose
  refine (readsIff_reach hending₂ fun _ => ?_).congr (and_iff_left trivial)
  exact readsIff_ok rfl rfl hending₂

lemma readsIff_entries_nil (hclose : run.Starts (.punct .rbrace) run')
    (hending : ending = run.ending) :
    ReadsIff ending (Reached run') [] run' (entries ending run.tokens) := by
  unfold entries
  rw [if_pos (startsWith_mark hclose)]
  refine ((readsIff_expect hclose hending).bind fun _ hending' _ => ?_).congr (and_iff_left trivial)
  exact readsIff_ok rfl rfl hending'

lemma readsIff_value {key : Key Expr} (hcolon : run.Starts (.punct .colon) run₁)
    (hreach : Reached run₁)
    (hread : ending = run₁.ending → ReadsIff ending ok e run₂ (assignment ending run₁.tokens))
    (hending : ending = run.ending) :
    ReadsIff ending ok ⟨key, e, false⟩ run₂ (value ending key run.tokens) := by
  have hlong : (startsWith .comma run.tokens || startsWith .rbrace run.tokens) = false := by
    rw [startsWith_of_starts hcolon (by simp), startsWith_of_starts hcolon (by simp)]
    rfl
  rw [value.eq_2 _ _ _ (by simp [hlong])]
  refine ((readsIff_expect hcolon hending).bind fun _ hending₁ _ =>
    (hread hending₁).bind fun _ hending₂ _ => ?_).congr
      ⟨fun h => h.2.1, fun h => ⟨hreach, h, trivial⟩⟩
  exact readsIff_ok rfl rfl hending₂

lemma readsIff_entries_cons {key : Key Expr} {entry : Entry Expr} {es : List (Entry Expr)}
    (hfront : startsWith .rbrace run.tokens = false)
    (hkey : ending = run.ending → ReadsIff ending ok₁ key run₁ (Grammar.key ending run.tokens))
    (hvalue : ending = run₁.ending → ReadsIff ending ok₂ entry run₂ (value ending key run₁.tokens))
    (hothers : run₂.Starts (.punct .rbrace) run₃ ∧ (ending = run₂.ending →
        ReadsIff ending ok' es run' (entries ending run₂.tokens)) ∨
      run₂.Starts (.punct .comma) run₃ ∧ Reached run₃ ∧ (ending = run₃.ending →
        ReadsIff ending ok' es run' (entries ending run₃.tokens)))
    (hending : ending = run.ending) :
    ReadsIff ending (ok₁ ∧ ok₂ ∧ ok') (entry :: es) run' (entries ending run.tokens) := by
  unfold entries
  rw [if_neg (by simp [hfront])]
  refine (hkey hending).bind fun _ hending₁ _ => (hvalue hending₁).bind fun _ hending₂ _ => ?_
  rcases hothers with ⟨hmark, hothers⟩ | ⟨hmark, hreach, hothers⟩
  · dsimp only
    rw [if_pos (startsWith_mark hmark)]
    refine ((hothers hending₂).bind fun _ hending' _ => ?_).congr (and_iff_left trivial)
    exact readsIff_ok rfl rfl hending'
  · dsimp only
    have hbrace : startsWith .rbrace run₂.tokens = false := startsWith_of_starts hmark (by simp)
    rw [if_neg (by simp [hbrace])]
    refine ((readsIff_expect hmark hending₂).bind fun _ hending₃ _ =>
      (hothers hending₃).bind fun _ hending' _ => ?_).congr
        ⟨fun h => h.2.1, fun h => ⟨hreach, h, trivial⟩⟩
    exact readsIff_ok rfl rfl hending'

/-- Two operands with an infix operator between them, in front of a token that closes them. -/
lemma readsIff_infixed {token : Token} {strength : Nat} {op : Infix}
    (hleft : ReadsIff ending ok₁ l run₁ (unary ending run.tokens))
    (hop : run₁.Starts token run₂) (hinfixOp : infixOp? token = some (strength, op))
    (hstrength : 0 < strength) (hreach : Reached run₂)
    (hright : ending = run₂.ending → ReadsIff ending ok₂ r run₃ (unary ending run₂.tokens))
    (hfront : closes (front run₃.tokens)) :
    ReadsIff ending (ok₁ ∧ ok₂) (op.apply l r) run₃ (assignment ending run.tokens) := by
  obtain ⟨hpower, hnone, hquestion, hassign, _⟩ := not_operator_of_closes hfront
  have hstar : front run₁.tokens ≠ .punct .starStar := by
    rw [front_of_starts hop]
    rintro rfl
    cases hinfixOp
  refine readsIff_assignment (readsIff_conditional ?_ hquestion) hassign
  unfold binary
  refine (readsIff_exponent hleft hstar).bind fun _ hending₁ _ => ?_
  have htail : ReadsIff ending ok₂ (op.apply l r) run₃ (binaryTail ending 0 l run₁.tokens) := by
    rw [ending_of_starts hop] at hending₁
    obtain ⟨p, rfl⟩ := hop
    change ReadsIff _ _ _ _ (binaryTail ending 0 l (⟨p, token⟩ :: run₂.tokens))
    unfold binaryTail
    simp only [first?, hinfixOp]
    rw [if_neg (by omega)]
    refine (readsIff_reach hending₁ fun _ =>
      (readsIff_binary (readsIff_exponent (hright hending₁) hpower) hnone).bind
        fun _ hending₃ _ => (readsIff_binaryTail hnone hending₃).bind fun _ hending₃ _ => ?_).congr
          ⟨fun h => h.2.1, fun h => ⟨hreach, h, trivial, trivial⟩⟩
    exact readsIff_ok rfl rfl hending₃
  refine (htail.bind fun _ hending₃ _ => ?_).congr (and_iff_left trivial)
  exact readsIff_ok rfl rfl hending₃

/-- The same for the exponent operator, which refuses an operator before its left operand. -/
lemma readsIff_power (hleft : ReadsIff ending ok₁ l run₁ (unary ending run.tokens))
    (hop : run₁.Starts (.punct .starStar) run₂) (hreach : Reached run₂)
    (hright : ending = run₂.ending → ReadsIff ending ok₂ r run₃ (unary ending run₂.tokens))
    (hfront : closes (front run₃.tokens)) :
    ReadsIff ending (ok₁ ∧ (unary? (front run.tokens)).isSome = false ∧ ok₂) (.binary .power l r)
      run₃ (assignment ending run.tokens) := by
  obtain ⟨hpower, hnone, hquestion, hassign, _⟩ := not_operator_of_closes hfront
  refine readsIff_assignment (readsIff_conditional (readsIff_binary ?_ hnone) hquestion) hassign
  unfold exponent
  refine hleft.bind fun _ hending₁ _ => ?_
  rw [ending_of_starts hop] at hending₁
  obtain ⟨p, rfl⟩ := hop
  change ReadsIff _ _ _ _ (if (unary? (front run.tokens)).isSome then _ else _)
  cases hbare : (unary? (front run.tokens)).isSome with
  | true => exact readsIff_error (by simp)
  | false =>
    rw [if_neg (by simp)]
    refine (readsIff_reach hending₁ fun _ =>
      (readsIff_exponent (hright hending₁) hpower).bind fun _ hending₃ _ => ?_).congr
        ⟨fun h => ⟨rfl, h.2.1⟩, fun h => ⟨hreach, h.2, trivial⟩⟩
    exact readsIff_ok rfl rfl hending₃

lemma readsIff_choice {test yes no : Expr} {ok₃ : Prop} {run₄ run₅ : TokenRun}
    (htest : ReadsIff ending ok₁ test run₁ (unary ending run.tokens))
    (hquestion : run₁.Starts (.punct .question) run₂) (hreach : Reached run₂)
    (hyes : ending = run₂.ending → ReadsIff ending ok₂ yes run₃ (assignment ending run₂.tokens))
    (hcolon : run₃.Starts (.punct .colon) run₄) (hreach' : Reached run₄)
    (hno : ending = run₄.ending → ReadsIff ending ok₃ no run₅ (assignment ending run₄.tokens))
    (hfront : closes (front run₅.tokens)) :
    ReadsIff ending (ok₁ ∧ ok₂ ∧ ok₃) (.conditional test yes no) run₅
      (assignment ending run.tokens) := by
  have hmark := front_of_starts hquestion
  refine readsIff_assignment ?_ (not_operator_of_closes hfront).2.2.2.1
  unfold conditional
  refine (readsIff_binary (readsIff_exponent htest (by simp [hmark])) (by rw [hmark]; rfl)).bind
    fun _ hending₁ _ => ?_
  rw [ending_of_starts hquestion] at hending₁
  obtain ⟨p, rfl⟩ := hquestion
  refine (readsIff_reach hending₁ fun _ => (hyes hending₁).bind fun _ hending₃ _ =>
    (readsIff_expect hcolon hending₃).bind fun _ hending₄ _ =>
      (hno hending₄).bind fun _ hending₅ _ => ?_).congr
        ⟨fun h => ⟨h.2.1, h.2.2.2.1⟩, fun h => ⟨hreach, h.1, hreach', h.2, trivial⟩⟩
  exact readsIff_ok rfl rfl hending₅

lemma readsIff_assign {op : AssignOp} (htarget : isTarget l)
    (hleft : ReadsIff ending ok₁ l run₁ (unary ending run.tokens))
    (hop : run₁.Starts (.assign op) run₂) (hreach : Reached run₂)
    (hright : ending = run₂.ending → ReadsIff ending ok₂ r run₃ (assignment ending run₂.tokens)) :
    ReadsIff ending (ok₁ ∧ ok₂) (.assign op l r) run₃ (assignment ending run.tokens) := by
  have hmark := front_of_starts hop
  have htest := readsIff_conditional (readsIff_binary (readsIff_exponent hleft (by simp [hmark]))
    (by rw [hmark]; rfl)) (by simp [hmark])
  rw [assignment]
  refine htest.bind fun _ hending₁ _ => ?_
  rw [ending_of_starts hop] at hending₁
  obtain ⟨p, rfl⟩ := hop
  change ReadsIff _ _ _ _ (if isTarget l then _ else _)
  rw [if_pos htarget]
  refine (readsIff_reach hending₁ fun _ => (hright hending₁).bind fun _ hending₃ _ => ?_).congr
    ⟨fun h => h.2.1, fun h => ⟨hreach, h, trivial⟩⟩
  exact readsIff_ok rfl rfl hending₃

lemma readsIff_unary {token : Token} {op : UnaryOp} (hop : run.Starts token run₁)
    (hunary : unary? token = some op) (hreach : Reached run₁)
    (hread : ending = run₁.ending → ReadsIff ending ok e run₂ (unary ending run₁.tokens))
    (hending : ending = run.ending) :
    ReadsIff ending ok (.unary op e) run₂ (unary ending run.tokens) := by
  rw [ending_of_starts hop] at hending
  obtain ⟨p, rfl⟩ := hop
  change ReadsIff _ _ _ _ (unary ending (⟨p, token⟩ :: run₁.tokens))
  rw [unary]
  simp only [first?, hunary]
  refine (readsIff_reach hending fun _ => (hread hending).bind fun _ hending₂ _ => ?_).congr
    ⟨fun h => h.2.1, fun h => ⟨hreach, h, trivial⟩⟩
  exact readsIff_ok rfl rfl hending₂

lemma readsIff_update {token : Token} {op : UpdateOp} (hop : run.Starts token run₁)
    (hunary : unary? token = none) (hupdate : update? token = some op) (hreach : Reached run₁)
    (hread : ending = run₁.ending → ReadsIff ending ok e run₂ (unary ending run₁.tokens))
    (hending : ending = run.ending) :
    ReadsIff ending ok (.update op true e) run₂ (unary ending run.tokens) := by
  rw [ending_of_starts hop] at hending
  obtain ⟨p, rfl⟩ := hop
  change ReadsIff _ _ _ _ (unary ending (⟨p, token⟩ :: run₁.tokens))
  rw [unary]
  simp only [first?, hunary, hupdate]
  refine (readsIff_reach hending fun _ => (hread hending).bind fun _ hending₂ _ => ?_).congr
    ⟨fun h => h.2.1, fun h => ⟨hreach, h, trivial⟩⟩
  exact readsIff_ok rfl rfl hending₂

lemma readsIff_suffix {token : Token} {op : UpdateOp}
    (hread : ReadsIff ending ok e run₁ (access ending run.tokens))
    (hop : run₁.Starts token run₂) (hupdate : update? token = some op) :
    ReadsIff ending (ok ∧ Reached run₂) (.update op false e) run₂
      (suffixed ending run.tokens) := by
  unfold suffixed
  refine hread.bind fun _ hending₁ _ => ?_
  rw [ending_of_starts hop] at hending₁
  obtain ⟨p, rfl⟩ := hop
  simp only [TokenRun.cons, Step.next?, hupdate]
  refine (readsIff_reach hending₁ fun _ => ?_).congr (and_iff_left trivial)
  exact readsIff_ok rfl rfl hending₁

end Rules

end RowExpr.Grammar
