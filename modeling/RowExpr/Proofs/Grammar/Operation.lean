/-
# Reading written operations

Names, literals and operations as they are written. An operation stands in parentheses, and its
operands are simple expressions, so it does not matter how tightly its operator binds. Two things
still can go wrong: the exponent operator refuses an operator in front of its left operand, and a
question mark runs into a number that starts with a point.

* `ReadsSimple.infixed`, `ReadsSimple.power`: infix operators;
* `ReadsSimple.unary`, `ReadsSimple.update`, `ReadsOperand.updated`: operators with one operand;
* `ReadsSimple.assign`, `ReadsSimple.choice`: assignments and choices.
-/
import RowExpr.Proofs.Grammar.Reading

namespace RowExpr.Grammar

open TokenRun (scan)
open Token (Opens Skips StopsWord isNamePart isName isWord NumberText StringText)

variable {text text' : List Char} {e e' : Expr} {ok ok' : Prop} {bare bare' : Bool}

/-! ## Names and literals -/

lemma readsOperand_word {word : String} {token : Token} (h : isWord word)
    (hword : Token.ofWord word = token) (htoken : startsOperand token)
    (hread : ∀ ending p r, startsWith .arrow r = false →
      primary ending (⟨p, token⟩ :: r) = take ending r e) :
    ReadsOperand word.toList e True := by
  refine readsOperand_of_token (Token.opens_of_isWord h) (Token.skips_of_isWord h)
    (fun stop rest hrest => hword ▸ TokenRun.starts_word h hrest) htoken fun ending p r harrow => ?_
  rw [operand.eq_2 _ _ (by rintro _ _ ⟨⟩; cases htoken), hread ending p r harrow]

lemma readsOperand_identifier {name : String} (h : isName name) :
    ReadsOperand name.toList (.identifier name) True := by
  refine readsOperand_word (Token.isWord_of_isName h) (Token.ofWord_of_isName h) rfl ?_
  intro ending p r harrow
  rw [primary.eq_6, if_neg (by simp [harrow])]

lemma readsOperand_boolean (value : Bool) :
    ReadsOperand (toString value).toList (.literal (.boolean value)) True :=
  readsOperand_word (by cases value <;> decide) (by cases value <;> rfl) rfl
    fun _ _ _ _ => primary.eq_3 ..

lemma readsOperand_null : ReadsOperand "null".toList (.literal .null) True :=
  readsOperand_word (by decide) rfl rfl fun _ _ _ _ => primary.eq_4 ..

lemma readsOperand_string {value raw : String} (h : StringText value raw) :
    ReadsOperand raw.toList (.literal (.string value raw)) True := by
  refine readsOperand_of_token h.opens_skips.1 h.opens_skips.2
    (fun stop rest _ => TokenRun.starts_string h) rfl fun ending p r _ => ?_
  rw [operand.eq_2 _ _ (by simp), primary.eq_2]

lemma Apart.stopsNumber {rest : List Char} (h : Apart rest) : Token.StopsNumber rest := by
  intro c hc
  obtain ⟨hpart, hpoint⟩ := h c hc
  refine ⟨?_, ?_, hpoint⟩
  · by_contra hstart
    rw [Token.isNamePart_of_isNameStart (by simpa using hstart)] at hpart
    cases hpart
  · by_contra hdigit
    rw [Token.isNamePart_of_isDigit (by simpa using hdigit)] at hpart
    cases hpart

/-- A number is no operand, since a point may continue it. -/
lemma readsSimple_number {value : Float} {raw : String} (h : NumberText value raw) :
    ReadsSimple raw.toList (.literal (.number value raw)) True false where
  opens := h.opens_skips.1
  skips := h.opens_skips.2
  starts stop rest hrest :=
    ⟨.number value raw, _, TokenRun.starts_number h hrest.stopsNumber, .inl ⟨rfl, rfl⟩⟩
  reads := by
    intro stop rest ending hrest hfront hending
    have hstarts : (scan stop (raw.toList ++ rest)).Starts (.number value raw) (scan stop rest) :=
      TokenRun.starts_number h hrest.stopsNumber
    rw [unary_eq_suffixed (by rw [front_of_starts hstarts]; rfl)
      (by rw [front_of_starts hstarts]; rfl)]
    have hoperand : ReadsIff ending (Reached (scan stop rest)) (.literal (.number value raw))
        (scan stop rest) (operand ending (scan stop (raw.toList ++ rest)).tokens) := by
      refine readsIff_operand_token hstarts (fun p => ?_) hending
      rw [operand.eq_2 _ _ (by simp), primary.eq_1]
    have haccess := readsIff_access hoperand fun _ hending =>
      readsIff_chain (continuesAccess_of_operand hfront) hending
    refine readsIff_suffixed (haccess.congr ?_) hfront
    rw [and_true, true_and]

/-! ## Operators -/

/-- The text is read as one token in front of an expression. -/
structure ReadsOperator (text : List Char) (token : Token) : Prop where
  skips : Skips text
  starts : ∀ {stop rest}, Opens rest → (scan stop (text ++ rest)).Starts token (scan stop rest)

/-- The text is read as one token between two expressions. -/
structure ReadsInfix (text : List Char) (token : Token) : Prop extends
    ReadsOperator text token where
  apart : ∀ rest, Apart (text ++ rest)
  stops : continuesOperand token = false

lemma readsOperator_mark {spelling : List Char} {token : Token}
    (hmark : Token.IsMark spelling token) (hinert : spelling.all Token.isInert)
    (hpoint : Token.endsBefore spelling '.') : ReadsOperator spelling token where
  skips := Token.skips_of_inert (by simpa using hinert)
  starts := by
    intro stop rest hrest
    have hne : spelling ≠ [] := by
      rintro rfl
      simp [Token.IsMark] at hmark
    have hends : ∀ c, (rest ++ []).head? = some c → Token.endsBefore spelling c = true :=
      Token.endsBefore_of_opens hrest hne hpoint
    exact TokenRun.starts_mark hmark (by simpa using hends)

lemma readsInfix_mark {spelling : List Char} {token : Token}
    (hmark : Token.IsMark spelling token) (hinert : spelling.all Token.isInert)
    (hpoint : Token.endsBefore spelling '.')
    (hfirst : spelling.head?.all fun c => !isNamePart c && c != '.')
    (hstops : continuesOperand token = false) : ReadsInfix spelling token where
  toReadsOperator := readsOperator_mark hmark hinert hpoint
  apart rest := by
    cases spelling with
    | nil => simp [Token.IsMark] at hmark
    | cons c tail => exact apart_cons (by simpa using hfirst) _
  stops := hstops

/-- A word with a blank behind it. -/
lemma readsOperator_word {word : String} (h : isWord word) :
    ReadsOperator (word.toList ++ [' ']) (Token.ofWord word) where
  skips := (Token.skips_of_isWord h).append (Token.skips_char (by decide))
  starts := by
    intro stop rest _
    have hblank : scan stop (' ' :: rest) = scan stop rest := TokenRun.scan_blank (by decide)
    rw [List.append_assoc, ← hblank]
    exact TokenRun.starts_word h (stopsWord_cons (by decide) rest)

/-- A word with blanks around it. -/
lemma readsInfix_word {word : String} (h : isWord word)
    (hstops : continuesOperand (Token.ofWord word) = false) :
    ReadsInfix (' ' :: (word.toList ++ [' '])) (Token.ofWord word) where
  skips := Skips.cons (by decide) (readsOperator_word h).skips
  starts := by
    intro stop rest hrest
    rw [List.cons_append, TokenRun.scan_blank (by decide)]
    exact (readsOperator_word h).starts hrest
  apart rest := apart_cons (by decide) _
  stops := hstops

/-- The code of an infix operator, with the blanks around it. -/
def spacedBinary (op : BinaryOp) : List Char :=
  let gap := if op.isWord then [' '] else []
  gap ++ (op.spelling.toList ++ gap)

lemma readsInfix_binary (op : BinaryOp) : ∃ token, ReadsInfix (spacedBinary op) token ∧
    (op = .power ∧ token = .punct .starStar ∨
      op ≠ .power ∧ ∃ strength > 0, infixOp? token = some (strength, .binary op)) := by
  cases op with
  | power =>
    exact ⟨_, readsInfix_mark ⟨by decide, rfl⟩ (by decide) (by decide) (by decide) rfl,
      .inl ⟨rfl, rfl⟩⟩
  | memberOf | instanceOf =>
    exact ⟨_, readsInfix_word (by decide) rfl, .inr ⟨by decide, _, by decide, rfl⟩⟩
  | _ =>
    exact ⟨_, readsInfix_mark ⟨by decide, rfl⟩ (by decide) (by decide) (by decide) rfl,
      .inr ⟨by decide, _, by decide, rfl⟩⟩

lemma readsInfix_logical (op : LogicalOp) : ∃ token, ReadsInfix op.spelling.toList token ∧
    ∃ strength > 0, infixOp? token = some (strength, .logical op) := by
  cases op
  all_goals exact ⟨_, readsInfix_mark ⟨by decide, rfl⟩ (by decide) (by decide) (by decide) rfl, _,
    by decide, rfl⟩

lemma readsInfix_assign (op : AssignOp) : ReadsInfix op.spelling.toList (.assign op) := by
  refine readsInfix_mark (Token.isMark_assign op) ?_ ?_ ?_ rfl
  all_goals cases op <;> decide

/-- The code of a unary operator, with the blank after it. -/
def spacedUnary (op : UnaryOp) : List Char :=
  op.spelling.toList ++ (if op.isWord then [' '] else [])

lemma readsOperator_unary (op : UnaryOp) : ∃ token, ReadsOperator (spacedUnary op) token ∧
    unary? token = some op ∧ closes token = false := by
  cases op with
  | typeOf | void | delete => exact ⟨_, readsOperator_word (by decide), rfl, rfl⟩
  | _ => exact ⟨_, readsOperator_mark ⟨by decide, rfl⟩ (by decide) (by decide), rfl, rfl⟩

/-- The mark of an update operator, which ends wherever it stands. -/
lemma starts_update (op : UpdateOp) : ∃ token, unary? token = none ∧ update? token = some op ∧
    continuesAccess token = false ∧ closes token = false ∧
    ∀ stop rest, (scan stop (op.spelling.toList ++ rest)).Starts token (scan stop rest) := by
  have hmark : ∀ mark : Punct, Token.isLone mark.spelling.toList → ∀ stop rest,
      (scan stop (mark.spelling.toList ++ rest)).Starts (.punct mark) (scan stop rest) :=
    fun mark hlone stop rest => TokenRun.starts_mark (Token.isMark_punct mark)
      fun c _ => Token.endsBefore_of_isLone hlone c
  cases op with
  | increment => exact ⟨_, rfl, rfl, rfl, rfl, hmark .plusPlus (by decide)⟩
  | decrement => exact ⟨_, rfl, rfl, rfl, rfl, hmark .minusMinus (by decide)⟩

/-! ## Operations -/

lemma ReadsSimple.reached (h : ReadsSimple text e ok bare) {rest : List Char}
    (hrest : Apart rest) (stop : Nat) : Reached (scan stop (text ++ rest)) := by
  obtain ⟨_, _, hstarts, _⟩ := h.starts stop rest hrest
  exact reached_of_starts hstarts

/-- Two operands with an infix operator between them. -/
theorem ReadsSimple.infixed (h : ReadsSimple text e ok bare) (h' : ReadsSimple text' e' ok' bare')
    {op : List Char} {token : Token} {strength : Nat} {infx : Infix} (hop : ReadsInfix op token)
    (hinfixOp : infixOp? token = some (strength, infx)) (hstrength : 0 < strength) :
    ReadsGroup (text ++ (op ++ text')) (infx.apply e e') (ok ∧ ok') where
  skips := h.skips.append (hop.skips.append h'.skips)
  starts stop rest _ := by
    rw [List.append_assoc, List.append_assoc]
    exact h.group.starts stop _ (hop.apart _)
  reads := by
    intro stop rest ending hrest hfront hending
    rw [List.append_assoc, List.append_assoc] at hending ⊢
    have hmark : (scan stop (op ++ (text' ++ rest))).Starts token (scan stop (text' ++ rest)) :=
      hop.starts (h'.opens.append rest)
    have hleft := h.reads (hop.apart _) (by rw [front_of_starts hmark]; exact hop.stops) hending
    refine (readsIff_infixed hleft hmark hinfixOp hstrength (h'.reached hrest stop)
      (h'.reads hrest (not_operator_of_closes hfront).2.2.2.2.1) hfront).congr ?_
    have := reached_of_starts hmark
    tauto

lemma unary?_of_starts {bare : Bool} {run run' : TokenRun} {token : Token}
    (hstarts : run.Starts token run')
    (h : bare = false ∧ startsOperand token ∨ bare = true ∧ token = .keyword .void) :
    (unary? (front run.tokens)).isSome = bare := by
  rw [front_of_starts hstarts]
  rcases h with ⟨rfl, htoken⟩ | ⟨rfl, rfl⟩
  · rw [(not_prefix_of_startsOperand htoken).1]
    rfl
  · rfl

/-- Two operands with the exponent operator between them. -/
theorem ReadsSimple.power (h : ReadsSimple text e ok bare) (h' : ReadsSimple text' e' ok' bare')
    {op : List Char} (hop : ReadsInfix op (.punct .starStar)) :
    ReadsGroup (text ++ (op ++ text')) (.binary .power e e') (ok ∧ bare = false ∧ ok') where
  skips := h.skips.append (hop.skips.append h'.skips)
  starts stop rest _ := by
    rw [List.append_assoc, List.append_assoc]
    exact h.group.starts stop _ (hop.apart _)
  reads := by
    intro stop rest ending hrest hfront hending
    rw [List.append_assoc, List.append_assoc] at hending ⊢
    have hmark : (scan stop (op ++ (text' ++ rest))).Starts (.punct .starStar)
        (scan stop (text' ++ rest)) := hop.starts (h'.opens.append rest)
    have hleft := h.reads (hop.apart _) (by rw [front_of_starts hmark]; exact hop.stops) hending
    obtain ⟨token, run, hstarts, htoken⟩ := h.starts stop _ (hop.apart (text' ++ rest))
    refine (readsIff_power hleft hmark (h'.reached hrest stop)
      (h'.reads hrest (not_operator_of_closes hfront).2.2.2.2.1) hfront).congr ?_
    rw [unary?_of_starts hstarts htoken]
    have := reached_of_starts hmark
    tauto

/-- An assignment. -/
theorem ReadsSimple.assign (h : ReadsSimple text e ok bare) (h' : ReadsSimple text' e' ok' bare')
    (op : AssignOp) (htarget : isTarget e) :
    ReadsGroup (text ++ (op.spelling.toList ++ text')) (.assign op e e') (ok ∧ ok') where
  skips := h.skips.append ((readsInfix_assign op).skips.append h'.skips)
  starts stop rest _ := by
    rw [List.append_assoc, List.append_assoc]
    exact h.group.starts stop _ ((readsInfix_assign op).apart _)
  reads := by
    intro stop rest ending hrest hfront hending
    have hop := readsInfix_assign op
    rw [List.append_assoc, List.append_assoc] at hending ⊢
    have hmark : (scan stop (op.spelling.toList ++ (text' ++ rest))).Starts (.assign op)
        (scan stop (text' ++ rest)) := hop.starts (h'.opens.append rest)
    have hleft := h.reads (hop.apart _) (by rw [front_of_starts hmark]; exact hop.stops) hending
    refine (readsIff_assign htarget hleft hmark (h'.reached hrest stop)
      (h'.group.reads hrest hfront)).congr ?_
    have := reached_of_starts hmark
    tauto

/-- An operator before its operand. -/
theorem ReadsSimple.unary (h : ReadsSimple text e ok bare) (op : UnaryOp) :
    ReadsGroup (spacedUnary op ++ text) (.unary op e) ok := by
  obtain ⟨token, hop, hunary, htoken⟩ := readsOperator_unary op
  refine ⟨hop.skips.append h.skips, ?_, ?_⟩
  · intro stop rest _
    rw [List.append_assoc]
    exact ⟨token, _, hop.starts (h.opens.append rest), htoken⟩
  · intro stop rest ending hrest hfront hending
    rw [List.append_assoc] at hending ⊢
    have hmark : (scan stop (spacedUnary op ++ (text ++ rest))).Starts token
        (scan stop (text ++ rest)) := hop.starts (h.opens.append rest)
    exact readsIff_assignment_of_unary (readsIff_unary hmark hunary (h.reached hrest stop)
      (h.reads hrest (not_operator_of_closes hfront).2.2.2.2.1) hending) hfront

/-- An update operator before its variable. -/
theorem ReadsSimple.update (h : ReadsSimple text e ok bare) (op : UpdateOp) :
    ReadsGroup (op.spelling.toList ++ text) (.update op true e) ok := by
  obtain ⟨token, hunary, hupdate, _, htoken, hop⟩ := starts_update op
  refine ⟨?_, ?_, ?_⟩
  · refine Skips.append (Token.skips_of_inert ?_) h.skips
    cases op <;> exact forall_mem_of_all (by decide)
  · intro stop rest _
    rw [List.append_assoc]
    exact ⟨token, _, hop stop _, htoken⟩
  · intro stop rest ending hrest hfront hending
    rw [List.append_assoc] at hending ⊢
    exact readsIff_assignment_of_unary (readsIff_update (hop stop _) hunary hupdate
      (h.reached hrest stop) (h.reads hrest (not_operator_of_closes hfront).2.2.2.2.1) hending)
      hfront

/-- An update operator after its variable. -/
theorem ReadsOperand.updated (h : ReadsOperand text e ok) (op : UpdateOp) :
    ReadsGroup (text ++ op.spelling.toList) (.update op false e) ok := by
  obtain ⟨token, _, hupdate, haccess, _, hop⟩ := starts_update op
  have hstops : ∀ rest, StopsWord (op.spelling.toList ++ rest) := by
    intro rest
    cases op
    all_goals exact stopsWord_cons (by decide) _
  refine ⟨?_, ?_, ?_⟩
  · refine h.skips.append (Token.skips_of_inert ?_)
    cases op <;> exact forall_mem_of_all (by decide)
  · intro stop rest _
    rw [List.append_assoc]
    obtain ⟨token, run, hstarts, htoken⟩ := h.starts stop _ (hstops rest)
    exact ⟨token, run, hstarts, (not_prefix_of_startsOperand htoken).2.2⟩
  · intro stop rest ending hrest hfront hending
    rw [List.append_assoc] at hending ⊢
    obtain ⟨first, run, hstarts, hfirst⟩ := h.starts stop _ (hstops rest)
    obtain ⟨hunary, hupdate', _⟩ := not_prefix_of_startsOperand hfirst
    rw [← front_of_starts hstarts] at hunary hupdate'
    have harrow : startsWith .arrow (scan stop (op.spelling.toList ++ rest)).tokens = false := by
      refine startsWith_of_starts (hop stop rest) ?_
      rintro rfl
      cases hupdate
    have hread := h.reads (hstops rest) harrow hending fun hending =>
      readsIff_chain (by rw [front_of_starts (hop stop rest)]; exact haccess) hending
    refine readsIff_assignment_of_unary ?_ hfront
    rw [unary_eq_suffixed hunary hupdate']
    refine (readsIff_suffix hread (hop stop rest) hupdate).congr ?_
    have := reached_of_starts (hop stop rest)
    tauto

/-- A choice, whose question mark must not run into a point. -/
theorem ReadsSimple.choice (h : ReadsSimple text e ok bare) (h' : ReadsSimple text' e' ok' bare')
    {text'' : List Char} {e'' : Expr} {ok'' : Prop} {bare'' : Bool}
    (h'' : ReadsSimple text'' e'' ok'' bare'') :
    ReadsGroup (text ++ '?' :: (text' ++ ':' :: text'')) (.conditional e e' e'')
      (ok ∧ text'.head? ≠ some '.' ∧ ok' ∧ ok'') where
  skips := h.skips.append (Skips.cons (by decide)
    (h'.skips.append (Skips.cons (by decide) h''.skips)))
  starts stop rest _ := by
    rw [List.append_assoc]
    exact h.group.starts stop _ (apart_cons (by decide) _)
  reads := by
    intro stop rest ending hrest hfront hending
    have hassoc : text ++ '?' :: (text' ++ ':' :: text'') ++ rest =
        text ++ '?' :: (text' ++ ':' :: (text'' ++ rest)) := by simp
    rw [hassoc] at hending ⊢
    have hapart : Apart ('?' :: (text' ++ ':' :: (text'' ++ rest))) := apart_cons (by decide) _
    have hapart' : Apart (':' :: (text'' ++ rest)) := apart_cons (by decide) _
    by_cases hpoint : text'.head? = some '.'
    · -- The scanner stops at the question mark, so there is nothing behind the first operand.
      obtain ⟨f, hf⟩ : ∃ f, scan stop ('?' :: (text' ++ ':' :: (text'' ++ rest))) =
          TokenRun.faulty stop f := by
        obtain ⟨tail, rfl⟩ := List.head?_eq_some_iff.1 hpoint
        exact TokenRun.scan_questionPoint
      have hnot : ¬ Reached (scan stop ('?' :: (text' ++ ':' :: (text'' ++ rest)))) := by
        rw [hf]
        rintro (htokens | ⟨position, hend⟩)
        · exact htokens rfl
        · cases hend
      have hleft := readsIff_assignment_of_unary
        (h.reads hapart (by rw [hf]; rfl) hending) (by rw [hf]; rfl)
      exact ⟨fun hok => absurd hpoint hok.1.2.1, fun _ => hleft.2 fun hok => hnot hok.2⟩
    · have hmark : (scan stop ('?' :: (text' ++ ':' :: (text'' ++ rest)))).Starts (.punct .question)
          (scan stop (text' ++ ':' :: (text'' ++ rest))) :=
        TokenRun.starts_mark (Token.isMark_punct .question) fun c hc =>
          Token.endsBefore_of_not_tail (by decide) (h'.opens.not_tail hpoint c hc)
            fun hdot => absurd hdot (by decide)
      have hcolon : (scan stop (':' :: (text'' ++ rest))).Starts (.punct .colon)
          (scan stop (text'' ++ rest)) := starts_bracket rfl rfl stop _
      have hleft := h.reads hapart (by rw [front_of_starts hmark]; rfl) hending
      refine (readsIff_choice hleft hmark (h'.reached hapart' stop)
        (h'.group.reads hapart' (by rw [front_of_starts hcolon]; rfl)) hcolon
        (h''.reached hrest stop) (h''.group.reads hrest hfront) hfront).congr ?_
      have := reached_of_starts hmark
      have := reached_of_starts hcolon
      tauto

end RowExpr.Grammar
