/-
# Row functions that are blocks, read back from their code

Each statement of a list is printed with a semicolon behind it, and so is the first branch of a
choice in front of its `else`, unless it is a block.  A statement that ends with a brace does not
take that semicolon.  In a list it is then read as an empty statement, which does no harm.  In
front of an `else` it ends the choice, and the `else` is left without one
(`RowFunction.parse_code_block_iff`).
-/
import RowExpr.Proofs.Roundtrip.Expression
import RowExpr.Stmt.Code

namespace RowExpr

open TokenRun (scan)

namespace Stmt

/-! ## Where semicolons go -/

/-- Whether the code of the statement ends with a brace, so that a semicolon behind it is not read
with it. -/
def selfClosed : Stmt → Bool
  | block _ | switch _ _ => true
  | if_ _ yes none => yes.selfClosed
  | if_ _ _ (some no) => no.selfClosed
  | _ => false

/-- Whether the code of the statement has a semicolon in front of its `else` that is not read with
the first branch. -/
def losesElse : Stmt → Bool
  | if_ _ yes (some _) => yes.selfClosed && !yes.isBlock
  | _ => false

/-- None of the statements loses its `else`. -/
def KeepElse (statements : List (Bool × Stmt)) : Prop := ∀ p ∈ statements, p.2.losesElse = false

/-- The code of a statement, with a semicolon if one is read with it. -/
def text (s : Stmt) : List Char := s.code.toList ++ bif s.selfClosed then [] else [';']

mutual

/-- What the code of a statement is read as: the expressions are in longhand, and in a list an empty
statement stands behind each statement that ends by itself. -/
def reread : Stmt → Stmt
  | expr value => expr value.longhand
  | declare kind name init => declare kind name (init.map Expr.longhand)
  | block body => block (rereadList body)
  | if_ test yes no => if_ test.longhand (reread yes) (rereadOption no)
  | switch subject arms => switch subject.longhand (rereadArms arms)
  | return_ value => return_ (value.map Expr.longhand)
  | s => s

/-- What the code of a statement that may be missing is read as. -/
def rereadOption : Option Stmt → Option Stmt
  | some s => some (reread s)
  | none => none

/-- What the code of statements is read as. -/
def rereadList : List Stmt → List Stmt
  | [] => []
  | s :: rest => reread s :: ((if s.selfClosed then [empty] else []) ++ rereadList rest)

/-- What the code of the arms of a switch is read as. -/
def rereadArms : List (Arm Stmt) → List (Arm Stmt)
  | [] => []
  | ⟨test, body⟩ :: rest => ⟨test.map Expr.longhand, rereadList body⟩ :: rereadArms rest

end

end Stmt

namespace Grammar

open Stmt (KeepElse reread rereadList rereadArms codeOfList codeOfArms innerOfList
  innerOfArms)

variable {ending : Ending} {inSwitch : Bool}

/-! ## Expressions in statements -/

/-- The code of the expression is read as the expression in longhand. -/
def ReadsLonghand (e : Expr) : Prop := ReadsSimple e.code.toList e.longhand True false

lemma ReadsLonghand.starts {e : Expr} (h : ReadsLonghand e) (stop : Nat) {rest : List Char}
    (hrest : Apart rest) :
    ∃ token run, (scan stop (e.code.toList ++ rest)).Starts token run ∧
      startsOperand token = true := by
  obtain ⟨token, run, hstarts, ⟨_, htoken⟩ | ⟨hbare, _⟩⟩ := ReadsSimple.starts h stop rest hrest
  · exact ⟨token, run, hstarts, htoken⟩
  · cases hbare

/-- In front of a mark that closes it, the code is a complete expression. -/
lemma ReadsLonghand.reads {e : Expr} (h : ReadsLonghand e) {stop : Nat} {c : Char}
    {rest : List Char} {mark : Punct} {run : TokenRun}
    (hmark : (scan stop (c :: rest)).Starts (.punct mark) run) (hcloses : closes (.punct mark))
    (hapart : Token.isNamePart c = false ∧ c ≠ '.')
    (hending : ending = (scan stop (e.code.toList ++ c :: rest)).ending) :
    ReadsIff ending True e.longhand (scan stop (c :: rest))
      (assignment ending (scan stop (e.code.toList ++ c :: rest)).tokens) := by
  refine (ReadsGroup.reads (ReadsSimple.group h) (apart_cons hapart rest) ?_ hending).congr ?_
  · rw [front_of_starts hmark]
    exact hcloses
  · exact iff_true_intro ⟨trivial, reached_of_starts hmark⟩

lemma starts_lparen (stop : Nat) (rest : List Char) :
    (scan stop ('(' :: rest)).Starts (.punct .lparen) (scan stop rest) :=
  starts_bracket rfl rfl stop rest

lemma starts_semicolon (stop : Nat) (rest : List Char) :
    (scan stop (';' :: rest)).Starts (.punct .semicolon) (scan stop rest) :=
  starts_bracket rfl rfl stop rest

/-- An expression in front of a semicolon. -/
lemma ReadsLonghand.readsEnd {e : Expr} (h : ReadsLonghand e) {stop : Nat} {rest : List Char}
    (hending : ending = (scan stop (e.code.toList ++ ';' :: rest)).ending) :
    ReadsIff ending True e.longhand (scan stop (';' :: rest))
      (assignment ending (scan stop (e.code.toList ++ ';' :: rest)).tokens) :=
  h.reads (starts_semicolon stop rest) rfl (by decide) hending

/-- An expression in parentheses. -/
lemma ReadsLonghand.parenthesized {e : Expr} (h : ReadsLonghand e) {stop : Nat}
    {rest : List Char} (hreach : Reached (scan stop rest))
    (hending : ending = (scan stop ('(' :: (e.code.toList ++ ')' :: rest))).ending) :
    ReadsIff ending True e.longhand (scan stop rest)
      (parenthesized ending (scan stop ('(' :: (e.code.toList ++ ')' :: rest))).tokens) := by
  have hclose : (scan stop (')' :: rest)).Starts (.punct .rparen) (scan stop rest) :=
    starts_bracket rfl rfl stop rest
  obtain ⟨token, run, hstarts, _⟩ := h.starts stop (apart_cons (c := ')') (by decide) rest)
  refine (readsIff_parenthesized (starts_lparen stop _) (reached_of_starts hstarts)
    (h.reads hclose rfl (by decide)) hclose hending).congr ?_
  exact iff_true_intro ⟨trivial, hreach⟩

/-- A reserved word in front of a text that does not continue it. -/
lemma starts_keyword (word : Keyword) (stop : Nat) {rest : List Char}
    (hrest : Token.StopsWord rest) :
    (scan stop (word.spelling.toList ++ rest)).Starts (.keyword word) (scan stop rest) := by
  have hword : Token.ofWord word.spelling = .keyword word := by cases word <;> rfl
  rw [← hword]
  exact TokenRun.starts_word (Token.isWord_spelling word) hrest

/-- A reserved word with a blank behind it. -/
lemma starts_keyword_blank (word : Keyword) (stop : Nat) (rest : List Char) :
    (scan stop (word.spelling.toList ++ ' ' :: rest)).Starts (.keyword word) (scan stop rest) := by
  have hblank : scan stop (' ' :: rest) = scan stop rest := TokenRun.scan_blank (by decide)
  rw [← hblank]
  exact starts_keyword word stop (stopsWord_cons (by decide) rest)

/-! ## Statements without statements in them -/

/-- Whether a statement may start with the token. -/
def startsStatement : Token → Bool
  | .punct .rbrace | .keyword .else_ | .keyword .case | .keyword .default | .eof => false
  | _ => true

/-- The code of the statement is read back, with everything that stands in it, unless one of the
choices in it loses its `else`. -/
structure RereadsStmt (inSwitch : Bool) (s : Stmt) : Prop where
  starts : ∀ stop rest, ∃ token run,
    (scan stop (s.text ++ rest)).Starts token run ∧ startsStatement token = true
  reads : ∀ {stop rest ending}, Reached (scan stop rest) →
    (s.dangling = true → front (scan stop rest).tokens ≠ .keyword .else_) →
    ending = (scan stop (s.text ++ rest)).ending →
    Outcome ending (KeepElse (s.inner inSwitch)) s.reread (scan stop rest)
      (statement ending (scan stop (s.text ++ rest)).tokens)

lemma startsSimple_of_startsOperand {token : Token} (h : startsOperand token = true) :
    startsSimple token = true ∧ startsStatement token = true ∧ declKind? token = none ∧
      endsReturn token = false ∧
      ∀ word ∈ [.return_, .break_, .continue_], token ≠ .keyword word := by
  unfold startsOperand at h
  split at h
  all_goals first | exact ⟨rfl, rfl, rfl, rfl, by simp⟩ | cases h

/-- A statement that ends with its semicolon. -/
lemma rereads_simple {s : Stmt} (hopen : s.selfClosed = false)
    (hkeep : KeepElse (s.inner inSwitch))
    (hstarts : ∀ stop rest, ∃ token run,
      (scan stop (s.code.toList ++ ';' :: rest)).Starts token run ∧
        startsSimple token = true ∧ startsStatement token = true)
    (hreads : ∀ stop rest ending, ending = (scan stop (s.code.toList ++ ';' :: rest)).ending →
      ReadsIff ending True s.reread (scan stop (';' :: rest))
        (simpleStatement ending (scan stop (s.code.toList ++ ';' :: rest)).tokens)) :
    RereadsStmt inSwitch s := by
  have htext : ∀ rest, s.text ++ rest = s.code.toList ++ ';' :: rest := fun rest => by
    simp [Stmt.text, hopen]
  constructor
  · intro stop rest
    obtain ⟨token, run, hstarts, _, htoken⟩ := hstarts stop rest
    exact ⟨token, run, htext rest ▸ hstarts, htoken⟩
  · intro stop rest ending hreach _ hending
    rw [htext] at hending ⊢
    obtain ⟨token, run, hstarts, hsimple, _⟩ := hstarts stop rest
    refine ReadsIff.outcome ((readsIff_statement_simple ?_ (hreads stop rest ending hending)
      (starts_semicolon stop rest) hreach).congr (iff_of_true trivial hkeep))
    rwa [front_of_starts hstarts]

lemma rereads_expr {e : Expr} (h : ReadsLonghand e) : RereadsStmt inSwitch (.expr e) := by
  have hstarts : ∀ stop rest, ∃ token run,
      (scan stop (e.code.toList ++ ';' :: rest)).Starts token run ∧ startsOperand token = true :=
    fun stop rest => h.starts stop (apart_cons (c := ';') (by decide) rest)
  refine rereads_simple rfl (by simp [KeepElse, Stmt.inner, Stmt.losesElse]) (fun stop rest => ?_)
    fun stop rest ending hending => ?_
  · obtain ⟨token, run, hstarts, htoken⟩ := hstarts stop rest
    obtain ⟨hsimple, hstatement, _⟩ := startsSimple_of_startsOperand htoken
    exact ⟨token, run, hstarts, hsimple, hstatement⟩
  · obtain ⟨token, run, hstarts, htoken⟩ := hstarts stop rest
    obtain ⟨_, _, hkind, _, hwords⟩ := startsSimple_of_startsOperand htoken
    rw [← front_of_starts hstarts] at hkind hwords
    exact readsIff_simple_expr hkind hwords (h.readsEnd hending)

/-- A word that is a statement by itself. -/
lemma rereads_word {word : Keyword} {s : Stmt}
    (h : word = .break_ ∧ s = .break_ ∨ word = .continue_ ∧ s = .continue_) :
    RereadsStmt inSwitch s := by
  have hcode : s.code = word.spelling := by
    rcases h with ⟨rfl, rfl⟩ | ⟨rfl, rfl⟩ <;> rfl
  have hstarts : ∀ stop rest, (scan stop (s.code.toList ++ ';' :: rest)).Starts (.keyword word)
      (scan stop (';' :: rest)) := fun stop rest => by
    rw [hcode]
    exact starts_keyword word stop (stopsWord_cons (by decide) rest)
  have hreread : s.reread = s := by
    rcases h with ⟨rfl, rfl⟩ | ⟨rfl, rfl⟩ <;> rfl
  refine rereads_simple ?_ ?_ (fun stop rest => ⟨_, _, hstarts stop rest, ?_⟩)
    fun stop rest ending hending => ?_
  · rcases h with ⟨rfl, rfl⟩ | ⟨rfl, rfl⟩ <;> rfl
  · rcases h with ⟨rfl, rfl⟩ | ⟨rfl, rfl⟩ <;> simp [KeepElse, Stmt.inner, Stmt.losesElse]
  · rcases h with ⟨rfl, rfl⟩ | ⟨rfl, rfl⟩ <;> exact ⟨rfl, rfl⟩
  · rw [hreread]
    exact readsIff_simple_word h (hstarts stop rest)
      (reached_of_starts (starts_semicolon stop rest)) hending

lemma rereads_return {e? : Option Expr} (h : ∀ e ∈ e?.toList, ReadsLonghand e) :
    RereadsStmt inSwitch (.return_ e?) := by
  have hkeep : KeepElse ((Stmt.return_ e?).inner inSwitch) := by
    simp [KeepElse, Stmt.inner, Stmt.losesElse]
  cases e? with
  | none =>
    have hstarts : ∀ stop rest, (scan stop ((Stmt.return_ none).code.toList ++ ';' :: rest)).Starts
        (.keyword .return_) (scan stop (';' :: rest)) := fun stop rest =>
      starts_keyword .return_ stop (stopsWord_cons (by decide) rest)
    refine rereads_simple rfl hkeep (fun stop rest => ⟨_, _, hstarts stop rest, rfl, rfl⟩)
      fun stop rest ending hending => ?_
    have hsemicolon := starts_semicolon stop rest
    refine readsIff_simple_return (hstarts stop rest) ?_ (reached_of_starts hsemicolon) hending
    rw [front_of_starts hsemicolon]
    rfl
  | some e =>
    have he : ReadsLonghand e := h e (by simp)
    have hstarts : ∀ stop rest,
        (scan stop ((Stmt.return_ (some e)).code.toList ++ ';' :: rest)).Starts (.keyword .return_)
          (scan stop (e.code.toList ++ ';' :: rest)) := fun stop rest => by
      have htext : (Stmt.return_ (some e)).code.toList ++ ';' :: rest =
          Keyword.return_.spelling.toList ++ ' ' :: (e.code.toList ++ ';' :: rest) := by
        simp [Stmt.code, Keyword.spelling]
      rw [htext]
      exact starts_keyword_blank .return_ stop _
    refine rereads_simple rfl hkeep (fun stop rest => ⟨_, _, hstarts stop rest, rfl, rfl⟩)
      fun stop rest ending hending => ?_
    obtain ⟨token, run, hvalue, htoken⟩ := he.starts stop (apart_cons (c := ';') (by decide) rest)
    obtain ⟨_, _, _, hend, _⟩ := startsSimple_of_startsOperand htoken
    rw [← front_of_starts hvalue] at hend
    exact readsIff_simple_returnValue (hstarts stop rest) hend (reached_of_starts hvalue)
      he.readsEnd hending

/-- The reserved word that begins a declaration. -/
def keywordOf : DeclKind → Keyword
  | .const => .const
  | .let_ => .let_
  | .var => .var

/-- What stands behind the name of a declaration. -/
def valueText : Option Expr → List Char
  | some e => '=' :: e.code.toList
  | none => []

lemma reads_valueText {e? : Option Expr} (h : ∀ e ∈ e?.toList, ReadsLonghand e) (stop : Nat)
    (rest : List Char) :
    Token.StopsWord (valueText e? ++ ';' :: rest) ∧
      Reached (scan stop (valueText e? ++ ';' :: rest)) ∧
      ∀ ending, ending = (scan stop (valueText e? ++ ';' :: rest)).ending →
        ReadsIff ending True (e?.map Expr.longhand) (scan stop (';' :: rest))
          (initialValue ending (scan stop (valueText e? ++ ';' :: rest)).tokens) := by
  have hsemicolon := starts_semicolon stop rest
  cases e? with
  | none =>
    refine ⟨stopsWord_cons (by decide) rest, reached_of_starts hsemicolon, fun ending hending => ?_⟩
    refine readsIff_initialValue_none ?_ hending
    rw [front_of_starts hsemicolon]
    exact nofun
  | some e =>
    have he : ReadsLonghand e := h e (by simp)
    have hassign : (scan stop ('=' :: (e.code.toList ++ ';' :: rest))).Starts (.assign .plain)
        (scan stop (e.code.toList ++ ';' :: rest)) :=
      TokenRun.starts_mark (Token.isMark_assign .plain)
        (Token.endsBefore_of_opens (ReadsSimple.opens he) (by decide) (by decide))
    obtain ⟨token, run, hvalue, _⟩ := he.starts stop (apart_cons (c := ';') (by decide) rest)
    exact ⟨stopsWord_cons (by decide) _, reached_of_starts hassign, fun ending hending =>
      readsIff_initialValue hassign (reached_of_starts hvalue) he.readsEnd hending⟩

lemma rereads_declare {kind : DeclKind} {name : String} {e? : Option Expr}
    (hname : Token.isName name = true) (hconst : kind = .const → e?.isSome)
    (h : ∀ e ∈ e?.toList, ReadsLonghand e) : RereadsStmt inSwitch (.declare kind name e?) := by
  have hkind : ∀ stop rest,
      (scan stop ((Stmt.declare kind name e?).code.toList ++ ';' :: rest)).Starts
        (.keyword (keywordOf kind)) (scan stop (name.toList ++ (valueText e? ++ ';' :: rest))) := by
    intro stop rest
    have hspelling : kind.spelling = (keywordOf kind).spelling := by cases kind <;> rfl
    have htext : (Stmt.declare kind name e?).code.toList ++ ';' :: rest =
        (keywordOf kind).spelling.toList ++
          ' ' :: (name.toList ++ (valueText e? ++ ';' :: rest)) := by
      rw [← hspelling]
      cases e? <;> simp [Stmt.code, valueText]
    rw [htext]
    exact starts_keyword_blank _ stop _
  refine rereads_simple rfl (by simp [KeepElse, Stmt.inner, Stmt.losesElse])
    (fun stop rest => ⟨_, _, hkind stop rest, by cases kind <;> rfl, by cases kind <;> rfl⟩)
    fun stop rest ending hending => ?_
  obtain ⟨hstops, hreach, hreads⟩ := reads_valueText h stop rest
  have hnamed : (scan stop (name.toList ++ (valueText e? ++ ';' :: rest))).Starts (.identifier name)
      (scan stop (valueText e? ++ ';' :: rest)) := by
    rw [← Token.ofWord_of_isName hname]
    exact TokenRun.starts_word (Token.isWord_of_isName hname) hstops
  exact readsIff_simple_declare (hkind stop rest) (by cases kind <;> rfl) hnamed hreach
    (hreads ending) (by simpa using hconst)
    (startsWith_of_starts (starts_semicolon stop rest) nofun) hending

lemma rereads_empty : RereadsStmt inSwitch .empty where
  starts stop rest := ⟨_, _, starts_semicolon stop rest, rfl⟩
  reads {stop rest ending} hreach _ hending :=
    ((readsIff_statement_empty (starts_semicolon stop rest) hending).congr
      (iff_of_true hreach (by simp [KeepElse, Stmt.inner, Stmt.losesElse]))).outcome

/-! ## Lists of statements -/

/-- The rule reads lists of statements: one statement, and then the others. -/
def ReadsLists {size : List Lexeme → Nat} (ending : Ending)
    (rule : ∀ ts, Except Malformed (Step (size ts) (List Stmt))) : Prop :=
  ∀ ⦃run run₁ run₂ run₃ : TokenRun⦄ ⦃token first others⦄ ⦃kept ok : Prop⦄,
    run.Starts token run₃ → startsStatement token = true →
    (ending = run.ending → Outcome ending kept first run₁ (statement ending run.tokens)) →
    (kept → ending = run₁.ending → ReadsIff ending ok others run₂ (rule run₁.tokens)) →
    ending = run.ending → ReadsIff ending (kept ∧ ok) (first :: others) run₂ (rule run.tokens)

lemma readsLists_block (ending : Ending) : ReadsLists ending (block ending) := by
  intro run run₁ run₂ run₃ token first others kept ok hstarts htoken
  refine readsIff_block_cons hstarts ?_
  rintro rfl
  cases htoken

lemma readsLists_armBody (ending : Ending) : ReadsLists ending (armBody ending) := by
  intro run run₁ run₂ run₃ token first others kept ok hstarts htoken
  refine readsIff_armBody_cons ?_
  rw [front_of_starts hstarts]
  unfold endsArm
  split
  all_goals first | cases htoken | rfl

/-- The text of the first statement of a list, and of the others. -/
lemma codeOfList_append (s : Stmt) (others : List Stmt) (rest : List Char) :
    (codeOfList (s :: others)).toList ++ rest =
      s.text ++ ((if s.selfClosed then [';'] else []) ++ ((codeOfList others).toList ++ rest)) := by
  unfold Stmt.text
  cases s.selfClosed <;> simp [codeOfList]

/-- No list of statements starts with an `else`. -/
lemma front_codeOfList {body : List Stmt} (h : ∀ s ∈ body, RereadsStmt inSwitch s) {stop : Nat}
    {rest : List Char} (hreach : Reached (scan stop rest))
    (hfront : front (scan stop rest).tokens ≠ .keyword .else_) :
    Reached (scan stop ((codeOfList body).toList ++ rest)) ∧
      front (scan stop ((codeOfList body).toList ++ rest)).tokens ≠ .keyword .else_ := by
  cases body with
  | nil => exact ⟨hreach, hfront⟩
  | cons s others =>
    obtain ⟨token, run, hstarts, htoken⟩ := (h s (by simp)).starts stop _
    rw [codeOfList_append, front_of_starts hstarts]
    refine ⟨reached_of_starts hstarts, ?_⟩
    rintro rfl
    cases htoken

/-- The code of a list of statements is read back by a rule for lists that ends behind them. -/
lemma reads_codeOfList {size : List Lexeme → Nat}
    {rule : ∀ ts, Except Malformed (Step (size ts) (List Stmt))} (hrule : ReadsLists ending rule)
    {stop : Nat} {rest : List Char} {run : TokenRun} (hreach : Reached (scan stop rest))
    (hfront : front (scan stop rest).tokens ≠ .keyword .else_)
    (hend : ending = (scan stop rest).ending →
      ReadsIff ending True [] run (rule (scan stop rest).tokens))
    {body : List Stmt} (h : ∀ s ∈ body, RereadsStmt inSwitch s)
    (hending : ending = (scan stop ((codeOfList body).toList ++ rest)).ending) :
    ReadsIff ending (KeepElse (innerOfList inSwitch body)) (rereadList body) run
      (rule (scan stop ((codeOfList body).toList ++ rest)).tokens) := by
  induction body with
  | nil => exact (hend hending).congr (iff_of_true trivial (by simp [KeepElse, innerOfList]))
  | cons s others ih =>
    obtain ⟨hs, hothers⟩ := List.forall_mem_cons.mp h
    obtain ⟨hreach', hfront'⟩ := front_codeOfList hothers hreach hfront
    rw [codeOfList_append] at hending ⊢
    rw [innerOfList, KeepElse, List.forall_mem_append, rereadList]
    cases hclosed : s.selfClosed with
    | false =>
      rw [hclosed] at hending
      obtain ⟨token, after, hstarts, htoken⟩ := hs.starts stop ((codeOfList others).toList ++ rest)
      exact hrule hstarts htoken (hs.reads hreach' fun _ => hfront') (fun _ => ih hothers) hending
    | true =>
      -- the semicolon behind the statement is an empty statement
      rw [hclosed] at hending
      have hsemicolon := starts_semicolon stop ((codeOfList others).toList ++ rest)
      obtain ⟨token, after, hstarts, htoken⟩ :=
        hs.starts stop (';' :: ((codeOfList others).toList ++ rest))
      have hrest : ending = (scan stop (';' :: ((codeOfList others).toList ++ rest))).ending →
          ReadsIff ending (True ∧ KeepElse (innerOfList inSwitch others))
            (.empty :: rereadList others) run
            (rule (scan stop (';' :: ((codeOfList others).toList ++ rest))).tokens) := by
        refine hrule hsemicolon rfl (fun hending => ReadsIff.outcome ?_) (fun _ => ih hothers)
        exact (readsIff_statement_empty hsemicolon hending).congr (iff_true_intro hreach')
      refine (hrule hstarts htoken (hs.reads (reached_of_starts hsemicolon) fun _ => ?_)
        (fun _ => hrest) hending).congr (and_congr_right' (and_iff_right trivial))
      rw [front_of_starts hsemicolon]
      exact nofun

/-! ## Blocks and switches -/

lemma starts_rbrace (stop : Nat) (rest : List Char) :
    (scan stop ('\x7d' :: rest)).Starts (.punct .rbrace) (scan stop rest) :=
  starts_bracket rfl rfl stop rest

lemma starts_lbrace (stop : Nat) (rest : List Char) :
    (scan stop ('\x7b' :: rest)).Starts (.punct .lbrace) (scan stop rest) :=
  starts_bracket rfl rfl stop rest

/-- The statements of a block, up to and with its closing brace. -/
lemma reads_block {body : List Stmt} (h : ∀ s ∈ body, RereadsStmt inSwitch s) {stop : Nat}
    {rest : List Char} (hreach : Reached (scan stop rest))
    (hending : ending = (scan stop ((codeOfList body).toList ++ '\x7d' :: rest)).ending) :
    ReadsIff ending (KeepElse (innerOfList inSwitch body)) (rereadList body) (scan stop rest)
      (block ending (scan stop ((codeOfList body).toList ++ '\x7d' :: rest)).tokens) := by
  have hclose := starts_rbrace stop rest
  refine reads_codeOfList (readsLists_block ending) (reached_of_starts hclose) ?_
    (fun hending => ?_) h hending
  · rw [front_of_starts hclose]
    exact nofun
  · exact (readsIff_block_nil hclose hending).congr (iff_true_intro hreach)

/-- A block opens, and goes on with a token. -/
lemma reached_block {body : List Stmt} (h : ∀ s ∈ body, RereadsStmt inSwitch s) (stop : Nat)
    (rest : List Char) :
    Reached (scan stop ((codeOfList body).toList ++ '\x7d' :: rest)) := by
  have hclose := starts_rbrace stop rest
  refine (front_codeOfList h (reached_of_starts hclose) ?_).1
  rw [front_of_starts hclose]
  exact nofun

lemma rereads_block {body : List Stmt} (h : ∀ s ∈ body, RereadsStmt inSwitch s) :
    RereadsStmt inSwitch (.block body) := by
  have htext : ∀ rest, (Stmt.block body).text ++ rest =
      '\x7b' :: ((codeOfList body).toList ++ '\x7d' :: rest) := fun rest => by
    simp [Stmt.text, Stmt.selfClosed, Stmt.code]
  constructor
  · intro stop rest
    rw [htext]
    exact ⟨_, _, starts_lbrace stop _, rfl⟩
  · intro stop rest ending hreach _ hending
    rw [htext] at hending ⊢
    refine ((readsIff_statement_block (starts_lbrace stop _) (reached_block h stop rest)
      (reads_block h hreach) hending).congr ?_).outcome
    simp [KeepElse, Stmt.inner, Stmt.losesElse]

/-- The text of the test of an arm. -/
def testText : Option Expr → List Char
  | some test => Keyword.case.spelling.toList ++ ' ' :: (test.code.toList ++ [':', ' '])
  | none => Keyword.default.spelling.toList ++ [':', ' ']

lemma codeOfArms_append (arm : Arm Stmt) (arms : List (Arm Stmt)) (rest : List Char) :
    (codeOfArms (arm :: arms)).toList ++ rest =
      testText arm.test ++
        ((codeOfList arm.body).toList ++ ((codeOfArms arms).toList ++ rest)) := by
  obtain ⟨_ | test, body⟩ := arm <;> simp [codeOfArms, testText, Keyword.spelling]

/-- The test of an arm, up to its colon. -/
lemma reads_testText {test : Option Expr} (h : ∀ e ∈ test.toList, ReadsLonghand e) {stop : Nat}
    {rest : List Char} (hreach : Reached (scan stop rest)) :
    (∃ token run, (scan stop (testText test ++ rest)).Starts token run ∧ endsArm token = true ∧
        token ≠ .punct .rbrace ∧ token ≠ .keyword .else_) ∧
      ∀ ending, ending = (scan stop (testText test ++ rest)).ending →
        ReadsIff ending True (test.map Expr.longhand) (scan stop rest)
          (armTest ending (scan stop (testText test ++ rest)).tokens) := by
  have hblank : scan stop (' ' :: rest) = scan stop rest := TokenRun.scan_blank (by decide)
  have hcolon : (scan stop (':' :: ' ' :: rest)).Starts (.punct .colon) (scan stop rest) := by
    rw [← hblank]
    exact starts_bracket rfl rfl stop _
  cases test with
  | none =>
    have hword : (scan stop (testText none ++ rest)).Starts (.keyword .default)
        (scan stop (':' :: ' ' :: rest)) :=
      starts_keyword .default stop (stopsWord_cons (by decide) _)
    refine ⟨⟨_, _, hword, rfl, nofun, nofun⟩, fun ending hending => ?_⟩
    exact (readsIff_armTest_default hword hcolon hending).congr (iff_true_intro hreach)
  | some test =>
    have htest : ReadsLonghand test := h test (by simp)
    have hword : (scan stop (testText (some test) ++ rest)).Starts (.keyword .case)
        (scan stop (test.code.toList ++ ':' :: ' ' :: rest)) := by
      have htext : testText (some test) ++ rest =
          Keyword.case.spelling.toList ++ ' ' :: (test.code.toList ++ ':' :: ' ' :: rest) := by
        simp [testText]
      rw [htext]
      exact starts_keyword_blank .case stop _
    obtain ⟨token, run, hstarts, _⟩ := htest.starts stop (apart_cons (c := ':') (by decide) _)
    refine ⟨⟨_, _, hword, rfl, nofun, nofun⟩, fun ending hending => ?_⟩
    refine (readsIff_armTest_case hword (reached_of_starts hstarts)
      (htest.reads hcolon rfl (by decide)) hcolon hending).congr ?_
    exact iff_true_intro ⟨trivial, hreach⟩

/-- What is known of the arms of a switch. -/
structure RereadsArm (arm : Arm Stmt) : Prop where
  test : ∀ e ∈ arm.test.toList, ReadsLonghand e
  body : ∀ s ∈ arm.body, RereadsStmt true s

/-- The arms of a switch, up to and with its closing brace. -/
lemma reads_codeOfArms {arms : List (Arm Stmt)} (h : ∀ arm ∈ arms, RereadsArm arm) {stop : Nat}
    {rest : List Char} (hreach : Reached (scan stop rest)) :
    (∃ token run, (scan stop ((codeOfArms arms).toList ++ '\x7d' :: rest)).Starts token run ∧
        endsArm token = true ∧ token ≠ .keyword .else_) ∧
      ∀ ending, ending = (scan stop ((codeOfArms arms).toList ++ '\x7d' :: rest)).ending →
        ReadsIff ending (KeepElse (innerOfArms arms)) (rereadArms arms) (scan stop rest)
          (Grammar.arms ending
            (scan stop ((codeOfArms arms).toList ++ '\x7d' :: rest)).tokens) := by
  have hclose := starts_rbrace stop rest
  induction arms with
  | nil =>
    refine ⟨⟨_, _, hclose, rfl, nofun⟩, fun ending hending => ?_⟩
    refine (readsIff_arms_nil hclose hending).congr (iff_of_true hreach ?_)
    simp [KeepElse, innerOfArms]
  | cons arm arms ih =>
    obtain ⟨⟨htest, hbody⟩, harms⟩ := List.forall_mem_cons.mp h
    obtain ⟨⟨token, run, hnext, hend, helse⟩, hothers⟩ := ih harms
    rw [codeOfArms_append]
    have hfront : front (scan stop ((codeOfArms arms).toList ++ '\x7d' :: rest)).tokens = token :=
      front_of_starts hnext
    obtain ⟨hreach', _⟩ := front_codeOfList hbody (reached_of_starts hnext) (by rwa [hfront])
    obtain ⟨⟨token', run', hstarts, hend', hbrace, helse'⟩, hreads⟩ := reads_testText htest hreach'
    refine ⟨⟨token', run', hstarts, hend', helse'⟩, fun ending hending => ?_⟩
    refine (readsIff_arms_cons (startsWith_of_starts hstarts hbrace) (hreads ending)
      (reads_codeOfList (readsLists_armBody ending) (reached_of_starts hnext) (by rwa [hfront])
        (fun hending => readsIff_armBody_nil (by rwa [hfront]) hending) hbody)
      (hothers ending) hending).congr ?_
    rw [innerOfArms, KeepElse, KeepElse, KeepElse, List.forall_mem_append]

lemma rereads_switch {subject : Expr} {arms : List (Arm Stmt)} (hsubject : ReadsLonghand subject)
    (h : ∀ arm ∈ arms, RereadsArm arm) : RereadsStmt inSwitch (.switch subject arms) := by
  have htext : ∀ rest, (Stmt.switch subject arms).text ++ rest =
      Keyword.switch.spelling.toList ++ ' ' :: '(' :: (subject.code.toList ++
        ')' :: ' ' :: '\x7b' :: ((codeOfArms arms).toList ++ '\x7d' :: rest)) := fun rest => by
    simp [Stmt.text, Stmt.selfClosed, Stmt.code, Keyword.spelling]
  constructor
  · intro stop rest
    rw [htext]
    exact ⟨_, _, starts_keyword_blank .switch stop _, rfl⟩
  · intro stop rest ending hreach _ hending
    rw [htext] at hending ⊢
    obtain ⟨⟨token, run, hstarts, _⟩, harms⟩ := reads_codeOfArms h hreach
    have hopen := starts_lbrace stop ((codeOfArms arms).toList ++ '\x7d' :: rest)
    have hblank : scan stop (' ' :: '\x7b' :: ((codeOfArms arms).toList ++ '\x7d' :: rest)) =
        scan stop ('\x7b' :: ((codeOfArms arms).toList ++ '\x7d' :: rest)) :=
      TokenRun.scan_blank (by decide)
    rw [← hblank] at hopen
    refine ((readsIff_statement_switch (starts_keyword_blank .switch stop _)
      (reached_of_starts (starts_lparen stop _))
      (hsubject.parenthesized (reached_of_starts hopen)) hopen (reached_of_starts hstarts)
      (harms ending) hending).congr ?_).outcome
    simp [KeepElse, Stmt.inner, Stmt.losesElse]

/-! ## Choices -/

/-- A statement that leaves a semicolon and an `else` is stuck. -/
lemma Outcome.stuck_of_atElse {n : Nat} {kept : Prop} {s : Stmt} {run : TokenRun}
    {result : Except Malformed (Step n Stmt)} (h : Outcome ending kept s run result)
    (hrun : AtElse run.tokens) : Stuck result := by
  by_cases hkept : kept
  · obtain ⟨_, fits, rfl⟩ := (h.reads hkept).1 trivial
    exact stuck_ok hrun
  · exact h.stuck hkept

/-- A choice is stuck where its first branch is. -/
lemma stuck_choice {test : Expr} {run run₁ run₂ : TokenRun}
    (hword : run.Starts (.keyword .if_) run₁) (hreach : Reached run₁)
    (htest : ending = run₁.ending →
      ReadsIff ending True test run₂ (parenthesized ending run₁.tokens))
    (hyes : ending = run₂.ending → Stuck (statement ending run₂.tokens))
    (hending : ending = run.ending) : Stuck (statement ending run.tokens) := by
  have hlost : Outcome ending False (.if_ test .empty none) run (statement ending run.tokens) :=
    outcome_choice hword hreach htest (fun hending => ⟨False.elim, fun _ => hyes hending⟩)
      False.elim hending
  exact hlost.stuck id

section Choice

variable {test : Expr} {yes no : Stmt}

/-- The text of a choice up to its first branch. -/
def choiceText (test : Expr) (rest : List Char) : List Char :=
  Keyword.if_.spelling.toList ++ ' ' :: '(' :: (test.code.toList ++ ')' :: rest)

lemma starts_choiceText (test : Expr) (stop : Nat) (rest : List Char) :
    (scan stop (choiceText test rest)).Starts (.keyword .if_)
      (scan stop ('(' :: (test.code.toList ++ ')' :: rest))) :=
  starts_keyword_blank .if_ stop _

lemma rereads_choice (htest : ReadsLonghand test) (hyes : RereadsStmt inSwitch yes) :
    RereadsStmt inSwitch (.if_ test yes none) := by
  have htext : ∀ rest, (Stmt.if_ test yes none).text ++ rest =
      choiceText test (yes.text ++ rest) := fun rest => by
    simp [Stmt.text, Stmt.selfClosed, Stmt.code, choiceText, Keyword.spelling]
  constructor
  · intro stop rest
    rw [htext]
    exact ⟨_, _, starts_choiceText test stop _, rfl⟩
  · intro stop rest ending hreach helse hending
    rw [htext] at hending ⊢
    obtain ⟨token, run, hstarts, _⟩ := hyes.starts stop rest
    refine (outcome_choice (starts_choiceText test stop _)
      (reached_of_starts (starts_lparen stop _)) (htest.parenthesized (reached_of_starts hstarts))
      (hyes.reads hreach fun _ => helse rfl) (fun _ => helse rfl) hending).congr ?_
    simp [KeepElse, Stmt.inner, Stmt.innerOfOption, Stmt.losesElse]

/-- The text of a choice with two branches: a first branch that loses the `else` has a semicolon
behind it that is not its own. -/
lemma choiceElse_append (test : Expr) (yes no : Stmt) (rest : List Char) :
    (Stmt.if_ test yes (some no)).text ++ rest =
      choiceText test (yes.text ++
        ((bif (Stmt.if_ test yes (some no)).losesElse then [';'] else []) ++
          ' ' :: (Keyword.else_.spelling.toList ++ ' ' :: (no.text ++ rest)))) := by
  have hblock : yes.isBlock = true → yes.selfClosed = true := by
    cases yes with
    | block body => exact fun _ => rfl
    | _ => exact nofun
  simp only [Stmt.text, Stmt.selfClosed, Stmt.losesElse, Stmt.code, choiceText, Keyword.spelling]
  by_cases hisBlock : yes.isBlock = true
  · simp [hisBlock, hblock hisBlock]
  · cases yes.selfClosed <;> simp [hisBlock]

/-- A choice whose first branch is stuck. -/
lemma stuck_choiceText (htest : ReadsLonghand test) (hyes : RereadsStmt inSwitch yes) {stop : Nat}
    {rest : List Char} (h : ending = (scan stop (yes.text ++ rest)).ending →
      Stuck (statement ending (scan stop (yes.text ++ rest)).tokens))
    (hending : ending = (scan stop (choiceText test (yes.text ++ rest))).ending) :
    Stuck (statement ending (scan stop (choiceText test (yes.text ++ rest))).tokens) := by
  obtain ⟨token, run, hstarts, _⟩ := hyes.starts stop rest
  exact stuck_choice (starts_choiceText test stop _) (reached_of_starts (starts_lparen stop _))
    (htest.parenthesized (reached_of_starts hstarts)) h hending

lemma rereads_choiceElse (htest : ReadsLonghand test) (hyes : RereadsStmt inSwitch yes)
    (hno : RereadsStmt inSwitch no) (hdangling : yes.dangling = false) :
    RereadsStmt inSwitch (.if_ test yes (some no)) := by
  constructor
  · intro stop rest
    rw [choiceElse_append]
    exact ⟨_, _, starts_choiceText test stop _, rfl⟩
  · intro stop rest ending hreach helse hending
    have hkeep : KeepElse ((Stmt.if_ test yes (some no)).inner inSwitch) ↔
        (Stmt.if_ test yes (some no)).losesElse = false ∧ KeepElse (yes.inner inSwitch) ∧
          KeepElse (no.inner inSwitch) := by
      rw [Stmt.inner, KeepElse, List.forall_mem_cons, List.forall_mem_append]
      rfl
    -- the first branch does not take the `else` for its own
    have hfirst : ∀ after, Reached (scan stop after) →
        ending = (scan stop (yes.text ++ after)).ending →
        Outcome ending (KeepElse (yes.inner inSwitch)) yes.reread (scan stop after)
          (statement ending (scan stop (yes.text ++ after)).tokens) := fun after hafter =>
      hyes.reads hafter fun h => absurd h (by simp [hdangling])
    rw [choiceElse_append] at hending ⊢
    generalize hbranch : ' ' :: (Keyword.else_.spelling.toList ++ ' ' :: (no.text ++ rest)) = branch
      at hending ⊢
    have hbranch : (scan stop branch).Starts (.keyword .else_) (scan stop (no.text ++ rest)) := by
      rw [← hbranch, TokenRun.scan_blank (by decide)]
      exact starts_keyword_blank .else_ stop _
    cases hloses : (Stmt.if_ test yes (some no)).losesElse with
    | true =>
      rw [hloses] at hkeep hending
      have hsemicolon := starts_semicolon stop branch
      refine ⟨fun h => absurd (hkeep.mp h).1 (by simp), fun _ => ?_⟩
      refine stuck_choiceText htest hyes (fun hending => ?_) hending
      refine (hfirst (';' :: branch) (reached_of_starts hsemicolon) hending).stuck_of_atElse ?_
      obtain ⟨p, hp⟩ := hsemicolon
      obtain ⟨p', hp'⟩ := hbranch
      exact ⟨p, p', (scan stop (no.text ++ rest)).tokens, by rw [hp, hp']; rfl⟩
    | false =>
      rw [hloses] at hkeep hending
      have hfirst := hfirst branch (reached_of_starts hbranch)
      by_cases hkept : KeepElse (yes.inner inSwitch)
      · obtain ⟨_, _, hstarts, _⟩ := hyes.starts stop branch
        obtain ⟨_, _, hstarts', _⟩ := hno.starts stop rest
        refine (outcome_choiceElse (starts_choiceText test stop _)
          (reached_of_starts (starts_lparen stop _))
          (htest.parenthesized (reached_of_starts hstarts))
          (fun hending => (hfirst hending).reads hkept) hbranch (reached_of_starts hstarts')
          (hno.reads hreach helse) hending).congr ?_
        rw [hkeep, and_iff_right rfl, and_iff_right hkept]
      · refine ⟨fun h => absurd (hkeep.mp h).2.1 hkept, fun _ => ?_⟩
        exact stuck_choiceText htest hyes (fun hending => (hfirst hending).stuck hkept) hending

end Choice

/-! ## All statements -/

open Stmt (Plain plain_self exprs exprsOfList exprsOfArms)

mutual

/-- The code of a statement without loops, which is spelled as the grammar wants it, is read back
if the code of its expressions is. -/
theorem rereads_stmt (s : Stmt) {inSwitch : Bool} (hplain : Plain (s.inner inSwitch))
    (h : ∀ e ∈ s.exprs, ReadsLonghand e) : RereadsStmt inSwitch s := by
  match s with
  | .expr value => exact rereads_expr (h value (List.mem_singleton_self value))
  | .declare _ _ _ =>
    obtain ⟨hname, hconst⟩ := (plain_self hplain).1
    exact rereads_declare hname hconst h
  | .block body => exact rereads_block (rereads_list body (List.forall_mem_cons.mp hplain).2 h)
  | .if_ test yes none =>
    obtain ⟨htest, hyes⟩ := List.forall_mem_cons.mp h
    obtain ⟨hplainYes, _⟩ := List.forall_mem_append.mp (List.forall_mem_cons.mp hplain).2
    exact rereads_choice htest
      (rereads_stmt yes hplainYes (List.forall_mem_append.mp hyes).1)
  | .if_ test yes (some no) =>
    obtain ⟨htest, hbranches⟩ := List.forall_mem_cons.mp h
    obtain ⟨hyes, hno⟩ := List.forall_mem_append.mp hbranches
    obtain ⟨hplainYes, hplainNo⟩ := List.forall_mem_append.mp (List.forall_mem_cons.mp hplain).2
    exact rereads_choiceElse htest (rereads_stmt yes hplainYes hyes) (rereads_stmt no hplainNo hno)
      (plain_self hplain).1
  | .switch subject arms =>
    obtain ⟨hsubject, harms⟩ := List.forall_mem_cons.mp h
    exact rereads_switch hsubject (rereads_arms arms (List.forall_mem_cons.mp hplain).2 harms)
  | .return_ _ => exact rereads_return h
  | .break_ => exact rereads_word (.inl ⟨rfl, rfl⟩)
  | .continue_ => exact rereads_word (.inr ⟨rfl, rfl⟩)
  | .empty => exact rereads_empty
  | .for_ _ _ _ _ | .forEach _ _ _ _ _ | .while_ _ _ | .doWhile _ _ => cases (plain_self hplain).2

lemma rereads_list (body : List Stmt) {inSwitch : Bool}
    (hplain : Plain (innerOfList inSwitch body)) (h : ∀ e ∈ exprsOfList body, ReadsLonghand e) :
    ∀ s ∈ body, RereadsStmt inSwitch s := by
  match body with
  | [] => exact fun _ hs => nomatch hs
  | s :: rest =>
    obtain ⟨hplainFirst, hplainRest⟩ := List.forall_mem_append.mp hplain
    obtain ⟨hfirst, hrest⟩ := List.forall_mem_append.mp h
    exact List.forall_mem_cons.mpr
      ⟨rereads_stmt s hplainFirst hfirst, rereads_list rest hplainRest hrest⟩

lemma rereads_arms (arms : List (Arm Stmt)) (hplain : Plain (innerOfArms arms))
    (h : ∀ e ∈ exprsOfArms arms, ReadsLonghand e) : ∀ arm ∈ arms, RereadsArm arm := by
  match arms with
  | [] => exact fun _ harm => nomatch harm
  | ⟨test, body⟩ :: rest =>
    obtain ⟨hplainBody, hplainRest⟩ := List.forall_mem_append.mp hplain
    obtain ⟨harm, hrest⟩ := List.forall_mem_append.mp h
    obtain ⟨htest, hbody⟩ := List.forall_mem_append.mp harm
    exact List.forall_mem_cons.mpr
      ⟨⟨htest, rereads_list body hplainBody hbody⟩, rereads_arms rest hplainRest hrest⟩

end

/-- A row function is read from its parameter and the code of a block. -/
lemma givesIff_parse_block {param : Option String}
    (hparam : ∀ name ∈ param, Token.isName name = true) {body : List Stmt}
    (h : ∀ s ∈ body, RereadsStmt false s) :
    GivesIff (KeepElse (innerOfList false body)) ⟨param, .block (rereadList body)⟩
      (RowFunction.parse (RowFunction.header param ++ (Body.block body).code)) := by
  have htext : (Body.block body).code.toList =
      '\x7b' :: ((codeOfList body).toList ++ '\x7d' :: []) := by
    simp [Body.code, Stmt.code]
  refine givesIff_parse hparam (fun stop => ?_) fun stop ending hending => ?_
  · rw [htext]
    exact reached_of_starts (starts_lbrace stop _)
  · rw [htext] at hending ⊢
    have hopen := starts_lbrace stop ((codeOfList body).toList ++ '\x7d' :: [])
    unfold arrowBody
    rw [if_pos (startsWith_mark hopen)]
    refine ((readsIff_expect hopen hending).bind fun _ hending _ =>
      (reads_block h (reached_nil stop) hending).bind fun _ hending _ => ?_).congr
        ⟨fun hok => hok.2.1, fun hok => ⟨reached_block h stop [], hok, trivial⟩⟩
    exact readsIff_ok rfl rfl hending

end Grammar

/-! ## Without empty statements -/

namespace Stmt

/-- Whether a statement is empty. -/
def isEmpty : Stmt → Bool
  | empty => true
  | _ => false

mutual

/-- The statement without the empty statements in its lists. -/
def tidy : Stmt → Stmt
  | block body => block (tidyList body)
  | if_ test yes no => if_ test (tidy yes) (tidyOption no)
  | switch subject arms => switch subject (tidyArms arms)
  | s => s

/-- A statement that may be missing, without the empty statements in its lists. -/
def tidyOption : Option Stmt → Option Stmt
  | some s => some (tidy s)
  | none => none

/-- Statements without the empty ones. -/
def tidyList : List Stmt → List Stmt
  | [] => []
  | s :: rest => if s.isEmpty then tidyList rest else tidy s :: tidyList rest

/-- The arms of a switch without empty statements. -/
def tidyArms : List (Arm Stmt) → List (Arm Stmt)
  | [] => []
  | ⟨test, body⟩ :: rest => ⟨test, tidyList body⟩ :: tidyArms rest

end

end Stmt

/-- The body without the empty statements in its lists. -/
def Body.tidy : Body → Body
  | expr value => expr value
  | block body => block (Stmt.tidyList body)

/-- The body with every object entry written with its value. -/
def Body.longhand (body : Body) : Body := body.mapExprs (fun _ => 0) (fun _ => Expr.longhand) 0

namespace Stmt

lemma tidyList_append (body rest : List Stmt) :
    tidyList (body ++ rest) = tidyList body ++ tidyList rest := by
  induction body with
  | nil => rfl
  | cons s others ih =>
    rw [List.cons_append, tidyList, tidyList, ih]
    cases s.isEmpty <;> rfl

lemma isEmpty_reread (s : Stmt) : s.reread.isEmpty = s.isEmpty := by
  cases s <;> rfl

lemma isEmpty_mapExprs (size : Expr → Nat) (f : Nat → Expr → Expr) (n : Nat) (s : Stmt) :
    (s.mapExprs size f n).isEmpty = s.isEmpty := by
  cases s <;> rfl

mutual

/-- But for empty statements, code is read back as it was printed. -/
lemma tidy_reread (s : Stmt) :
    s.reread.tidy = (s.mapExprs (fun _ => 0) (fun _ => Expr.longhand) 0).tidy := by
  match s with
  | expr _ | declare _ _ _ | return_ _ | break_ | continue_ | empty => rfl
  | for_ _ _ _ _ | forEach _ _ _ _ _ | while_ _ _ | doWhile _ _ => rfl
  | block body => rw [reread, tidy, tidyList_reread body, mapExprs, tidy]
  | if_ test yes no =>
    rw [reread, tidy, tidy_reread yes, tidyOption_reread no, mapExprs, tidy, Expr.total_zero]
  | switch subject arms => rw [reread, tidy, tidyArms_reread arms, mapExprs, tidy]

lemma tidyOption_reread (s? : Option Stmt) :
    tidyOption (rereadOption s?) =
      tidyOption (mapExprsOption (fun _ => 0) (fun _ => Expr.longhand) 0 s?) := by
  match s? with
  | none => rfl
  | some s => rw [rereadOption, tidyOption, tidy_reread s, mapExprsOption, tidyOption]

lemma tidyList_reread (body : List Stmt) :
    tidyList (rereadList body) =
      tidyList (mapExprsList (fun _ => 0) (fun _ => Expr.longhand) 0 body) := by
  match body with
  | [] => rfl
  | s :: rest =>
    have hadded : tidyList (if s.selfClosed then [empty] else []) = [] := by
      cases s.selfClosed <;> rfl
    rw [rereadList, tidyList, tidyList_append, hadded, List.nil_append, tidyList_reread rest,
      tidy_reread s, isEmpty_reread, mapExprsList, tidyList, isEmpty_mapExprs, Expr.total_zero]

lemma tidyArms_reread (arms : List (Arm Stmt)) :
    tidyArms (rereadArms arms) =
      tidyArms (mapExprsArms (fun _ => 0) (fun _ => Expr.longhand) 0 arms) := by
  match arms with
  | [] => rfl
  | ⟨test, body⟩ :: rest =>
    rw [rereadArms, tidyArms, tidyList_reread body, tidyArms_reread rest, mapExprsArms, tidyArms,
      Expr.total_zero, Expr.total_zero]

end

end Stmt

/-- The code of a row function with a block for its body, which was read and is accepted and has no
pointed number behind a question mark, is read back as the same function, up to empty statements in
its lists and with every object entry written with its value, exactly if no choice in it has a first
branch that ends with a brace, without being a block, in front of its `else`.  If one has, the code
is malformed. -/
theorem RowFunction.parse_code_block_iff {text space : String} {f : RowFunction}
    {body : List Stmt} (hparse : RowFunction.parse text = .ok f)
    (hcheck : f.check space = .ok ()) (hbody : f.body = .block body)
    (hpointed : ∀ e ∈ f.body.exprs, ∀ s ∈ e.subterms, s.isPointed = false) :
    ((∃ g, RowFunction.parse (RowFunction.header f.param ++ f.body.code) = .ok g ∧
          g.param = f.param ∧ g.body.tidy = f.body.longhand.tidy) ↔
        ∀ p ∈ f.body.inner, p.2.losesElse = false) ∧
      ((∃ p ∈ f.body.inner, p.2.losesElse = true) →
        ∃ m, RowFunction.parse (RowFunction.header f.param ++ f.body.code) = .error m) := by
  have hspelled := spelled_of_parse hparse
  have hplain := hspelled.plain hcheck
  have hlegible := hspelled.legible_exprs hcheck
  have hexprs : ∀ e ∈ f.body.exprs, Grammar.ReadsLonghand e := by
    intro e he
    have hwritten := (hspelled.body.exprs e he).written
    have hreads := (Grammar.rereads_of_legible e (hlegible e he)).simple
    rwa [hwritten.surface_eq_longhand, propext (hwritten.clean_iff.trans
      (iff_true_intro (hpointed e he))), hwritten.isUndefined_eq_false] at hreads
  rw [hbody] at hplain hexprs
  have hgives := Grammar.givesIff_parse_block hspelled.param
    (Grammar.rereads_list body hplain hexprs)
  rw [hbody]
  refine ⟨⟨fun ⟨g, hg, _⟩ => ?_, fun hkept => ?_⟩, fun ⟨p, hp, hloses⟩ => hgives.2 fun hkept => ?_⟩
  · by_contra hlost
    obtain ⟨m, hm⟩ := hgives.2 hlost
    cases hg.symm.trans hm
  · exact ⟨_, hgives.1 hkept, rfl, congrArg Body.block (Stmt.tidyList_reread body)⟩
  · cases hloses.symm.trans (hkept p hp)

namespace Stmt

open RowExpr.Expr (member identifier literal object)

/-- A block in front of an `else`, with an object in shorthand, and a switch behind it. -/
def nestedChoice : List Stmt :=
  [if_ (member (identifier "d") "x")
    (block [declare .let_ "a" (some (literal .null)),
      return_ (some (object [⟨.name "a", identifier "a", true⟩]))])
    (some (if_ (member (identifier "d") "y")
      (switch (member (identifier "d") "x") [⟨some (literal .null), [break_]⟩]) none))]

/-- A switch in front of an `else`. -/
def switchBeforeElse : List Stmt :=
  [if_ (member (identifier "d") "x") (switch (member (identifier "d") "x") [])
    (some (expr (literal .null)))]

end Stmt

theorem RowFunction.parse_code_block_iff_nestedChoice :
    RowFunction.parse ("d=>\x7bif(d.x)\x7blet a=null;return(\x7ba\x7d)\x7d" ++
        "else if(d.y)switch(d.x)\x7bcase null:break\x7d\x7d") =
        .ok ⟨some "d", .block Stmt.nestedChoice⟩ ∧
      RowFunction.check ⟨some "d", .block Stmt.nestedChoice⟩ "op" = .ok () ∧
      (∀ e ∈ (Body.block Stmt.nestedChoice).exprs, ∀ s ∈ e.subterms, s.isPointed = false) ∧
      ∃ g, RowFunction.parse ("d=>" ++ "\x7bif (d.x)\x7blet a=null;return (\x7ba:a\x7d);\x7d" ++
          " else if (d.y)switch (d.x) \x7bcase null: break;\x7d;\x7d") = .ok g ∧
        g.param = some "d" ∧ g.body.tidy = (Body.block Stmt.nestedChoice).longhand.tidy := by
  have hparse : RowFunction.parse ("d=>\x7bif(d.x)\x7blet a=null;return(\x7ba\x7d)\x7d" ++
      "else if(d.y)switch(d.x)\x7bcase null:break\x7d\x7d") =
      .ok ⟨some "d", .block Stmt.nestedChoice⟩ := by
    unfold RowFunction.parse
    conv in TokenRun.ofText _ _ => cbv
    cbv
  have hcheck : RowFunction.check ⟨some "d", .block Stmt.nestedChoice⟩ "op" = .ok () := rfl
  have hpointed : ∀ e ∈ (Body.block Stmt.nestedChoice).exprs, ∀ s ∈ e.subterms,
      s.isPointed = false := by
    decide
  exact ⟨hparse, hcheck, hpointed,
    (RowFunction.parse_code_block_iff hparse hcheck rfl hpointed).1.mpr (by decide)⟩

/-- The code of a choice with a switch for its first branch is malformed, though the choice is
accepted. -/
theorem RowFunction.not_rereads_switchBeforeElse :
    RowFunction.parse "d=>\x7bif(d.x)switch(d.x)\x7b\x7delse null\x7d" =
        .ok ⟨some "d", .block Stmt.switchBeforeElse⟩ ∧
      RowFunction.check ⟨some "d", .block Stmt.switchBeforeElse⟩ "op" = .ok () ∧
      (∀ e ∈ (Body.block Stmt.switchBeforeElse).exprs, ∀ s ∈ e.subterms, s.isPointed = false) ∧
      (Body.block Stmt.switchBeforeElse).code =
        "\x7bif (d.x)switch (d.x) \x7b\x7d; else null;\x7d" ∧
      ∃ m, RowFunction.parse "d=>\x7bif (d.x)switch (d.x) \x7b\x7d; else null;\x7d" = .error m := by
  refine ⟨?_, rfl, by decide, rfl, ?_⟩
  · unfold RowFunction.parse
    conv in TokenRun.ofText _ _ => cbv
    cbv
  · unfold RowFunction.parse
    conv in TokenRun.ofText _ _ => cbv
    exact ⟨_, by cbv⟩

end RowExpr
