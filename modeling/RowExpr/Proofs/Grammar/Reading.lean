/-
# Reading written expressions

How the pieces of a written expression are read, put together as they are written. Three kinds of
text are told apart by where they may stand: an operand may be followed by member accesses and
calls; a simple expression may stand next to an infix operator; a group may stand in parentheses or
between commas. Each kind is a record of what its readers need: that no mark in front of the text
swallows its first character, that the text can stand in the hole of a template, which token it
starts with, and exactly when and as what it is read, whatever follows.

* `ReadsOperand.member`, `ReadsOperand.index`, `ReadsOperand.call`: the steps of an access chain;
* `readsOperand_array`, `readsGroup_object`, `readsOperand_template`: expressions made of others;
* `ReadsGroup.paren`: a group in parentheses is an operand.
-/
import Mathlib.Tactic.Tauto
import RowExpr.Proofs.Grammar.Outcome

namespace RowExpr.Grammar

open TokenRun (scan)
open Token (Opens Skips StopsWord isNamePart)

variable {text : List Char} {e : Expr} {ok : Prop}

/-! ## Kinds of text -/

/-- Nothing in front of `rest` can be continued as a word or a number. -/
def Apart (rest : List Char) : Prop := ∀ c, rest.head? = some c → isNamePart c = false ∧ c ≠ '.'

/-- Whether an operand may start with the token. -/
def startsOperand : Token → Bool
  | .number _ _ | .string _ _ | .template _ _ | .boolean _ | .null | .identifier _
  | .punct .lparen | .punct .lbracket => true
  | _ => false

/-- The text is read as an operand, if `ok`: then what follows it is read as the rest of an access
chain with it at its head. -/
structure ReadsOperand (text : List Char) (e : Expr) (ok : Prop) : Prop where
  opens : Opens text ∧ text.head? ≠ some '.'
  skips : Skips text
  starts : ∀ stop rest, StopsWord rest →
    ∃ token run, (scan stop (text ++ rest)).Starts token run ∧ startsOperand token
  reads : ∀ {stop rest ending ok' e' run}, StopsWord rest →
    startsWith .arrow (scan stop rest).tokens = false →
    ending = (scan stop (text ++ rest)).ending →
    (ending = (scan stop rest).ending →
      ReadsIff ending ok' e' run (chain ending true e (scan stop rest).tokens)) →
    ReadsIff ending (ok ∧ Reached (scan stop rest) ∧ ok') e' run
      (access ending (scan stop (text ++ rest)).tokens)

/-- The text is read as an operand with the operators before it, if `ok`. It is `bare` if it starts
with an operator without parentheses. -/
structure ReadsSimple (text : List Char) (e : Expr) (ok : Prop) (bare : Bool) : Prop where
  opens : Opens text
  skips : Skips text
  starts : ∀ stop rest, Apart rest → ∃ token run, (scan stop (text ++ rest)).Starts token run ∧
    (bare = false ∧ startsOperand token ∨ bare = true ∧ token = .keyword .void)
  reads : ∀ {stop rest ending}, Apart rest →
    continuesOperand (front (scan stop rest).tokens) = false →
    ending = (scan stop (text ++ rest)).ending →
    ReadsIff ending (ok ∧ Reached (scan stop rest)) e (scan stop rest)
      (unary ending (scan stop (text ++ rest)).tokens)

/-- The text is read as a complete expression, if `ok`. -/
structure ReadsGroup (text : List Char) (e : Expr) (ok : Prop) : Prop where
  skips : Skips text
  starts : ∀ stop rest, Apart rest →
    ∃ token run, (scan stop (text ++ rest)).Starts token run ∧ closes token = false
  reads : ∀ {stop rest ending}, Apart rest → closes (front (scan stop rest).tokens) →
    ending = (scan stop (text ++ rest)).ending →
    ReadsIff ending (ok ∧ Reached (scan stop rest)) e (scan stop rest)
      (assignment ending (scan stop (text ++ rest)).tokens)

lemma Apart.stopsWord {rest : List Char} (h : Apart rest) : StopsWord rest :=
  fun c hc => (h c hc).1

lemma startsWith_arrow_of_front {ts : List Lexeme} (h : continuesOperand (front ts) = false) :
    startsWith .arrow ts = false := by
  unfold startsWith
  split
  case h_1 p m r =>
    cases hm : m == Punct.arrow with
    | false => rfl
    | true =>
      rw [beq_iff_eq] at hm
      subst hm
      cases h
  case h_2 => rfl

lemma continuesAccess_of_operand {token : Token} (h : continuesOperand token = false) :
    continuesAccess token = false := by
  unfold continuesOperand at h
  split at h
  all_goals first | cases h | exact h

lemma not_prefix_of_startsOperand {token : Token} (h : startsOperand token) :
    unary? token = none ∧ update? token = none ∧ closes token = false := by
  unfold startsOperand at h
  split at h
  all_goals first | exact ⟨rfl, rfl, rfl⟩ | cases h

/-- An operand is a simple expression. -/
lemma ReadsOperand.simple (h : ReadsOperand text e ok) : ReadsSimple text e ok false where
  opens := h.opens.1
  skips := h.skips
  starts stop rest hrest := by
    obtain ⟨token, run, hstarts, htoken⟩ := h.starts stop rest hrest.stopsWord
    exact ⟨token, run, hstarts, .inl ⟨rfl, htoken⟩⟩
  reads := by
    intro stop rest ending hrest hfront hending
    obtain ⟨token, run, hstarts, htoken⟩ := h.starts stop rest hrest.stopsWord
    obtain ⟨hunary, hupdate, _⟩ := not_prefix_of_startsOperand htoken
    rw [← front_of_starts hstarts] at hunary hupdate
    rw [unary_eq_suffixed hunary hupdate]
    have haccess := h.reads hrest.stopsWord (startsWith_arrow_of_front hfront) hending
      fun hending => readsIff_chain (continuesAccess_of_operand hfront) hending
    exact readsIff_suffixed (haccess.congr (by rw [and_true])) hfront

/-- A simple expression is a complete expression where one ends. -/
lemma ReadsSimple.group {bare : Bool} (h : ReadsSimple text e ok bare) :
    ReadsGroup text e ok where
  skips := h.skips
  starts stop rest hrest := by
    obtain ⟨token, run, hstarts, htoken⟩ := h.starts stop rest hrest
    refine ⟨token, run, hstarts, ?_⟩
    rcases htoken with ⟨_, htoken⟩ | ⟨_, rfl⟩
    · exact (not_prefix_of_startsOperand htoken).2.2
    · rfl
  reads hrest hfront hending :=
    readsIff_assignment_of_unary
      (h.reads hrest (not_operator_of_closes hfront).2.2.2.2.1 hending) hfront

/-! ## Marks around expressions -/

/-- The marks that end by themselves: brackets, commas, colons and semicolons. -/
def isBracket : Punct → Bool
  | .lparen | .rparen | .lbracket | .rbracket | .lbrace | .rbrace | .comma | .colon
  | .semicolon => true
  | _ => false

lemma starts_bracket {mark : Punct} {c : Char} (h : isBracket mark)
    (hc : mark.spelling.toList = [c]) (stop : Nat) (rest : List Char) :
    (scan stop (c :: rest)).Starts (.punct mark) (scan stop rest) := by
  have hlone : Token.isLone mark.spelling.toList := by
    cases mark
    all_goals first | decide | cases h
  have hstarts : (scan stop (mark.spelling.toList ++ rest)).Starts (.punct mark) (scan stop rest) :=
    TokenRun.starts_mark (Token.isMark_punct mark) fun c _ => Token.endsBefore_of_isLone hlone c
  rwa [hc] at hstarts

lemma apart_cons {c : Char} (h : isNamePart c = false ∧ c ≠ '.') (rest : List Char) :
    Apart (c :: rest) := by
  rintro _ ⟨⟩
  exact h

lemma stopsWord_cons {c : Char} (h : isNamePart c = false) (rest : List Char) :
    StopsWord (c :: rest) := by
  rintro _ ⟨⟩
  exact h

/-! ## Operands -/

/-- A text that is read as one token is an operand if the token is. -/
lemma readsOperand_of_token {token : Token} (hopens : Opens text ∧ text.head? ≠ some '.')
    (hskips : Skips text)
    (hstarts : ∀ stop rest, StopsWord rest →
      (scan stop (text ++ rest)).Starts token (scan stop rest))
    (htoken : startsOperand token)
    (hread : ∀ ending p r, startsWith .arrow r = false →
      operand ending (⟨p, token⟩ :: r) = take ending r e) :
    ReadsOperand text e True where
  opens := hopens
  skips := hskips
  starts stop rest hrest := ⟨token, scan stop rest, hstarts stop rest hrest, htoken⟩
  reads := by
    intro stop rest ending ok' e' run hrest harrow hending hchain
    have htake := readsIff_operand_token (hstarts stop rest hrest)
      (fun p => hread ending p _ harrow) hending
    refine (readsIff_access htake fun _ hending => hchain hending).congr ?_
    rw [true_and]

/-- A complete expression in parentheses is an operand. -/
theorem ReadsGroup.paren (h : ReadsGroup text e ok) :
    ReadsOperand ('(' :: (text ++ [')'])) e ok where
  opens := ⟨⟨'(', _, rfl, .inl (by decide)⟩, by simp⟩
  skips := Skips.cons (by decide) (h.skips.append (Token.skips_char (by decide)))
  starts stop rest _ :=
    ⟨.punct .lparen, _, starts_bracket rfl rfl stop (text ++ [')'] ++ rest), rfl⟩
  reads := by
    intro stop rest ending ok' e' run hrest harrow hending hchain
    have hassoc : '(' :: (text ++ [')']) ++ rest = '(' :: (text ++ ')' :: rest) := by simp
    rw [hassoc] at hending ⊢
    have hclose : (scan stop (')' :: rest)).Starts (.punct .rparen) (scan stop rest) :=
      starts_bracket rfl rfl stop rest
    have hapart : Apart (')' :: rest) := apart_cons (by decide) rest
    obtain ⟨token, inner, hinner, _⟩ := h.starts stop (')' :: rest) hapart
    have hoperand := readsIff_operand_paren (starts_bracket rfl rfl stop (text ++ ')' :: rest))
      (reached_of_starts hinner)
      (h.reads hapart (by rw [front_of_starts hclose]; rfl)) hclose harrow hending
    refine (readsIff_access hoperand fun _ hending => hchain hending).congr ?_
    have := reached_of_starts hclose
    tauto

lemma ReadsOperand.opens_append (h : ReadsOperand text e ok) (more : List Char) :
    Opens (text ++ more) ∧ (text ++ more).head? ≠ some '.' := by
  rw [h.opens.1.head?_append]
  exact ⟨h.opens.1.append more, h.opens.2⟩

/-- A member of an operand. -/
theorem ReadsOperand.member (h : ReadsOperand text e ok) {name : String}
    (hname : Token.isWord name) :
    ReadsOperand (text ++ '.' :: name.toList) (.member e name) ok where
  opens := h.opens_append _
  skips := h.skips.append (Skips.cons (by decide) (Token.skips_of_isWord hname))
  starts stop rest _ := by
    rw [List.append_assoc]
    exact h.starts stop _ (stopsWord_cons (by decide) _)
  reads := by
    intro stop rest ending ok' e' run hrest harrow hending hchain
    rw [List.append_assoc, List.cons_append] at hending ⊢
    have hdot : (scan stop ('.' :: (name.toList ++ rest))).Starts (.punct .dot)
        (scan stop (name.toList ++ rest)) := TokenRun.starts_dot hname
    have hword : (scan stop (name.toList ++ rest)).Starts (Token.ofWord name) (scan stop rest) :=
      TokenRun.starts_word hname hrest
    refine (h.reads (stopsWord_cons (by decide) _) (startsWith_of_starts hdot (by simp)) hending
      fun hending => readsIff_chain_member hdot hword (Token.propertyName?_ofWord name) hchain
        hending).congr ?_
    have := reached_of_starts hdot
    tauto

/-- An item of an operand. -/
theorem ReadsOperand.index (h : ReadsOperand text e ok) {text' : List Char} {e' : Expr} {ok' : Prop}
    (h' : ReadsGroup text' e' ok') :
    ReadsOperand (text ++ '[' :: (text' ++ [']'])) (.index e e') (ok ∧ ok') where
  opens := h.opens_append _
  skips := h.skips.append
    (Skips.cons (by decide) (h'.skips.append (Token.skips_char (by decide))))
  starts stop rest _ := by
    rw [List.append_assoc]
    exact h.starts stop _ (stopsWord_cons (by decide) _)
  reads := by
    intro stop rest ending ok₂ e₂ run hrest harrow hending hchain
    have hassoc : text ++ '[' :: (text' ++ [']']) ++ rest =
        text ++ '[' :: (text' ++ ']' :: rest) := by simp
    rw [hassoc] at hending ⊢
    have hopen : (scan stop ('[' :: (text' ++ ']' :: rest))).Starts (.punct .lbracket)
        (scan stop (text' ++ ']' :: rest)) := starts_bracket rfl rfl stop _
    have hclose : (scan stop (']' :: rest)).Starts (.punct .rbracket) (scan stop rest) :=
      starts_bracket rfl rfl stop rest
    have hapart : Apart (']' :: rest) := apart_cons (by decide) rest
    obtain ⟨token, inner, hinner, _⟩ := h'.starts stop (']' :: rest) hapart
    refine (h.reads (stopsWord_cons (by decide) _) (startsWith_of_starts hopen (by simp)) hending
      fun hending => readsIff_chain_index hopen (reached_of_starts hinner)
        (h'.reads hapart (by rw [front_of_starts hclose]; rfl)) hclose hchain hending).congr ?_
    have := reached_of_starts hopen
    have := reached_of_starts hclose
    tauto

/-! ## Lists of expressions -/

/-- Texts with commas between them. -/
def commaSeparated : List (List Char) → List Char
  | [] => []
  | [text] => text
  | text :: texts => text ++ ',' :: commaSeparated texts

lemma skips_commaSeparated {texts : List (List Char)} (h : ∀ text ∈ texts, Skips text) :
    Skips (commaSeparated texts) := by
  fun_induction commaSeparated texts with
  | case1 => exact Token.skips_nil
  | case2 text => exact h text (by simp)
  | case3 text texts _ ih =>
    exact (h text (by simp)).append (Skips.cons (by decide) (ih fun t ht => h t (by simp [ht])))

/-- What is known of the items of a list: their texts, what they are read as and when. -/
structure Item where
  text : List Char
  expr : Expr
  ok : Prop

/-- A list that is read has a token, if only the one that closes it. -/
lemma reached_commaSeparated {list : List Item}
    (h : ∀ item ∈ list, ReadsGroup item.text item.expr item.ok) (mark : Punct) {c : Char}
    (hmark : isBracket mark) (hc : mark.spelling.toList = [c])
    (hpart : isNamePart c = false ∧ c ≠ '.') (stop : Nat) (rest : List Char) :
    Reached (scan stop (commaSeparated (list.map Item.text) ++ c :: rest)) := by
  cases list with
  | nil => exact reached_of_starts (starts_bracket hmark hc stop rest)
  | cons item list =>
    have hmore : ∃ more, commaSeparated ((item :: list).map Item.text) ++ c :: rest =
        item.text ++ more ∧ Apart more := by
      cases list with
      | nil => exact ⟨c :: rest, rfl, apart_cons hpart rest⟩
      | cons item' list =>
        refine ⟨',' :: (commaSeparated ((item' :: list).map Item.text) ++ c :: rest), ?_,
          apart_cons (by decide) _⟩
        simp [commaSeparated]
    obtain ⟨more, hmore, hapart⟩ := hmore
    obtain ⟨_, _, hstarts, _⟩ := (h item (by simp)).starts stop more hapart
    rw [hmore]
    exact reached_of_starts hstarts

/-- Expressions separated by commas are read as a list, if each of them is. -/
lemma readsIff_items {close : Punct} {c : Char} (hclose : close = .rparen ∨ close = .rbracket)
    (hc : close.spelling.toList = [c]) {list : List Item}
    (h : ∀ item ∈ list, ReadsGroup item.text item.expr item.ok) {stop : Nat} {rest : List Char}
    {ending : Ending}
    (hending : ending = (scan stop (commaSeparated (list.map Item.text) ++ c :: rest)).ending) :
    ReadsIff ending ((∀ item ∈ list, item.ok) ∧ Reached (scan stop rest)) (list.map Item.expr)
      (scan stop rest)
      (items ending close
        (scan stop (commaSeparated (list.map Item.text) ++ c :: rest)).tokens) := by
  have hbracket : isBracket close ∧ closes (.punct close) ∧ close ≠ .comma := by
    rcases hclose with rfl | rfl <;> exact ⟨rfl, rfl, by decide⟩
  have hpart : isNamePart c = false ∧ c ≠ '.' := by
    rcases hclose with rfl | rfl <;> cases hc <;> decide
  have hend : (scan stop (c :: rest)).Starts (.punct close) (scan stop rest) :=
    starts_bracket hbracket.1 hc stop rest
  have hapart : Apart (c :: rest) := apart_cons hpart rest
  induction list generalizing ending with
  | nil =>
    refine (readsIff_items_nil hend hending).congr ?_
    simp
  | cons item list ih =>
    have hitem := h item (by simp)
    have hrest := fun i hi => h i (List.mem_cons_of_mem item hi)
    cases list with
    | nil =>
      obtain ⟨token, inner, hinner, htoken⟩ := hitem.starts stop (c :: rest) hapart
      refine (readsIff_items_cons hinner htoken hbracket.2.1 hbracket.2.2
        (hitem.reads hapart (by rw [front_of_starts hend]; exact hbracket.2.1))
        (.inl ⟨hend, fun hending => readsIff_items_nil hend hending⟩) hending).congr ?_
      have := reached_of_starts hend
      simp only [List.mem_singleton, forall_eq]
      tauto
    | cons item' list =>
      have hassoc : commaSeparated ((item :: item' :: list).map Item.text) ++ c :: rest =
          item.text ++ ',' :: (commaSeparated ((item' :: list).map Item.text) ++ c :: rest) := by
        simp [commaSeparated]
      rw [hassoc] at hending ⊢
      have hcomma : (scan stop (',' :: (commaSeparated ((item' :: list).map Item.text) ++
          c :: rest))).Starts (.punct .comma)
          (scan stop (commaSeparated ((item' :: list).map Item.text) ++ c :: rest)) :=
        starts_bracket rfl rfl stop _
      have hapart' := apart_cons (c := ',') (by decide)
        (commaSeparated ((item' :: list).map Item.text) ++ c :: rest)
      obtain ⟨token, inner, hinner, htoken⟩ := hitem.starts stop _ hapart'
      have hreach := reached_commaSeparated hrest close hbracket.1 hc hpart stop rest
      refine (readsIff_items_cons hinner htoken hbracket.2.1 hbracket.2.2
        (hitem.reads hapart' (by rw [front_of_starts hcomma]; rfl))
        (.inr ⟨hcomma, hreach, ih hrest⟩) hending).congr ?_
      have := reached_of_starts hcomma
      rw [List.forall_mem_cons (a := item)]
      tauto

/-- A call of an operand. -/
theorem ReadsOperand.call (h : ReadsOperand text e ok) {list : List Item}
    (hlist : ∀ item ∈ list, ReadsGroup item.text item.expr item.ok) :
    ReadsOperand (text ++ '(' :: (commaSeparated (list.map Item.text) ++ [')']))
      (.call e (list.map Item.expr)) (ok ∧ ∀ item ∈ list, item.ok) where
  opens := h.opens_append _
  skips := by
    refine h.skips.append (Skips.cons (by decide) (.append (skips_commaSeparated ?_)
      (Token.skips_char (by decide))))
    simpa using fun item hitem => (hlist item hitem).skips
  starts stop rest _ := by
    rw [List.append_assoc]
    exact h.starts stop _ (stopsWord_cons (by decide) _)
  reads := by
    intro stop rest ending ok' e' run hrest harrow hending hchain
    have hassoc : text ++ '(' :: (commaSeparated (list.map Item.text) ++ [')']) ++ rest =
        text ++ '(' :: (commaSeparated (list.map Item.text) ++ ')' :: rest) := by simp
    rw [hassoc] at hending ⊢
    have hopen : (scan stop ('(' :: (commaSeparated (list.map Item.text) ++ ')' :: rest))).Starts
        (.punct .lparen) (scan stop (commaSeparated (list.map Item.text) ++ ')' :: rest)) :=
      starts_bracket rfl rfl stop _
    refine (h.reads (stopsWord_cons (by decide) _) (startsWith_of_starts hopen (by simp)) hending
      fun hending => readsIff_chain_call hopen
        (reached_commaSeparated hlist .rparen rfl rfl (by decide) stop rest)
        (readsIff_items (.inl rfl) rfl hlist) hchain hending).congr ?_
    have := reached_of_starts hopen
    tauto

/-- An array is an operand. -/
theorem readsOperand_array {list : List Item}
    (hlist : ∀ item ∈ list, ReadsGroup item.text item.expr item.ok) :
    ReadsOperand ('[' :: (commaSeparated (list.map Item.text) ++ [']']))
      (.array (list.map Item.expr)) (∀ item ∈ list, item.ok) where
  opens := ⟨⟨'[', _, rfl, .inl (by decide)⟩, by simp⟩
  skips := by
    refine Skips.cons (by decide) (.append (skips_commaSeparated ?_) (Token.skips_char (by decide)))
    simpa using fun item hitem => (hlist item hitem).skips
  starts stop rest _ := ⟨.punct .lbracket, _, starts_bracket rfl rfl stop _, rfl⟩
  reads := by
    intro stop rest ending ok' e' run hrest harrow hending hchain
    have hassoc : '[' :: (commaSeparated (list.map Item.text) ++ [']']) ++ rest =
        '[' :: (commaSeparated (list.map Item.text) ++ ']' :: rest) := by simp
    rw [hassoc] at hending ⊢
    have hoperand := readsIff_operand_array (starts_bracket rfl rfl stop _)
      (reached_commaSeparated hlist .rbracket rfl rfl (by decide) stop rest)
      (readsIff_items (.inr rfl) rfl hlist) hending
    refine (readsIff_access hoperand fun _ hending => hchain hending).congr ?_
    tauto

/-! ## Objects -/

/-- The text is read as the key of an entry, if `ok`. -/
structure ReadsKey (text : List Char) (key : Key Expr) (ok : Prop) : Prop where
  skips : Skips text
  starts : ∀ stop rest, ∃ token run, (scan stop (text ++ ':' :: rest)).Starts token run ∧
    closes token = false
  reads : ∀ {stop rest ending}, ending = (scan stop (text ++ ':' :: rest)).ending →
    ReadsIff ending (ok ∧ Reached (scan stop (':' :: rest))) key (scan stop (':' :: rest))
      (Grammar.key ending (scan stop (text ++ ':' :: rest)).tokens)

lemma readsKey_of_token {token : Token} {key : Key Expr} (hskips : Skips text)
    (hstarts : ∀ stop rest, (scan stop (text ++ ':' :: rest)).Starts token
      (scan stop (':' :: rest)))
    (htoken : closes token = false)
    (hread : ∀ ending p r, Grammar.key ending (⟨p, token⟩ :: r) = take ending r key) :
    ReadsKey text key True where
  skips := hskips
  starts stop rest := ⟨token, _, hstarts stop rest, htoken⟩
  reads := by
    intro stop rest ending hending
    rw [true_and]
    exact readsIff_key_token (hstarts stop rest) (fun p => hread ending p _) hending

lemma ReadsGroup.computed (h : ReadsGroup text e ok) :
    ReadsKey ('[' :: (text ++ [']'])) (.computed e) ok where
  skips := Skips.cons (by decide) (h.skips.append (Token.skips_char (by decide)))
  starts stop rest := ⟨.punct .lbracket, _, starts_bracket rfl rfl stop _, rfl⟩
  reads := by
    intro stop rest ending hending
    have hassoc : '[' :: (text ++ [']']) ++ ':' :: rest = '[' :: (text ++ ']' :: ':' :: rest) := by
      simp
    rw [hassoc] at hending ⊢
    have hclose : (scan stop (']' :: ':' :: rest)).Starts (.punct .rbracket)
        (scan stop (':' :: rest)) := starts_bracket rfl rfl stop _
    have hapart : Apart (']' :: ':' :: rest) := apart_cons (by decide) _
    obtain ⟨token, inner, hinner, _⟩ := h.starts stop _ hapart
    refine (readsIff_key_computed (starts_bracket rfl rfl stop _) (reached_of_starts hinner)
      (h.reads hapart (by rw [front_of_starts hclose]; rfl)) hclose hending).congr ?_
    have := reached_of_starts hclose
    tauto

/-- What is known of an entry of an object. -/
structure Member where
  keyText : List Char
  key : Key Expr
  keyOk : Prop
  text : List Char
  value : Expr
  ok : Prop

/-- An entry as it is written. -/
def Member.written (member : Member) : List Char := member.keyText ++ ':' :: member.text

/-- The entry that is read. -/
def Member.entry (member : Member) : Entry Expr := ⟨member.key, member.value, false⟩

/-- The entry is read, if its key and its value are. -/
def Member.Reads (member : Member) : Prop :=
  ReadsKey member.keyText member.key member.keyOk ∧ ReadsGroup member.text member.value member.ok

lemma Member.Reads.starts {member : Member} (h : member.Reads) (stop : Nat) (rest : List Char) :
    ∃ token run, (scan stop (member.written ++ rest)).Starts token run ∧ closes token = false := by
  rw [Member.written, List.append_assoc]
  exact h.1.starts stop _

/-- Entries separated by commas are read, if each of them is. -/
lemma readsIff_entries {list : List Member} (h : ∀ member ∈ list, member.Reads) {stop : Nat}
    {rest : List Char} {ending : Ending}
    (hending : ending =
      (scan stop (commaSeparated (list.map Member.written) ++ '\x7d' :: rest)).ending) :
    ReadsIff ending ((∀ member ∈ list, member.keyOk ∧ member.ok) ∧ Reached (scan stop rest))
      (list.map Member.entry) (scan stop rest)
      (entries ending
        (scan stop (commaSeparated (list.map Member.written) ++ '\x7d' :: rest)).tokens) := by
  have hend : (scan stop ('\x7d' :: rest)).Starts (.punct .rbrace) (scan stop rest) :=
    starts_bracket rfl rfl stop rest
  induction list generalizing ending with
  | nil =>
    refine (readsIff_entries_nil hend hending).congr ?_
    simp
  | cons member list ih =>
    have hmember := h member (by simp)
    have hrest := fun m hm => h m (List.mem_cons_of_mem member hm)
    -- The key and the value of the first entry, whatever closes it.
    have hkey : ∀ more, startsWith .rbrace (scan stop (member.written ++ more)).tokens = false ∧
        ∀ ending, ending = (scan stop (member.written ++ more)).ending →
          ReadsIff ending (member.keyOk ∧ Reached (scan stop (':' :: (member.text ++ more))))
            member.key (scan stop (':' :: (member.text ++ more)))
            (Grammar.key ending (scan stop (member.written ++ more)).tokens) := by
      intro more
      obtain ⟨token, _, hstarts, htoken⟩ := hmember.starts stop more
      have hassoc : member.written ++ more = member.keyText ++ ':' :: (member.text ++ more) := by
        simp [Member.written]
      refine ⟨startsWith_of_starts hstarts ?_, fun ending hending => ?_⟩
      · rintro rfl
        cases htoken
      · rw [hassoc] at hending ⊢
        exact hmember.1.reads hending
    have hvalue : ∀ more, Apart more → closes (front (scan stop more).tokens) →
        ∀ ending, ending = (scan stop (':' :: (member.text ++ more))).ending →
          ReadsIff ending (member.ok ∧ Reached (scan stop more)) member.entry (scan stop more)
            (value ending member.key (scan stop (':' :: (member.text ++ more))).tokens) := by
      intro more hapart hfront ending hending
      obtain ⟨_, _, hinner, _⟩ := hmember.2.starts stop more hapart
      exact readsIff_value (starts_bracket rfl rfl stop _) (reached_of_starts hinner)
        (hmember.2.reads hapart hfront) hending
    have hcolon : ∀ more, Reached (scan stop (':' :: more)) := by
      intro more
      have hstarts : (scan stop (':' :: more)).Starts (.punct .colon) (scan stop more) :=
        starts_bracket rfl rfl stop more
      exact reached_of_starts hstarts
    cases list with
    | nil =>
      have hapart : Apart ('\x7d' :: rest) := apart_cons (by decide) rest
      obtain ⟨hfront, hkey⟩ := hkey ('\x7d' :: rest)
      refine (readsIff_entries_cons hfront (hkey ending)
        (hvalue _ hapart (by rw [front_of_starts hend]; rfl) ending)
        (.inl ⟨hend, fun hending => readsIff_entries_nil hend hending⟩) hending).congr ?_
      have := reached_of_starts hend
      have := hcolon (member.text ++ '\x7d' :: rest)
      simp only [List.mem_singleton, forall_eq]
      tauto
    | cons member' list =>
      have hassoc : commaSeparated ((member :: member' :: list).map Member.written) ++
          '\x7d' :: rest = member.written ++
            ',' :: (commaSeparated ((member' :: list).map Member.written) ++ '\x7d' :: rest) := by
        simp [commaSeparated]
      rw [hassoc] at hending ⊢
      generalize hmore : commaSeparated ((member' :: list).map Member.written) ++ '\x7d' :: rest =
        more at *
      have hcomma : (scan stop (',' :: more)).Starts (.punct .comma) (scan stop more) :=
        starts_bracket rfl rfl stop more
      have hreach : Reached (scan stop more) := by
        obtain ⟨tail, htail⟩ : ∃ tail, more = member'.written ++ tail := by
          cases list with
          | nil => exact ⟨'\x7d' :: rest, by simp [← hmore, commaSeparated]⟩
          | cons m list => exact ⟨_, by rw [← hmore]; simp [commaSeparated]; rfl⟩
        obtain ⟨_, _, hstarts, _⟩ := (hrest member' (by simp)).starts stop tail
        rw [htail]
        exact reached_of_starts hstarts
      obtain ⟨hfront, hkey⟩ := hkey (',' :: more)
      refine (readsIff_entries_cons hfront (hkey ending)
        (hvalue _ (apart_cons (by decide) more) (by rw [front_of_starts hcomma]; rfl) ending)
        (.inr ⟨hcomma, hreach, ih hrest⟩) hending).congr ?_
      have := reached_of_starts hcomma
      have := hcolon (member.text ++ ',' :: more)
      rw [List.forall_mem_cons (a := member)]
      tauto

/-- An object stands in parentheses of its own. -/
theorem readsGroup_object {list : List Member} (hlist : ∀ member ∈ list, member.Reads) :
    ReadsGroup ('\x7b' :: (commaSeparated (list.map Member.written) ++ ['\x7d']))
      (.object (list.map Member.entry)) (∀ member ∈ list, member.keyOk ∧ member.ok) where
  skips := by
    refine Skips.braces (skips_commaSeparated ?_)
    intro text htext
    obtain ⟨member, hmember, rfl⟩ := List.mem_map.1 htext
    obtain ⟨hkey, hvalue⟩ := hlist member hmember
    exact hkey.skips.append (Skips.cons (by decide) hvalue.skips)
  starts stop rest _ := ⟨.punct .lbrace, _, starts_bracket rfl rfl stop _, rfl⟩
  reads := by
    intro stop rest ending hrest hfront hending
    have hassoc : '\x7b' :: (commaSeparated (list.map Member.written) ++ ['\x7d']) ++ rest =
        '\x7b' :: (commaSeparated (list.map Member.written) ++ '\x7d' :: rest) := by simp
    rw [hassoc] at hending ⊢
    have hopen : (scan stop
        ('\x7b' :: (commaSeparated (list.map Member.written) ++ '\x7d' :: rest))).Starts
        (.punct .lbrace)
        (scan stop (commaSeparated (list.map Member.written) ++ '\x7d' :: rest)) :=
      starts_bracket rfl rfl stop _
    have hreach : Reached
        (scan stop (commaSeparated (list.map Member.written) ++ '\x7d' :: rest)) := by
      cases list with
      | nil =>
        have hend : (scan stop ('\x7d' :: rest)).Starts (.punct .rbrace) (scan stop rest) :=
          starts_bracket rfl rfl stop rest
        exact reached_of_starts hend
      | cons member list =>
        obtain ⟨more, hmore⟩ : ∃ more, commaSeparated ((member :: list).map Member.written) ++
            '\x7d' :: rest = member.written ++ more := by
          cases list with
          | nil => exact ⟨_, rfl⟩
          | cons m list => exact ⟨_, by simp [commaSeparated]; rfl⟩
        obtain ⟨_, _, hstarts, _⟩ := (hlist member (by simp)).starts stop more
        rw [hmore]
        exact reached_of_starts hstarts
    obtain ⟨_, _, _, _, hoperand, _⟩ := not_operator_of_closes hfront
    refine readsIff_assignment_of_unary ?_ hfront
    rw [unary_eq_suffixed (by rw [front_of_starts hopen]; rfl) (by rw [front_of_starts hopen]; rfl)]
    refine readsIff_suffixed ?_ hoperand
    refine (readsIff_access (readsIff_operand_object hopen hreach (readsIff_entries hlist) hending)
      fun _ hending => readsIff_chain (continuesAccess_of_operand hoperand) hending).congr ?_
    exact and_iff_left trivial

/-! ## Templates -/

/-- What is known of a hole of a template and the text after it. -/
structure Part where
  text : String
  expr : Expr
  ok : Prop
  after : String

/-- The texts in the holes of a template are read, if each of them is. -/
lemma givesIff_holes {list : List Part}
    (h : ∀ part ∈ list, ReadsGroup part.text.toList part.expr part.ok)
    {parts : List (Hole × String)}
    (hparts : parts.map (fun part => (part.1.source, part.2)) =
      list.map fun part => (part.text, part.after)) :
    GivesIff (∀ part ∈ list, part.ok) (list.map fun part => (part.expr, part.after))
      (holes parts) := by
  induction list generalizing parts with
  | nil =>
    obtain rfl : parts = [] := by simpa using hparts
    rw [holes.eq_1]
    exact givesIff_ok.congr (by simp)
  | cons part list ih =>
    cases parts with
    | nil => simp at hparts
    | cons head others =>
      obtain ⟨hole, after⟩ := head
      simp only [List.map_cons, List.cons.injEq, Prod.mk.injEq] at hparts
      obtain ⟨⟨hsource, rfl⟩, hothers⟩ := hparts
      have hpart := h part (by simp)
      have hstop : Apart [] := by
        rintro c ⟨⟩
      have hread : ∀ stop, ReadsIff (scan stop part.text.toList).ending (part.ok ∧ True) part.expr
          (scan stop []) (assignment (scan stop part.text.toList).ending
            (scan stop part.text.toList).tokens) := by
        intro stop
        have hread : ReadsIff (scan stop (part.text.toList ++ [])).ending
            (part.ok ∧ Reached (scan stop [])) part.expr (scan stop [])
            (assignment _ (scan stop (part.text.toList ++ [])).tokens) :=
          hpart.reads hstop (by rw [TokenRun.scan_nil]; rfl) rfl
        rw [List.append_nil] at hread
        refine hread.congr (and_congr_right fun _ => iff_true_intro ?_)
        exact .inr ⟨stop, by rw [TokenRun.scan_nil]⟩
      have hreach : ∀ stop, Reached (scan stop part.text.toList) := by
        intro stop
        obtain ⟨_, _, hstarts, _⟩ := hpart.starts stop [] hstop
        rw [List.append_nil] at hstarts
        exact reached_of_starts hstarts
      rw [← hsource] at hread hreach
      rw [holes.eq_2, tokensOfHole]
      dsimp only [TokenRun.ofText]
      have hend : ∀ stop ending, GivesIff True () (expectEnd ending (scan stop []).tokens) := by
        intro stop ending
        rw [TokenRun.scan_nil]
        exact givesIff_ok
      have htail : GivesIff ((∀ part ∈ list, part.ok) ∧ True)
          ((part :: list).map fun part => (part.expr, part.after))
          (holes others >>= fun exprs => pure ((part.expr, part.after) :: exprs)) := by
        refine (ih (fun p hp => h p (List.mem_cons_of_mem part hp)) hothers).bind fun _ => ?_
        exact givesIff_ok
      refine (givesIff_reach.bind fun _ => (hread _).gives fun _ _ _ =>
        (hend _ _).bind fun _ => htail).congr ?_
      have := hreach (hole.position + hole.source.toList.length)
      rw [List.forall_mem_cons]
      tauto

/-- A template in front of a token that closes it is a complete expression. -/
lemma readsIff_assignment_template {head : String} {parts : List (Hole × String)}
    {exprs : List (Expr × String)} {run run' : TokenRun} {ending : Ending}
    (h : run.Starts (.template head parts) run') (hholes : GivesIff ok exprs (holes parts))
    (hfront : closes (front run'.tokens)) (hending : ending = run.ending) :
    ReadsIff ending (ok ∧ Reached run') (.template head exprs) run'
      (assignment ending run.tokens) := by
  obtain ⟨_, _, _, _, hcontinues, _⟩ := not_operator_of_closes hfront
  have hoperand := readsIff_operand_template h hholes hending
  have haccess : ReadsIff ending (ok ∧ Reached run') (.template head exprs) run'
      (access ending run.tokens) :=
    (readsIff_access hoperand fun _ hending' =>
      readsIff_chain (continuesAccess_of_operand hcontinues) hending').congr (and_iff_left trivial)
  refine readsIff_assignment_of_unary ?_ hfront
  rw [unary_eq_suffixed (by rw [front_of_starts h]; rfl) (by rw [front_of_starts h]; rfl)]
  exact readsIff_suffixed haccess hcontinues

/-- A template is an operand. -/
theorem readsOperand_template {head : String} (hhead : Token.Chunk head.toList) {list : List Part}
    (hlist : ∀ part ∈ list,
      ReadsGroup part.text.toList part.expr part.ok ∧ Token.Chunk part.after.toList) :
    ReadsOperand ('\x60' :: (head.toList ++ (Token.weave (list.map fun part =>
        (part.text.toList, part.after.toList)) ++ ['\x60'])))
      (.template head (list.map fun part => (part.expr, part.after)))
      (∀ part ∈ list, part.ok) := by
  have hstarts : ∀ stop rest, ∃ parts : List (Hole × String),
      parts.map (fun part => (part.1.source, part.2)) =
        (list.map fun part => (part.text, part.after)) ∧
      (scan stop ('\x60' :: (head.toList ++ (Token.weave (list.map fun part =>
        (part.text.toList, part.after.toList)) ++ '\x60' :: rest)))).Starts (.template head parts)
        (scan stop rest) := by
    intro stop rest
    have hparts : ∀ part ∈ list.map (fun part => (part.text, part.after)),
        Skips part.1.toList ∧ Token.Chunk part.2.toList := by
      intro part hpart
      obtain ⟨p, hp, rfl⟩ := List.mem_map.1 hpart
      exact ⟨(hlist p hp).1.skips, (hlist p hp).2⟩
    obtain ⟨parts, hsource, hrun⟩ := TokenRun.starts_template hhead hparts stop rest
    rw [List.map_map] at hrun
    exact ⟨parts, hsource, hrun⟩
  have hassoc : ∀ rest, '\x60' :: (head.toList ++ (Token.weave (list.map fun part =>
      (part.text.toList, part.after.toList)) ++ ['\x60'])) ++ rest =
      '\x60' :: (head.toList ++ (Token.weave (list.map fun part =>
        (part.text.toList, part.after.toList)) ++ '\x60' :: rest)) := by
    intro rest
    simp
  refine ⟨⟨⟨'\x60', _, rfl, .inl (by decide)⟩, by simp⟩, ?_, ?_, ?_⟩
  · rw [← List.append_assoc]
    refine Token.skips_template fun rest => ?_
    have hparts : ∀ part ∈ list.map (fun part => (part.text.toList, part.after.toList)),
        Skips part.1 ∧ Token.Chunk part.2 := by
      intro part hpart
      obtain ⟨p, hp, rfl⟩ := List.mem_map.1 hpart
      exact ⟨(hlist p hp).1.skips, (hlist p hp).2⟩
    obtain ⟨t, ht, _⟩ := Token.scans_weave hhead hparts rest
    exact ⟨t, by rwa [List.append_assoc]⟩
  · intro stop rest _
    obtain ⟨parts, _, hrun⟩ := hstarts stop rest
    rw [hassoc]
    exact ⟨_, _, hrun, rfl⟩
  · intro stop rest ending ok' e' run hrest harrow hending hchain
    obtain ⟨parts, hsource, hrun⟩ := hstarts stop rest
    rw [hassoc] at hending ⊢
    have hholes := givesIff_holes (fun part hpart => (hlist part hpart).1) hsource
    refine (readsIff_access (readsIff_operand_template hrun hholes hending)
      fun _ hending => hchain hending).congr ?_
    tauto

end RowExpr.Grammar
