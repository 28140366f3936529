/-
# Operands grouped by how tightly operators bind

Operands with infix operators between them can be grouped in many ways.  One of them is meant: an
operator that binds more tightly takes its operands first, and of operators that bind equally
tightly the one on the left does.  In a tree this is a condition on each operator and the two right
below it, and a row of operands and operators has exactly one tree with the same reading that meets
it.

The grammar finds that tree with a loop inside a recursion: `binary` with a bound takes operators
that bind more tightly than the bound, and reads what stands behind an operator by calling itself
with that operator as the bound.

* `Grouping.eq_of_reading_eq`: a row has at most one grouping;
* `binaryTail_groups`: what the loop makes of a grouping and the operators behind it;
* `binary_reads_grouping`: the grammar reads a row as its grouping, and with a bound the longest
  part of the row at its front that has no operator up to the bound.
-/
import RowExpr.Proofs.Grammar.Outcome

namespace RowExpr.Grammar

/-! ## Groupings -/

/-- Operands grouped by infix operators, each with its strength.  An operand is one piece, whatever
expression it is. -/
inductive Grouping where
  | operand (e : Expr)
  | node (strength : Nat) (op : Infix) (left right : Grouping)

namespace Grouping

/-- The expression that a grouping stands for. -/
def expr : Grouping → Expr
  | operand e => e
  | node _ op left right => op.apply left.expr right.expr

/-- The operands and operators of a grouping, from left to right. -/
def reading : Grouping → List (Expr ⊕ Nat × Infix)
  | operand e => [.inl e]
  | node strength op left right => left.reading ++ .inr (strength, op) :: right.reading

/-- The strength of the operator at the top, if there is one. -/
def top? : Grouping → Option Nat
  | operand _ => none
  | node strength _ _ _ => some strength

/-- No operator stands above one that binds less tightly, and of two operators that bind equally
tightly the upper one stands on the right of the lower one. -/
def Ordered : Grouping → Prop
  | operand _ => True
  | node strength _ left right =>
    (left.Ordered ∧ ∀ q ∈ left.top?, strength ≤ q) ∧ right.Ordered ∧ ∀ q ∈ right.top?, strength < q

variable {t t' : Grouping}

/-- A bound of the operator at the top is a bound of every operator. -/
lemma Ordered.le_of_mem (h : t.Ordered) {bound : Nat} (htop : ∀ q ∈ t.top?, bound ≤ q) :
    ∀ {q : Nat} {op : Infix}, .inr (q, op) ∈ t.reading → bound ≤ q := by
  induction t generalizing bound with
  | operand e =>
    intro q op hmem
    simp [reading] at hmem
  | node strength op left right ihleft ihright =>
    obtain ⟨⟨hleft, hlefttop⟩, hright, hrighttop⟩ := h
    have hbound : bound ≤ strength := htop strength rfl
    intro q op' hmem
    rcases List.mem_append.mp hmem with hmem | hmem
    · exact ihleft hleft (fun q' hq' => hbound.trans (hlefttop q' hq')) hmem
    · rcases List.mem_cons.mp hmem with heq | hmem
      · cases heq
        exact hbound
      · exact ihright hright (fun q' hq' => hbound.trans (hrighttop q' hq').le) hmem

/-- The operator at the top is one of the reading. -/
lemma exists_mem_reading {q : Nat} (h : q ∈ t.top?) : ∃ op, .inr (q, op) ∈ t.reading := by
  cases t with
  | operand e => cases h
  | node strength op left right =>
    cases h
    exact ⟨op, List.mem_append_right _ List.mem_cons_self⟩

/-- Of two operators at the top of groupings of one row, none stands before the other: in one
grouping the second would bind more tightly than the first, and in the other not. -/
lemma Ordered.not_before {s s' : Nat} {op op' : Infix} {l r l' r' : Grouping}
    (h : (node s op l r).Ordered) (h' : (node s' op' l' r').Ordered)
    (hmem : .inr (s, op) ∈ l'.reading) (hmem' : .inr (s', op') ∈ r.reading) : False := by
  obtain ⟨-, hright, hrighttop⟩ := h
  obtain ⟨⟨hleft', hlefttop'⟩, -⟩ := h'
  have hlt : s + 1 ≤ s' := hright.le_of_mem hrighttop hmem'
  have hle : s' ≤ s := hleft'.le_of_mem hlefttop' hmem
  omega

/-- Two items of one list are the same one, or one stands before the other. -/
lemma append_cons_cases {α : Type} {as bs as' bs' : List α} {a a' : α}
    (h : as ++ a :: bs = as' ++ a' :: bs') :
    (as = as' ∧ a = a' ∧ bs = bs') ∨ (a ∈ as' ∧ a' ∈ bs) ∨ (a' ∈ as ∧ a ∈ bs') := by
  rcases List.append_eq_append_iff.mp h with ⟨between, hl, hr⟩ | ⟨between, hl, hr⟩
  · cases between with
    | nil =>
      left
      simpa [hl] using hr
    | cons b between =>
      right; left
      obtain ⟨rfl, rfl⟩ : a = b ∧ bs = between ++ a' :: bs' := by simpa using hr
      simp [hl]
  · cases between with
    | nil =>
      left
      simpa [hl, eq_comm] using hr
    | cons b between =>
      right; right
      obtain ⟨rfl, rfl⟩ : a' = b ∧ bs' = between ++ a :: bs := by simpa using hr
      simp [hl]

lemma reading_operand_ne_node {e : Expr} {strength : Nat} {op : Infix} {left right : Grouping} :
    (operand e).reading ≠ (node strength op left right).reading := by
  intro heq
  have hmem : .inr (strength, op) ∈ (operand e).reading := by
    rw [heq]
    exact List.mem_append_right _ List.mem_cons_self
  simp [reading] at hmem

/-- Two groupings of the same row are the same. -/
theorem eq_of_reading_eq (h : t.Ordered) (h' : t'.Ordered) (hreading : t.reading = t'.reading) :
    t = t' := by
  induction t generalizing t' with
  | operand e =>
    cases t' with
    | operand e' =>
      cases hreading
      rfl
    | node strength' op' left' right' => exact absurd hreading reading_operand_ne_node
  | node strength op left right ihleft ihright =>
    cases t' with
    | operand e' => exact absurd hreading.symm reading_operand_ne_node
    | node strength' op' left' right' =>
      rcases append_cons_cases hreading with ⟨hl, heq, hr⟩ | ⟨hmem, hmem'⟩ | ⟨hmem, hmem'⟩
      · cases heq
        rw [ihleft h.1.1 h'.1.1 hl, ihright h.2.1 h'.2.1 hr]
      · exact (h.not_before h' hmem hmem').elim
      · exact (h'.not_before h hmem hmem').elim

end Grouping

/-! ## Rows of operands and operators -/

/-- An infix operator and the operand behind it, as they stand in a row of tokens. -/
structure Link where
  mark : Lexeme
  strength : Nat
  op : Infix
  /-- The tokens of the operand. -/
  tokens : List Lexeme
  /-- What the operand is read as. -/
  operand : Expr
  isInfix : infixOp? mark.token = some (strength, op)

/-- The tokens of a link. -/
def Link.lexemes (link : Link) : List Lexeme := link.mark :: link.tokens

/-- The operator and the operand of a link. -/
def Link.reading (link : Link) : List (Expr ⊕ Nat × Infix) :=
  [.inr (link.strength, link.op), .inl link.operand]

/-- The tokens of links, in front of others. -/
def row (links : List Link) (rest : List Lexeme) : List Lexeme :=
  links.flatMap Link.lexemes ++ rest

lemma row_cons (link : Link) (links : List Link) (rest : List Lexeme) :
    row (link :: links) rest = link.mark :: (link.tokens ++ row links rest) := by
  simp [row, Link.lexemes]

/-- The tokens are an operand: in front of `rest` they are read as `e`, and nothing else is. -/
def IsOperand (ending : Ending) (tokens : List Lexeme) (e : Expr) (rest : List Lexeme) : Prop :=
  ∃ fits, exponent ending (tokens ++ rest) = .ok ⟨e, rest, fits⟩

/-- Each link holds an operand, in front of the links behind it. -/
def Linked (ending : Ending) (rest : List Lexeme) : List Link → Prop
  | [] => True
  | link :: links =>
    IsOperand ending link.tokens link.operand (row links rest) ∧ Linked ending rest links

/-- The grouping is one of the operand `e` and the links behind it, as it is meant. -/
structure Groups (e : Expr) (links : List Link) (t : Grouping) : Prop where
  reading : t.reading = .inl e :: links.flatMap Link.reading
  ordered : t.Ordered

/-- The result is the only grouping of the operand `e` and the links behind it, and `rest` is
left. -/
def ReadsGrouping {n : Nat} (e : Expr) (links : List Link) (rest : List Lexeme)
    (result : Except Malformed (Step n Expr)) : Prop :=
  ∃ t, Groups e links t ∧ (∀ t', Groups e links t' → t' = t) ∧
    ∃ fits, result = .ok ⟨t.expr, rest, fits⟩

lemma strength_pos {token : Token} {strength : Nat} {op : Infix}
    (h : infixOp? token = some (strength, op)) : 0 < strength := by
  unfold infixOp? infixOfPunct? at h
  split at h
  · split at h
    all_goals cases h
    all_goals decide
  all_goals cases h
  all_goals decide

section Reading

variable {ending : Ending} {rest tokens : List Lexeme} {e : Expr}

lemma readsIff_true_iff {n : Nat} {α : Type} {a : α} {result : Except Malformed (Step n α)} :
    ReadsIff ending True a ⟨rest, ending⟩ result ↔ ∃ fits, result = .ok ⟨a, rest, fits⟩ :=
  ⟨fun h => (h.1 trivial).2, fun h => ⟨fun _ => ⟨rfl, h⟩, fun hnot => absurd trivial hnot⟩⟩

/-- Tokens in front of an operand are not the last ones. -/
lemma IsOperand.reached (h : IsOperand ending tokens e rest) :
    Reached ⟨tokens ++ rest, ending⟩ := by
  obtain ⟨fits, _⟩ := h
  refine .inl fun hnil => ?_
  obtain ⟨rfl, rfl⟩ := List.append_eq_nil_iff.mp hnil
  exact absurd fits (Nat.lt_irrefl _)

lemma readsIff_binary_of_tail {min : Nat} {e' : Expr} {rest' : List Lexeme}
    (h : IsOperand ending tokens e rest)
    (htail : ReadsIff ending True e' ⟨rest', ending⟩ (binaryTail ending min e rest)) :
    ReadsIff ending True e' ⟨rest', ending⟩ (binary ending min (tokens ++ rest)) := by
  have hfirst : ReadsIff ending True e ⟨rest, ending⟩ (exponent ending (tokens ++ rest)) :=
    readsIff_true_iff.mpr h
  unfold binary
  refine ReadsIff.congr (hfirst.bind fun _ _ _ => htail.bind fun _ _ _ => ?_)
    ⟨fun _ => trivial, fun _ => ⟨trivial, trivial, trivial⟩⟩
  exact readsIff_ok rfl rfl rfl

/-- The loop stops at an operator that does not bind more tightly than the bound. -/
lemma readsIff_binaryTail_stop {min : Nat} {link : Link} (links : List Link)
    (h : link.strength ≤ min) :
    ReadsIff ending True e ⟨row (link :: links) rest, ending⟩
      (binaryTail ending min e (row (link :: links) rest)) := by
  rw [row_cons]
  unfold binaryTail
  simp only [first?, link.isInfix]
  rw [if_pos h]
  exact readsIff_ok rfl rfl rfl

/-- One turn of the loop: what stands behind the operator is read with the operator as the bound,
and the loop goes on with the operation. -/
lemma readsIff_binaryTail_turn {min : Nat} {link : Link} {links : List Link} {right e' : Expr}
    {rest₁ rest₂ : List Lexeme} (h : ¬ link.strength ≤ min)
    (hoperand : IsOperand ending link.tokens link.operand (row links rest))
    (hright : ReadsIff ending True right ⟨rest₁, ending⟩
      (binaryTail ending link.strength link.operand (row links rest)))
    (hall : ReadsIff ending True e' ⟨rest₂, ending⟩
      (binaryTail ending min (link.op.apply e right) rest₁)) :
    ReadsIff ending True e' ⟨rest₂, ending⟩
      (binaryTail ending min e (row (link :: links) rest)) := by
  rw [row_cons]
  unfold binaryTail
  simp only [first?, link.isInfix]
  rw [if_neg h]
  have hbinary := readsIff_binary_of_tail hoperand hright
  have hending : ending = (TokenRun.mk (link.tokens ++ row links rest) ending).ending := rfl
  refine ReadsIff.congr (readsIff_reach hending fun _ =>
    hbinary.bind fun _ _ _ => hall.bind fun _ _ _ => ?_)
      ⟨fun _ => trivial, fun _ => ⟨hoperand.reached, trivial, trivial, trivial⟩⟩
  exact readsIff_ok rfl rfl rfl

end Reading

/-! ## The loop and the recursion -/

/-- Whether the operator of a link binds more tightly than the bound. -/
def Link.exceeds (min : Nat) (link : Link) : Bool := decide (min < link.strength)

/-- Taking links up to a bound in two steps, first up to a higher one. -/
lemma takeWhile_takeWhile {α : Type} {p q : α → Bool} (h : ∀ a, p a = true → q a = true)
    (as : List α) :
    as.takeWhile q = as.takeWhile p ++ (as.dropWhile p).takeWhile q ∧
      as.dropWhile q = (as.dropWhile p).dropWhile q := by
  induction as with
  | nil => simp
  | cons a as ih =>
    by_cases hp : p a = true
    · simp [hp, h a hp, ih.1, ← ih.2]
    · simp [hp]

lemma Linked.dropWhile {ending : Ending} {rest : List Lexeme} {links : List Link}
    (h : Linked ending rest links) (p : Link → Bool) : Linked ending rest (links.dropWhile p) := by
  induction links with
  | nil => exact h
  | cons link links ih =>
    rw [List.dropWhile_cons]
    split
    · exact ih h.2
    · exact h

/-- The operators of the links up to a bound bind more tightly than it. -/
lemma lt_of_mem_reading {min q : Nat} {op : Infix} {links : List Link}
    (h : .inr (q, op) ∈ (links.takeWhile (Link.exceeds min)).flatMap Link.reading) : min < q := by
  obtain ⟨link, hlink, hmem⟩ := List.mem_flatMap.mp h
  obtain ⟨rfl, rfl⟩ : q = link.strength ∧ op = link.op := by simpa [Link.reading] using hmem
  simpa [Link.exceeds] using List.mem_takeWhile_imp hlink

/-- The first operator behind the links up to a bound does not bind more tightly than it. -/
lemma le_of_mem_dropWhile {min : Nat} {links : List Link} {link : Link}
    (h : link ∈ (links.dropWhile (Link.exceeds min)).head?) : link.strength ≤ min := by
  have hnot := List.head?_dropWhile_not (Link.exceeds min) links
  rw [Option.mem_def.mp h] at hnot
  simpa [Link.exceeds] using hnot

/-- The loop extends a grouping by the operators behind it that bind more tightly than `min`.  The
first operator behind the grouping must not bind more tightly than the one at its top: then each
operator that is added goes to the top. -/
theorem binaryTail_groups {ending : Ending} {rest : List Lexeme}
    (hrest : infixOp? (front rest) = none) (links : List Link) (hlinks : Linked ending rest links)
    (min : Nat) (t : Grouping) (ht : t.Ordered)
    (hnext : ∀ link ∈ links.head?, ∀ q ∈ t.top?, link.strength ≤ q) :
    ∃ t' : Grouping, t'.Ordered ∧
      t'.reading = t.reading ++ (links.takeWhile (Link.exceeds min)).flatMap Link.reading ∧
      ReadsIff ending True t'.expr ⟨row (links.dropWhile (Link.exceeds min)) rest, ending⟩
        (binaryTail ending min t.expr (row links rest)) := by
  match links, hlinks with
  | [], _ =>
    refine ⟨t, ht, by simp, ?_⟩
    exact readsIff_binaryTail hrest rfl
  | link :: links, ⟨hoperand, hlinks⟩ =>
    by_cases hstrength : link.strength ≤ min
    · have hstop : link.exceeds min = false := by simpa [Link.exceeds] using hstrength
      refine ⟨t, ht, by simp [hstop], ?_⟩
      rw [List.dropWhile_cons_of_neg (by simp [hstop])]
      exact readsIff_binaryTail_stop links hstrength
    · -- what binds more tightly than this operator becomes its right operand
      obtain ⟨right, hright, hrightreading, hrightreads⟩ :=
        binaryTail_groups hrest links hlinks link.strength (.operand link.operand) trivial
          fun _ _ _ hq => by cases hq
      have hrighttop : ∀ q ∈ right.top?, link.strength < q := by
        intro q hq
        obtain ⟨op, hmem⟩ := Grouping.exists_mem_reading hq
        rw [hrightreading, Grouping.reading, List.singleton_append, List.mem_cons] at hmem
        exact lt_of_mem_reading (hmem.resolve_left nofun)
      have hnode : (Grouping.node link.strength link.op t right).Ordered :=
        ⟨⟨ht, hnext link rfl⟩, hright, hrighttop⟩
      -- the first operator behind that does not bind more tightly, so the loop goes on from here
      have hlength : (links.dropWhile (Link.exceeds link.strength)).length ≤ links.length :=
        (List.dropWhile_suffix _).length_le
      obtain ⟨t', ht', hreading, hreads⟩ :=
        binaryTail_groups hrest _ (hlinks.dropWhile (Link.exceeds link.strength)) min _ hnode (by
          intro next hfirst q hq
          cases hq
          exact le_of_mem_dropWhile hfirst)
      have htaken : link.exceeds min = true := by simpa [Link.exceeds] using hstrength
      have hlower : ∀ next : Link, next.exceeds link.strength = true → next.exceeds min = true := by
        intro next hexceeds
        simp only [Link.exceeds, decide_eq_true_eq] at hexceeds ⊢
        omega
      obtain ⟨htake, hdrop⟩ := takeWhile_takeWhile hlower links
      refine ⟨t', ht', ?_, ?_⟩
      · rw [hreading, List.takeWhile_cons_of_pos htaken, htake]
        simp [Grouping.reading, hrightreading, Link.reading]
      · rw [List.dropWhile_cons_of_pos htaken, hdrop]
        exact readsIff_binaryTail_turn hstrength hoperand hrightreads hreads
termination_by links.length
decreasing_by
  all_goals simp_wf
  all_goals omega

/-- With a bound, the grammar reads the longest part of a row at its front that has no operator up
to the bound, as the only grouping of that part. -/
lemma readsGrouping_binary {ending : Ending} {tokens rest : List Lexeme} {e : Expr}
    {links : List Link} (hfirst : IsOperand ending tokens e (row links rest))
    (hlinks : Linked ending rest links) (hrest : infixOp? (front rest) = none) (min : Nat) :
    ReadsGrouping e (links.takeWhile (Link.exceeds min))
      (row (links.dropWhile (Link.exceeds min)) rest)
      (binary ending min (tokens ++ row links rest)) := by
  obtain ⟨t, ht, hreading, hreads⟩ :=
    binaryTail_groups hrest links hlinks min (.operand e) trivial fun _ _ _ hq => by cases hq
  refine ⟨t, ⟨hreading, ht⟩, fun t' ht' => ?_, ?_⟩
  · exact Grouping.eq_of_reading_eq ht'.ordered ht (ht'.reading.trans hreading.symm)
  · exact readsIff_true_iff.mp (readsIff_binary_of_tail hfirst hreads)

/-- Operands with infix operators between them, in front of a token that is no infix operator, are
read as their only grouping.  With a bound, so is the longest part at the front that has no operator
up to the bound. -/
theorem binary_reads_grouping (ending : Ending) (tokens rest : List Lexeme) (e : Expr)
    (links : List Link) (hfirst : IsOperand ending tokens e (row links rest))
    (hlinks : Linked ending rest links) (hrest : infixOp? (front rest) = none) :
    ReadsGrouping e links rest (binary ending 0 (tokens ++ row links rest)) ∧
      ∀ min, ReadsGrouping e (links.takeWhile (Link.exceeds min))
        (row (links.dropWhile (Link.exceeds min)) rest)
        (binary ending min (tokens ++ row links rest)) := by
  refine ⟨?_, readsGrouping_binary hfirst hlinks hrest⟩
  -- every infix operator binds more tightly than the bound zero
  have hall : ∀ link ∈ links, Link.exceeds 0 link = true := by
    intro link _
    simpa [Link.exceeds] using strength_pos link.isInfix
  have hzero := readsGrouping_binary hfirst hlinks hrest 0
  rwa [List.takeWhile_eq_self_iff.mpr hall, List.dropWhile_eq_nil_iff.mpr hall] at hzero

/-- The links of `a-b*c<d`. -/
def comparisonLinks : List Link := [
  ⟨⟨1, .punct .minus⟩, 9, .binary .subtract, [⟨2, .identifier "b"⟩], .identifier "b", rfl⟩,
  ⟨⟨3, .punct .star⟩, 10, .binary .multiply, [⟨4, .identifier "c"⟩], .identifier "c", rfl⟩,
  ⟨⟨5, .punct .lt⟩, 7, .binary .lessThan, [⟨6, .identifier "d"⟩], .identifier "d", rfl⟩]

/-- The difference `a-b*c`. -/
def difference : Grouping :=
  .node 9 (.binary .subtract) (.operand (.identifier "a"))
    (.node 10 (.binary .multiply) (.operand (.identifier "b")) (.operand (.identifier "c")))

/-- In `a-b*c<d)` the whole is a comparison, and with the strength of `<` as the bound only the
difference is read. -/
theorem binary_reads_grouping_comparison :
    IsOperand (.eof 8) [⟨0, .identifier "a"⟩] (.identifier "a")
        (row comparisonLinks [⟨7, .punct .rparen⟩]) ∧
      Linked (.eof 8) [⟨7, .punct .rparen⟩] comparisonLinks ∧
      infixOp? (front [⟨7, .punct .rparen⟩]) = none ∧
      (∃ fits, binary (.eof 8) 0
          (⟨0, .identifier "a"⟩ :: row comparisonLinks [⟨7, .punct .rparen⟩]) =
        .ok ⟨.binary .lessThan difference.expr (.identifier "d"), [⟨7, .punct .rparen⟩], fits⟩) ∧
      ∃ fits, binary (.eof 8) 7
          (⟨0, .identifier "a"⟩ :: row comparisonLinks [⟨7, .punct .rparen⟩]) =
        .ok ⟨difference.expr,
          [⟨5, .punct .lt⟩, ⟨6, .identifier "d"⟩, ⟨7, .punct .rparen⟩], fits⟩ := by
  have hfirst : IsOperand (.eof 8) [⟨0, .identifier "a"⟩] (.identifier "a")
      (row comparisonLinks [⟨7, .punct .rparen⟩]) := ⟨by decide, by cbv⟩
  have hlinks : Linked (.eof 8) [⟨7, .punct .rparen⟩] comparisonLinks :=
    ⟨⟨by decide, by cbv⟩, ⟨by decide, by cbv⟩, ⟨by decide, by cbv⟩, trivial⟩
  have hordered : difference.Ordered := by simp [difference, Grouping.Ordered, Grouping.top?]
  obtain ⟨⟨t, -, hunique, hwhole⟩, hbound⟩ := binary_reads_grouping (.eof 8)
    [⟨0, .identifier "a"⟩] [⟨7, .punct .rparen⟩] (.identifier "a") comparisonLinks hfirst hlinks rfl
  obtain ⟨t', -, hunique', hpart⟩ := hbound 7
  refine ⟨hfirst, hlinks, rfl, ?_, ?_⟩
  · have hgroups : Groups (.identifier "a") comparisonLinks
        (.node 7 (.binary .lessThan) difference (.operand (.identifier "d"))) :=
      ⟨rfl, ⟨hordered, by simp [difference, Grouping.top?]⟩, trivial, by simp [Grouping.top?]⟩
    rw [← hunique _ hgroups] at hwhole
    exact hwhole
  · rw [← hunique' difference ⟨rfl, hordered⟩] at hpart
    exact hpart

end RowExpr.Grammar
