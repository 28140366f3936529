/-
# The branches that an evaluation takes

Whether an expression is folded is decided in two passes, and only the first of them looks at every
part.  What it leaves to the second, a question about the parts of an object or a function with a
wrong number of arguments, is found only where the evaluation comes to it.  So a part that is passed
over may be one that is not folded by itself.

* `Expr.succeeds_eval_iff`: an evaluation succeeds if and only if every node that it comes to can be
  evaluated;
* `Expr.fold_eq_ok_iff`: what is folded, with the two passes side by side;
* `Expr.fold_within_iff`: which parts of a folded expression are folded by themselves.
-/
import RowExpr.Grammar.Function
import RowExpr.Proofs.Expr.Fold
import RowExpr.Stmt.Canonical

namespace RowExpr.Expr

variable {registry : Registry} {α β : Type}

/-! ## Computations that succeed -/

/-- The computation has a result. -/
def Succeeds (m : Except Cause α) : Prop := ∃ a, m = .ok a

lemma succeeds_ok (a : α) : Succeeds (.ok a) := ⟨a, rfl⟩

lemma not_succeeds_error (cause : Cause) : ¬ Succeeds (.error cause : Except Cause α) := by
  rintro ⟨a, h⟩
  cases h

lemma succeeds_bind_iff {m : Except Cause α} {k : α → Except Cause β} :
    Succeeds (m >>= k) ↔ ∃ a, m = .ok a ∧ Succeeds (k a) := by
  constructor
  · rintro ⟨b, h⟩
    cases hm : m with
    | error cause =>
      rw [hm] at h
      cases h
    | ok a =>
      rw [hm] at h
      exact ⟨a, rfl, b, h⟩
  · rintro ⟨a, rfl, h⟩
    exact h

/-- A computation that goes on in one way, whatever comes before, succeeds if both parts do. -/
lemma succeeds_bind_const_iff {p : Prop} {m : Except Cause α} {k : α → Except Cause β}
    (hk : ∀ a, Succeeds (k a) ↔ p) : Succeeds (m >>= k) ↔ Succeeds m ∧ p := by
  rw [succeeds_bind_iff]
  constructor
  · rintro ⟨a, hm, ha⟩
    exact ⟨⟨a, hm⟩, (hk a).mp ha⟩
  · rintro ⟨⟨a, hm⟩, hp⟩
    exact ⟨a, hm, (hk a).mpr hp⟩

/-- What is returned in the end does not matter. -/
lemma succeeds_bind_return_iff {m : Except Cause α} {f : α → β} :
    Succeeds (m >>= fun a => .ok (f a)) ↔ Succeeds m :=
  (succeeds_bind_const_iff fun a => iff_true_intro (succeeds_ok (f a))).trans (and_iff_left trivial)

/-! ## One node -/

lemma succeeds_evalList_iff {es : List Expr} :
    Succeeds (evalList registry es) ↔ ∀ e ∈ es, Succeeds (e.eval registry) := by
  induction es with
  | nil => simp [evalList, succeeds_ok]
  | cons e rest ih =>
    rw [List.forall_mem_cons]
    refine succeeds_bind_const_iff fun v => ?_
    exact succeeds_bind_return_iff.trans ih

lemma succeeds_evalKey_iff {key : Key Expr} :
    Succeeds (evalKey registry key) ↔ ∀ e ∈ key.children, Succeeds (e.eval registry) := by
  cases key with
  | computed e =>
    rw [Key.children, List.forall_mem_singleton]
    exact succeeds_bind_return_iff
  | name _ | string _ _ | number _ _ => simp [evalKey, Key.children, succeeds_ok]

lemma succeeds_evalEntries_iff {entries : List (Entry Expr)} (members : Table Value) :
    Succeeds (evalEntries registry members entries) ↔
      ∀ e ∈ entries.flatMap Entry.children, Succeeds (e.eval registry) := by
  induction entries generalizing members with
  | nil => simp [evalEntries, succeeds_ok]
  | cons entry rest ih =>
    obtain ⟨key, value, shorthand⟩ := entry
    rw [List.flatMap_cons, List.forall_mem_append, Entry.children, List.forall_mem_append,
      List.forall_mem_singleton, and_assoc, ← succeeds_evalKey_iff]
    exact succeeds_bind_const_iff fun name => succeeds_bind_const_iff fun v => ih _

lemma succeeds_evalParts_iff {parts : List (Expr × String)} :
    Succeeds (evalParts registry parts) ↔ ∀ e ∈ parts.map Prod.fst, Succeeds (e.eval registry) := by
  induction parts with
  | nil => simp [evalParts, succeeds_ok]
  | cons part rest ih =>
    rw [List.map_cons, List.forall_mem_cons]
    refine succeeds_bind_const_iff fun v => ?_
    exact succeeds_bind_return_iff.trans ih

/-- The parts of a node that an evaluation of the node comes to: all of them, but only one of the
branches of a choice, and the right operand only if the left one does not settle the value. -/
def evaluated (registry : Registry) : Expr → List Expr
  | logical op left right =>
    match left.eval registry with
    | .ok v => if v.settles op then [left] else [left, right]
    | .error _ => [left]
  | conditional test yes no =>
    match test.eval registry with
    | .ok v => [test, if v.truth then yes else no]
    | .error _ => [test]
  | e => e.children

/-- The node, without its parts, can be evaluated. -/
structure Evaluable (registry : Registry) (e : Expr) : Prop where
  constant : ¬ e.Varies registry
  noRelation : ¬ e.IsRelation
  arity : e.FitsArity registry

lemma mem_children_of_mem_evaluated {e c : Expr} (h : c ∈ e.evaluated registry) :
    c ∈ e.children := by
  cases e with
  | logical op left right =>
    simp only [evaluated] at h
    split at h
    · split_ifs at h
      · exact List.mem_append_left [right] h
      · exact h
    · exact List.mem_append_left [right] h
  | conditional test yes no =>
    simp only [evaluated] at h
    split at h
    · split_ifs at h
      · exact List.mem_append_left [no] h
      · simp only [List.mem_cons, List.not_mem_nil, or_false] at h
        rcases h with rfl | rfl <;> simp [children]
    · exact List.mem_append_left [yes, no] h
  | _ => exact h

lemma accepts_iff {f : ScalarFunction} {count : Nat} :
    f.accepts count = true ↔ f.least ≤ count ∧ ∀ most ∈ f.most, count ≤ most := by
  rw [ScalarFunction.accepts, Bool.and_eq_true, decide_eq_true_eq]
  cases f.most with
  | none => simp
  | some most => simp

/-- A call can be evaluated if it calls a function with as many arguments as it takes. -/
lemma evaluable_call_iff {e : Expr} {name : String} {args : List Expr}
    (he : e = opCall name args ∨ e = fnCall name args) :
    e.Evaluable registry ↔
      ∃ f, registry.lookup? name = some (.function f) ∧ f.accepts args.length = true := by
  have hcall : e.Evaluable registry ↔ (opCall name args).Evaluable registry := by
    rcases he with rfl | rfl
    · rfl
    · exact ⟨fun h => ⟨h.constant, id, h.arity⟩, fun h => ⟨h.constant, id, h.arity⟩⟩
  rw [hcall]
  constructor
  · intro h
    cases hlookup : registry.lookup? name with
    | none => exact absurd (.inr hlookup) h.constant
    | some callable =>
      cases callable with
      | operator o => exact absurd (.inl ⟨o, hlookup⟩) h.constant
      | function f => exact ⟨f, rfl, accepts_iff.mpr (h.arity f hlookup)⟩
  · rintro ⟨f, hlookup, haccepts⟩
    refine ⟨?_, id, ?_⟩
    · simp [Varies, hlookup]
    · intro f' hf'
      cases hlookup.symm.trans hf'
      exact accepts_iff.mp haccepts

lemma succeeds_applyFunction_iff {name : String} {count : Nat}
    {args : Except Cause (List Value)} :
    Succeeds (applyFunction registry name count args) ↔
      (∃ f, registry.lookup? name = some (.function f) ∧ f.accepts count = true) ∧
        Succeeds args := by
  unfold applyFunction
  cases hlookup : registry.lookup? name with
  | none => simp [not_succeeds_error]
  | some callable =>
    cases callable with
    | operator o => simp [not_succeeds_error]
    | function f =>
      cases haccepts : f.accepts count with
      | false => simp [haccepts, not_succeeds_error]
      | true =>
        have hmap : Succeeds (args.map f.apply) ↔ Succeeds args := by
          cases args <;> simp [Except.map, not_succeeds_error, succeeds_ok]
        simp [haccepts, hmap]

/-- A call succeeds if the function takes the arguments, and all of them can be evaluated. -/
lemma succeeds_call_iff {e : Expr} {name : String} {args : List Expr}
    (he : e = opCall name args ∨ e = fnCall name args) :
    Succeeds (applyFunction registry name args.length (evalList registry args)) ↔
      e.Evaluable registry ∧ ∀ c ∈ args, Succeeds (c.eval registry) := by
  rw [succeeds_applyFunction_iff, evaluable_call_iff he, succeeds_evalList_iff]

lemma evaluable_unary_iff {op : UnaryOp} {argument : Expr} (v : Value) :
    (unary op argument).Evaluable registry ↔ Value.unary op v ≠ none := by
  constructor
  · intro h hnone
    exact h.constant (delete_of_unary_eq_none hnone)
  · intro h
    refine ⟨?_, id, trivial⟩
    rintro rfl
    exact h rfl

lemma evaluable_binary_iff {op : BinaryOp} {left right : Expr} (a b : Value) :
    (binary op left right).Evaluable registry ↔ Value.binary op a b ≠ none := by
  constructor
  · intro h hnone
    exact h.noRelation (relation_of_binary_eq_none hnone)
  · intro h
    refine ⟨id, ?_, trivial⟩
    rintro (rfl | rfl)
    · exact h rfl
    · exact h rfl

/-- An evaluation of a node succeeds if the node can be evaluated, and so can the parts that the
evaluation comes to. -/
theorem succeeds_eval_node_iff (e : Expr) :
    Succeeds (e.eval registry) ↔
      e.Evaluable registry ∧ ∀ c ∈ e.evaluated registry, Succeeds (c.eval registry) := by
  have hplain : ∀ {p : Prop}, ¬ e.Varies registry → ¬ e.IsRelation → e.FitsArity registry →
      (Succeeds (e.eval registry) ↔ p) → (Succeeds (e.eval registry) ↔ e.Evaluable registry ∧ p) :=
    fun hvaries hrelation harity h => h.trans (and_iff_right ⟨hvaries, hrelation, harity⟩).symm
  cases e with
  | literal value => exact hplain id id trivial (by simp [eval, evaluated, children, succeeds_ok])
  | constant c => exact hplain id id trivial (by simp [eval, evaluated, children, succeeds_ok])
  | array items =>
    exact hplain id id trivial (succeeds_bind_return_iff.trans succeeds_evalList_iff)
  | object entries =>
    exact hplain id id trivial (succeeds_bind_return_iff.trans (succeeds_evalEntries_iff []))
  | template head parts =>
    exact hplain id id trivial (succeeds_bind_return_iff.trans succeeds_evalParts_iff)
  | opCall name args => exact succeeds_call_iff (.inl rfl)
  | fnCall name args => exact succeeds_call_iff (.inr rfl)
  | member owner name =>
    refine hplain id id trivial (succeeds_bind_return_iff.trans ?_)
    simp [evaluated, children]
  | index owner key =>
    refine hplain id id trivial ?_
    refine (succeeds_bind_const_iff fun v => succeeds_bind_return_iff).trans ?_
    simp [evaluated, children]
  | unary op argument =>
    refine (succeeds_bind_const_iff (p := (unary op argument).Evaluable registry) fun v => ?_).trans
      ?_
    · rw [evaluable_unary_iff v]
      cases Value.unary op v with
      | none => simp [not_succeeds_error]
      | some w => simp [succeeds_ok]
    · rw [and_comm]
      simp [evaluated, children]
  | binary op left right =>
    refine (succeeds_bind_const_iff fun a =>
      succeeds_bind_const_iff (p := (binary op left right).Evaluable registry) fun b => ?_).trans ?_
    · rw [evaluable_binary_iff a b]
      cases Value.binary op a b with
      | none => simp [not_succeeds_error]
      | some w => simp [succeeds_ok]
    · rw [← and_assoc, and_comm]
      simp [evaluated, children]
  | logical op left right =>
    refine hplain id id trivial (succeeds_bind_iff.trans ?_)
    cases hleft : left.eval registry with
    | error cause => simp [evaluated, hleft, not_succeeds_error]
    | ok v =>
      by_cases hsettles : v.settles op
      · simp [evaluated, hleft, hsettles, succeeds_ok]
      · simp [evaluated, hleft, hsettles, succeeds_ok]
  | conditional test yes no =>
    refine hplain id id trivial (succeeds_bind_iff.trans ?_)
    cases htest : test.eval registry with
    | error cause => simp [evaluated, htest, not_succeeds_error]
    | ok v =>
      by_cases htruth : v.truth
      · simp [evaluated, htest, htruth, succeeds_ok]
      · simp [evaluated, htest, htruth, succeeds_ok]
  | identifier _ | this | call _ _ | new _ _ | update _ _ _ | assign _ _ _ | column _ | opRef _ =>
    exact iff_of_false (not_succeeds_error _) fun h => h.1.constant trivial

/-! ## A whole evaluation -/

/-- The evaluation of the first expression comes to the second one. -/
inductive Reaches (registry : Registry) : Expr → Expr → Prop
  | self (e : Expr) : Reaches registry e e
  | part {e c s : Expr} (hc : c ∈ e.evaluated registry) (hs : Reaches registry c s) :
    Reaches registry e s

lemma Reaches.trans {e s t : Expr} (h : Reaches registry e s) (h' : Reaches registry s t) :
    Reaches registry e t := by
  induction h with
  | self => exact h'
  | part hc _ ih => exact .part hc (ih h')

lemma Reaches.within {e s : Expr} (h : Reaches registry e s) : Within s e := by
  induction h with
  | self => exact .self _
  | part hc _ ih => exact .part (mem_children_of_mem_evaluated hc) ih

lemma forall_within_iff {p : Expr → Prop} {e : Expr} :
    (∀ s, Within s e → p s) ↔ p e ∧ ∀ c ∈ e.children, ∀ s, Within s c → p s := by
  constructor
  · intro h
    exact ⟨h e (.self e), fun c hc s hs => h s (.part hc hs)⟩
  · rintro ⟨hself, hparts⟩ s hs
    cases hs with
    | self => exact hself
    | part hc hs => exact hparts _ hc s hs

lemma Within.trans {s t e : Expr} (h : Within t s) (h' : Within s e) : Within t e := by
  induction h' with
  | self => exact h
  | part hc _ ih => exact .part hc ih

/-- An evaluation succeeds if and only if every node that it comes to can be evaluated. -/
theorem succeeds_eval_iff (e : Expr) :
    Succeeds (e.eval registry) ↔ ∀ s, Reaches registry e s → s.Evaluable registry := by
  induction e using parts_induction with
  | node e ih =>
    rw [succeeds_eval_node_iff]
    constructor
    · rintro ⟨hself, hparts⟩ s hs
      cases hs with
      | self => exact hself
      | part hc hs => exact (ih _ (mem_children_of_mem_evaluated hc)).mp (hparts _ hc) s hs
    · intro h
      refine ⟨h e (.self e), fun c hc => ?_⟩
      exact (ih c (mem_children_of_mem_evaluated hc)).mpr fun s hs => h s (.part hc hs)

/-- An expression without variable parts has the value that its evaluation gives. -/
lemma fold_of_forall_not_varies {e : Expr} (h : ∀ s, Within s e → ¬ s.Varies registry) :
    e.fold registry = e.eval registry := by
  have hnone : e.subterms.findSome? (obstacle? registry) = none := by
    rw [List.findSome?_eq_none_iff]
    intro s hs
    by_contra hsome
    obtain ⟨cause, hcause⟩ := Option.ne_none_iff_exists'.mp hsome
    exact h s (within_iff_mem_subterms.mpr hs) (varies_iff.mpr ⟨cause, hcause⟩)
  rw [fold, hnone]

lemma not_varies_of_fold {e : Expr} {v : Value} (h : e.fold registry = .ok v) :
    ∀ s, Within s e → ¬ s.Varies registry := by
  intro s hs hvaries
  obtain ⟨cause, hcause⟩ := varies_iff.mp hvaries
  rw [obstacle?_of_fold h s (within_iff_mem_subterms.mp hs)] at hcause
  cases hcause

/-- What is folded is evaluated, and has no variable part. -/
lemma fold_eq_ok_iff_eval {e : Expr} {v : Value} :
    e.fold registry = .ok v ↔
      (∀ s, Within s e → ¬ s.Varies registry) ∧ e.eval registry = .ok v := by
  constructor
  · intro h
    have hvaries := not_varies_of_fold h
    exact ⟨hvaries, fold_of_forall_not_varies hvaries ▸ h⟩
  · rintro ⟨hvaries, h⟩
    exact (fold_of_forall_not_varies hvaries).trans h

/-- What is folded has no variable part, and no question about an object and no call with a wrong
number of arguments where the evaluation comes to it. -/
theorem fold_eq_ok_iff (e : Expr) :
    (∃ v, e.fold registry = .ok v) ↔
      (∀ s, Within s e → ¬ s.Varies registry) ∧
        ∀ s, Reaches registry e s → ¬ s.IsRelation ∧ s.FitsArity registry := by
  constructor
  · rintro ⟨v, h⟩
    obtain ⟨hvaries, h⟩ := fold_eq_ok_iff_eval.mp h
    refine ⟨hvaries, fun s hs => ?_⟩
    obtain ⟨_, hrelation, harity⟩ := (succeeds_eval_iff e).mp ⟨v, h⟩ s hs
    exact ⟨hrelation, harity⟩
  · rintro ⟨hvaries, hreached⟩
    rw [fold_of_forall_not_varies hvaries]
    refine (succeeds_eval_iff e).mpr fun s hs => ?_
    obtain ⟨hrelation, harity⟩ := hreached s hs
    exact ⟨hvaries s hs.within, hrelation, harity⟩

/-- All parts of a folded expression that its evaluation comes to are folded by themselves.  A part
that it passes over is folded if and only if its own evaluation comes to no question about an object
and to no call with a wrong number of arguments. -/
theorem fold_within_iff {e : Expr} {v : Value} (h : e.fold registry = .ok v) :
    (∀ s, Reaches registry e s → ∃ w, s.fold registry = .ok w) ∧
      ∀ s, Within s e →
        ((∃ w, s.fold registry = .ok w) ↔
          ∀ t, Reaches registry s t → ¬ t.IsRelation ∧ t.FitsArity registry) := by
  obtain ⟨hvaries, hreached⟩ := (fold_eq_ok_iff e).mp ⟨v, h⟩
  have hpart : ∀ s, Within s e → ((∃ w, s.fold registry = .ok w) ↔
      ∀ t, Reaches registry s t → ¬ t.IsRelation ∧ t.FitsArity registry) := by
    intro s hs
    rw [fold_eq_ok_iff]
    exact and_iff_right fun t ht => hvaries t (ht.trans hs)
  refine ⟨fun s hs => ?_, hpart⟩
  exact (hpart s hs.within).mpr fun t ht => hreached t (hs.trans ht)

/-- A value that is known from its left operand, with a question about an object on the right. -/
def guardedRelation : Expr :=
  logical .or (literal (.boolean true)) (binary .memberOf (literal .null) (literal .null))

theorem fold_within_iff_guardedRelation :
    guardedRelation.fold .standard = .ok (.boolean true) ∧
      (∃ w, (literal (.boolean true)).fold .standard = .ok w) ∧
      ¬ ∃ w, (binary .memberOf (literal .null) (literal .null)).fold .standard = .ok w := by
  have hfold : guardedRelation.fold .standard = .ok (.boolean true) := rfl
  obtain ⟨hreached, hpart⟩ := fold_within_iff hfold
  refine ⟨hfold, hreached _ (.part (List.mem_singleton_self _) (.self _)), fun hrelation => ?_⟩
  have hwithin : Within (binary .memberOf (literal .null) (literal .null)) guardedRelation :=
    .part (List.mem_cons_of_mem _ (List.mem_singleton_self _)) (.self _)
  exact ((hpart _ hwithin).mp hrelation _ (.self _)).1 (.inl rfl)

/-- A part of a folded parameter that is not folded by itself. -/
theorem not_hereditary_guardedRelation :
    RowFunction.parse "d=>true||null in null" = .ok ⟨some "d", .expr guardedRelation⟩ ∧
      (RowFunction.canonical ⟨some "d", .expr guardedRelation⟩ "op").body = .expr guardedRelation ∧
      guardedRelation.fold .standard = .ok (.boolean true) ∧
      ∃ s, Within s guardedRelation ∧
        s.fold .standard = .error (.notConstant (.relation .memberOf)) := by
  have hparse : RowFunction.parse "d=>true||null in null" =
      .ok ⟨some "d", .expr guardedRelation⟩ := by
    unfold RowFunction.parse
    conv in TokenRun.ofText _ _ => cbv
    cbv
  refine ⟨hparse, rfl, rfl, binary .memberOf (literal .null) (literal .null), ?_, rfl⟩
  exact .part (List.mem_cons_of_mem _ (List.mem_singleton_self _)) (.self _)

end RowExpr.Expr
