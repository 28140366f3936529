/-
# Which expressions are constant

A parameter of an operator is folded in two passes.  The first looks at every part of the expression
for something that is not known before the rows are read, also where the value of the expression
does not depend on it.  The second evaluates, and passes over the branches that are not taken.  Both
have to agree about what can be evaluated: after the first pass only two things are left that an
evaluation can fail at, a question about the parts of an object and a function with a wrong number
of arguments.

* `Expr.failsOnly_eval`: an evaluation fails only with a cause that some part of the expression
  gives by itself;
* `Expr.fold_accepts`: what is folded has no variable part anywhere, and an expression without
  variable parts, such questions and such calls is folded.
-/
import RowExpr.Expr.Fold
import RowExpr.Proofs.Expr.Parts
import RowExpr.Registry.Standard

namespace RowExpr.Expr

variable {registry : Registry} {α β : Type}

/-! ## Computations that may fail -/

/-- The computation fails only with causes that have the property `p`. -/
def FailsOnly (p : Cause → Prop) (m : Except Cause α) : Prop := ∀ cause, m = .error cause → p cause

section FailsOnly

variable {p q : Cause → Prop} {m : Except Cause α}

lemma failsOnly_ok (a : α) : FailsOnly p (.ok a) := by
  intro cause h
  cases h

lemma failsOnly_error {cause : Cause} (h : p cause) :
    FailsOnly p (.error cause : Except Cause α) := by
  intro cause' h'
  cases h'
  exact h

lemma FailsOnly.mono (hm : FailsOnly p m) (h : ∀ cause, p cause → q cause) : FailsOnly q m :=
  fun cause hcause => h cause (hm cause hcause)

lemma FailsOnly.bind {k : α → Except Cause β} (hm : FailsOnly p m)
    (hk : ∀ a, FailsOnly p (k a)) : FailsOnly p (m >>= k) := by
  intro cause h
  cases hresult : m with
  | error cause' =>
    rw [hresult] at h
    cases h
    exact hm cause hresult
  | ok a =>
    rw [hresult] at h
    exact hk a cause h

end FailsOnly

/-! ## Why an evaluation fails -/

/-- The expression, without its parts, makes an evaluation fail with the cause. -/
inductive Raises (registry : Registry) : Expr → Cause → Prop
  /-- It is not constant. -/
  | obstacle {e : Expr} {cause : Cause} (h : e.obstacle? registry = some cause) :
    Raises registry e cause
  /-- It asks about the parts of an object. -/
  | relation {op : BinaryOp} (left right : Expr) (h : op = .memberOf ∨ op = .instanceOf) :
    Raises registry (binary op left right) (.notConstant (.relation op))
  /-- It calls a function with a wrong number of arguments. -/
  | arity {e : Expr} {name : String} {args : List Expr} {f : ScalarFunction}
    (he : e = opCall name args ∨ e = fnCall name args)
    (hlookup : registry.lookup? name = some (.function f))
    (haccepts : f.accepts args.length = false) :
    Raises registry e (.argument (.functionArity name args.length))

section Parts

variable {p : Cause → Prop}

lemma failsOnly_evalList {es : List Expr} (h : ∀ e ∈ es, FailsOnly p (e.eval registry)) :
    FailsOnly p (evalList registry es) := by
  induction es with
  | nil => exact failsOnly_ok _
  | cons e rest ih =>
    rw [List.forall_mem_cons] at h
    exact h.1.bind fun _ => (ih h.2).bind fun _ => failsOnly_ok _

lemma failsOnly_evalKey {key : Key Expr} (h : ∀ e ∈ key.children, FailsOnly p (e.eval registry)) :
    FailsOnly p (evalKey registry key) := by
  cases key with
  | computed e => exact (h e (List.mem_singleton_self e)).bind fun _ => failsOnly_ok _
  | name _ | string _ _ | number _ _ => exact failsOnly_ok _

lemma failsOnly_evalEntries {entries : List (Entry Expr)}
    (h : ∀ e ∈ entries.flatMap Entry.children, FailsOnly p (e.eval registry))
    (members : Table Value) : FailsOnly p (evalEntries registry members entries) := by
  induction entries generalizing members with
  | nil => exact failsOnly_ok _
  | cons entry rest ih =>
    obtain ⟨key, value, shorthand⟩ := entry
    rw [List.flatMap_cons, List.forall_mem_append, Entry.children, List.forall_mem_append] at h
    have hvalue : FailsOnly p (value.eval registry) := h.1.2 value (List.mem_singleton_self value)
    exact (failsOnly_evalKey h.1.1).bind fun _ => hvalue.bind fun _ => ih h.2 _

lemma failsOnly_evalParts {parts : List (Expr × String)}
    (h : ∀ e ∈ parts.map Prod.fst, FailsOnly p (e.eval registry)) :
    FailsOnly p (evalParts registry parts) := by
  induction parts with
  | nil => exact failsOnly_ok _
  | cons part rest ih =>
    rw [List.map_cons, List.forall_mem_cons] at h
    exact h.1.bind fun _ => (ih h.2).bind fun _ => failsOnly_ok _

lemma failsOnly_applyFunction {e : Expr} {name : String} {args : List Expr}
    (he : e = opCall name args ∨ e = fnCall name args)
    (hself : ∀ cause, e.Raises registry cause → p cause)
    (hargs : FailsOnly p (evalList registry args)) :
    FailsOnly p (applyFunction registry name args.length (evalList registry args)) := by
  have hobstacle : ∀ cause, (opCall name args).obstacle? registry = some cause → p cause := by
    intro cause hcause
    rcases he with rfl | rfl <;> exact hself cause (.obstacle hcause)
  unfold applyFunction
  split
  · rename_i f hlookup
    split
    · exact hargs.bind fun values => failsOnly_ok (f.apply values)
    · rename_i haccepts
      exact failsOnly_error (hself _ (.arity he hlookup (by simpa using haccepts)))
  · rename_i o hlookup
    exact failsOnly_error (hobstacle _ (by simp [obstacle?, hlookup]))
  · rename_i hlookup
    exact failsOnly_error (hobstacle _ (by simp [obstacle?, hlookup]))

end Parts

/-- The operators that have no value for constants are the questions about the parts of an
object. -/
lemma relation_of_binary_eq_none {op : BinaryOp} {a b : Value} (h : Value.binary op a b = none) :
    op = .memberOf ∨ op = .instanceOf := by
  cases op with
  | memberOf => exact .inl rfl
  | instanceOf => exact .inr rfl
  | _ => cases h

lemma delete_of_unary_eq_none {op : UnaryOp} {v : Value} (h : Value.unary op v = none) :
    op = .delete := by
  cases op with
  | delete => rfl
  | _ => cases h

/-- Whatever an evaluation fails with, some part of the expression is the reason. -/
theorem failsOnly_eval (registry : Registry) (e : Expr) :
    FailsOnly (fun cause => ∃ s ∈ e.subterms, s.Raises registry cause) (e.eval registry) := by
  induction e using parts_induction with
  | node e ih =>
    have hself : ∀ cause, e.Raises registry cause → ∃ s ∈ e.subterms, s.Raises registry cause :=
      fun cause hcause => ⟨e, mem_subterms_self e, hcause⟩
    have ih : ∀ c ∈ e.children, FailsOnly (fun cause => ∃ s ∈ e.subterms, s.Raises registry cause)
        (c.eval registry) := by
      intro c hc
      refine (ih c hc).mono ?_
      rintro cause ⟨s, hs, hraises⟩
      exact ⟨s, mem_subterms_of_mem_children hc hs, hraises⟩
    cases e with
    | literal _ | constant _ => exact failsOnly_ok _
    | array items => exact (failsOnly_evalList ih).bind fun _ => failsOnly_ok _
    | object entries => exact (failsOnly_evalEntries ih []).bind fun _ => failsOnly_ok _
    | template head parts => exact (failsOnly_evalParts ih).bind fun _ => failsOnly_ok _
    | opCall name args => exact failsOnly_applyFunction (.inl rfl) hself (failsOnly_evalList ih)
    | fnCall name args => exact failsOnly_applyFunction (.inr rfl) hself (failsOnly_evalList ih)
    | member owner name =>
      exact (ih owner (by simp [children])).bind fun _ => failsOnly_ok _
    | index owner key =>
      refine (ih owner (by simp [children])).bind fun _ => ?_
      exact (ih key (by simp [children])).bind fun _ => failsOnly_ok _
    | unary op argument =>
      refine (ih argument (by simp [children])).bind fun value => ?_
      cases hvalue : Value.unary op value with
      | some v => exact failsOnly_ok v
      | none =>
        obtain rfl := delete_of_unary_eq_none hvalue
        exact failsOnly_error (hself _ (.obstacle rfl))
    | binary op left right =>
      refine (ih left (by simp [children])).bind fun a => ?_
      refine (ih right (by simp [children])).bind fun b => ?_
      cases hvalue : Value.binary op a b with
      | some v => exact failsOnly_ok v
      | none => exact failsOnly_error (hself _ (.relation _ _ (relation_of_binary_eq_none hvalue)))
    | logical op left right =>
      refine (ih left (by simp [children])).bind fun value => ?_
      split
      · exact failsOnly_ok value
      · exact ih right (by simp [children])
    | conditional test yes no =>
      refine (ih test (by simp [children])).bind fun value => ?_
      split
      · exact ih yes (by simp [children])
      · exact ih no (by simp [children])
    | identifier _ | this | call _ _ | new _ _ | update _ _ _ | assign _ _ _ | column _ | opRef _ =>
      exact failsOnly_error (hself _ (.obstacle rfl))

/-! ## What is folded -/

/-- The first expression stands inside the second one, at any depth. -/
inductive Within : Expr → Expr → Prop
  | self (e : Expr) : Within e e
  | part {s c e : Expr} (hc : c ∈ e.children) (hs : Within s c) : Within s e

lemma within_iff_mem_subterms {s e : Expr} : Within s e ↔ s ∈ e.subterms := by
  constructor
  · intro h
    induction h with
    | self => exact mem_subterms_self _
    | part hc _ ih => exact mem_subterms_of_mem_children hc ih
  · intro h
    induction e using parts_induction with
    | node e ih =>
      rw [subterms_eq, List.mem_cons] at h
      rcases h with rfl | h
      · exact .self _
      · obtain ⟨c, hc, hs⟩ := List.mem_flatMap.mp h
        exact .part hc (ih c hc hs)

/-- Whether the value of a node depends on a row, on a local or on an operator, or changes one of
them; or the node calls something that is not registered. -/
def Varies (registry : Registry) : Expr → Prop
  | column _ | identifier _ | opRef _ | call _ _ | new _ _ | this | assign _ _ _ | update _ _ _ =>
    True
  | unary op _ => op = .delete
  | opCall name _ | fnCall name _ =>
    (∃ o, registry.lookup? name = some (.operator o)) ∨ registry.lookup? name = none
  | literal _ | array _ | object _ | template _ _ | member _ _ | index _ _ | binary _ _ _
  | logical _ _ _ | conditional _ _ _ | constant _ => False

/-- Whether a node asks about the parts of an object. -/
def IsRelation : Expr → Prop
  | binary op _ _ => op = .memberOf ∨ op = .instanceOf
  | _ => False

/-- Whether a node that calls a function gives it as many arguments as it takes. -/
def FitsArity (registry : Registry) : Expr → Prop
  | opCall name args | fnCall name args =>
    ∀ f, registry.lookup? name = some (.function f) →
      f.least ≤ args.length ∧ ∀ most ∈ f.most, args.length ≤ most
  | _ => True

lemma varies_iff {e : Expr} : e.Varies registry ↔ ∃ cause, e.obstacle? registry = some cause := by
  cases e with
  | opCall name args | fnCall name args =>
    simp only [Varies, obstacle?]
    cases hlookup : registry.lookup? name with
    | none => simp
    | some callable => cases callable <;> simp
  | unary op argument => cases op <;> simp [Varies, obstacle?]
  | _ => simp [Varies, obstacle?]

lemma accepts_of_fitsArity {e : Expr} {name : String} {args : List Expr} {f : ScalarFunction}
    (h : e.FitsArity registry) (he : e = opCall name args ∨ e = fnCall name args)
    (hlookup : registry.lookup? name = some (.function f)) : f.accepts args.length = true := by
  have hbounds : f.least ≤ args.length ∧ ∀ most ∈ f.most, args.length ≤ most := by
    rcases he with rfl | rfl <;> exact h f hlookup
  rw [ScalarFunction.accepts, Bool.and_eq_true, decide_eq_true_eq]
  refine ⟨hbounds.1, ?_⟩
  cases hmost : f.most with
  | none => rfl
  | some most => simpa using hbounds.2 most hmost

/-- A node that is constant, asks no question about an object and calls functions as they are meant
to be called is no reason for a failure. -/
lemma not_raises {e : Expr} {cause : Cause} (hvaries : ¬ e.Varies registry)
    (hrelation : ¬ e.IsRelation) (harity : e.FitsArity registry) : ¬ e.Raises registry cause := by
  intro hraises
  cases hraises with
  | obstacle h => exact hvaries (varies_iff.mpr ⟨cause, h⟩)
  | relation left right h => exact hrelation h
  | arity he hlookup haccepts =>
    rw [accepts_of_fitsArity harity he hlookup] at haccepts
    cases haccepts

lemma obstacle?_of_fold {e : Expr} {value : Value} (h : e.fold registry = .ok value) :
    ∀ s ∈ e.subterms, s.obstacle? registry = none := by
  unfold fold at h
  split at h
  · cases h
  · rename_i hnone
    exact List.findSome?_eq_none_iff.mp hnone

/-- What is folded has no variable part, not even in a branch that is passed over.  An expression
without variable parts, without questions about objects and with as many arguments in each call as
the function takes is folded. -/
theorem fold_accepts (registry : Registry) (e : Expr) :
    (∀ v, e.fold registry = .ok v → ∀ s, Within s e → ¬ s.Varies registry) ∧
      ((∀ s, Within s e → ¬ s.Varies registry ∧ ¬ s.IsRelation ∧ s.FitsArity registry) →
        ∃ v, e.fold registry = .ok v) := by
  constructor
  · intro v hfold s hs hvaries
    obtain ⟨cause, hcause⟩ := varies_iff.mp hvaries
    rw [obstacle?_of_fold hfold s (within_iff_mem_subterms.mp hs)] at hcause
    cases hcause
  · intro h
    have hnone : e.subterms.findSome? (obstacle? registry) = none := by
      rw [List.findSome?_eq_none_iff]
      intro s hs
      by_contra hsome
      obtain ⟨cause, hcause⟩ := Option.ne_none_iff_exists'.mp hsome
      exact (h s (within_iff_mem_subterms.mpr hs)).1 (varies_iff.mpr ⟨cause, hcause⟩)
    rw [fold, hnone]
    cases heval : e.eval registry with
    | ok v => exact ⟨v, rfl⟩
    | error cause =>
      -- the evaluation would fail at one of the parts, and none of them is a reason
      obtain ⟨s, hs, hraises⟩ := failsOnly_eval registry e cause heval
      obtain ⟨hvaries, hrelation, harity⟩ := h s (within_iff_mem_subterms.mpr hs)
      exact absurd hraises (not_raises hvaries hrelation harity)

-- a column in a branch that is passed over
example : (conditional (literal (.boolean true)) (literal .null) (column "x")).fold .standard =
    .error (.notConstant (.column "x")) := rfl

/-- The magnitude of a number, with an empty array in the branch that is passed over. -/
def guardedMagnitude : Expr :=
  conditional (literal (.boolean true)) (opCall "abs" [unary .negate (literal (.number 2 "2"))])
    (array [])

theorem fold_accepts_guardedMagnitude :
    (∀ s, Within s guardedMagnitude →
        ¬ s.Varies .standard ∧ ¬ s.IsRelation ∧ s.FitsArity .standard) ∧
      ∃ v, guardedMagnitude.fold .standard = .ok v := by
  have hparts : ∀ s, Within s guardedMagnitude →
      ¬ s.Varies .standard ∧ ¬ s.IsRelation ∧ s.FitsArity .standard := by
    intro s hs
    rw [within_iff_mem_subterms] at hs
    have habs : ∃ f, Registry.lookup? .standard "abs" = some (.function f) ∧ f.least = 1 ∧
        f.most = some 1 := ⟨_, rfl, rfl, rfl⟩
    obtain ⟨f, hlookup, hleast, hmost⟩ := habs
    simp only [guardedMagnitude, subterms, subtermsOfList, List.append_nil, List.cons_append,
      List.nil_append, List.mem_cons, List.not_mem_nil, or_false] at hs
    rcases hs with rfl | rfl | rfl | rfl | rfl | rfl <;>
      simp [Varies, IsRelation, FitsArity, hlookup, hleast, hmost]
  exact ⟨hparts, (fold_accepts .standard guardedMagnitude).2 hparts⟩

end RowExpr.Expr
