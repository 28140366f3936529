/-
# Keys that are always numbers

A computed key is accepted only if it looks like a number, so that no text that is put together at
run time can name a property.  The look is a matter of the outermost operators: most of them turn
whatever their operands are into a number, a sum needs two numbers, and a choice needs them in both
branches.  What an operator does to its operands is decided elsewhere, value by value, and this file
compares the two.

* `Expr.produces_eval_of_isNumeric`: what looks like a number is evaluated to a number or not at
  all;
* `Expr.fold_canonical_of_isNumeric`: it still looks like one in canonical form, and is folded to
  one.
-/
import RowExpr.Proofs.Expr.Branches
import RowExpr.Proofs.Expr.Canonical

namespace RowExpr

/-- The value is a number. -/
def Value.IsNumber (v : Value) : Prop := ∃ x, v = .number x

lemma Value.isNumber_number (x : Float) : (Value.number x).IsNumber := ⟨x, rfl⟩

namespace Expr

variable {registry : Registry} {α β : Type}

/-! ## Results of computations -/

/-- The computation gives only results that have the property `p`. -/
def Produces (p : α → Prop) (m : Except Cause α) : Prop := ∀ a, m = .ok a → p a

lemma produces_ok {p : α → Prop} {a : α} (h : p a) : Produces p (.ok a) := by
  rintro _ ⟨⟩
  exact h

lemma produces_error (p : α → Prop) (cause : Cause) : Produces p (.error cause) := by
  rintro _ ⟨⟩

/-- A computation in two steps, where the first step has the results `q`. -/
lemma Produces.bind {q : α → Prop} {p : β → Prop} {m : Except Cause α} {k : α → Except Cause β}
    (hm : Produces q m) (hk : ∀ a, q a → Produces p (k a)) : Produces p (m >>= k) := by
  intro b hb
  cases hresult : m with
  | error cause =>
    rw [hresult] at hb
    cases hb
  | ok a =>
    rw [hresult] at hb
    exact hk a (hm a hresult) b hb

/-- Whatever the first step results in. -/
lemma produces_bind {p : β → Prop} {m : Except Cause α} {k : α → Except Cause β}
    (hk : ∀ a, Produces p (k a)) : Produces p (m >>= k) :=
  Produces.bind (q := fun _ => True) (fun _ _ => trivial) fun a _ => hk a

/-! ## Operators that give numbers -/

lemma isNumber_of_unary {op : UnaryOp} {argument : Expr} (h : (unary op argument).isNumeric)
    {v w : Value} (hw : Value.unary op v = some w) : w.IsNumber := by
  cases op with
  | negate | plus | bitNot =>
    cases hw
    exact Value.isNumber_number _
  | not | typeOf | void | delete => cases h

/-- All numeric operators but the sum turn their operands into numbers, whatever they are. -/
lemma isNumber_of_binary {op : BinaryOp} {left right : Expr}
    (h : (binary op left right).isNumeric) (hadd : op ≠ .add) {a b w : Value}
    (hw : Value.binary op a b = some w) : w.IsNumber := by
  cases op with
  | add => exact absurd rfl hadd
  | subtract | multiply | divide | modulo | power | bitAnd | bitOr | bitXor | shiftLeft | shiftRight
  | unsignedShiftRight =>
    cases hw
    exact Value.isNumber_number _
  | equal | notEqual | strictEqual | strictNotEqual | lessThan | greaterThan | lessEqual
  | greaterEqual | memberOf | instanceOf => cases h

/-- A sum is a number only because both of its operands are: it joins texts otherwise. -/
lemma isNumber_of_add {a b w : Value} (ha : a.IsNumber) (hb : b.IsNumber)
    (hw : Value.binary .add a b = some w) : w.IsNumber := by
  obtain ⟨x, rfl⟩ := ha
  obtain ⟨y, rfl⟩ := hb
  cases hw
  exact Value.isNumber_number (x + y)

/-! ## Numeric expressions -/

/-- An expression that looks like a number is evaluated to a number, if it is evaluated at all. -/
theorem produces_eval_of_isNumeric (registry : Registry) {e : Expr} (h : e.isNumeric) :
    Produces Value.IsNumber (e.eval registry) := by
  induction e using parts_induction with
  | node e ih =>
    cases e with
    | literal value =>
      cases value with
      | number x raw => exact produces_ok (Value.isNumber_number x)
      | string _ _ | boolean _ | null => cases h
    | update op before argument => exact produces_error _ _
    | unary op argument =>
      refine produces_bind fun v => ?_
      cases hw : Value.unary op v with
      | some w => exact produces_ok (isNumber_of_unary h hw)
      | none => exact produces_error _ _
    | binary op left right =>
      by_cases hadd : op = .add
      · subst hadd
        rw [isNumeric, Bool.and_eq_true] at h
        have hleft := ih left (by simp [children]) h.1
        have hright := ih right (by simp [children]) h.2
        exact hleft.bind fun a ha => hright.bind fun b hb => produces_ok (isNumber_of_add ha hb rfl)
      · refine produces_bind fun a => produces_bind fun b => ?_
        cases hw : Value.binary op a b with
        | some w => exact produces_ok (isNumber_of_binary h hadd hw)
        | none => exact produces_error _ _
    | conditional test yes no =>
      rw [isNumeric, Bool.and_eq_true] at h
      refine produces_bind fun v => ?_
      split
      · exact ih yes (by simp [children]) h.1
      · exact ih no (by simp [children]) h.2
    | _ => cases h

/-- A key that looks like a number also does in canonical form, and whatever stands inside of it,
it is folded to a number or not at all. -/
theorem fold_canonical_of_isNumeric (names : Names) (key : Expr) (h : key.isNumeric = true) :
    (key.canonical names).isNumeric = true ∧
      ∀ registry v, (key.canonical names).fold registry = .ok v → v.IsNumber := by
  have hcanonical : (key.canonical names).isNumeric = true := by rwa [isNumeric_canonical]
  refine ⟨hcanonical, fun registry v hv => ?_⟩
  exact produces_eval_of_isNumeric registry hcanonical v (fold_eq_ok_iff_eval.mp hv).2

/-- A choice between a number and a sum, with a missing value, an array and a text as operands. -/
def mixedKey : Expr :=
  conditional (identifier "undefined") (literal (.number 0 "0"))
    (binary .add (unary .negate (array []))
      (binary .multiply (identifier "PI") (literal (.string "x" "'x'"))))

theorem fold_canonical_of_isNumeric_mixedKey :
    mixedKey.isNumeric = true ∧ (mixedKey.canonical ⟨some "d", "op"⟩).isNumeric = true ∧
      ∃ v, (mixedKey.canonical ⟨some "d", "op"⟩).fold .standard = .ok v ∧ v.IsNumber := by
  have hkey : mixedKey.isNumeric = true := rfl
  obtain ⟨hcanonical, hvalue⟩ := fold_canonical_of_isNumeric ⟨some "d", "op"⟩ mixedKey hkey
  have hfold : ∃ v, (mixedKey.canonical ⟨some "d", "op"⟩).fold .standard = .ok v := ⟨_, rfl⟩
  obtain ⟨v, hfold⟩ := hfold
  exact ⟨hkey, hcanonical, v, hfold, hvalue .standard v hfold⟩

end Expr

end RowExpr
