/-
# Runs of an extraction

An extraction carries the list of operator calls along and may fail.  This file takes its runs
apart: `Extract.Yields` says what a successful run gives and which calls it leaves, with one
inversion for each way to build a computation, and `Extract.FailsAs` says that a computation fails
in the same way (or not at all) whatever calls there were before.
-/
import RowExpr.Operator.Call
import Mathlib.Tactic.Common

namespace RowExpr.Extract

variable {α β : Type} {calls calls' : List OperatorCall}

/-! ## Successful runs -/

/-- The computation succeeds after `calls`, gives `a`, and leaves the calls `calls'`. -/
def Yields (m : Extract α) (calls : List OperatorCall) (a : α) (calls' : List OperatorCall) :
    Prop :=
  m.run.run calls = (.ok a, calls')

lemma yields_pure_iff {a b : α} :
    Yields (pure a) calls b calls' ↔ b = a ∧ calls' = calls := by
  constructor
  · intro h
    have h' : ((.ok a, calls) : Except Cause α × List OperatorCall) = (.ok b, calls') := h
    cases h'
    exact ⟨rfl, rfl⟩
  · rintro ⟨rfl, rfl⟩
    rfl

/-- A run of two computations stops where the first fails, and goes on from the calls that it
leaves otherwise. -/
lemma run_bind (m : Extract α) (k : α → Extract β) :
    (m >>= k).run.run calls =
      match m.run.run calls with
      | (.ok a, middle) => (k a).run.run middle
      | (.error cause, middle) => (.error cause, middle) := by
  rw [ExceptT.run_bind, StateT.run_bind]
  change (match m.run.run calls with | p => _) = _
  rcases m.run.run calls with ⟨_ | a, middle⟩ <;> rfl

/-- A successful run of two computations is a run of the first and then one of the second. -/
lemma yields_bind_iff {m : Extract α} {k : α → Extract β} {b : β} :
    Yields (m >>= k) calls b calls' ↔
      ∃ a middle, Yields m calls a middle ∧ Yields (k a) middle b calls' := by
  unfold Yields
  rw [run_bind]
  constructor
  · intro h
    rcases hm : m.run.run calls with ⟨cause | a, middle⟩
    · rw [hm] at h
      cases h
    · rw [hm] at h
      exact ⟨a, middle, rfl, h⟩
  · rintro ⟨a, middle, hm, hk⟩
    rw [hm]
    exact hk

lemma yields_ofExcept_iff {result : Except Cause α} {a : α} :
    Yields (ofExcept result) calls a calls' ↔ result = .ok a ∧ calls' = calls := by
  constructor
  · intro h
    have h' : (result, calls) = (.ok a, calls') := h
    cases h'
    exact ⟨rfl, rfl⟩
  · rintro ⟨rfl, rfl⟩
    rfl

lemma not_yields_throw {cause : Cause} {a : α} : ¬ Yields (throw cause) calls a calls' := by
  intro h
  have h' : ((.error cause, calls) : Except Cause α × List OperatorCall) = (.ok a, calls') := h
  cases h'

lemma yields_push_iff {name : String} {fields : List String} {params : List Value}
    {window : Option Window} {id : Nat} :
    Yields (push name fields params window) calls id calls' ↔
      id = calls.length ∧ calls' = calls ++ [⟨name, fields, params, calls.length, window⟩] := by
  constructor
  · intro h
    have h' : ((.ok calls.length, calls ++ [⟨name, fields, params, calls.length, window⟩]) :
        Except Cause Nat × List OperatorCall) = (.ok id, calls') := h
    cases h'
    exact ⟨rfl, rfl⟩
  · rintro ⟨rfl, rfl⟩
    rfl

/-! ## Failures -/

/-- The computation fails after `calls` for the given cause, and leaves the calls `calls'`. -/
def Fails (m : Extract α) (calls : List OperatorCall) (cause : Cause)
    (calls' : List OperatorCall) : Prop :=
  m.run.run calls = (.error cause, calls')

variable {cause : Cause}

lemma not_fails_pure {a : α} : ¬ Fails (pure a) calls cause calls' := by
  intro h
  have h' : ((.ok a, calls) : Except Cause α × List OperatorCall) = (.error cause, calls') := h
  cases h'

/-- Two computations fail where the first does, or where the second does after the first. -/
lemma fails_bind_iff {m : Extract α} {k : α → Extract β} :
    Fails (m >>= k) calls cause calls' ↔
      Fails m calls cause calls' ∨ ∃ a middle, Yields m calls a middle ∧
        Fails (k a) middle cause calls' := by
  unfold Fails Yields
  rw [run_bind]
  constructor
  · intro h
    rcases hm : m.run.run calls with ⟨cause' | a, middle⟩
    · rw [hm] at h
      cases h
      exact .inl rfl
    · rw [hm] at h
      exact .inr ⟨a, middle, rfl, h⟩
  · rintro (hm | ⟨a, middle, hm, hk⟩)
    · rw [hm]
    · rw [hm]
      exact hk

lemma fails_ofExcept_iff {result : Except Cause α} :
    Fails (ofExcept result) calls cause calls' ↔ result = .error cause ∧ calls' = calls := by
  constructor
  · intro h
    have h' : (result, calls) = (.error cause, calls') := h
    cases h'
    exact ⟨rfl, rfl⟩
  · rintro ⟨rfl, rfl⟩
    rfl

lemma fails_throw_iff {cause' : Cause} :
    Fails (throw cause' : Extract α) calls cause calls' ↔ cause' = cause ∧ calls' = calls := by
  constructor
  · intro h
    have h' : ((.error cause', calls) : Except Cause α × List OperatorCall) =
        (.error cause, calls') := h
    cases h'
    exact ⟨rfl, rfl⟩
  · rintro ⟨rfl, rfl⟩
    rfl

lemma not_fails_push {name : String} {fields : List String} {params : List Value}
    {window : Option Window} : ¬ Fails (push name fields params window) calls cause calls' := by
  intro h
  have h' : ((.ok calls.length, calls ++ [⟨name, fields, params, calls.length, window⟩]) :
      Except Cause Nat × List OperatorCall) = (.error cause, calls') := h
  cases h'

/-- The cause for which a computation fails after `calls`, if it does. -/
def fault? (m : Extract α) (calls : List OperatorCall) : Option Cause :=
  match (m.run.run calls).1 with
  | .error cause => some cause
  | .ok _ => none

/-- The computation fails with `fault`, or succeeds if there is none, after any calls. -/
def FailsAs (fault : Option Cause) (m : Extract α) : Prop := ∀ calls, m.fault? calls = fault

lemma failsAs_pure (a : α) : FailsAs none (pure a) := fun _ => rfl

lemma failsAs_throw (cause : Cause) : FailsAs (some cause) (throw cause : Extract α) :=
  fun _ => rfl

lemma failsAs_push (name : String) (fields : List String) (params : List Value)
    (window : Option Window) : FailsAs none (push name fields params window) := fun _ => rfl

/-- A computation that adds no calls fails independently of them. -/
lemma exists_failsAs_ofExcept (result : Except Cause α) :
    ∃ fault, FailsAs fault (ofExcept result) := by
  cases result with
  | error cause => exact ⟨some cause, fun _ => rfl⟩
  | ok a => exact ⟨none, fun _ => rfl⟩

/-- Of two computations the first to fail decides, if what the second does about failing does not
depend on what the first gives. -/
lemma FailsAs.bind {m : Extract α} {k : α → Extract β} {first second : Option Cause}
    (hm : FailsAs first m) (hk : ∀ a, FailsAs second (k a)) :
    FailsAs (first.or second) (m >>= k) := by
  intro calls
  have hcalls := hm calls
  unfold fault? at hcalls ⊢
  rw [run_bind]
  rcases h : m.run.run calls with ⟨cause | a, middle⟩
  · rw [h] at hcalls
    simp only at hcalls ⊢
    rw [← hcalls, Option.some_or]
  · rw [h] at hcalls
    simp only at hcalls ⊢
    rw [← hcalls, Option.none_or]
    exact hk a middle

/-- A computation that fails independently of the calls before it, and that succeeds once, always
succeeds. -/
lemma FailsAs.yields {m : Extract α} {fault : Option Cause} {a : α} (hm : FailsAs fault m)
    (h : Yields m calls a calls') (other : List OperatorCall) :
    ∃ b after, Yields m other b after := by
  have hnone : m.fault? other = none := by
    rw [hm other, ← hm calls]
    unfold fault?
    rw [h]
  unfold fault? at hnone
  rcases hrun : m.run.run other with ⟨cause | b, after⟩
  · rw [hrun] at hnone
    cases hnone
  · exact ⟨b, after, hrun⟩

/-- A computation that fails independently of the calls before it, and that fails once, always fails
for the same cause. -/
lemma FailsAs.fails {m : Extract α} {fault : Option Cause} (hm : FailsAs fault m)
    (h : Fails m calls cause calls') (other : List OperatorCall) :
    ∃ after, Fails m other cause after := by
  have hsome : m.fault? other = some cause := by
    rw [hm other, ← hm calls]
    unfold fault?
    rw [h]
  unfold fault? at hsome
  rcases hrun : m.run.run other with ⟨cause' | b, after⟩
  · rw [hrun] at hsome
    cases hsome
    exact ⟨after, hrun⟩
  · rw [hrun] at hsome
    cases hsome

end RowExpr.Extract
