/-
# Why an extraction fails

What is wrong with the text of a row function, or with what it does, is found before its operators
are taken out.  An extraction, and the evaluation of parameters in it, can fail only because of a
call: its arguments are not acceptable, or the name that is called is not registered.

* `Expr.failsOnly_inCall_eval`, `Expr.failsOnly_inCall_fold`: the evaluation of a parameter;
* `RowFunction.inCall_of_extract_eq_error`: the extraction from a row function.
-/
import RowExpr.Proofs.Expr.Fold
import RowExpr.Proofs.Extract.Records

namespace RowExpr

/-- Whether the cause of an error lies in a call. -/
def Cause.inCall : Cause → Bool
  | argument _ | unknownOperator _ => true
  | malformed _ | rejected _ | reference _ | host _ => false

namespace Expr

variable {registry : Registry}

/-! ## The evaluation of parameters -/

lemma inCall_of_obstacle? {e : Expr} {cause : Cause} (h : e.obstacle? registry = some cause) :
    cause.inCall = true := by
  cases e with
  | opCall name args | fnCall name args =>
    simp only [obstacle?] at h
    split at h
    · cases h
    · cases h
      rfl
    · cases h
      rfl
  | unary op argument =>
    cases op with
    | delete =>
      cases h
      rfl
    | _ => cases h
  | literal _ | constant _ | array _ | object _ | template _ _ | member _ _ | index _ _ => cases h
  | binary _ _ _ | logical _ _ _ | conditional _ _ _ => cases h
  | _ =>
    cases h
    rfl

lemma inCall_of_raises {e : Expr} {cause : Cause} (h : e.Raises registry cause) :
    cause.inCall = true := by
  cases h with
  | obstacle h => exact inCall_of_obstacle? h
  | relation left right h => rfl
  | arity he hlookup haccepts => rfl

/-- The evaluation of an expression fails only because of a call. -/
theorem failsOnly_inCall_eval (registry : Registry) (e : Expr) :
    FailsOnly (fun cause => cause.inCall) (e.eval registry) :=
  (failsOnly_eval registry e).mono fun _ ⟨_, _, hraises⟩ => inCall_of_raises hraises

lemma failsOnly_inCall_fold (registry : Registry) (e : Expr) :
    FailsOnly (fun cause => cause.inCall) (e.fold registry) := by
  unfold fold
  split
  · rename_i cause hcause
    obtain ⟨s, -, hs⟩ := List.exists_of_findSome?_eq_some hcause
    exact failsOnly_error (inCall_of_obstacle? hs)
  · exact failsOnly_inCall_eval registry e

lemma failsOnly_inCall_foldList (registry : Registry) (es : List Expr) :
    FailsOnly (fun cause => cause.inCall) (foldList registry es) := by
  induction es with
  | nil => exact failsOnly_ok _
  | cons e rest ih =>
    exact (failsOnly_inCall_fold registry e).bind fun _ => ih.bind fun _ => failsOnly_ok _

/-! ## The extraction -/

lemma failsOnly_inCall_checkField (operator : String) (field : Expr) :
    FailsOnly (fun cause => cause.inCall) (checkField registry operator field) := by
  unfold checkField
  split
  · exact failsOnly_error rfl
  · split
    · exact failsOnly_error rfl
    · split
      · exact failsOnly_ok _
      · exact failsOnly_error rfl

lemma failsOnly_inCall_checkCount (name : String) (o : Operator) (count : Nat) :
    FailsOnly (fun cause => cause.inCall) (checkCount name o count) := by
  unfold checkCount
  split
  · exact failsOnly_error rfl
  · split
    · exact failsOnly_error rfl
    · exact failsOnly_ok _

end Expr

namespace Extract

variable {α β : Type}

/-- The extraction fails only because of a call. -/
def FailsInCall (m : Extract α) : Prop :=
  ∀ calls cause calls', Fails m calls cause calls' → cause.inCall = true

lemma failsInCall_pure (a : α) : FailsInCall (pure a) :=
  fun _ _ _ h => absurd h not_fails_pure

lemma failsInCall_push (name : String) (fields : List String) (params : List Value)
    (window : Option Window) : FailsInCall (push name fields params window) :=
  fun _ _ _ h => absurd h not_fails_push

lemma failsInCall_throw {cause : Cause} (h : cause.inCall = true) :
    FailsInCall (throw cause : Extract α) := by
  intro calls cause' calls' hfails
  rwa [(fails_throw_iff.mp hfails).1] at h

lemma failsInCall_ofExcept {result : Except Cause α}
    (h : Expr.FailsOnly (fun cause => cause.inCall) result) :
    FailsInCall (ofExcept result) :=
  fun _ cause _ hfails => h cause (fails_ofExcept_iff.mp hfails).1

lemma FailsInCall.bind {m : Extract α} {k : α → Extract β} (hm : FailsInCall m)
    (hk : ∀ a, FailsInCall (k a)) : FailsInCall (m >>= k) := by
  intro calls cause calls' hfails
  rcases fails_bind_iff.mp hfails with h | ⟨a, middle, -, h⟩
  · exact hm _ _ _ h
  · exact hk a _ _ _ h

end Extract

namespace Expr

open Extract (failsInCall_pure failsInCall_push failsInCall_throw failsInCall_ofExcept)

variable {registry : Registry} {window : Option Window}

lemma failsInCall_extractList {es : List Expr}
    (h : ∀ e ∈ es, Extract.FailsInCall (e.extract registry window)) :
    Extract.FailsInCall (extractList registry window es) := by
  induction es with
  | nil => exact failsInCall_pure _
  | cons e rest ih =>
    rw [List.forall_mem_cons] at h
    exact h.1.bind fun _ => (ih h.2).bind fun _ => failsInCall_pure _

lemma failsInCall_extractFields {es : List Expr} (operator : String) (count : Nat)
    (h : ∀ e ∈ es, Extract.FailsInCall (e.extract registry window)) :
    Extract.FailsInCall (extractFields registry window operator count es) := by
  induction count generalizing es with
  | zero => simpa [extractFields] using failsInCall_pure _
  | succ count ih =>
    cases es with
    | nil => simpa [extractFields] using failsInCall_pure _
    | cons e rest =>
      rw [List.forall_mem_cons] at h
      refine (failsInCall_ofExcept (failsOnly_inCall_checkField operator e)).bind fun _ => ?_
      exact h.1.bind fun _ => (ih h.2).bind fun _ => failsInCall_pure _

/-- The extraction from an expression fails only because of a call. -/
theorem failsInCall_extract (registry : Registry) (window : Option Window) (e : Expr) :
    Extract.FailsInCall (e.extract registry window) := by
  induction e using parts_induction with
  | node e ih =>
    rcases eq_opCall_or_ne e with ⟨name, args, rfl⟩ | hne
    · simp only [extract]
      split
      · rename_i o _
        refine (failsInCall_ofExcept (failsOnly_inCall_checkCount name o _)).bind fun _ => ?_
        refine (failsInCall_extractFields name o.fields ih).bind fun _ => ?_
        refine (failsInCall_ofExcept (failsOnly_inCall_foldList registry _)).bind fun _ => ?_
        exact (failsInCall_push _ _ _ _).bind fun _ => failsInCall_pure _
      · split
        · exact (failsInCall_extractList ih).bind fun _ => failsInCall_pure _
        · exact failsInCall_throw rfl
      · exact failsInCall_throw rfl
    · rw [extract_eq_rebuild hne]
      exact (failsInCall_extractList ih).bind fun _ => failsInCall_pure _

end Expr

/-- The extraction from a row function fails only because of a call. -/
theorem RowFunction.inCall_of_extract_eq_error {f : RowFunction} {registry : Registry}
    {window : Option Window} {calls : List OperatorCall} {cause : Cause}
    (h : (f.extract registry window calls).1 = .error cause) : cause.inCall = true := by
  rw [extract_eq_error_iff] at h
  unfold Extract.fault? at h
  rcases hrun : (f.body.extract registry window).run.run calls with ⟨cause' | body, calls'⟩
  · rw [hrun] at h
    obtain rfl : cause' = cause := by simpa using h
    -- a body fails where one of the nodes that it visits fails alone
    obtain ⟨_, culprit, _, -, -, hculprit⟩ :=
      (Body.visits_extract registry window f.body).fails hrun
    exact Expr.failsInCall_extract registry window culprit _ _ _ (hculprit.2 [])
  · rw [hrun] at h
    cases h

end RowExpr
