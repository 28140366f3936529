/-
# Extraction after other calls

What an extraction does depends on the calls before it only through their number: whether it fails
and for what cause does not depend on them at all, the new records differ in their numbers only, and
the references move by the number of calls.  So the operators of a function can be taken out alone,
and moved behind those of others afterwards.

* `Expr.exists_failsAs_extract`, `Body.exists_failsAs_extract`: the cause of a failure is the same
  after any calls;
* `Expr.shiftRefs_numbered`: to move the references is to number from elsewhere;
* `RowFunction.extract_shift`: an extraction after some calls is the extraction alone, moved.
-/
import RowExpr.Proofs.Extract.Function

namespace RowExpr

open Extract

variable {registry : Registry} {window : Option Window}

/-! ## Failures -/

namespace Expr

lemma exists_failsAs_extractList {es : List Expr}
    (h : ∀ e ∈ es, ∃ fault, FailsAs fault (e.extract registry window)) :
    ∃ fault, FailsAs fault (extractList registry window es) := by
  induction es with
  | nil => exact ⟨none, failsAs_pure _⟩
  | cons e rest ih =>
    rw [List.forall_mem_cons] at h
    obtain ⟨fault, he⟩ := h.1
    obtain ⟨fault', hrest⟩ := ih h.2
    exact ⟨_, he.bind fun _ => hrest.bind fun _ => failsAs_pure _⟩

lemma exists_failsAs_extractFields {es : List Expr} (operator : String) (count : Nat)
    (h : ∀ e ∈ es, ∃ fault, FailsAs fault (e.extract registry window)) :
    ∃ fault, FailsAs fault (extractFields registry window operator count es) := by
  induction count generalizing es with
  | zero => exact ⟨none, by simpa [extractFields] using failsAs_pure _⟩
  | succ count ih =>
    cases es with
    | nil => exact ⟨none, by simpa [extractFields] using failsAs_pure _⟩
    | cons e rest =>
      rw [List.forall_mem_cons] at h
      obtain ⟨_, hcheck⟩ := exists_failsAs_ofExcept (checkField registry operator e)
      obtain ⟨_, he⟩ := h.1
      obtain ⟨_, hrest⟩ := ih h.2
      exact ⟨_, hcheck.bind fun _ => he.bind fun _ => hrest.bind fun _ => failsAs_pure _⟩

/-- Whether extraction from an expression fails, and for what cause, does not depend on the calls
before it. -/
theorem exists_failsAs_extract (registry : Registry) (window : Option Window) (e : Expr) :
    ∃ fault, FailsAs fault (e.extract registry window) := by
  induction e using parts_induction with
  | node e ih =>
    rcases eq_opCall_or_ne e with ⟨name, args, rfl⟩ | hne
    · simp only [extract]
      split
      · rename_i o _
        obtain ⟨_, hcount⟩ := exists_failsAs_ofExcept (checkCount name o args.length)
        obtain ⟨_, hfields⟩ := exists_failsAs_extractFields name o.fields ih
        obtain ⟨_, hparams⟩ := exists_failsAs_ofExcept (foldList registry (args.drop o.fields))
        exact ⟨_, hcount.bind fun _ => hfields.bind fun _ => hparams.bind fun _ =>
          (failsAs_push _ _ _ _).bind fun _ => failsAs_pure _⟩
      · split
        · obtain ⟨_, hargs⟩ := exists_failsAs_extractList ih
          exact ⟨_, hargs.bind fun _ => failsAs_pure _⟩
        · exact ⟨_, failsAs_throw _⟩
      · exact ⟨_, failsAs_throw _⟩
    · obtain ⟨_, hparts⟩ := exists_failsAs_extractList ih
      rw [extract_eq_rebuild hne]
      exact ⟨_, hparts.bind fun _ => failsAs_pure _⟩

end Expr

namespace Stmt

lemma exists_failsAs_extractExpr? (e? : Option Expr) :
    ∃ fault, FailsAs fault (extractExpr? registry window e?) := by
  cases e? with
  | none => exact ⟨none, failsAs_pure _⟩
  | some e =>
    obtain ⟨_, he⟩ := Expr.exists_failsAs_extract registry window e
    exact ⟨_, he.bind fun _ => failsAs_pure _⟩

mutual

lemma exists_failsAs_extract (s : Stmt) : ∃ fault, FailsAs fault (s.extract registry window) := by
  match s with
  | expr value =>
    obtain ⟨_, hvalue⟩ := Expr.exists_failsAs_extract registry window value
    exact ⟨_, hvalue.bind fun _ => failsAs_pure _⟩
  | declare _ _ e? | return_ e? =>
    obtain ⟨_, he⟩ := exists_failsAs_extractExpr? e?
    exact ⟨_, he.bind fun _ => failsAs_pure _⟩
  | block body =>
    obtain ⟨_, hbody⟩ := exists_failsAs_extractStmts body
    exact ⟨_, hbody.bind fun _ => failsAs_pure _⟩
  | if_ test yes no =>
    obtain ⟨_, htest⟩ := Expr.exists_failsAs_extract registry window test
    obtain ⟨_, hyes⟩ := exists_failsAs_extract yes
    obtain ⟨_, hno⟩ := exists_failsAs_extractOption no
    exact ⟨_, htest.bind fun _ => hyes.bind fun _ => hno.bind fun _ => failsAs_pure _⟩
  | switch subject arms =>
    obtain ⟨_, hsubject⟩ := Expr.exists_failsAs_extract registry window subject
    obtain ⟨_, harms⟩ := exists_failsAs_extractArms arms
    exact ⟨_, hsubject.bind fun _ => harms.bind fun _ => failsAs_pure _⟩
  | break_ | continue_ | empty => exact ⟨none, failsAs_pure _⟩
  | for_ _ _ _ _ | forEach _ _ _ _ _ | while_ _ _ | doWhile _ _ => exact ⟨none, failsAs_pure _⟩

lemma exists_failsAs_extractOption (s? : Option Stmt) :
    ∃ fault, FailsAs fault (extractOption registry window s?) := by
  match s? with
  | none => exact ⟨none, failsAs_pure _⟩
  | some s =>
    obtain ⟨_, hs⟩ := exists_failsAs_extract s
    exact ⟨_, hs.bind fun _ => failsAs_pure _⟩

lemma exists_failsAs_extractStmts (body : List Stmt) :
    ∃ fault, FailsAs fault (extractList registry window body) := by
  match body with
  | [] => exact ⟨none, failsAs_pure _⟩
  | s :: rest =>
    obtain ⟨_, hs⟩ := exists_failsAs_extract s
    obtain ⟨_, hrest⟩ := exists_failsAs_extractStmts rest
    exact ⟨_, hs.bind fun _ => hrest.bind fun _ => failsAs_pure _⟩

lemma exists_failsAs_extractArms (arms : List (Arm Stmt)) :
    ∃ fault, FailsAs fault (extractArms registry window arms) := by
  match arms with
  | [] => exact ⟨none, failsAs_pure _⟩
  | ⟨test, body⟩ :: rest =>
    obtain ⟨_, htest⟩ := exists_failsAs_extractExpr? test
    obtain ⟨_, hbody⟩ := exists_failsAs_extractStmts body
    obtain ⟨_, hrest⟩ := exists_failsAs_extractArms rest
    exact ⟨_, htest.bind fun _ => hbody.bind fun _ => hrest.bind fun _ => failsAs_pure _⟩

end

end Stmt

/-- Whether extraction from a body fails, and for what cause, does not depend on the calls before
it. -/
theorem Body.exists_failsAs_extract (registry : Registry) (window : Option Window) (body : Body) :
    ∃ fault, FailsAs fault (body.extract registry window) := by
  cases body with
  | expr value =>
    obtain ⟨_, hvalue⟩ := Expr.exists_failsAs_extract registry window value
    exact ⟨_, hvalue.bind fun _ => failsAs_pure _⟩
  | block body =>
    obtain ⟨_, hbody⟩ := Stmt.exists_failsAs_extractStmts body
    exact ⟨_, hbody.bind fun _ => failsAs_pure _⟩

/-! ## Moved references -/

namespace Expr

/-- The expression with its references to operator results moved by `k`. -/
def shiftRefs (k : Nat) (e : Expr) : Expr :=
  match e with
  | opRef id => opRef (id + k)
  | e => e.rebuild (e.children.attach.map fun c => shiftRefs k c.1)
termination_by sizeOf e
decreasing_by exact sizeOf_lt_of_mem_children c.2

@[simp] lemma shiftRefs_opRef (k id : Nat) : (opRef id).shiftRefs k = opRef (id + k) := by
  rw [shiftRefs]

/-- Apart from references, a node is rebuilt from its moved parts. -/
theorem shiftRefs_eq_rebuild (k : Nat) {e : Expr} (h : e.ref? = none) :
    e.shiftRefs k = e.rebuild (e.children.map (shiftRefs k)) := by
  rw [shiftRefs, List.attach_map_val]
  rintro id rfl
  cases h

lemma ref?_rebuild {e : Expr} (h : e.ref? = none) (parts : List Expr) :
    (e.rebuild parts).ref? = none := by
  cases e with
  | opRef id => cases h
  | literal _ | identifier _ | this | column _ | constant _ => rfl
  | array _ | object _ | template _ _ | opCall _ _ | fnCall _ _ => rfl
  | call _ _ | new _ _ => obtain _ | ⟨callee, args⟩ := parts <;> rfl
  | _ =>
    simp only [rebuild]
    split <;> rfl

/-- A node that is rebuilt has its parts moved. -/
lemma shiftRefs_rebuild (k : Nat) {e : Expr} {parts : List Expr} (h : e.ref? = none)
    (hparts : parts.length = e.children.length) :
    (e.rebuild parts).shiftRefs k = e.rebuild (parts.map (shiftRefs k)) := by
  rw [shiftRefs_eq_rebuild k (ref?_rebuild h parts), children_rebuild hparts,
    rebuild_rebuild hparts (by simpa using hparts)]

/-- To move by two numbers one after the other is to move by their sum. -/
lemma shiftRefs_shiftRefs (j k : Nat) (e : Expr) :
    (e.shiftRefs j).shiftRefs k = e.shiftRefs (j + k) := by
  induction e using parts_induction with
  | node e ih =>
    cases href : e.ref? with
    | some id =>
      cases e with
      | opRef id => rw [shiftRefs_opRef, shiftRefs_opRef, shiftRefs_opRef, Nat.add_assoc]
      | _ => cases href
    | none =>
      rw [shiftRefs_eq_rebuild j href, shiftRefs_rebuild k href (List.length_map _),
        shiftRefs_eq_rebuild (j + k) href, List.map_map]
      exact congrArg e.rebuild (List.map_congr_left ih)

lemma map_shiftRefs_numberedList {es : List Expr} {k : Nat}
    (h : ∀ e ∈ es, ∀ n, (e.numbered registry n).shiftRefs k = e.numbered registry (n + k))
    (n : Nat) :
    (numberedList registry n es).map (shiftRefs k) = numberedList registry (n + k) es := by
  induction es generalizing n with
  | nil => rfl
  | cons e rest ih =>
    rw [List.forall_mem_cons] at h
    rw [numberedList, numberedList, List.map_cons, h.1, ih h.2, Nat.add_right_comm]

/-- To move the references of a numbered expression is to number it from elsewhere. -/
theorem shiftRefs_numbered {e : Expr} (hrefs : e.refs = []) (k n : Nat) :
    (e.numbered registry n).shiftRefs k = e.numbered registry (n + k) := by
  induction e using parts_induction generalizing n with
  | node e ih =>
    have hparts := map_shiftRefs_numberedList
      (fun c hc => ih c hc (refs_child_eq_nil hrefs hc)) n
    rcases eq_opCall_or_ne e with ⟨name, args, rfl⟩ | hne
    · cases ho : registry.operator? name with
      | some o =>
        rw [numbered_operator n (by simp [ho]), numbered_operator (n + k) (by simp [ho]),
          shiftRefs_opRef]
      | none =>
        rw [numbered_function n ho, numbered_function (n + k) ho, shiftRefs_eq_rebuild k rfl]
        exact congrArg (fnCall name) hparts
    · -- a reference that was there before would be moved but not numbered
      have href : e.ref? = none := by
        rw [refs_eq, List.append_eq_nil_iff] at hrefs
        exact Option.toList_eq_nil_iff.mp hrefs.1
      rw [numbered_eq_rebuild n hne, numbered_eq_rebuild (n + k) hne,
        shiftRefs_rebuild k href (numberedList_length n e.children), hparts]

end Expr

/-- The row function with its references to operator results moved by `k`. -/
def RowFunction.shiftRefs (k : Nat) (f : RowFunction) : RowFunction :=
  { f with body := f.body.mapExprs (fun _ => 0) (fun _ => Expr.shiftRefs k) 0 }

namespace RowFunction

lemma shiftRefs_shiftRefs (j k : Nat) (f : RowFunction) :
    (f.shiftRefs j).shiftRefs k = f.shiftRefs (j + k) := by
  simp only [shiftRefs, Body.mapExprs_mapExprs, Expr.shiftRefs_shiftRefs]

lemma shiftRefs_numbered {f : RowFunction} (hrefs : f.refs = []) (k n : Nat) :
    (f.numbered registry n).shiftRefs k = f.numbered registry (n + k) := by
  have hexprs : ∀ e ∈ f.body.exprs, e.refs = [] := List.flatMap_eq_nil_iff.mp hrefs
  simp only [shiftRefs, numbered, Body.numbered, Body.mapExprs_mapExprs]
  rw [Body.mapExprs_offset fun e he m => Expr.shiftRefs_numbered (hexprs e he) k m]

end RowFunction

/-! ## Moved records -/

/-- The record of a call with its number moved by `k`. -/
def OperatorCall.shift (k : Nat) (r : OperatorCall) : OperatorCall := { r with id := r.id + k }

namespace Expr

/-- What an operator call leaves behind is determined up to its number. -/
lemma RecordedAs.eq_shift {e : Expr} {r r' : OperatorCall} {k : Nat}
    (h : RecordedAs registry window e r) (h' : RecordedAs registry window e r')
    (hid : r.id = r'.id + k) : r = r'.shift k := by
  obtain ⟨name, args, o, rfl, ho, -, -, hname, hfields, hparams, hwindow⟩ := h
  obtain ⟨_, _, o', ⟨rfl, rfl⟩, ho', -, -, hname', hfields', hparams', hwindow'⟩ := h'
  obtain rfl : o = o' := Option.some.inj (ho ▸ ho')
  have hfold : Relator.RightUnique fun (e : Expr) (value : Value) => e.fold registry = .ok value :=
    fun _ _ _ hvalue hvalue' => Except.ok.inj (hvalue.symm.trans hvalue')
  have hunique : r.params = r'.params := List.right_unique_forall₂' hfold hparams hparams'
  obtain ⟨name, fields, params, id, window⟩ := r
  obtain ⟨name', fields', params', id', window'⟩ := r'
  simp only at hname hname' hfields hfields' hunique hwindow hwindow' hid
  simp only [OperatorCall.shift, hname, hname', hfields, hfields', hunique, hwindow, hwindow', hid]

lemma eq_map_shift {es : List Expr} {rs rs' : List OperatorCall} {k : Nat}
    (h : List.Forall₂ (RecordedAs registry window) es rs)
    (h' : List.Forall₂ (RecordedAs registry window) es rs')
    (hids : rs.map OperatorCall.id = (rs'.map OperatorCall.id).map (· + k)) :
    rs = rs'.map (OperatorCall.shift k) := by
  induction h generalizing rs' with
  | nil =>
    cases h'
    rfl
  | cons hr _ ih =>
    cases h' with
    | cons hr' hrs' =>
      simp only [List.map_cons, List.cons.injEq] at hids
      rw [List.map_cons, hr.eq_shift hr' hids.1, ih hrs' hids.2]

/-- The records that are added after some calls are those that are added alone, moved. -/
lemma Adds.eq_append_shift {es : List Expr} {calls calls' ops : List OperatorCall}
    (h : Adds registry window es calls calls') (h' : Adds registry window es [] ops) :
    calls' = calls ++ ops.map (OperatorCall.shift calls.length) := by
  obtain ⟨rs, rfl, hrs, hids⟩ := h
  obtain ⟨rs', rfl, hrs', hids'⟩ := h'
  have hmoved : rs.map OperatorCall.id = (ops.map OperatorCall.id).map (· + calls.length) := by
    rw [hids, hids', List.length_nil]
    simp [List.range'_eq_map_range, Nat.add_comm]
  rw [eq_map_shift hrs hrs' hmoved]

end Expr

namespace RowFunction

variable {f g : RowFunction} {ops : List OperatorCall}

/-- An extraction that succeeds alone succeeds after any calls, with its references and its records
moved by their number. -/
theorem extract_shift (hloop : f.body.LoopFree) (hrefs : f.refs = [])
    (h : f.extract registry window [] = (.ok g, ops)) (calls : List OperatorCall) :
    f.extract registry window calls =
      (.ok (g.shiftRefs calls.length), calls ++ ops.map (OperatorCall.shift calls.length)) := by
  obtain ⟨rfl, htaken⟩ := numbered_of_extract hloop h
  -- it succeeds after `calls` as well, and what it gives then is known up to the first number
  obtain ⟨_, hfails⟩ := Body.exists_failsAs_extract registry window f.body
  obtain ⟨body, hbody, -⟩ := extract_eq_ok_iff.mp h
  obtain ⟨body', calls', hbody'⟩ := hfails.yields hbody calls
  have h' : f.extract registry window calls = (.ok { f with body := body' }, calls') :=
    extract_eq_ok_iff.mpr ⟨body', hbody', rfl⟩
  obtain ⟨hnumbered, htaken'⟩ := numbered_of_extract hloop h'
  rw [h', hnumbered, htaken'.adds.eq_append_shift htaken.adds, shiftRefs_numbered hrefs]
  simp

lemma extract_eq_error_iff {calls : List OperatorCall} {cause : Cause} :
    (f.extract registry window calls).1 = .error cause ↔
      (f.body.extract registry window).fault? calls = some cause := by
  unfold extract fault?
  rcases (f.body.extract registry window).run.run calls with ⟨cause' | body, after⟩
  · simp [Except.map]
  · simp [Except.map]

/-- An extraction that fails alone fails after any calls, for the same cause. -/
theorem extract_error {cause : Cause} (h : (f.extract registry window []).1 = .error cause)
    (calls : List OperatorCall) : (f.extract registry window calls).1 = .error cause := by
  obtain ⟨fault, hfails⟩ := Body.exists_failsAs_extract registry window f.body
  rw [extract_eq_error_iff] at h ⊢
  rw [hfails calls, ← hfails [], h]

end RowFunction

end RowExpr
