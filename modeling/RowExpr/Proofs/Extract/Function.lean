/-
# Taking operators out of a row function

What holds of expressions carries over to the statements around them, which stay as they are: a
successful extraction numbers the operator calls of the whole body in the order in which they are
written, and adds their records in that order.
-/
import RowExpr.Proofs.Extract.Expression
import RowExpr.Proofs.Stmt.Exprs
import RowExpr.Stmt.Extract

namespace RowExpr

open Extract
open RowExpr.Expr (Taken)

variable {registry : Registry} {window : Option Window}

lemma Expr.total_operatorCount (es : List Expr) :
    Expr.total (Expr.operatorCount registry) es =
      (es.flatMap (Expr.operatorCalls registry)).length := by
  induction es with
  | nil => rfl
  | cons e rest ih =>
    rw [total, ih, List.flatMap_cons, List.length_append]
    rfl

/-- The list of calls grows by the number of operator calls. -/
lemma Expr.Taken.length_eq {es : List Expr} {calls calls' : List OperatorCall}
    (h : Taken registry window es calls calls') :
    calls'.length = calls.length + Expr.total (Expr.operatorCount registry) es := by
  rw [h.adds.length_eq, Expr.total_operatorCount]

namespace Stmt

/-- The statement with its operator calls replaced by references, numbered from `first` on. -/
abbrev numbered (registry : Registry) (first : Nat) (s : Stmt) : Stmt :=
  s.mapExprs (Expr.operatorCount registry) (Expr.numbered registry) first

/-- An expression that may be missing is like a list of at most one expression. -/
lemma yields_extractExpr? {e? e?' : Option Expr} {calls calls' : List OperatorCall}
    (h : Yields (extractExpr? registry window e?) calls e?' calls') :
    e?' = e?.map (Expr.numbered registry calls.length) ∧
      Taken registry window e?.toList calls calls' := by
  cases e? with
  | none =>
    obtain ⟨rfl, rfl⟩ := yields_pure_iff.mp h
    exact ⟨rfl, Expr.taken_nil⟩
  | some e =>
    obtain ⟨e', _, he, h⟩ := yields_bind_iff.mp h
    obtain ⟨rfl, rfl⟩ := yields_pure_iff.mp h
    obtain ⟨rfl, htaken⟩ := Expr.takesOut registry window e _ _ _ he
    exact ⟨rfl, htaken⟩

mutual

lemma yields_extract {inSwitch : Bool} {s s' : Stmt} {calls calls' : List OperatorCall}
    (hloop : ∀ p ∈ s.inner inSwitch, p.2.isLoop = false)
    (h : Yields (s.extract registry window) calls s' calls') :
    s' = s.numbered registry calls.length ∧ Taken registry window s.exprs calls calls' := by
  match s with
  | expr value =>
    obtain ⟨value', _, hvalue, h⟩ := yields_bind_iff.mp h
    obtain ⟨rfl, rfl⟩ := yields_pure_iff.mp h
    obtain ⟨rfl, htaken⟩ := Expr.takesOut registry window value _ _ _ hvalue
    exact ⟨rfl, htaken⟩
  | declare kind name init =>
    obtain ⟨init', _, hinit, h⟩ := yields_bind_iff.mp h
    obtain ⟨rfl, rfl⟩ := yields_pure_iff.mp h
    obtain ⟨rfl, htaken⟩ := yields_extractExpr? hinit
    exact ⟨rfl, htaken⟩
  | return_ value =>
    obtain ⟨value', _, hvalue, h⟩ := yields_bind_iff.mp h
    obtain ⟨rfl, rfl⟩ := yields_pure_iff.mp h
    obtain ⟨rfl, htaken⟩ := yields_extractExpr? hvalue
    exact ⟨rfl, htaken⟩
  | block body =>
    rw [inner, List.forall_mem_cons] at hloop
    obtain ⟨body', _, hbody, h⟩ := yields_bind_iff.mp h
    obtain ⟨rfl, rfl⟩ := yields_pure_iff.mp h
    obtain ⟨rfl, htaken⟩ := yields_extractStmts hloop.2 hbody
    exact ⟨rfl, htaken⟩
  | if_ test yes no =>
    rw [inner, List.forall_mem_cons, List.forall_mem_append] at hloop
    obtain ⟨test', _, htest, h⟩ := yields_bind_iff.mp h
    obtain ⟨yes', _, hyes, h⟩ := yields_bind_iff.mp h
    obtain ⟨no', _, hno, h⟩ := yields_bind_iff.mp h
    obtain ⟨rfl, rfl⟩ := yields_pure_iff.mp h
    obtain ⟨rfl, htakenTest⟩ := Expr.takesOut registry window test _ _ _ htest
    obtain ⟨rfl, htakenYes⟩ := yields_extract hloop.2.1 hyes
    obtain ⟨rfl, htakenNo⟩ := yields_extractOption hloop.2.2 hno
    refine ⟨?_, htakenTest.append (htakenYes.append htakenNo)⟩
    rw [htakenYes.length_eq, htakenTest.length_eq]
    rfl
  | switch subject arms =>
    rw [inner, List.forall_mem_cons] at hloop
    obtain ⟨subject', _, hsubject, h⟩ := yields_bind_iff.mp h
    obtain ⟨arms', _, harms, h⟩ := yields_bind_iff.mp h
    obtain ⟨rfl, rfl⟩ := yields_pure_iff.mp h
    obtain ⟨rfl, htakenSubject⟩ := Expr.takesOut registry window subject _ _ _ hsubject
    obtain ⟨rfl, htakenArms⟩ := yields_extractArms hloop.2 harms
    refine ⟨?_, htakenSubject.append htakenArms⟩
    rw [htakenSubject.length_eq]
    rfl
  | break_ | continue_ | empty =>
    obtain ⟨rfl, rfl⟩ := yields_pure_iff.mp h
    exact ⟨rfl, Expr.taken_nil⟩
  | for_ _ _ _ _ | forEach _ _ _ _ _ | while_ _ _ | doWhile _ _ =>
    rw [inner, List.forall_mem_cons] at hloop
    exact absurd hloop.1 (by simp [isLoop])
termination_by structural s

lemma yields_extractOption {inSwitch : Bool} {s? s?' : Option Stmt}
    {calls calls' : List OperatorCall}
    (hloop : ∀ p ∈ innerOfOption inSwitch s?, p.2.isLoop = false)
    (h : Yields (extractOption registry window s?) calls s?' calls') :
    s?' = mapExprsOption (Expr.operatorCount registry) (Expr.numbered registry) calls.length s? ∧
      Taken registry window (exprsOfOption s?) calls calls' := by
  match s? with
  | none =>
    obtain ⟨rfl, rfl⟩ := yields_pure_iff.mp h
    exact ⟨rfl, Expr.taken_nil⟩
  | some s =>
    obtain ⟨s', _, hs, h⟩ := yields_bind_iff.mp h
    obtain ⟨rfl, rfl⟩ := yields_pure_iff.mp h
    obtain ⟨rfl, htaken⟩ := yields_extract hloop hs
    exact ⟨rfl, htaken⟩
termination_by structural s?

lemma yields_extractStmts {inSwitch : Bool} {body body' : List Stmt}
    {calls calls' : List OperatorCall}
    (hloop : ∀ p ∈ innerOfList inSwitch body, p.2.isLoop = false)
    (h : Yields (extractList registry window body) calls body' calls') :
    body' = mapExprsList (Expr.operatorCount registry) (Expr.numbered registry) calls.length body ∧
      Taken registry window (exprsOfList body) calls calls' := by
  match body with
  | [] =>
    obtain ⟨rfl, rfl⟩ := yields_pure_iff.mp h
    exact ⟨rfl, Expr.taken_nil⟩
  | s :: rest =>
    rw [innerOfList, List.forall_mem_append] at hloop
    obtain ⟨s', _, hs, h⟩ := yields_bind_iff.mp h
    obtain ⟨rest', _, hrest, h⟩ := yields_bind_iff.mp h
    obtain ⟨rfl, rfl⟩ := yields_pure_iff.mp h
    obtain ⟨rfl, htaken⟩ := yields_extract hloop.1 hs
    obtain ⟨rfl, htakenRest⟩ := yields_extractStmts hloop.2 hrest
    refine ⟨?_, htaken.append htakenRest⟩
    rw [htaken.length_eq]
    rfl
termination_by structural body

lemma yields_extractArms {arms arms' : List (Arm Stmt)} {calls calls' : List OperatorCall}
    (hloop : ∀ p ∈ innerOfArms arms, p.2.isLoop = false)
    (h : Yields (extractArms registry window arms) calls arms' calls') :
    arms' = mapExprsArms (Expr.operatorCount registry) (Expr.numbered registry) calls.length arms ∧
      Taken registry window (exprsOfArms arms) calls calls' := by
  match arms with
  | [] =>
    obtain ⟨rfl, rfl⟩ := yields_pure_iff.mp h
    exact ⟨rfl, Expr.taken_nil⟩
  | ⟨test, body⟩ :: rest =>
    rw [innerOfArms, List.forall_mem_append] at hloop
    obtain ⟨test', _, htest, h⟩ := yields_bind_iff.mp h
    obtain ⟨body', _, hbody, h⟩ := yields_bind_iff.mp h
    obtain ⟨rest', _, hrest, h⟩ := yields_bind_iff.mp h
    obtain ⟨rfl, rfl⟩ := yields_pure_iff.mp h
    obtain ⟨rfl, htakenTest⟩ := yields_extractExpr? htest
    obtain ⟨rfl, htakenBody⟩ := yields_extractStmts hloop.1 hbody
    obtain ⟨rfl, htakenRest⟩ := yields_extractArms hloop.2 hrest
    refine ⟨?_, (htakenTest.append htakenBody).append htakenRest⟩
    rw [htakenBody.length_eq, htakenTest.length_eq]
    rfl
termination_by structural arms

end

end Stmt

/-- The body with its operator calls replaced by references, numbered from `first` on. -/
abbrev Body.numbered (registry : Registry) (first : Nat) (body : Body) : Body :=
  body.mapExprs (Expr.operatorCount registry) (Expr.numbered registry) first

/-- A successful extraction from a loop-free body numbers its operator calls and adds their
records. -/
theorem Body.yields_extract {body body' : Body} {calls calls' : List OperatorCall}
    (hloop : body.LoopFree) (h : Yields (body.extract registry window) calls body' calls') :
    body' = body.numbered registry calls.length ∧
      Taken registry window body.exprs calls calls' := by
  cases body with
  | expr value =>
    obtain ⟨value', _, hvalue, h⟩ := yields_bind_iff.mp h
    obtain ⟨rfl, rfl⟩ := yields_pure_iff.mp h
    obtain ⟨rfl, htaken⟩ := Expr.takesOut registry window value _ _ _ hvalue
    exact ⟨rfl, htaken⟩
  | block body =>
    obtain ⟨body', _, hbody, h⟩ := yields_bind_iff.mp h
    obtain ⟨rfl, rfl⟩ := yields_pure_iff.mp h
    obtain ⟨rfl, htaken⟩ := Stmt.yields_extractStmts hloop hbody
    exact ⟨rfl, htaken⟩

lemma Expr.mapFrom_numbered (first : Nat) (es : List Expr) :
    Expr.mapFrom (Expr.operatorCount registry) (Expr.numbered registry) first es =
      Expr.numberedList registry first es := by
  induction es generalizing first with
  | nil => rfl
  | cons e rest ih => rw [mapFrom, numberedList, ih]

namespace RowFunction

/-! ## Row functions -/

/-- The operator calls in a row function, in the order in which they are written. -/
def operatorCalls (registry : Registry) (f : RowFunction) : List Expr :=
  f.body.exprs.flatMap (Expr.operatorCalls registry)

/-- The numbers of the operators that a row function refers to, in the order in which the
references are written. -/
def refs (f : RowFunction) : List Nat := f.body.exprs.flatMap Expr.refs

/-- The row function with its operator calls replaced by references, numbered from `first` on, and
with its other calls by name as calls of functions. -/
def numbered (registry : Registry) (first : Nat) (f : RowFunction) : RowFunction :=
  { f with body := f.body.numbered registry first }

variable {f g : RowFunction} {calls calls' : List OperatorCall}

lemma extract_eq_ok_iff :
    f.extract registry window calls = (.ok g, calls') ↔
      ∃ body, Yields (f.body.extract registry window) calls body calls' ∧
        g = { f with body := body } := by
  unfold extract
  constructor
  · intro h
    rcases hrun : (f.body.extract registry window).run.run calls with ⟨cause | body, after⟩
    · rw [hrun] at h
      cases h
    · rw [hrun] at h
      cases h
      exact ⟨body, hrun, rfl⟩
  · rintro ⟨body, hbody, rfl⟩
    unfold Yields at hbody
    rw [hbody]
    rfl

/-- A successful extraction from a loop-free function numbers its operator calls and adds their
records. -/
theorem numbered_of_extract (hloop : f.body.LoopFree)
    (h : f.extract registry window calls = (.ok g, calls')) :
    g = f.numbered registry calls.length ∧ Taken registry window f.body.exprs calls calls' := by
  obtain ⟨body, hbody, rfl⟩ := extract_eq_ok_iff.mp h
  obtain ⟨rfl, htaken⟩ := Body.yields_extract hloop hbody
  exact ⟨rfl, htaken⟩

/-- The references in a numbered function are the numbers from the first one on, in order. -/
theorem refs_numbered (hloop : f.body.LoopFree) (hrefs : f.refs = [])
    (hnest : ∀ e ∈ f.body.exprs, e.Unnested registry) (first : Nat) :
    (f.numbered registry first).refs = List.range' first (f.operatorCalls registry).length := by
  have hnone : ∀ e ∈ f.body.exprs, e.refs = [] := List.flatMap_eq_nil_iff.mp hrefs
  rw [refs, numbered, Body.exprs_mapExprs first hloop, Expr.mapFrom_numbered]
  exact Expr.refs_numberedList
    (fun e he n => Expr.refs_numbered (hnone e he) (hnest e he) n) first

/-- Extraction takes the operator calls out of a row function in the order in which they are
written.  No operator call stands inside another one.  The calls before are kept, and the `j`-th
operator call adds the record with the `j`-th number after them.  All other calls by name are calls
of functions.  What is left is the function with the `j`-th operator call replaced by a reference to
that number, so that the references in it are the new numbers, each once and in order. -/
theorem extract_takes_operators_in_order (f : RowFunction) (registry : Registry)
    (window : Option Window) (calls calls' : List OperatorCall) (g : RowFunction)
    (hloop : f.body.LoopFree) (hrefs : f.refs = [])
    (h : f.extract registry window calls = (.ok g, calls')) :
    (∀ c ∈ f.operatorCalls registry, c.operatorCalls registry = [c]) ∧
      (∃ records, calls' = calls ++ records ∧
        List.Forall₂ (Expr.RecordedAs registry window) (f.operatorCalls registry) records ∧
        records.map OperatorCall.id =
          List.range' calls.length (f.operatorCalls registry).length) ∧
      (∀ e ∈ f.body.exprs, e.Resolved registry) ∧
      g = f.numbered registry calls.length ∧
      g.refs = List.range' calls.length (f.operatorCalls registry).length := by
  obtain ⟨rfl, htaken⟩ := numbered_of_extract hloop h
  refine ⟨?_, htaken.adds, htaken.resolved, rfl, refs_numbered hloop hrefs htaken.unnested _⟩
  intro c hc
  obtain ⟨e, he, hc⟩ := List.mem_flatMap.mp hc
  exact (htaken.unnested e he).operatorCalls_eq hc

open RowExpr.Expr in
/-- The distance of a delayed value from the mean of a column. -/
def meanDistance : RowFunction where
  param := some "d"
  body := .block [
    .declare .const "m" (some (opCall "mean" [column "x"])),
    .return_ (some (opCall "abs" [
      binary .subtract (opCall "lag" [opCall "abs" [column "y"], literal (.boolean true)])
        (identifier "m")]))]

/-- Two operators and a function. -/
def meanAndLag : Registry where
  operators := [("mean", ⟨.aggregate, 1, 0⟩), ("lag", ⟨.window, 1, 2⟩)]
  functions := [("abs", ⟨1, some 1, fun values => values.headD .null⟩)]

/-- After one call, the two operators get the numbers 1 and 2. -/
theorem extract_takes_operators_in_order_meanDistance :
    meanDistance.body.LoopFree ∧ meanDistance.refs = [] ∧
      meanDistance.extract meanAndLag none [⟨"count", [], [], 0, none⟩] =
        (.ok (meanDistance.numbered meanAndLag 1),
          [⟨"count", [], [], 0, none⟩, ⟨"mean", ["data.x.get(row)"], [], 1, none⟩,
            ⟨"lag", ["fun.abs(data.y.get(row))"], [.boolean true], 2, none⟩]) ∧
      (meanDistance.numbered meanAndLag 1).refs = [1, 2] := by
  refine ⟨by decide, rfl, rfl, ?_⟩
  exact (extract_takes_operators_in_order meanDistance meanAndLag none
    [⟨"count", [], [], 0, none⟩] _ _ (by decide) rfl rfl).2.2.2.2

end RowFunction

end RowExpr
