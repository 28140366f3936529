/-
# Row functions that differ in spelling only

Two row functions with the same row parameter are equal up to spelling if their standard spellings
are equal.  For accepted functions this is the case exactly if they have one canonical form: what is
compiled from a row function does not depend on how columns and operators are spelled in it, and
functions that differ in anything else stay apart.

The standard spelling reaches into loops, where the canonical form changes nothing.  A function that
is accepted has no loops.
-/
import RowExpr.Proofs.Check.Sites
import RowExpr.Proofs.Expr.Spelling
import RowExpr.Stmt.Code
import RowExpr.Stmt.Extract
import Mathlib

namespace RowExpr

namespace Stmt

variable {names : Names}

mutual

/-- The standard spelling of a statement. -/
def respelled (names : Names) : Stmt → Stmt
  | expr value => expr (value.respelled names)
  | declare kind name init => declare kind name (init.map (·.respelled names))
  | block body => block (respelledList names body)
  | if_ test yes no =>
    if_ (test.respelled names) (respelled names yes) (respelledOption names no)
  | switch subject arms => switch (subject.respelled names) (respelledArms names arms)
  | return_ value => return_ (value.map (·.respelled names))
  | break_ => break_
  | continue_ => continue_
  | empty => empty
  | for_ init test update body =>
    for_ (respelledOption names init) (test.map (·.respelled names))
      (update.map (·.respelled names)) (respelled names body)
  | forEach kind name of iterable body =>
    forEach kind name of (iterable.respelled names) (respelled names body)
  | while_ test body => while_ (test.respelled names) (respelled names body)
  | doWhile body test => doWhile (respelled names body) (test.respelled names)

/-- The standard spelling of a statement that may be missing. -/
def respelledOption (names : Names) : Option Stmt → Option Stmt
  | some s => some (respelled names s)
  | none => none

/-- The standard spellings of statements. -/
def respelledList (names : Names) : List Stmt → List Stmt
  | [] => []
  | s :: rest => respelled names s :: respelledList names rest

/-- The arms of a switch, in standard spelling. -/
def respelledArms (names : Names) : List (Arm Stmt) → List (Arm Stmt)
  | [] => []
  | ⟨test, body⟩ :: rest =>
    ⟨test.map (·.respelled names), respelledList names body⟩ :: respelledArms names rest

end

mutual

lemma respelled_eq_mapExprs {inSwitch : Bool} (s : Stmt)
    (hloop : ∀ p ∈ s.inner inSwitch, p.2.isLoop = false) :
    s.respelled names = s.mapExprs (fun _ => 0) (fun _ e => e.respelled names) 0 := by
  match s with
  | expr _ | declare _ _ _ | return_ _ | break_ | continue_ | empty => rfl
  | block body =>
    rw [inner, List.forall_mem_cons] at hloop
    rw [respelled, mapExprs, respelledList_eq_mapExprs body hloop.2]
  | if_ test yes no =>
    rw [inner, List.forall_mem_cons, List.forall_mem_append] at hloop
    rw [respelled, mapExprs, respelled_eq_mapExprs yes hloop.2.1,
      respelledOption_eq_mapExprs no hloop.2.2, Expr.total_zero]
  | switch subject arms =>
    rw [inner, List.forall_mem_cons] at hloop
    rw [respelled, mapExprs, respelledArms_eq_mapExprs arms hloop.2]
  | for_ _ _ _ _ | forEach _ _ _ _ _ | while_ _ _ | doWhile _ _ =>
    rw [inner, List.forall_mem_cons] at hloop
    exact absurd hloop.1 (by simp [isLoop])

lemma respelledOption_eq_mapExprs {inSwitch : Bool} (s? : Option Stmt)
    (hloop : ∀ p ∈ innerOfOption inSwitch s?, p.2.isLoop = false) :
    respelledOption names s? =
      mapExprsOption (fun _ => 0) (fun _ e => e.respelled names) 0 s? := by
  match s? with
  | none => rfl
  | some s => exact congrArg some (respelled_eq_mapExprs s hloop)

lemma respelledList_eq_mapExprs {inSwitch : Bool} (body : List Stmt)
    (hloop : ∀ p ∈ innerOfList inSwitch body, p.2.isLoop = false) :
    respelledList names body =
      mapExprsList (fun _ => 0) (fun _ e => e.respelled names) 0 body := by
  match body with
  | [] => rfl
  | s :: rest =>
    rw [innerOfList, List.forall_mem_append] at hloop
    rw [respelledList, mapExprsList, respelled_eq_mapExprs s hloop.1,
      respelledList_eq_mapExprs rest hloop.2, Expr.total_zero]

lemma respelledArms_eq_mapExprs (arms : List (Arm Stmt))
    (hloop : ∀ p ∈ innerOfArms arms, p.2.isLoop = false) :
    respelledArms names arms =
      mapExprsArms (fun _ => 0) (fun _ e => e.respelled names) 0 arms := by
  match arms with
  | [] => rfl
  | ⟨test, body⟩ :: rest =>
    rw [innerOfArms, List.forall_mem_append] at hloop
    rw [respelledArms, mapExprsArms, respelledList_eq_mapExprs body hloop.1,
      respelledArms_eq_mapExprs rest hloop.2, Expr.total_zero, Expr.total_zero]

end

end Stmt

namespace Body

variable {names : Names}

/-- The standard spelling of the body of a row function. -/
def respelled (names : Names) : Body → Body
  | expr value => expr (value.respelled names)
  | block body => block (Stmt.respelledList names body)

lemma respelled_eq_mapExprs {body : Body} (h : body.LoopFree) :
    body.respelled names = body.mapExprs (fun _ => 0) (fun _ e => e.respelled names) 0 := by
  cases body with
  | expr value => rfl
  | block body => exact congrArg block (Stmt.respelledList_eq_mapExprs body h)

/-- A body without loops has the canonical form of its standard spelling. -/
lemma canonical_eq_mapExprs_respelled {body : Body} (h : body.LoopFree) :
    body.canonical names =
      (body.respelled names).mapExprs (fun _ => 0) (fun _ e => e.canonical names) 0 := by
  rw [respelled_eq_mapExprs h, mapExprs_mapExprs, canonical_eq_mapExprs]
  simp only [Expr.canonical_respelled]

/-- The standard spelling of a body without loops can be read off its canonical form. -/
lemma respelled_eq_mapExprs_canonical {body : Body} (h : body.LoopFree)
    (hwritten : ∀ e ∈ body.exprs, e.Written) :
    body.respelled names =
      (body.canonical names).mapExprs (fun _ => 0) (fun _ e => e.unreduced names) 0 := by
  rw [respelled_eq_mapExprs h, canonical_eq_mapExprs, mapExprs_mapExprs]
  exact mapExprs_offset (k := 0) (fun e he _ => ((hwritten e he).unreduced_canonical).symm) 0

end Body

namespace RowFunction

/-- The standard spelling of a row function. -/
def respelled (f : RowFunction) (space : String) : RowFunction :=
  { f with body := f.body.respelled (f.names space) }

/-- All expressions of a row function are made of written forms, as those of every parsed function
are (`written_of_parse`). -/
def Written (f : RowFunction) : Prop := ∀ e ∈ f.body.exprs, e.Written

instance (f : RowFunction) : Decidable f.Written :=
  inferInstanceAs (Decidable (∀ e ∈ f.body.exprs, e.Written))

/-- What a row function is compiled to, after those that gave `calls`: its code, and the operator
calls after it. -/
def output (f : RowFunction) (space : String) (registry : Registry) (window : Option Window)
    (calls : List OperatorCall) : Except Cause String × List OperatorCall :=
  let (result, calls) := (f.canonical space).extract registry window calls
  (result.map (·.body.code), calls)

/-- Accepted functions with the same row parameter have one canonical form if and only if they
differ in spelling only, and then they are compiled to the same code and the same operator calls. -/
theorem canonical_eq_iff_respelled_eq {f g : RowFunction} {space : String}
    (hparam : f.param = g.param) (hf : f.Written) (hg : g.Written)
    (hfcheck : f.check space = .ok ()) (hgcheck : g.check space = .ok ()) :
    (f.canonical space = g.canonical space ↔ f.respelled space = g.respelled space) ∧
    (f.respelled space = g.respelled space →
      ∀ registry window calls,
        f.output space registry window calls = g.output space registry window calls) := by
  have hfloop := (check_eq_ok hfcheck).2.loopFree
  have hgloop := (check_eq_ok hgcheck).2.loopFree
  obtain ⟨param, body⟩ := f
  obtain ⟨_, body'⟩ := g
  obtain rfl : param = _ := hparam
  have hmerged : (⟨param, body⟩ : RowFunction).respelled space = respelled ⟨param, body'⟩ space →
      (⟨param, body⟩ : RowFunction).canonical space = canonical ⟨param, body'⟩ space := by
    intro h
    have hbody : body.respelled ⟨param, space⟩ = body'.respelled ⟨param, space⟩ :=
      congrArg RowFunction.body h
    simp only [canonical]
    rw [Body.canonical_eq_mapExprs_respelled hfloop, hbody,
      ← Body.canonical_eq_mapExprs_respelled hgloop]
  refine ⟨⟨fun h => ?_, hmerged⟩, fun h registry window calls => ?_⟩
  · have hbody : body.canonical ⟨param, space⟩ = body'.canonical ⟨param, space⟩ :=
      congrArg RowFunction.body h
    simp only [respelled, names]
    rw [Body.respelled_eq_mapExprs_canonical hfloop hf, hbody,
      ← Body.respelled_eq_mapExprs_canonical hgloop hg]
  · simp only [output, hmerged h]

/-- `PI => { const k = op.mean(PI.x); return PI['y'] - k }` -/
def differenceByDots : RowFunction where
  param := some "PI"
  body := .block [
    .declare .const "k" (some (.call (.member (.identifier "op") "mean")
      [.member (.identifier "PI") "x"])),
    .return_ (some (.binary .subtract
      (.index (.identifier "PI") (.literal (.string "y" "'y'"))) (.identifier "k")))]

/-- `PI => { const k = w.op['mean'](PI["x"]); return PI.y - k }` -/
def differenceByBrackets : RowFunction where
  param := some "PI"
  body := .block [
    .declare .const "k" (some (.call
      (.index (.member (.identifier "w") "op") (.literal (.string "mean" "'mean'")))
      [.index (.identifier "PI") (.literal (.string "x" "\"x\""))])),
    .return_ (some (.binary .subtract (.member (.identifier "PI") "y") (.identifier "k")))]

/-- The row parameter may have the name of a constant. -/
theorem canonical_eq_iff_respelled_eq_difference :
    differenceByDots.Written ∧ differenceByBrackets.Written ∧
    differenceByDots.check "op" = .ok () ∧ differenceByBrackets.check "op" = .ok () ∧
    differenceByDots.respelled "op" = differenceByBrackets.respelled "op" ∧
    ∀ registry window calls, differenceByDots.output "op" registry window calls =
      differenceByBrackets.output "op" registry window calls := by
  have hf : differenceByDots.Written := by decide
  have hg : differenceByBrackets.Written := by decide
  have hfcheck : differenceByDots.check "op" = .ok () := by cbv
  have hgcheck : differenceByBrackets.check "op" = .ok () := by cbv
  have hparam : differenceByDots.param = differenceByBrackets.param := rfl
  have h := canonical_eq_iff_respelled_eq hparam hf hg hfcheck hgcheck
  have hspelling : differenceByDots.respelled "op" = differenceByBrackets.respelled "op" :=
    h.1.mp rfl
  exact ⟨hf, hg, hfcheck, hgcheck, hspelling, h.2 hspelling⟩

end RowFunction

end RowExpr
