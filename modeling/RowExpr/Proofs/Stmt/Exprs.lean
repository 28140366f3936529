/-
# The expressions of a statement

The operations on row functions leave the statements as they are and work on the expressions in
them, in the order in which they are written.  This file lists these expressions (`exprs`) and the
statements that a statement is made of (`inner`), and gives the statement with other expressions
(`mapExprs`).  What an expression is replaced by may depend on a number that grows along the way,
so that one definition serves for replacements that do not count and for those that number.

Loops are never accepted, and nothing is replaced inside of them.
-/
import RowExpr.Stmt.Canonical
import Mathlib.Tactic.Common

namespace RowExpr

/-- The sum of a size over expressions. -/
def Expr.total (size : Expr → Nat) : List Expr → Nat
  | [] => 0
  | e :: rest => size e + Expr.total size rest

lemma Expr.total_zero (es : List Expr) : Expr.total (fun _ => 0) es = 0 := by
  induction es with
  | nil => rfl
  | cons e rest ih => rw [total, ih]

lemma Expr.total_append (size : Expr → Nat) (es es' : List Expr) :
    Expr.total size (es ++ es') = Expr.total size es + Expr.total size es' := by
  induction es with
  | nil => rw [List.nil_append, total, Nat.zero_add]
  | cons e rest ih => rw [List.cons_append, total, total, ih, Nat.add_assoc]

/-- The expressions `e` of a list replaced by `f m e`, where `m` is `n` and the sizes of the
expressions before `e`. -/
def Expr.mapFrom (size : Expr → Nat) (f : Nat → Expr → Expr) (n : Nat) : List Expr → List Expr
  | [] => []
  | e :: rest => f n e :: Expr.mapFrom size f (n + size e) rest

lemma Expr.mapFrom_append (size : Expr → Nat) (f : Nat → Expr → Expr) (n : Nat)
    (es es' : List Expr) :
    Expr.mapFrom size f n (es ++ es') =
      Expr.mapFrom size f n es ++ Expr.mapFrom size f (n + Expr.total size es) es' := by
  induction es generalizing n with
  | nil => simp [mapFrom, total]
  | cons e rest ih => simp [mapFrom, total, ih, Nat.add_assoc]

lemma Expr.mapFrom_const (h : Expr → Expr) (es : List Expr) :
    Expr.mapFrom (fun _ => 0) (fun _ => h) 0 es = es.map h := by
  induction es with
  | nil => rfl
  | cons e rest ih => rw [mapFrom, ih, List.map_cons]

namespace Stmt

/-! ## The expressions in a statement -/

mutual

/-- The expressions in a statement, in order; expressions inside of these are not listed. -/
def exprs : Stmt → List Expr
  | expr value => [value]
  | declare _ _ init => init.toList
  | block body => exprsOfList body
  | if_ test yes no => test :: (exprs yes ++ exprsOfOption no)
  | switch subject arms => subject :: exprsOfArms arms
  | return_ value => value.toList
  | break_ | continue_ | empty => []
  | for_ init test update body =>
    exprsOfOption init ++ test.toList ++ update.toList ++ exprs body
  | forEach _ _ _ iterable body => iterable :: exprs body
  | while_ test body => test :: exprs body
  | doWhile body test => exprs body ++ [test]

/-- The expressions in a statement that may be missing. -/
def exprsOfOption : Option Stmt → List Expr
  | some s => exprs s
  | none => []

/-- The expressions in statements. -/
def exprsOfList : List Stmt → List Expr
  | [] => []
  | s :: rest => exprs s ++ exprsOfList rest

/-- The expressions in the arms of a switch. -/
def exprsOfArms : List (Arm Stmt) → List Expr
  | [] => []
  | ⟨test, body⟩ :: rest => test.toList ++ exprsOfList body ++ exprsOfArms rest

end

/-! ## The statements in a statement -/

mutual

/-- The statements in a statement, itself included, each with whether it stands inside a switch. -/
def inner (inSwitch : Bool) (s : Stmt) : List (Bool × Stmt) :=
  (inSwitch, s) :: match s with
  | block body => innerOfList inSwitch body
  | if_ _ yes no => inner inSwitch yes ++ innerOfOption inSwitch no
  | switch _ arms => innerOfArms arms
  | for_ init _ _ body => innerOfOption inSwitch init ++ inner inSwitch body
  | forEach _ _ _ _ body => inner inSwitch body
  | while_ _ body => inner inSwitch body
  | doWhile body _ => inner inSwitch body
  | expr _ | declare _ _ _ | return_ _ | break_ | continue_ | empty => []

/-- The statements in a statement that may be missing. -/
def innerOfOption (inSwitch : Bool) : Option Stmt → List (Bool × Stmt)
  | some s => inner inSwitch s
  | none => []

/-- The statements in statements. -/
def innerOfList (inSwitch : Bool) : List Stmt → List (Bool × Stmt)
  | [] => []
  | s :: rest => inner inSwitch s ++ innerOfList inSwitch rest

/-- The statements in the arms of a switch. -/
def innerOfArms : List (Arm Stmt) → List (Bool × Stmt)
  | [] => []
  | ⟨_, body⟩ :: rest => innerOfList true body ++ innerOfArms rest

end

lemma mem_inner_self (inSwitch : Bool) (s : Stmt) : (inSwitch, s) ∈ s.inner inSwitch := by
  cases s <;> exact List.mem_cons_self

/-- Whether a statement is a loop. -/
def isLoop : Stmt → Bool
  | for_ _ _ _ _ | forEach _ _ _ _ _ | while_ _ _ | doWhile _ _ => true
  | _ => false

/-! ## Statements with other expressions -/

mutual

/-- The statement with every expression `e` outside of loops replaced by `f m e`, where `m` is `n`
and the sizes of the expressions before `e`. -/
def mapExprs (size : Expr → Nat) (f : Nat → Expr → Expr) (n : Nat) : Stmt → Stmt
  | expr value => expr (f n value)
  | declare kind name init => declare kind name (init.map (f n))
  | block body => block (mapExprsList size f n body)
  | if_ test yes no =>
    if_ (f n test) (mapExprs size f (n + size test) yes)
      (mapExprsOption size f (n + size test + Expr.total size yes.exprs) no)
  | switch subject arms => switch (f n subject) (mapExprsArms size f (n + size subject) arms)
  | return_ value => return_ (value.map (f n))
  | break_ => break_
  | continue_ => continue_
  | empty => empty
  | for_ init test update body => for_ init test update body
  | forEach kind name of iterable body => forEach kind name of iterable body
  | while_ test body => while_ test body
  | doWhile body test => doWhile body test

/-- A statement that may be missing, with other expressions. -/
def mapExprsOption (size : Expr → Nat) (f : Nat → Expr → Expr) (n : Nat) :
    Option Stmt → Option Stmt
  | some s => some (mapExprs size f n s)
  | none => none

/-- Statements with other expressions. -/
def mapExprsList (size : Expr → Nat) (f : Nat → Expr → Expr) (n : Nat) : List Stmt → List Stmt
  | [] => []
  | s :: rest =>
    mapExprs size f n s :: mapExprsList size f (n + Expr.total size s.exprs) rest

/-- The arms of a switch with other expressions. -/
def mapExprsArms (size : Expr → Nat) (f : Nat → Expr → Expr) (n : Nat) :
    List (Arm Stmt) → List (Arm Stmt)
  | [] => []
  | ⟨test, body⟩ :: rest =>
    ⟨test.map (f n), mapExprsList size f (n + Expr.total size test.toList) body⟩ ::
      mapExprsArms size f
        (n + Expr.total size test.toList + Expr.total size (exprsOfList body)) rest

end

end Stmt

namespace Body

/-- The expressions in the body of a row function, in order. -/
def exprs : Body → List Expr
  | expr value => [value]
  | block body => Stmt.exprsOfList body

/-- The statements in the body of a row function, each with whether it stands inside a switch. -/
def inner : Body → List (Bool × Stmt)
  | expr _ => []
  | block body => Stmt.innerOfList false body

/-- The body with every expression `e` outside of loops replaced by `f m e`, where `m` is `n` and
the sizes of the expressions before `e`. -/
def mapExprs (size : Expr → Nat) (f : Nat → Expr → Expr) (n : Nat) : Body → Body
  | expr value => expr (f n value)
  | block body => block (Stmt.mapExprsList size f n body)

/-- No statement in the body is a loop. -/
def LoopFree (body : Body) : Prop := ∀ p ∈ body.inner, p.2.isLoop = false

instance (body : Body) : Decidable body.LoopFree :=
  inferInstanceAs (Decidable (∀ p ∈ body.inner, p.2.isLoop = false))

end Body

/-! ## The expressions of a statement with other expressions -/

namespace Stmt

lemma toList_map (size : Expr → Nat) (f : Nat → Expr → Expr) (n : Nat) (e? : Option Expr) :
    (e?.map (f n)).toList = Expr.mapFrom size f n e?.toList := by
  cases e? <;> rfl

variable {size : Expr → Nat} {f : Nat → Expr → Expr}

mutual

lemma exprs_mapExprs {inSwitch : Bool} (s : Stmt) (n : Nat)
    (hloop : ∀ p ∈ s.inner inSwitch, p.2.isLoop = false) :
    (s.mapExprs size f n).exprs = Expr.mapFrom size f n s.exprs := by
  match s with
  | expr _ | break_ | continue_ | empty => rfl
  | declare _ _ e? | return_ e? => exact toList_map size f n e?
  | block body =>
    rw [inner, List.forall_mem_cons] at hloop
    exact exprsOfList_mapExprsList body n hloop.2
  | if_ test yes no =>
    rw [inner, List.forall_mem_cons, List.forall_mem_append] at hloop
    rw [mapExprs, exprs, exprs_mapExprs yes _ hloop.2.1,
      exprsOfOption_mapExprsOption no _ hloop.2.2, exprs, Expr.mapFrom, Expr.mapFrom_append]
  | switch subject arms =>
    rw [inner, List.forall_mem_cons] at hloop
    rw [mapExprs, exprs, exprsOfArms_mapExprsArms arms _ hloop.2, exprs, Expr.mapFrom]
  | for_ _ _ _ _ | forEach _ _ _ _ _ | while_ _ _ | doWhile _ _ =>
    rw [inner, List.forall_mem_cons] at hloop
    exact absurd hloop.1 (by simp [isLoop])

lemma exprsOfOption_mapExprsOption {inSwitch : Bool} (s? : Option Stmt) (n : Nat)
    (hloop : ∀ p ∈ innerOfOption inSwitch s?, p.2.isLoop = false) :
    exprsOfOption (mapExprsOption size f n s?) = Expr.mapFrom size f n (exprsOfOption s?) := by
  match s? with
  | none => rfl
  | some s => exact exprs_mapExprs s n hloop

lemma exprsOfList_mapExprsList {inSwitch : Bool} (body : List Stmt) (n : Nat)
    (hloop : ∀ p ∈ innerOfList inSwitch body, p.2.isLoop = false) :
    exprsOfList (mapExprsList size f n body) = Expr.mapFrom size f n (exprsOfList body) := by
  match body with
  | [] => rfl
  | s :: rest =>
    rw [innerOfList, List.forall_mem_append] at hloop
    rw [mapExprsList, exprsOfList, exprs_mapExprs s n hloop.1,
      exprsOfList_mapExprsList rest _ hloop.2, exprsOfList, Expr.mapFrom_append]

lemma exprsOfArms_mapExprsArms (arms : List (Arm Stmt)) (n : Nat)
    (hloop : ∀ p ∈ innerOfArms arms, p.2.isLoop = false) :
    exprsOfArms (mapExprsArms size f n arms) = Expr.mapFrom size f n (exprsOfArms arms) := by
  match arms with
  | [] => rfl
  | ⟨test, body⟩ :: rest =>
    rw [innerOfArms, List.forall_mem_append] at hloop
    rw [mapExprsArms, exprsOfArms, toList_map size f n test,
      exprsOfList_mapExprsList body _ hloop.1, exprsOfArms_mapExprsArms rest _ hloop.2,
      exprsOfArms, Expr.mapFrom_append, Expr.mapFrom_append, Expr.total_append, Nat.add_assoc]

end

end Stmt

/-- The expressions of a loop-free body are all replaced. -/
theorem Body.exprs_mapExprs {size : Expr → Nat} {f : Nat → Expr → Expr} {body : Body} (n : Nat)
    (hloop : body.LoopFree) :
    (body.mapExprs size f n).exprs = Expr.mapFrom size f n body.exprs := by
  cases body with
  | expr value => rfl
  | block body => exact Stmt.exprsOfList_mapExprsList body n hloop

/-! ## One replacement after another -/

namespace Stmt

section

variable {size : Expr → Nat} {f : Nat → Expr → Expr} {h : Expr → Expr}

mutual

lemma mapExprs_mapExprs (s : Stmt) (n : Nat) :
    (s.mapExprs size f n).mapExprs (fun _ => 0) (fun _ => h) 0 =
      s.mapExprs size (fun m e => h (f m e)) n := by
  match s with
  | expr _ | break_ | continue_ | empty => rfl
  | for_ _ _ _ _ | forEach _ _ _ _ _ | while_ _ _ | doWhile _ _ => rfl
  | declare _ _ e? | return_ e? => cases e? <;> rfl
  | block body => rw [mapExprs, mapExprs, mapExprs, mapExprsList_mapExprsList]
  | if_ test yes no =>
    rw [mapExprs, mapExprs, mapExprs, Expr.total_zero, mapExprs_mapExprs yes,
      mapExprsOption_mapExprsOption no]
  | switch subject arms => rw [mapExprs, mapExprs, mapExprs, mapExprsArms_mapExprsArms]

lemma mapExprsOption_mapExprsOption (s? : Option Stmt) (n : Nat) :
    mapExprsOption (fun _ => 0) (fun _ => h) 0 (mapExprsOption size f n s?) =
      mapExprsOption size (fun m e => h (f m e)) n s? := by
  match s? with
  | none => rfl
  | some s => rw [mapExprsOption, mapExprsOption, mapExprsOption, mapExprs_mapExprs]

lemma mapExprsList_mapExprsList (body : List Stmt) (n : Nat) :
    mapExprsList (fun _ => 0) (fun _ => h) 0 (mapExprsList size f n body) =
      mapExprsList size (fun m e => h (f m e)) n body := by
  match body with
  | [] => rfl
  | s :: rest =>
    rw [mapExprsList, mapExprsList, mapExprsList, Expr.total_zero, mapExprs_mapExprs,
      mapExprsList_mapExprsList rest]

lemma mapExprsArms_mapExprsArms (arms : List (Arm Stmt)) (n : Nat) :
    mapExprsArms (fun _ => 0) (fun _ => h) 0 (mapExprsArms size f n arms) =
      mapExprsArms size (fun m e => h (f m e)) n arms := by
  match arms with
  | [] => rfl
  | ⟨test, body⟩ :: rest =>
    rw [mapExprsArms, mapExprsArms, mapExprsArms, Expr.total_zero, Expr.total_zero,
      mapExprsList_mapExprsList, mapExprsArms_mapExprsArms rest, Option.map_map]
    rfl

end

end

/-! ## Replacements that start at another number -/

section

variable {size : Expr → Nat} {f f' : Nat → Expr → Expr} {k : Nat}

lemma map_offset {e? : Option Expr} (h : ∀ e ∈ e?.toList, ∀ m, f m e = f' (m + k) e) (n : Nat) :
    e?.map (f n) = e?.map (f' (n + k)) := by
  cases e? with
  | none => rfl
  | some e => exact congrArg some (h e (by simp) n)

mutual

lemma mapExprs_offset (s : Stmt) (h : ∀ e ∈ s.exprs, ∀ m, f m e = f' (m + k) e) (n : Nat) :
    s.mapExprs size f n = s.mapExprs size f' (n + k) := by
  match s with
  | break_ | continue_ | empty => rfl
  | for_ _ _ _ _ | forEach _ _ _ _ _ | while_ _ _ | doWhile _ _ => rfl
  | expr value => exact congrArg expr (h value (List.mem_singleton_self value) n)
  | declare kind name e? => exact congrArg (declare kind name) (map_offset h n)
  | return_ e? => exact congrArg return_ (map_offset h n)
  | block body => exact congrArg block (mapExprsList_offset body h n)
  | if_ test yes no =>
    rw [exprs, List.forall_mem_cons, List.forall_mem_append] at h
    rw [mapExprs, mapExprs, h.1 n, mapExprs_offset yes h.2.1, mapExprsOption_offset no h.2.2,
      Nat.add_right_comm (n + size test), Nat.add_right_comm n]
  | switch subject arms =>
    rw [exprs, List.forall_mem_cons] at h
    rw [mapExprs, mapExprs, h.1 n, mapExprsArms_offset arms h.2, Nat.add_right_comm n]

lemma mapExprsOption_offset (s? : Option Stmt)
    (h : ∀ e ∈ exprsOfOption s?, ∀ m, f m e = f' (m + k) e) (n : Nat) :
    mapExprsOption size f n s? = mapExprsOption size f' (n + k) s? := by
  match s? with
  | none => rfl
  | some s => exact congrArg some (mapExprs_offset s h n)

lemma mapExprsList_offset (body : List Stmt)
    (h : ∀ e ∈ exprsOfList body, ∀ m, f m e = f' (m + k) e) (n : Nat) :
    mapExprsList size f n body = mapExprsList size f' (n + k) body := by
  match body with
  | [] => rfl
  | s :: rest =>
    rw [exprsOfList, List.forall_mem_append] at h
    rw [mapExprsList, mapExprsList, mapExprs_offset s h.1, mapExprsList_offset rest h.2,
      Nat.add_right_comm n]

lemma mapExprsArms_offset (arms : List (Arm Stmt))
    (h : ∀ e ∈ exprsOfArms arms, ∀ m, f m e = f' (m + k) e) (n : Nat) :
    mapExprsArms size f n arms = mapExprsArms size f' (n + k) arms := by
  match arms with
  | [] => rfl
  | ⟨test, body⟩ :: rest =>
    rw [exprsOfArms, List.forall_mem_append, List.forall_mem_append] at h
    rw [mapExprsArms, mapExprsArms, map_offset h.1.1, mapExprsList_offset body h.1.2,
      mapExprsArms_offset rest h.2, Nat.add_right_comm (n + Expr.total size test.toList),
      Nat.add_right_comm n]

end

end

end Stmt

namespace Body

/-- Two replacements, of which the second does not count, are one. -/
theorem mapExprs_mapExprs (size : Expr → Nat) (f : Nat → Expr → Expr) (h : Expr → Expr) (n : Nat)
    (body : Body) :
    (body.mapExprs size f n).mapExprs (fun _ => 0) (fun _ => h) 0 =
      body.mapExprs size (fun m e => h (f m e)) n := by
  cases body with
  | expr value => rfl
  | block body => exact congrArg block (Stmt.mapExprsList_mapExprsList body n)

/-- A replacement may start at another number if that makes no difference for the expressions. -/
theorem mapExprs_offset {size : Expr → Nat} {f f' : Nat → Expr → Expr} {k : Nat} {body : Body}
    (h : ∀ e ∈ body.exprs, ∀ m, f m e = f' (m + k) e) (n : Nat) :
    body.mapExprs size f n = body.mapExprs size f' (n + k) := by
  cases body with
  | expr value => exact congrArg expr (h value (List.mem_singleton_self value) n)
  | block body => exact congrArg block (Stmt.mapExprsList_offset body h n)

end Body

/-! ## Canonical statements -/

namespace Stmt

variable {names : Names}

mutual

lemma canonical_eq_mapExprs (s : Stmt) :
    s.canonical names = s.mapExprs (fun _ => 0) (fun _ e => e.canonical names) 0 := by
  match s with
  | expr _ | declare _ _ _ | return_ _ | break_ | continue_ | empty => rfl
  | for_ _ _ _ _ | forEach _ _ _ _ _ | while_ _ _ | doWhile _ _ => rfl
  | block body => rw [canonical, mapExprs, canonicalList_eq_mapExprs]
  | if_ test yes no =>
    rw [canonical, mapExprs, canonical_eq_mapExprs yes, canonicalOption_eq_mapExprs no,
      Expr.total_zero]
  | switch subject arms => rw [canonical, mapExprs, canonicalArms_eq_mapExprs]

lemma canonicalOption_eq_mapExprs (s? : Option Stmt) :
    canonicalOption names s? =
      mapExprsOption (fun _ => 0) (fun _ e => e.canonical names) 0 s? := by
  match s? with
  | none => rfl
  | some s => rw [canonicalOption, mapExprsOption, canonical_eq_mapExprs]

lemma canonicalList_eq_mapExprs (body : List Stmt) :
    canonicalList names body = mapExprsList (fun _ => 0) (fun _ e => e.canonical names) 0 body := by
  match body with
  | [] => rfl
  | s :: rest =>
    rw [canonicalList, mapExprsList, canonical_eq_mapExprs, canonicalList_eq_mapExprs rest,
      Expr.total_zero]

lemma canonicalArms_eq_mapExprs (arms : List (Arm Stmt)) :
    canonicalArms names arms = mapExprsArms (fun _ => 0) (fun _ e => e.canonical names) 0 arms := by
  match arms with
  | [] => rfl
  | ⟨test, body⟩ :: rest =>
    rw [canonicalArms, mapExprsArms, canonicalList_eq_mapExprs, canonicalArms_eq_mapExprs rest,
      Expr.total_zero, Expr.total_zero]

end

end Stmt

/-- The canonical form of a body has the canonical forms of its expressions. -/
theorem Body.canonical_eq_mapExprs {names : Names} (body : Body) :
    body.canonical names = body.mapExprs (fun _ => 0) (fun _ e => e.canonical names) 0 := by
  cases body with
  | expr value => rfl
  | block body => rw [canonical, mapExprs, Stmt.canonicalList_eq_mapExprs]

end RowExpr
