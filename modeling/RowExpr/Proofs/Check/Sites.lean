/-
# Where the expressions of a row function stand

Every expression in a row function stands at a site, where it can see some locals.  Which ones is a
matter of how scopes are read (`Scoping`): for the check, they are those declared before it in its
own block and in the blocks around it (`Scoping.inOrder`).  The sites do not depend on what the
expressions are, so that they stay when the expressions are brought into canonical form and their
operators are taken out.

The check of a row function visits all its sites and all its declarations:
`RowFunction.check_eq_ok` and `RowFunction.reserves_eq_false_of_check` say what it has seen when it
succeeds.

Loops are never accepted, and nothing is listed inside of them.
-/
import RowExpr.Stmt.Check
import RowExpr.Proofs.Check.Expression
import RowExpr.Proofs.Stmt.Exprs
import Mathlib.Data.List.Forall2

namespace RowExpr

namespace Locals

/-! ## Declarations -/

/-- The locals after one more declaration, whatever its name. -/
def add (locals : Locals) (kind : DeclKind) (name : String) : Locals :=
  { locals with current := (name, kind) :: locals.current }

variable {names : Names} {locals : Locals}

lemma has_enter (name : String) : locals.enter.has name = locals.has name := rfl

lemma has_add (kind : DeclKind) (name other : String) :
    (locals.add kind name).has other = (other == name || locals.has other) := by
  simp only [has, kind?, add, List.findSome?_cons, List.lookup_cons]
  cases other == name <;> rfl

lemma apart_start : Apart names {} := by
  intro name hname
  cases hname

lemma Apart.enter (h : locals.Apart names) : locals.enter.Apart names := by
  intro name hname
  rw [has_enter] at hname
  exact h name hname

lemma Apart.add (h : locals.Apart names) (kind : DeclKind) {name : String}
    (hname : names.reserves name = false) : (locals.add kind name).Apart names := by
  intro other hother
  rw [has_add, Bool.or_eq_true, beq_iff_eq] at hother
  rcases hother with rfl | hother
  · exact hname
  · exact h other hother

/-- A declaration that is accepted adds a local that has no reserved name. -/
lemma declare_eq_ok {locals' : Locals} {kind : DeclKind} {name : String}
    (h : locals.declare names kind name = .ok locals') :
    locals' = locals.add kind name ∧ names.reserves name = false := by
  unfold declare at h
  split at h
  · cases h
  · rename_i hreserved
    split at h
    · cases h
    · rename_i hambient
      split at h
      · cases h
      · cases h
        refine ⟨rfl, ?_⟩
        rw [Names.reserves, Bool.or_eq_false_iff]
        exact ⟨Bool.eq_false_iff.mpr hreserved, Bool.eq_false_iff.mpr hambient⟩

end Locals

/-! ## Sites -/

/-- What a declaration says of a local: its kind and its name. -/
abbrev Declaration := DeclKind × String

/-- A reading of scopes: which locals can be seen along a row function. -/
structure Scoping (σ : Type) where
  /-- The locals at the start of a function with the declarations `all`, of which `own` stand in its
  outermost block. -/
  start (own all : List Declaration) : σ
  /-- The locals at the start of a block with the declarations `own`. -/
  enter (own : List Declaration) (locals : σ) : σ
  /-- The locals after a declaration. -/
  declare (locals : σ) (kind : DeclKind) (name : String) : σ

/-- A local can be seen after its declaration, until its block ends.  The check reads scopes this
way. -/
def Scoping.inOrder : Scoping Locals where
  start _ _ := {}
  enter _ locals := locals.enter
  declare locals kind name := locals.add kind name

/-- An expression, and the locals that can be seen where it stands. -/
structure Site (σ : Type) where
  locals : σ
  expr : Expr

namespace Stmt

/-- What a statement declares in the block it stands in. -/
def declared? : Stmt → Option Declaration
  | declare kind name _ => some (kind, name)
  | _ => none

/-- What statements declare in the block that they make up. -/
def declaredIn (body : List Stmt) : List Declaration := body.filterMap declared?

section

variable {σ : Type} (scoping : Scoping σ)

/-- The locals that can be seen after a statement. -/
def after (locals : σ) : Stmt → σ
  | declare kind name _ => scoping.declare locals kind name
  | _ => locals

/-- The locals that can be seen after statements. -/
def afterList (locals : σ) (body : List Stmt) : σ := body.foldl (after scoping) locals

mutual

/-- The expressions in a statement, each with the locals that it can see. -/
def sites (locals : σ) : Stmt → List (Site σ)
  | expr value => [⟨locals, value⟩]
  | declare _ _ init => init.toList.map (⟨locals, ·⟩)
  | block body => sitesOfList (scoping.enter (declaredIn body) locals) body
  | if_ test yes no =>
    ⟨locals, test⟩ ::
      (sites (scoping.enter (declaredIn [yes]) locals) yes ++ sitesOfElse locals no)
  | switch subject arms =>
    ⟨locals, subject⟩ ::
      sitesOfArms (scoping.enter (declaredIn (arms.flatMap Arm.body)) locals) arms
  | return_ value => value.toList.map (⟨locals, ·⟩)
  | break_ | continue_ | empty => []
  | for_ _ _ _ _ | forEach _ _ _ _ _ | while_ _ _ | doWhile _ _ => []

/-- The sites in the second branch of a choice, if there is one.  A branch is a block. -/
def sitesOfElse (locals : σ) : Option Stmt → List (Site σ)
  | some s => sites (scoping.enter (declaredIn [s]) locals) s
  | none => []

/-- The sites in statements, each of which comes after those before it. -/
def sitesOfList (locals : σ) : List Stmt → List (Site σ)
  | [] => []
  | s :: rest => sites locals s ++ sitesOfList (s.after scoping locals) rest

/-- The sites in the arms of a switch, which share one block. -/
def sitesOfArms (locals : σ) : List (Arm Stmt) → List (Site σ)
  | [] => []
  | ⟨test, body⟩ :: rest =>
    test.toList.map (⟨locals, ·⟩) ++ sitesOfList locals body ++
      sitesOfArms (afterList scoping locals body) rest

end

end

/-- Whether a statement may stand inside a switch or outside of one: a `break` only inside, a loop
and a `continue` not at all. -/
def permitted (inSwitch : Bool) : Stmt → Bool
  | break_ => inSwitch
  | continue_ => false
  | s => !s.isLoop

lemma isLoop_of_permitted {inSwitch : Bool} {s : Stmt} (h : s.permitted inSwitch = true) :
    s.isLoop = false := by
  cases s <;> first | rfl | cases h

end Stmt

namespace Body

/-- What the body of a row function declares, at any depth. -/
def declared (body : Body) : List Declaration := body.inner.filterMap fun p => p.2.declared?

/-- The expressions in the body of a row function, each with the locals that it can see. -/
def sitesBy {σ : Type} (scoping : Scoping σ) : Body → List (Site σ)
  | expr value => [⟨scoping.start [] [], value⟩]
  | block body =>
    Stmt.sitesOfList scoping (scoping.start (Stmt.declaredIn body) (declared (block body))) body

/-- The sites in the body of a row function, as the check reads scopes. -/
def sites (body : Body) : List (Site Locals) := body.sitesBy .inOrder

end Body

namespace Stmt

variable {σ : Type} {scoping : Scoping σ}

lemma expr_mem_toList {locals : σ} {e? : Option Expr} :
    ∀ site ∈ e?.toList.map (Site.mk locals), site.expr ∈ e?.toList := by
  intro site hsite
  obtain ⟨e, he, rfl⟩ := List.mem_map.mp hsite
  exact he

mutual

lemma expr_mem_exprs (locals : σ) (s : Stmt) :
    ∀ site ∈ s.sites scoping locals, site.expr ∈ s.exprs := by
  match s with
  | expr value => exact List.forall_mem_singleton.mpr (List.mem_singleton_self value)
  | declare _ _ e? | return_ e? => exact expr_mem_toList
  | block body => exact expr_mem_exprsOfList _ body
  | if_ test yes no =>
    refine List.forall_mem_cons.mpr ⟨List.mem_cons_self, List.forall_mem_append.mpr ⟨?_, ?_⟩⟩
    · intro site hsite
      have hmem := expr_mem_exprs _ yes site hsite
      exact List.mem_cons_of_mem _ (List.mem_append_left _ hmem)
    · intro site hsite
      have hmem := expr_mem_exprsOfElse locals no site hsite
      exact List.mem_cons_of_mem _ (List.mem_append_right _ hmem)
  | switch subject arms =>
    refine List.forall_mem_cons.mpr ⟨List.mem_cons_self, fun site hsite => ?_⟩
    exact List.mem_cons_of_mem _ (expr_mem_exprsOfArms _ arms site hsite)
  | break_ | continue_ | empty => nofun
  | for_ _ _ _ _ | forEach _ _ _ _ _ | while_ _ _ | doWhile _ _ => nofun

lemma expr_mem_exprsOfElse (locals : σ) (s? : Option Stmt) :
    ∀ site ∈ sitesOfElse scoping locals s?, site.expr ∈ exprsOfOption s? := by
  match s? with
  | none => nofun
  | some s => exact expr_mem_exprs _ s

lemma expr_mem_exprsOfList (locals : σ) (body : List Stmt) :
    ∀ site ∈ sitesOfList scoping locals body, site.expr ∈ exprsOfList body := by
  match body with
  | [] => nofun
  | s :: rest =>
    refine List.forall_mem_append.mpr ⟨?_, ?_⟩
    · exact fun site hsite => List.mem_append_left _ (expr_mem_exprs locals s site hsite)
    · intro site hsite
      exact List.mem_append_right _ (expr_mem_exprsOfList _ rest site hsite)

lemma expr_mem_exprsOfArms (locals : σ) (arms : List (Arm Stmt)) :
    ∀ site ∈ sitesOfArms scoping locals arms, site.expr ∈ exprsOfArms arms := by
  match arms with
  | [] => nofun
  | ⟨test, body⟩ :: rest =>
    refine List.forall_mem_append.mpr ⟨List.forall_mem_append.mpr ⟨?_, ?_⟩, ?_⟩
    · intro site hsite
      exact List.mem_append_left _ (List.mem_append_left _ (expr_mem_toList site hsite))
    · intro site hsite
      have hmem := expr_mem_exprsOfList locals body site hsite
      exact List.mem_append_left _ (List.mem_append_right _ hmem)
    · intro site hsite
      exact List.mem_append_right _ (expr_mem_exprsOfArms _ rest site hsite)

end

lemma map_expr_toList (locals : σ) (e? : Option Expr) :
    (e?.toList.map (Site.mk locals)).map Site.expr = e?.toList := by
  cases e? <;> rfl

mutual

/-- Without loops, the expressions at the sites are all there are. -/
lemma map_expr_sites {inSwitch : Bool} (locals : σ) (s : Stmt)
    (hloop : ∀ p ∈ s.inner inSwitch, p.2.isLoop = false) :
    (s.sites scoping locals).map Site.expr = s.exprs := by
  match s with
  | expr _ | break_ | continue_ | empty => rfl
  | declare _ _ e? | return_ e? => exact map_expr_toList locals e?
  | block body => exact map_expr_sitesOfList _ body (List.forall_mem_cons.mp hloop).2
  | if_ test yes no =>
    obtain ⟨hyes, hno⟩ := List.forall_mem_append.mp (List.forall_mem_cons.mp hloop).2
    rw [sites, List.map_cons, List.map_append, map_expr_sites _ yes hyes,
      map_expr_sitesOfElse locals no hno, exprs]
  | switch subject arms =>
    rw [sites, List.map_cons, map_expr_sitesOfArms _ arms (List.forall_mem_cons.mp hloop).2, exprs]
  | for_ _ _ _ _ | forEach _ _ _ _ _ | while_ _ _ | doWhile _ _ =>
    -- a loop has expressions, but no sites
    cases hloop _ (mem_inner_self inSwitch _)

lemma map_expr_sitesOfElse {inSwitch : Bool} (locals : σ) (s? : Option Stmt)
    (hloop : ∀ p ∈ innerOfOption inSwitch s?, p.2.isLoop = false) :
    (sitesOfElse scoping locals s?).map Site.expr = exprsOfOption s? := by
  match s? with
  | none => rfl
  | some s => exact map_expr_sites _ s hloop

lemma map_expr_sitesOfList {inSwitch : Bool} (locals : σ) (body : List Stmt)
    (hloop : ∀ p ∈ innerOfList inSwitch body, p.2.isLoop = false) :
    (sitesOfList scoping locals body).map Site.expr = exprsOfList body := by
  match body with
  | [] => rfl
  | s :: rest =>
    obtain ⟨hs, hrest⟩ := List.forall_mem_append.mp hloop
    rw [sitesOfList, List.map_append, map_expr_sites _ s hs, map_expr_sitesOfList _ rest hrest,
      exprsOfList]

lemma map_expr_sitesOfArms (locals : σ) (arms : List (Arm Stmt))
    (hloop : ∀ p ∈ innerOfArms arms, p.2.isLoop = false) :
    (sitesOfArms scoping locals arms).map Site.expr = exprsOfArms arms := by
  match arms with
  | [] => rfl
  | ⟨test, body⟩ :: rest =>
    obtain ⟨hbody, hrest⟩ := List.forall_mem_append.mp hloop
    rw [sitesOfArms, List.map_append, List.map_append, map_expr_toList,
      map_expr_sitesOfList _ body hbody, map_expr_sitesOfArms _ rest hrest, exprsOfArms]

end

end Stmt

namespace Body

variable {σ : Type} {scoping : Scoping σ}

lemma expr_mem_exprs (body : Body) :
    ∀ site ∈ body.sitesBy scoping, site.expr ∈ body.exprs := by
  cases body with
  | expr value => exact List.forall_mem_singleton.mpr (List.mem_singleton_self value)
  | block body => exact Stmt.expr_mem_exprsOfList _ body

lemma map_expr_sitesBy {body : Body} (hloop : body.LoopFree) :
    (body.sitesBy scoping).map Site.expr = body.exprs := by
  cases body with
  | expr value => rfl
  | block body => exact Stmt.map_expr_sitesOfList _ body hloop

end Body

/-! ## What holds of the locals at all sites -/

/-- A property of the locals stays when a block begins and when a local is declared, as long as the
declarations are good. -/
structure Scoping.Keeps {σ : Type} (scoping : Scoping σ) (good : Declaration → Prop)
    (p : σ → Prop) : Prop where
  enter : ∀ {own locals}, (∀ d ∈ own, good d) → p locals → p (scoping.enter own locals)
  declare : ∀ {locals kind name}, good (kind, name) → p locals →
    p (scoping.declare locals kind name)

namespace Stmt

/-- What the statements declare is good. -/
def Declares (good : Declaration → Prop) (statements : List (Bool × Stmt)) : Prop :=
  ∀ q ∈ statements, ∀ d ∈ q.2.declared?, good d

variable {σ : Type} {scoping : Scoping σ} {good : Declaration → Prop} {p : σ → Prop}

lemma declares_append {l l' : List (Bool × Stmt)} :
    Declares good (l ++ l') ↔ Declares good l ∧ Declares good l' :=
  List.forall_mem_append

/-- What a statement declares itself. -/
lemma Declares.self {inSwitch : Bool} {s : Stmt} (h : Declares good (s.inner inSwitch)) :
    ∀ d ∈ s.declared?, good d :=
  h (inSwitch, s) (mem_inner_self inSwitch s)

/-- What is inside of a statement. -/
lemma Declares.parts {q : Bool × Stmt} {l : List (Bool × Stmt)} (h : Declares good (q :: l)) :
    Declares good l :=
  (List.forall_mem_cons.mp h).2

lemma Declares.declaredIn {inSwitch : Bool} {body : List Stmt}
    (h : Declares good (innerOfList inSwitch body)) : ∀ d ∈ declaredIn body, good d := by
  induction body with
  | nil => nofun
  | cons s rest ih =>
    obtain ⟨hs, hrest⟩ := declares_append.mp h
    intro d hd
    rw [Stmt.declaredIn, List.filterMap_cons] at hd
    split at hd
    · exact ih hrest d hd
    · rename_i d' hd'
      rcases List.mem_cons.mp hd with rfl | hd
      · exact hs.self d hd'
      · exact ih hrest d hd

lemma Declares.declaredIn_singleton {inSwitch : Bool} {s : Stmt}
    (h : Declares good (s.inner inSwitch)) : ∀ d ∈ Stmt.declaredIn [s], good d := by
  have hlist : Declares good (innerOfList inSwitch [s]) := declares_append.mpr ⟨h, nofun⟩
  exact hlist.declaredIn

lemma Declares.declaredIn_arms {arms : List (Arm Stmt)} (h : Declares good (innerOfArms arms)) :
    ∀ d ∈ Stmt.declaredIn (arms.flatMap Arm.body), good d := by
  induction arms with
  | nil => nofun
  | cons arm rest ih =>
    obtain ⟨hbody, hrest⟩ := declares_append.mp h
    rw [List.flatMap_cons, Stmt.declaredIn, List.filterMap_append]
    exact List.forall_mem_append.mpr ⟨hbody.declaredIn, ih hrest⟩

variable (hkeeps : scoping.Keeps good p)

include hkeeps

lemma keeps_after {inSwitch : Bool} {locals : σ} {s : Stmt}
    (h : Declares good (s.inner inSwitch)) (hlocals : p locals) : p (s.after scoping locals) := by
  cases s with
  | declare kind name _ => exact hkeeps.declare (h.self (kind, name) rfl) hlocals
  | _ => exact hlocals

lemma keeps_afterList {inSwitch : Bool} {locals : σ} {body : List Stmt}
    (h : Declares good (innerOfList inSwitch body)) (hlocals : p locals) :
    p (afterList scoping locals body) := by
  induction body generalizing locals with
  | nil => exact hlocals
  | cons s rest ih =>
    obtain ⟨hs, hrest⟩ := declares_append.mp h
    exact ih hrest (keeps_after hkeeps hs hlocals)

omit hkeeps in
lemma keeps_toList {locals : σ} (hlocals : p locals) (e? : Option Expr) :
    ∀ site ∈ e?.toList.map (Site.mk locals), p site.locals := by
  intro site hsite
  obtain ⟨e, -, rfl⟩ := List.mem_map.mp hsite
  exact hlocals

mutual

/-- What holds of the locals in front of a statement and is kept holds at all its sites. -/
lemma keeps_sites {inSwitch : Bool} {locals : σ} (s : Stmt)
    (h : Declares good (s.inner inSwitch)) (hlocals : p locals) :
    ∀ site ∈ s.sites scoping locals, p site.locals := by
  match s with
  | expr value => exact keeps_toList hlocals (some value)
  | declare _ _ e? | return_ e? => exact keeps_toList hlocals e?
  | block body =>
    have hbody : Declares good (innerOfList inSwitch body) := h.parts
    exact keeps_sitesOfList body hbody (hkeeps.enter hbody.declaredIn hlocals)
  | if_ test yes no =>
    obtain ⟨hyes, hno⟩ := declares_append.mp h.parts
    refine List.forall_mem_cons.mpr ⟨hlocals, List.forall_mem_append.mpr ⟨?_, ?_⟩⟩
    · exact keeps_sites yes hyes (hkeeps.enter hyes.declaredIn_singleton hlocals)
    · exact keeps_sitesOfElse no hno hlocals
  | switch subject arms =>
    have harms : Declares good (innerOfArms arms) := h.parts
    refine List.forall_mem_cons.mpr ⟨hlocals, ?_⟩
    exact keeps_sitesOfArms arms harms (hkeeps.enter harms.declaredIn_arms hlocals)
  | break_ | continue_ | empty => nofun
  | for_ _ _ _ _ | forEach _ _ _ _ _ | while_ _ _ | doWhile _ _ => nofun

lemma keeps_sitesOfElse {inSwitch : Bool} {locals : σ} (s? : Option Stmt)
    (h : Declares good (innerOfOption inSwitch s?)) (hlocals : p locals) :
    ∀ site ∈ sitesOfElse scoping locals s?, p site.locals := by
  match s? with
  | none => nofun
  | some s =>
    have hs : Declares good (s.inner inSwitch) := h
    exact keeps_sites s hs (hkeeps.enter hs.declaredIn_singleton hlocals)

lemma keeps_sitesOfList {inSwitch : Bool} {locals : σ} (body : List Stmt)
    (h : Declares good (innerOfList inSwitch body)) (hlocals : p locals) :
    ∀ site ∈ sitesOfList scoping locals body, p site.locals := by
  match body with
  | [] => nofun
  | s :: rest =>
    obtain ⟨hs, hrest⟩ := declares_append.mp h
    exact List.forall_mem_append.mpr ⟨keeps_sites s hs hlocals,
      keeps_sitesOfList rest hrest (keeps_after hkeeps hs hlocals)⟩

lemma keeps_sitesOfArms {locals : σ} (arms : List (Arm Stmt))
    (h : Declares good (innerOfArms arms)) (hlocals : p locals) :
    ∀ site ∈ sitesOfArms scoping locals arms, p site.locals := by
  match arms with
  | [] => nofun
  | ⟨test, body⟩ :: rest =>
    obtain ⟨hbody, hrest⟩ := declares_append.mp h
    refine List.forall_mem_append.mpr ⟨List.forall_mem_append.mpr ⟨?_, ?_⟩, ?_⟩
    · exact keeps_toList hlocals test
    · exact keeps_sitesOfList body hbody hlocals
    · -- the arms share a block, so that this arm's declarations are seen in the next ones
      exact keeps_sitesOfArms rest hrest (keeps_afterList hkeeps hbody hlocals)

end

end Stmt

/-- What holds of the locals at the start of a function, and is kept, holds at all its sites. -/
theorem Body.keeps_sitesBy {σ : Type} {scoping : Scoping σ} {good : Declaration → Prop}
    {p : σ → Prop} (hkeeps : scoping.Keeps good p) {body : Body}
    (hgood : ∀ d ∈ body.declared, good d)
    (hstart : ∀ own, (∀ d ∈ own, good d) → p (scoping.start own body.declared)) :
    ∀ site ∈ body.sitesBy scoping, p site.locals := by
  cases body with
  | expr value => exact List.forall_mem_singleton.mpr (hstart [] nofun)
  | block body =>
    have hdeclares : Stmt.Declares good (Stmt.innerOfList false body) :=
      fun q hq d hd => hgood d (List.mem_filterMap.mpr ⟨q, hq, hd⟩)
    exact Stmt.keeps_sitesOfList hkeeps body hdeclares (hstart _ hdeclares.declaredIn)

/-! ## Sites with other expressions -/

/-- The second site is the first one with its expression replaced by `f`, at some number. -/
def Site.Becomes {σ : Type} (f : Nat → Expr → Expr) (site site' : Site σ) : Prop :=
  ∃ m, site' = ⟨site.locals, f m site.expr⟩

lemma exists_mem_of_forall₂ {α β : Type} {r : α → β → Prop} {l : List α} {l' : List β}
    (h : List.Forall₂ r l l') {b : β} (hmem : b ∈ l') : ∃ a ∈ l, r a b := by
  induction h with
  | nil => cases hmem
  | cons hr _ ih =>
    rcases List.mem_cons.mp hmem with rfl | hmem
    · exact ⟨_, List.mem_cons_self, hr⟩
    · obtain ⟨a, ha, hr⟩ := ih hmem
      exact ⟨a, List.mem_cons_of_mem _ ha, hr⟩

namespace Stmt

variable {size : Expr → Nat} {f : Nat → Expr → Expr} {σ : Type} {scoping : Scoping σ}

lemma declared?_mapExprs (s : Stmt) (n : Nat) :
    (s.mapExprs size f n).declared? = s.declared? := by
  cases s <;> rfl

lemma declaredIn_mapExprsList (body : List Stmt) (n : Nat) :
    declaredIn (mapExprsList size f n body) = declaredIn body := by
  induction body generalizing n with
  | nil => rfl
  | cons s rest ih =>
    have hrest := ih (n + Expr.total size s.exprs)
    simp only [declaredIn] at hrest
    simp only [declaredIn, mapExprsList, List.filterMap_cons, declared?_mapExprs, hrest]

lemma declaredIn_mapExprsArms (arms : List (Arm Stmt)) (n : Nat) :
    declaredIn ((mapExprsArms size f n arms).flatMap Arm.body) =
      declaredIn (arms.flatMap Arm.body) := by
  induction arms generalizing n with
  | nil => rfl
  | cons arm rest ih =>
    obtain ⟨test, body⟩ := arm
    have hbody : ∀ m, declaredIn (mapExprsList size f m body) = declaredIn body :=
      declaredIn_mapExprsList body
    simp only [declaredIn] at ih hbody
    simp only [declaredIn, mapExprsArms, List.flatMap_cons, List.filterMap_append, ih, hbody]

lemma after_mapExprs {locals : σ} (s : Stmt) (n : Nat) :
    (s.mapExprs size f n).after scoping locals = s.after scoping locals := by
  cases s <;> rfl

lemma afterList_mapExprsList {locals : σ} (body : List Stmt) (n : Nat) :
    afterList scoping locals (mapExprsList size f n body) = afterList scoping locals body := by
  induction body generalizing locals n with
  | nil => rfl
  | cons s rest ih =>
    simp only [afterList, mapExprsList, List.foldl_cons, after_mapExprs]
    exact ih _

lemma becomes_toList_map {locals : σ} (n : Nat) (e? : Option Expr) :
    List.Forall₂ (Site.Becomes f) (e?.toList.map (⟨locals, ·⟩))
      ((e?.map (f n)).toList.map (⟨locals, ·⟩)) := by
  cases e? with
  | none => exact List.Forall₂.nil
  | some e => exact List.Forall₂.cons ⟨n, rfl⟩ List.Forall₂.nil

mutual

/-- The sites of a statement stay when its expressions are replaced. -/
lemma sites_mapExprs (locals : σ) (s : Stmt) (n : Nat) :
    List.Forall₂ (Site.Becomes f) (s.sites scoping locals)
      ((s.mapExprs size f n).sites scoping locals) := by
  match s with
  | expr value => exact List.Forall₂.cons ⟨n, rfl⟩ List.Forall₂.nil
  | declare _ _ e? | return_ e? => exact becomes_toList_map n e?
  | block body =>
    rw [mapExprs, sites, sites, declaredIn_mapExprsList]
    exact sitesOfList_mapExprsList _ body n
  | if_ test yes no =>
    have hyes : declaredIn [yes.mapExprs size f (n + size test)] = declaredIn [yes] :=
      declaredIn_mapExprsList [yes] _
    rw [mapExprs, sites, sites, hyes]
    refine List.Forall₂.cons ⟨n, rfl⟩ ?_
    exact List.rel_append (sites_mapExprs _ yes _) (sitesOfElse_mapExprsOption locals no _)
  | switch subject arms =>
    rw [mapExprs, sites, sites, declaredIn_mapExprsArms]
    exact List.Forall₂.cons ⟨n, rfl⟩ (sitesOfArms_mapExprsArms _ arms _)
  | break_ | continue_ | empty => exact List.Forall₂.nil
  | for_ _ _ _ _ | forEach _ _ _ _ _ | while_ _ _ | doWhile _ _ => exact List.Forall₂.nil

lemma sitesOfElse_mapExprsOption (locals : σ) (s? : Option Stmt) (n : Nat) :
    List.Forall₂ (Site.Becomes f) (sitesOfElse scoping locals s?)
      (sitesOfElse scoping locals (mapExprsOption size f n s?)) := by
  match s? with
  | none => exact List.Forall₂.nil
  | some s =>
    have hs : declaredIn [s.mapExprs size f n] = declaredIn [s] := declaredIn_mapExprsList [s] n
    rw [mapExprsOption, sitesOfElse, sitesOfElse, hs]
    exact sites_mapExprs _ s n

lemma sitesOfList_mapExprsList (locals : σ) (body : List Stmt) (n : Nat) :
    List.Forall₂ (Site.Becomes f) (sitesOfList scoping locals body)
      (sitesOfList scoping locals (mapExprsList size f n body)) := by
  match body with
  | [] => exact List.Forall₂.nil
  | s :: rest =>
    rw [mapExprsList, sitesOfList, sitesOfList, after_mapExprs]
    exact List.rel_append (sites_mapExprs locals s n) (sitesOfList_mapExprsList _ rest _)

lemma sitesOfArms_mapExprsArms (locals : σ) (arms : List (Arm Stmt)) (n : Nat) :
    List.Forall₂ (Site.Becomes f) (sitesOfArms scoping locals arms)
      (sitesOfArms scoping locals (mapExprsArms size f n arms)) := by
  match arms with
  | [] => exact List.Forall₂.nil
  | ⟨test, body⟩ :: rest =>
    rw [mapExprsArms, sitesOfArms, sitesOfArms, afterList_mapExprsList]
    exact List.rel_append
      (List.rel_append (becomes_toList_map n test) (sitesOfList_mapExprsList locals body _))
      (sitesOfArms_mapExprsArms _ rest _)

end

/-- The function does not depend on the expressions of a statement. -/
def IgnoresExprs {β : Type} (size : Expr → Nat) (f : Nat → Expr → Expr) (g : Bool × Stmt → β) :
    Prop :=
  ∀ inSwitch s n, g (inSwitch, s.mapExprs size f n) = g (inSwitch, s)

section

variable {β : Type} {g : Bool × Stmt → β}

mutual

/-- What can be said of a statement without its expressions stays for all statements in it. -/
lemma map_inner_mapExprs (hg : IgnoresExprs size f g) (inSwitch : Bool) (s : Stmt) (n : Nat) :
    ((s.mapExprs size f n).inner inSwitch).map g = (s.inner inSwitch).map g := by
  have hself := hg inSwitch s n
  match s with
  | expr _ | declare _ _ _ | return_ _ | break_ | continue_ | empty =>
    exact congrArg (· :: []) hself
  | for_ _ _ _ _ | forEach _ _ _ _ _ | while_ _ _ | doWhile _ _ => rfl
  | block body =>
    exact congrArg₂ List.cons hself (map_innerOfList_mapExprsList hg inSwitch body n)
  | if_ test yes no =>
    refine congrArg₂ List.cons hself ?_
    rw [List.map_append, List.map_append, map_inner_mapExprs hg inSwitch yes,
      map_innerOfOption_mapExprsOption hg inSwitch no]
  | switch subject arms =>
    exact congrArg₂ List.cons hself (map_innerOfArms_mapExprsArms hg arms _)

lemma map_innerOfOption_mapExprsOption (hg : IgnoresExprs size f g) (inSwitch : Bool)
    (s? : Option Stmt) (n : Nat) :
    (innerOfOption inSwitch (mapExprsOption size f n s?)).map g =
      (innerOfOption inSwitch s?).map g := by
  match s? with
  | none => rfl
  | some s => exact map_inner_mapExprs hg inSwitch s n

lemma map_innerOfList_mapExprsList (hg : IgnoresExprs size f g) (inSwitch : Bool)
    (body : List Stmt) (n : Nat) :
    (innerOfList inSwitch (mapExprsList size f n body)).map g =
      (innerOfList inSwitch body).map g := by
  match body with
  | [] => rfl
  | s :: rest =>
    rw [mapExprsList, innerOfList, innerOfList, List.map_append, List.map_append,
      map_inner_mapExprs hg inSwitch s, map_innerOfList_mapExprsList hg inSwitch rest]

lemma map_innerOfArms_mapExprsArms (hg : IgnoresExprs size f g) (arms : List (Arm Stmt)) (n : Nat) :
    (innerOfArms (mapExprsArms size f n arms)).map g = (innerOfArms arms).map g := by
  match arms with
  | [] => rfl
  | ⟨test, body⟩ :: rest =>
    rw [mapExprsArms, innerOfArms, innerOfArms, List.map_append, List.map_append,
      map_innerOfList_mapExprsList hg true body, map_innerOfArms_mapExprsArms hg rest]

end

end

lemma ignoresExprs_declared? : IgnoresExprs size f fun p => p.2.declared? :=
  fun _ s n => declared?_mapExprs s n

lemma ignoresExprs_permitted : IgnoresExprs size f fun p => p.2.permitted p.1 := by
  intro inSwitch s n
  cases s <;> rfl

end Stmt

namespace Body

variable (size : Expr → Nat) (f : Nat → Expr → Expr) (n : Nat)

/-- What can be said of a statement without its expressions stays for all statements in a body. -/
lemma map_inner_mapExprs {β : Type} {g : Bool × Stmt → β} (hg : Stmt.IgnoresExprs size f g)
    (body : Body) : (body.mapExprs size f n).inner.map g = body.inner.map g := by
  cases body with
  | expr value => rfl
  | block body => exact Stmt.map_innerOfList_mapExprsList hg false body n

lemma declared_eq_filterMap (body : Body) :
    body.declared = (body.inner.map fun p => p.2.declared?).filterMap id := by
  rw [List.filterMap_map]
  rfl

lemma declared_mapExprs (body : Body) : (body.mapExprs size f n).declared = body.declared := by
  rw [declared_eq_filterMap, map_inner_mapExprs size f n Stmt.ignoresExprs_declared?,
    ← declared_eq_filterMap]

/-- The sites of a body stay when its expressions are replaced. -/
theorem sitesBy_mapExprs {σ : Type} (scoping : Scoping σ) (body : Body) :
    List.Forall₂ (Site.Becomes f) (body.sitesBy scoping)
      ((body.mapExprs size f n).sitesBy scoping) := by
  cases body with
  | expr value => exact List.Forall₂.cons ⟨n, rfl⟩ List.Forall₂.nil
  | block body =>
    have hdeclared := declared_mapExprs size f n (block body)
    rw [mapExprs] at hdeclared
    rw [mapExprs, sitesBy, sitesBy, Stmt.declaredIn_mapExprsList, hdeclared]
    exact Stmt.sitesOfList_mapExprsList _ body n

/-- Every site of a body with other expressions comes from a site of the body. -/
theorem exists_site_of_mem_mapExprs {σ : Type} {scoping : Scoping σ} {size : Expr → Nat}
    {f : Nat → Expr → Expr} {n : Nat} {body : Body} {site' : Site σ}
    (h : site' ∈ (body.mapExprs size f n).sitesBy scoping) :
    ∃ site ∈ body.sitesBy scoping, ∃ m, site' = ⟨site.locals, f m site.expr⟩ :=
  exists_mem_of_forall₂ (sitesBy_mapExprs size f n scoping body) h

/-- Every site of a body becomes a site of the body with other expressions. -/
theorem exists_mem_sites_mapExprs {σ : Type} {scoping : Scoping σ} {body : Body} {site : Site σ}
    (h : site ∈ body.sitesBy scoping) :
    ∃ m, ⟨site.locals, f m site.expr⟩ ∈ (body.mapExprs size f n).sitesBy scoping := by
  obtain ⟨_, hmem, m, rfl⟩ :=
    exists_mem_of_forall₂ (sitesBy_mapExprs size f n scoping body).flip h
  exact ⟨m, hmem⟩

/-- Every statement in the body is permitted where it stands. -/
def Permitted (body : Body) : Prop := ∀ p ∈ body.inner, p.2.permitted p.1 = true

lemma permitted_mapExprs_iff (body : Body) :
    (body.mapExprs size f n).Permitted ↔ body.Permitted := by
  have hiff : ∀ body : Body, body.Permitted ↔
      ∀ flag ∈ body.inner.map fun p => p.2.permitted p.1, flag = true :=
    fun body => by rw [Permitted, List.forall_mem_map]
  rw [hiff, hiff, map_inner_mapExprs size f n Stmt.ignoresExprs_permitted]

lemma Permitted.loopFree {body : Body} (h : body.Permitted) : body.LoopFree :=
  fun p hp => Stmt.isLoop_of_permitted (h p hp)

end Body

/-! ## What the check has seen -/

/-- The expression at a site is accepted there, and no local that it can see has a reserved
name. -/
def Site.Accepted (names : Names) (site : Site Locals) : Prop :=
  site.locals.Apart names ∧ site.expr.check names site.locals = .ok ()

namespace Stmt

open RowExpr.Expr (bind_eq_ok_iff)

variable {names : Names}

/-- The statement is permitted where it stands, and declares no reserved name. -/
def Admitted (names : Names) (inSwitch : Bool) (s : Stmt) : Prop :=
  s.permitted inSwitch = true ∧ ∀ d ∈ s.declared?, names.reserves d.2 = false

/-- Expressions are accepted at their sites. -/
def AcceptedAt (names : Names) (sites : List (Site Locals)) : Prop :=
  ∀ site ∈ sites, site.expr.check names site.locals = .ok ()

/-- Statements are admitted where they stand. -/
def AdmittedAt (names : Names) (statements : List (Bool × Stmt)) : Prop :=
  ∀ p ∈ statements, p.2.Admitted names p.1

lemma discard_eq_ok_iff {ε α : Type} {m : Except ε α} :
    discard m = .ok () ↔ ∃ a, m = .ok a := by
  cases m with
  | error e => simp [discard, Functor.mapConst, Except.map, Functor.discard]
  | ok a => simp [discard, Functor.mapConst, Except.map, Functor.discard]

lemma checkExpr?_eq_ok {locals : Locals} {e? : Option Expr}
    (h : checkExpr? names locals e? = .ok ()) : AcceptedAt names (e?.toList.map (⟨locals, ·⟩)) := by
  cases e? with
  | none => nofun
  | some e => exact List.forall_mem_singleton.mpr h

mutual

/-- A statement that is accepted has accepted expressions and admitted statements inside, and the
locals after it are those that it declares. -/
lemma check_eq_ok {inSwitch : Bool} {locals locals' : Locals} {s : Stmt}
    (h : s.check names inSwitch locals = .ok locals') :
    locals' = s.after .inOrder locals ∧ AcceptedAt names (s.sites .inOrder locals) ∧
      AdmittedAt names (s.inner inSwitch) := by
  match s with
  | expr value =>
    obtain ⟨_, hvalue, h⟩ := bind_eq_ok_iff.mp h
    cases h
    exact ⟨rfl, List.forall_mem_singleton.mpr hvalue, List.forall_mem_singleton.mpr ⟨rfl, nofun⟩⟩
  | declare kind name init =>
    obtain ⟨_, hinit, h⟩ := bind_eq_ok_iff.mp h
    obtain ⟨rfl, hname⟩ := Locals.declare_eq_ok h
    refine ⟨rfl, checkExpr?_eq_ok hinit, List.forall_mem_singleton.mpr ⟨rfl, ?_⟩⟩
    rintro _ ⟨⟩
    exact hname
  | return_ value =>
    obtain ⟨_, hvalue, h⟩ := bind_eq_ok_iff.mp h
    cases h
    exact ⟨rfl, checkExpr?_eq_ok hvalue, List.forall_mem_singleton.mpr ⟨rfl, nofun⟩⟩
  | block body =>
    obtain ⟨_, hbody, h⟩ := bind_eq_ok_iff.mp h
    cases h
    obtain ⟨_, hbody⟩ := discard_eq_ok_iff.mp hbody
    obtain ⟨-, hsites, hinner⟩ := checkList_eq_ok hbody
    exact ⟨rfl, hsites, List.forall_mem_cons.mpr ⟨⟨rfl, nofun⟩, hinner⟩⟩
  | if_ test yes none =>
    obtain ⟨_, htest, h⟩ := bind_eq_ok_iff.mp h
    obtain ⟨_, hyes, h⟩ := bind_eq_ok_iff.mp h
    cases h
    obtain ⟨_, hyes⟩ := discard_eq_ok_iff.mp hyes
    obtain ⟨-, hsites, hinner⟩ := check_eq_ok hyes
    refine ⟨rfl, List.forall_mem_cons.mpr ⟨htest, ?_⟩,
      List.forall_mem_cons.mpr ⟨⟨rfl, nofun⟩, ?_⟩⟩
    · exact List.forall_mem_append.mpr ⟨hsites, nofun⟩
    · exact List.forall_mem_append.mpr ⟨hinner, nofun⟩
  | if_ test yes (some no) =>
    obtain ⟨_, htest, h⟩ := bind_eq_ok_iff.mp h
    obtain ⟨_, hyes, h⟩ := bind_eq_ok_iff.mp h
    obtain ⟨_, hno, h⟩ := bind_eq_ok_iff.mp h
    cases h
    obtain ⟨_, hyes⟩ := discard_eq_ok_iff.mp hyes
    obtain ⟨_, hno⟩ := discard_eq_ok_iff.mp hno
    obtain ⟨-, hsites, hinner⟩ := check_eq_ok hyes
    obtain ⟨-, hsitesNo, hinnerNo⟩ := check_eq_ok hno
    refine ⟨rfl, List.forall_mem_cons.mpr ⟨htest, ?_⟩,
      List.forall_mem_cons.mpr ⟨⟨rfl, nofun⟩, ?_⟩⟩
    · exact List.forall_mem_append.mpr ⟨hsites, hsitesNo⟩
    · exact List.forall_mem_append.mpr ⟨hinner, hinnerNo⟩
  | switch subject arms =>
    obtain ⟨_, hsubject, h⟩ := bind_eq_ok_iff.mp h
    obtain ⟨_, harms, h⟩ := bind_eq_ok_iff.mp h
    cases h
    obtain ⟨_, harms⟩ := discard_eq_ok_iff.mp harms
    obtain ⟨hsites, hinner⟩ := checkArms_eq_ok harms
    exact ⟨rfl, List.forall_mem_cons.mpr ⟨hsubject, hsites⟩,
      List.forall_mem_cons.mpr ⟨⟨rfl, nofun⟩, hinner⟩⟩
  | break_ =>
    simp only [check] at h
    split at h
    · rename_i hswitch
      cases h
      exact ⟨rfl, nofun, List.forall_mem_singleton.mpr ⟨hswitch, nofun⟩⟩
    · cases h
  | empty =>
    cases h
    exact ⟨rfl, nofun, List.forall_mem_singleton.mpr ⟨rfl, nofun⟩⟩
  | continue_ | for_ _ _ _ _ | forEach _ _ _ _ _ | while_ _ _ | doWhile _ _ => cases h
termination_by structural s

lemma checkList_eq_ok {inSwitch : Bool} {locals locals' : Locals} {body : List Stmt}
    (h : checkList names inSwitch locals body = .ok locals') :
    locals' = afterList .inOrder locals body ∧
      AcceptedAt names (sitesOfList .inOrder locals body) ∧
      AdmittedAt names (innerOfList inSwitch body) := by
  match body with
  | [] =>
    cases h
    exact ⟨rfl, nofun, nofun⟩
  | s :: rest =>
    obtain ⟨_, hs, h⟩ := bind_eq_ok_iff.mp h
    obtain ⟨rfl, hsites, hinner⟩ := check_eq_ok hs
    obtain ⟨rfl, hsitesRest, hinnerRest⟩ := checkList_eq_ok h
    exact ⟨rfl, List.forall_mem_append.mpr ⟨hsites, hsitesRest⟩,
      List.forall_mem_append.mpr ⟨hinner, hinnerRest⟩⟩
termination_by structural body

lemma checkArms_eq_ok {locals locals' : Locals} {arms : List (Arm Stmt)}
    (h : checkArms names locals arms = .ok locals') :
    AcceptedAt names (sitesOfArms .inOrder locals arms) ∧ AdmittedAt names (innerOfArms arms) := by
  match arms with
  | [] => exact ⟨nofun, nofun⟩
  | ⟨test, body⟩ :: rest =>
    obtain ⟨_, htest, h⟩ := bind_eq_ok_iff.mp h
    obtain ⟨_, hbody, h⟩ := bind_eq_ok_iff.mp h
    obtain ⟨rfl, hsites, hinner⟩ := checkList_eq_ok hbody
    obtain ⟨hsitesRest, hinnerRest⟩ := checkArms_eq_ok h
    refine ⟨List.forall_mem_append.mpr ⟨List.forall_mem_append.mpr ⟨?_, hsites⟩, hsitesRest⟩,
      List.forall_mem_append.mpr ⟨hinner, hinnerRest⟩⟩
    exact checkExpr?_eq_ok htest
termination_by structural arms

end

end Stmt

/-! ## Row functions -/

namespace RowFunction

variable {f : RowFunction} {space : String}

lemma body_canonical (f : RowFunction) (space : String) :
    (f.canonical space).body =
      f.body.mapExprs (fun _ => 0) (fun _ e => e.canonical (f.names space)) 0 :=
  Body.canonical_eq_mapExprs f.body

/-- The canonical form of a row function has the canonical forms of its expressions. -/
lemma exprs_canonical (hloop : f.body.LoopFree) :
    (f.canonical space).body.exprs = f.body.exprs.map (Expr.canonical (f.names space)) := by
  rw [body_canonical, Body.exprs_mapExprs 0 hloop, Expr.mapFrom_const]

lemma admitted_of_check (h : f.check space = .ok ()) :
    Stmt.AcceptedAt (f.names space) f.body.sites ∧
      Stmt.AdmittedAt (f.names space) f.body.inner := by
  unfold check at h
  split at h
  · rename_i value hbody
    rw [hbody]
    exact ⟨List.forall_mem_singleton.mpr h, nofun⟩
  · rename_i body hbody
    rw [hbody]
    obtain ⟨_, hlist⟩ := Stmt.discard_eq_ok_iff.mp h
    exact (Stmt.checkList_eq_ok hlist).2

/-- A row function that is accepted declares no reserved name. -/
theorem reserves_eq_false_of_check (h : f.check space = .ok ()) :
    ∀ d ∈ f.body.declared, (f.names space).reserves d.2 = false := by
  intro d hd
  obtain ⟨p, hp, hd⟩ := List.mem_filterMap.mp hd
  exact ((admitted_of_check h).2 p hp).2 d hd

/-- A row function that is accepted has accepted expressions at all its sites, and statements that
are permitted. -/
theorem check_eq_ok (h : f.check space = .ok ()) :
    (∀ site ∈ f.body.sites, site.Accepted (f.names space)) ∧ f.body.Permitted := by
  -- no reserved name is ever declared, so that the locals stay apart from the start on
  have hkeeps : Scoping.inOrder.Keeps (fun d => (f.names space).reserves d.2 = false)
      (Locals.Apart (f.names space)) :=
    ⟨fun _ hapart => hapart.enter, fun hname hapart => hapart.add _ hname⟩
  obtain ⟨hsites, hinner⟩ := admitted_of_check h
  have hapart := Body.keeps_sitesBy hkeeps (reserves_eq_false_of_check h)
    fun _ _ => Locals.apart_start
  exact ⟨fun site hsite => ⟨hapart site hsite, hsites site hsite⟩, fun p hp => (hinner p hp).1⟩

lemma permitted_canonical (hcheck : f.check space = .ok ()) :
    (f.canonical space).body.Permitted := by
  rw [body_canonical]
  exact (Body.permitted_mapExprs_iff _ _ _ _).mpr (check_eq_ok hcheck).2

end RowFunction

end RowExpr
