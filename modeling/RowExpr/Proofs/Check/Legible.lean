/-
# Accepted expressions are legible

The grammar reads more than it can read back from generated code: a reserved word in the place of a
name, `this`, a call of any value.  The check accepts none of these.  So the expressions of a row
function that was read and accepted are legible (`RowFunction.Spelled.legible_exprs`), as the names
in them are the row parameter, locals and constants, which are all spelled as names.
-/
import RowExpr.Proofs.Check.Sites
import RowExpr.Proofs.Grammar.Code

namespace RowExpr

open Token (isName)

/-- The row parameter and the locals are spelled as names. -/
structure Locals.Named (names : Names) (locals : Locals) : Prop where
  param : ∀ name ∈ names.param, isName name = true
  has : ∀ name, locals.has name = true → isName name = true

namespace Expr

variable {names : Names} {locals : Locals}

lemma legible_iff (e : Expr) : e.Legible ↔ e.IsLegible ∧ ∀ c ∈ e.children, c.Legible :=
  forall_subterms_iff e

lemma legible_identifier {name : String} (h : isName name) : (identifier name).Legible :=
  (legible_iff _).mpr ⟨h, by simp [children]⟩

lemma isName_of_ofName? {name : String} (h : (Constant.ofName? name).isSome) : isName name := by
  obtain ⟨c, hc⟩ := Option.isSome_iff_exists.mp h
  have hname := List.find?_some hc
  rw [← beq_iff_eq.mp hname]
  cases c <;> decide

/-! ## What is not checked as an expression -/

/-- A chain of names joined by dots. -/
lemma legible_of_isPath {e : Expr} (hpath : e.isPath = true) (hnamed : e.Named) : e.Legible := by
  induction e using parts_induction with
  | node e ih =>
    cases e with
    | identifier name => exact legible_identifier hnamed.1
    | member owner name =>
      obtain ⟨howner, hname⟩ := ((spelled_iff _).mp hnamed.2).1
      have hmem : owner ∈ (member owner name).children := by simp [children]
      refine (legible_iff _).mpr ⟨hname, List.forall_mem_singleton.mpr ?_⟩
      exact ih owner hmem hpath ⟨howner, hnamed.2.child hmem⟩
    | _ => cases hpath

lemma isPath_of_isNamespace {space : String} {e : Expr} (h : e.isNamespace space = true) :
    e.isPath = true := by
  cases e with
  | identifier name => rfl
  | member owner name => exact (Bool.and_eq_true_iff.mp h).2
  | _ => cases h

/-- A member that names an operator belongs to a chain of names that ends with the namespace. -/
lemma isPath_of_member {space name : String} {owner : Expr}
    (h : ((member owner name).operatorName? space).isSome) : owner.isPath = true := by
  have hspace : owner.isNamespace space = true := by
    by_contra hspace
    simp [operatorName?, hspace] at h
  exact isPath_of_isNamespace hspace

lemma isPath_of_index {space : String} {owner key : Expr}
    (h : ((index owner key).operatorName? space).isSome) :
    owner.isPath = true ∧ key.keyName?.isSome := by
  cases hname : key.keyName? with
  | none => simp [operatorName?, hname] at h
  | some name =>
    have hspace : owner.isNamespace space = true := by
      by_contra hspace
      simp [operatorName?, hname, hspace] at h
    exact ⟨isPath_of_isNamespace hspace, rfl⟩

/-- The row parameter. -/
lemma legible_of_isRow (hnames : locals.Named names) {e : Expr}
    (h : e.isRow names locals = true) : e.Legible := by
  cases e with
  | identifier name =>
    obtain ⟨hparam, _⟩ := Bool.and_eq_true_iff.mp h
    exact legible_identifier (hnames.param name (by simpa [Names.isParam] using hparam))
  | _ => cases h

/-- A key whose name is known is a literal. -/
lemma legible_of_keyName? {key : Expr} (h : key.keyName?.isSome) (hspelled : key.Spelled) :
    key.Legible := by
  cases key with
  | literal value =>
    have hnode := ((spelled_iff _).mp hspelled).1
    refine (legible_iff _).mpr ⟨?_, by simp [children]⟩
    cases value <;> exact hnode
  | _ => cases h

/-- A column of the row. -/
lemma legible_of_readsColumn (hnames : locals.Named names) {e : Expr} {name : String}
    (h : e.ReadsColumn names locals name) (hspelled : e.Spelled) : e.Legible := by
  have hnode := ((spelled_iff e).mp hspelled).1
  cases h with
  | member howner =>
    exact (legible_iff _).mpr
      ⟨hnode.2, List.forall_mem_singleton.mpr (legible_of_isRow hnames howner)⟩
  | @index _ key _ howner hkey =>
    have hlegible : key.Legible :=
      legible_of_keyName? (by rw [hkey]; rfl) (hspelled.child (by simp [children]))
    exact (legible_iff _).mpr
      ⟨trivial, forall_mem_pair_iff.mpr ⟨legible_of_isRow hnames howner, hlegible⟩⟩

/-- An operator by its name or through the namespace. -/
lemma legible_of_operatorName? {space : String} {callee : Expr} (hnamed : callee.Named)
    (h : (callee.operatorName? space).isSome) :
    callee.Legible ∧ callee.wrapsAsOwner = false := by
  have hnode := ((spelled_iff _).mp hnamed.2).1
  cases callee with
  | identifier name => exact ⟨legible_identifier hnamed.1, rfl⟩
  | member owner name =>
    have howner : owner.Named := ⟨hnode.1, hnamed.2.child (by simp [children])⟩
    have hlegible := legible_of_isPath (isPath_of_member h) howner
    exact ⟨(legible_iff _).mpr ⟨hnode.2, List.forall_mem_singleton.mpr hlegible⟩, rfl⟩
  | index owner key =>
    obtain ⟨hpath, hname⟩ := isPath_of_index h
    have howner : owner.Named := ⟨hnode, hnamed.2.child (by simp [children])⟩
    have hkey : key.Spelled := hnamed.2.child (by simp [children])
    exact ⟨(legible_iff _).mpr ⟨trivial, forall_mem_pair_iff.mpr
      ⟨legible_of_isPath hpath howner, legible_of_keyName? hname hkey⟩⟩, rfl⟩
  | _ => cases h

/-- A callee that is accepted. -/
lemma legible_of_checkCallee (hnames : locals.Named names) {callee : Expr} (hnamed : callee.Named)
    (h : callee.checkCallee names locals = .ok ()) :
    callee.Legible ∧ callee.wrapsAsOwner = false := by
  cases acceptedCallee_of_checkCallee h with
  | operator hname _ => exact legible_of_operatorName? hnamed (by rw [hname]; rfl)
  | column _ hcolumn _ =>
    refine ⟨legible_of_readsColumn hnames hcolumn hnamed.2, ?_⟩
    cases hcolumn <;> rfl

/-! ## Accepted expressions -/

lemma Assignable.isTarget {e : Expr} (h : e.Assignable locals) : Grammar.isTarget e = true := by
  cases e with
  | identifier _ | member _ _ | index _ _ => rfl
  | _ => exact absurd h id

/-- An ordinary node that is accepted. -/
lemma isLegible_of_confined (hnames : locals.Named names) {e : Expr} (hspelled : e.IsSpelled)
    (hordinary : e.isOrdinary names locals = true) (h : e.Confined locals) : e.IsLegible := by
  cases e with
  | literal value => cases value <;> exact hspelled
  | identifier name => exact hnames.has name h
  | member _ _ => exact hspelled.2
  | object _ | template _ _ => exact hspelled
  | update _ _ _ | assign _ _ _ => exact Assignable.isTarget h
  | call _ _ => cases hordinary
  | this | new _ _ => exact h.elim
  | column _ | constant _ | opCall _ _ | opRef _ | fnCall _ _ => exact hspelled.elim
  | _ => trivial

/-- An expression that was read and is accepted is legible. -/
theorem legible_of_check (hnames : locals.Named names) {e : Expr} (hspelled : e.Spelled)
    (h : e.check names locals = .ok ()) : e.Legible := by
  induction e using parts_induction with
  | node e ih =>
    have hnode := ((spelled_iff _).mp hspelled).1
    cases accepted_of_check ((written_iff e).mp hspelled.written).1 h with
    | column hcolumn _ => exact legible_of_readsColumn hnames hcolumn hspelled
    | constant hname => exact legible_identifier (isName_of_ofName? hname)
    | @call callee args hcallee hargs =>
      have hnamed : callee.Named := ⟨hnode, hspelled.child (by simp [children])⟩
      obtain ⟨hcallee, hwrap⟩ := legible_of_checkCallee hnames hnamed hcallee
      refine (legible_iff _).mpr ⟨hwrap, List.forall_mem_cons.mpr ⟨hcallee, fun c hc => ?_⟩⟩
      have hmem : c ∈ (call callee args).children := List.mem_cons_of_mem _ hc
      exact ih c hmem (hspelled.child hmem) (hargs c hc)
    | node hordinary hself hparts =>
      refine (legible_iff e).mpr ⟨isLegible_of_confined hnames hnode hordinary hself, ?_⟩
      exact fun c hc => ih c hc (hspelled.child hc) (hparts c hc)

end Expr

/-! ## The expressions of a row function -/

namespace Locals

variable {names : Names} {locals : Locals}

lemma named_start (hparam : ∀ name ∈ names.param, isName name = true) : Named names {} where
  param := hparam
  has _ hname := by cases hname

lemma Named.enter (h : locals.Named names) : locals.enter.Named names := ⟨h.param, h.has⟩

lemma Named.add (h : locals.Named names) (kind : DeclKind) {name : String}
    (hname : isName name = true) : (locals.add kind name).Named names := by
  refine ⟨h.param, fun other hother => ?_⟩
  rw [has_add, Bool.or_eq_true, beq_iff_eq] at hother
  rcases hother with rfl | hother
  · exact hname
  · exact h.has other hother

end Locals

namespace Stmt

/-- The statements are spelled, and none is a loop. -/
def Plain (statements : List (Bool × Stmt)) : Prop :=
  ∀ p ∈ statements, p.2.IsSpelled ∧ p.2.isLoop = false

lemma plain_self {inSwitch : Bool} {s : Stmt} (h : Plain (s.inner inSwitch)) :
    s.IsSpelled ∧ s.isLoop = false :=
  h _ (mem_inner_self inSwitch s)

end Stmt

namespace RowFunction

variable {f : RowFunction} {space : String}

/-- The statements of a row function that was read and is accepted. -/
lemma Spelled.plain (h : f.Spelled) (hcheck : f.check space = .ok ()) :
    Stmt.Plain f.body.inner :=
  fun p hp => ⟨h.body.inner p hp, (check_eq_ok hcheck).2.loopFree p hp⟩

/-- A row function that was read declares names. -/
lemma Spelled.isName_declared (h : f.Spelled) : ∀ d ∈ f.body.declared, isName d.2 = true := by
  intro d hd
  obtain ⟨⟨inSwitch, s⟩, hs, hd⟩ := List.mem_filterMap.mp hd
  have hspelled := h.body.inner _ hs
  cases s with
  | declare kind name init =>
    cases hd
    exact hspelled.1
  | _ => cases hd

/-- The locals in a row function that was read are spelled as names wherever they can be seen. -/
lemma Spelled.named_sites (h : f.Spelled) :
    ∀ site ∈ f.body.sites, site.locals.Named (f.names space) := by
  have hkeeps : Scoping.inOrder.Keeps (fun d => isName d.2 = true)
      (Locals.Named (f.names space)) :=
    ⟨fun _ hnamed => hnamed.enter, fun hname hnamed => hnamed.add _ hname⟩
  exact Body.keeps_sitesBy hkeeps h.isName_declared fun _ _ => Locals.named_start h.param

/-- The expressions of an accepted row function stand at its sites. -/
lemma exists_site_of_check (hcheck : f.check space = .ok ()) {e : Expr} (he : e ∈ f.body.exprs) :
    ∃ site ∈ f.body.sites, site.expr = e := by
  have hsites : f.body.sites.map Site.expr = f.body.exprs :=
    Body.map_expr_sitesBy (check_eq_ok hcheck).2.loopFree
  exact List.mem_map.mp (hsites ▸ he)

/-- The expressions of a row function that was read and is accepted are legible. -/
theorem Spelled.legible_exprs (h : f.Spelled) (hcheck : f.check space = .ok ()) :
    ∀ e ∈ f.body.exprs, e.Legible := by
  intro e he
  obtain ⟨site, hsite, rfl⟩ := exists_site_of_check hcheck he
  have haccepted := (check_eq_ok hcheck).1 site hsite
  exact Expr.legible_of_check (h.named_sites site hsite) (h.body.exprs _ he) haccepted.2

end RowFunction

end RowExpr
