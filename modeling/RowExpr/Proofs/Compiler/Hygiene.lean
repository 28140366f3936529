/-
# Locals and the names of generated code

Generated code has names of its own: the number of the row, the columns and the operator results are
the parameters `row`, `data` and `op`, and functions are reached through `fun`.  Locals keep the
names they are written with.  The check reserves the operator namespace for itself, which is `op`
unless it is chosen otherwise, but none of these four as such, so a local can stand between the code
of a column, of an operator or of a function and the name that it means.

This file says where it happens: a compiled row function is hygienic exactly if, as it is written,
no local is in scope where the code needs its name for something else.  Scopes are those of
generated code (`Scoping.hoisted`), not those that the check goes by: a local is in scope in its
whole block, and one declared with `var` in the whole function.  No local that is in scope anywhere
has a name that is reserved.

* `Expr.Written.allCodeNames_numbered`: the names in the code of a compiled expression can be read
  off the expression as it is written;
* `RowFunction.hygienic_numbered_iff`: a compiled row function is hygienic exactly if it is
  unshadowed as it is written;
* `RowFunction.reserves_eq_false_of_mem_scope`: no local in scope has a reserved name.
-/
import RowExpr.Proofs.Check.Sandbox
import RowExpr.Proofs.Compiler.Batch

namespace RowExpr

namespace Expr

/-! ## Names in the code of compiled expressions -/

/-- The names of generated code that the code of a node refers to, apart from its parts. -/
def codeNames : Expr → List String
  | column _ => [Code.dataParam, Code.rowParam]
  | opRef _ => [Code.opParam]
  | fnCall _ _ => [Code.functions]
  | _ => []

/-- The names of generated code that the code of an expression refers to, from left to right. -/
def allCodeNames (e : Expr) : List String := e.subterms.flatMap codeNames

lemma allCodeNames_eq (e : Expr) :
    e.allCodeNames = e.codeNames ++ e.children.flatMap allCodeNames := by
  unfold allCodeNames
  rw [subterms_eq, List.flatMap_cons, List.flatMap_assoc]

/-! ## Names that an expression needs as it is written -/

/-- What the code of a node is made of: names of generated code, and the code of some parts. -/
structure Makeup where
  names : List String
  parts : List Expr

/-- What the code of a written node is made of.  A column is read at the row.  An operator call
leaves a reference to its result, and the code of its arguments goes elsewhere.  A call of a
function keeps its arguments.  All other nodes only have the code of their parts. -/
def makeup (names : Names) (registry : Registry) : Expr → Makeup
  | member owner name =>
    if owner.isParam names then ⟨[Code.dataParam, Code.rowParam], []⟩
    else ⟨[], (member owner name).children⟩
  | index owner key =>
    match owner.isParam names, key.keyName? with
    | true, some _ => ⟨[Code.dataParam, Code.rowParam], []⟩
    | _, _ => ⟨[], (index owner key).children⟩
  | call callee args =>
    match callee.operatorName? names.space with
    | some name =>
      if (registry.operator? name).isSome then ⟨[Code.opParam], []⟩ else ⟨[Code.functions], args⟩
    | none => ⟨[], (call callee args).children⟩
  | e => ⟨[], e.children⟩

variable {names : Names} {registry : Registry}

lemma mem_children_of_mem_makeup {e c : Expr} (h : c ∈ (e.makeup names registry).parts) :
    c ∈ e.children := by
  cases e with
  | member owner name =>
    simp only [makeup] at h
    split at h
    · cases h
    · exact h
  | index owner key =>
    simp only [makeup] at h
    split at h
    · cases h
    · exact h
  | call callee args =>
    simp only [makeup] at h
    split at h
    · split at h
      · cases h
      · exact List.mem_cons_of_mem callee h
    · exact h
  | _ => exact h

/-- The names of generated code that the code of a written expression needs, from left to right. -/
def neededNames (names : Names) (registry : Registry) (e : Expr) : List String :=
  (e.makeup names registry).names ++
    (e.makeup names registry).parts.attach.flatMap fun c => neededNames names registry c.1
termination_by sizeOf e
decreasing_by exact sizeOf_lt_of_mem_children (mem_children_of_mem_makeup c.2)

lemma neededNames_eq (e : Expr) :
    e.neededNames names registry = (e.makeup names registry).names ++
      (e.makeup names registry).parts.flatMap (neededNames names registry) := by
  rw [neededNames, List.flatMap_subtype, List.unattach_attach]
  exact fun _ _ => rfl

/-! ## Compiled expressions have the names they need -/

lemma allCodeNames_numberedList {es : List Expr}
    (h : ∀ e ∈ es, ∀ first, ((e.canonical names).numbered registry first).allCodeNames =
      e.neededNames names registry) (first : Nat) :
    (numberedList registry first (es.map (canonical names))).flatMap allCodeNames =
      es.flatMap (neededNames names registry) := by
  induction es generalizing first with
  | nil => rfl
  | cons e rest ih =>
    rw [List.forall_mem_cons] at h
    rw [List.map_cons, numberedList, List.flatMap_cons, List.flatMap_cons, h.1, ih h.2]

/-- A node that is kept only has the names of its parts. -/
lemma allCodeNames_of_kept {e : Expr} {es : List Expr} {first : Nat}
    (hne : ∀ name args, e ≠ opCall name args) (hchildren : e.children = es.map (canonical names))
    (hnames : (e.numbered registry first).codeNames = [])
    (h : ∀ c ∈ es, ∀ first, ((c.canonical names).numbered registry first).allCodeNames =
      c.neededNames names registry) :
    (e.numbered registry first).allCodeNames =
      [] ++ es.flatMap (neededNames names registry) := by
  rw [allCodeNames_eq, hnames, children_numbered first hne, hchildren, allCodeNames_numberedList h]

/-- The code of a written expression, when it is compiled, refers to the names that it needs. -/
theorem Written.allCodeNames_numbered {e : Expr} (h : e.Written) (first : Nat) :
    ((e.canonical names).numbered registry first).allCodeNames =
      e.neededNames names registry := by
  induction e using parts_induction generalizing first with
  | node e ih =>
    have hparts : ∀ c ∈ e.children, ∀ first,
        ((c.canonical names).numbered registry first).allCodeNames =
          c.neededNames names registry :=
      fun c hc first => ih c hc (h.child hc) first
    rw [neededNames_eq]
    cases e with
    | identifier name =>
      simp only [canonical]
      split <;> rfl
    | member owner name =>
      cases hparam : owner.isParam names with
      | true =>
        simp only [canonical, makeup, hparam, if_true]
        rfl
      | false =>
        simp only [canonical, makeup, hparam, Bool.false_eq_true, if_false]
        exact allCodeNames_of_kept (by simp) rfl rfl hparts
    | index owner key =>
      cases hparam : owner.isParam names with
      | false =>
        simp only [canonical, makeup, hparam]
        exact allCodeNames_of_kept (by simp) rfl rfl hparts
      | true =>
        cases hkey : key.keyName? with
        | none =>
          simp only [canonical, makeup, hparam, hkey]
          exact allCodeNames_of_kept (by simp) rfl rfl hparts
        | some name =>
          simp only [canonical, makeup, hparam, hkey]
          rfl
    | call callee args =>
      have hargs := (List.forall_mem_cons.mp hparts).2
      cases hname : callee.operatorName? names.space with
      | none =>
        simp only [canonical, makeup, hname, canonicalList_eq]
        exact allCodeNames_of_kept (by simp) rfl rfl hparts
      | some name =>
        cases hoperator : registry.operator? name with
        | some o =>
          have hsome : (registry.operator? name).isSome := by simp [hoperator]
          simp only [canonical, makeup, hname, numbered_operator first hsome, hsome, if_true]
          rfl
        | none =>
          have hfunction := allCodeNames_numberedList hargs first
          simp only [canonical, makeup, hname, canonicalList_eq,
            numbered_function first hoperator, hoperator]
          rw [allCodeNames_eq]
          exact congrArg ([Code.functions] ++ ·) hfunction
    | column _ | constant _ | opCall _ _ | opRef _ | fnCall _ _ =>
      exact absurd ((written_iff _).mp h).1 (by simp [isWritten])
    | _ => exact allCodeNames_of_kept (by simp [canonical]) (children_canonical rfl) rfl hparts

end Expr

/-! ## Scopes of generated code -/

namespace Scoping

/-- The names that are declared for a block: those of `const` and `let`. -/
def blockNames (own : List Declaration) : List String :=
  (own.filter fun d => d.1 != .var).map Prod.snd

/-- The names that are declared for a whole function: those of `var`. -/
def functionNames (all : List Declaration) : List String :=
  (all.filter fun d => d.1 == .var).map Prod.snd

/-- Scopes in generated code, as lists of names.  A local is in scope in its whole block, in front
of its declaration as well, and one that is declared with `var` in the whole function. -/
def hoisted : Scoping (List String) where
  start own all := blockNames own ++ functionNames all
  enter own scope := blockNames own ++ scope
  declare scope _ _ := scope

variable {p : String → Prop} {declarations : List Declaration}

lemma forall_mem_blockNames (h : ∀ d ∈ declarations, p d.2) :
    ∀ name ∈ blockNames declarations, p name :=
  List.forall_mem_map.mpr fun d hd => h d (List.mem_of_mem_filter hd)

lemma forall_mem_functionNames (h : ∀ d ∈ declarations, p d.2) :
    ∀ name ∈ functionNames declarations, p name :=
  List.forall_mem_map.mpr fun d hd => h d (List.mem_of_mem_filter hd)

/-- All names in scope are declared somewhere. -/
lemma forall_mem_hoisted {body : Body} (h : ∀ d ∈ body.declared, p d.2) :
    ∀ site ∈ body.sitesBy hoisted, ∀ name ∈ site.locals, p name := by
  have hkeeps : hoisted.Keeps (fun d => p d.2) (fun scope => ∀ name ∈ scope, p name) :=
    ⟨fun hown hscope => List.forall_mem_append.mpr ⟨forall_mem_blockNames hown, hscope⟩,
      fun _ hscope => hscope⟩
  refine Body.keeps_sitesBy hkeeps h fun own hown => ?_
  exact List.forall_mem_append.mpr ⟨forall_mem_blockNames hown, forall_mem_functionNames h⟩

end Scoping

/-! ## Hygiene -/

namespace RowFunction

/-- No local stands between a node of a compiled row function and a name of generated code: where a
column is read, none that is in scope is called `data` or `row`, where an operator result is read,
none is called `op`, and where a function is called, none is called `fun`. -/
def Hygienic (g : RowFunction) : Prop :=
  ∀ site ∈ g.body.sitesBy .hoisted, ∀ e ∈ site.expr.subterms, ∀ name ∈ e.codeNames,
    name ∉ site.locals

/-- No expression of a row function, as it is written, stands in the scope of a local whose name its
code needs for something else. -/
def Unshadowed (space : String) (registry : Registry) (f : RowFunction) : Prop :=
  ∀ site ∈ f.body.sitesBy .hoisted, ∀ name ∈ site.expr.neededNames (f.names space) registry,
    name ∉ site.locals

lemma hygienic_iff (g : RowFunction) :
    g.Hygienic ↔
      ∀ site ∈ g.body.sitesBy .hoisted, ∀ name ∈ site.expr.allCodeNames, name ∉ site.locals := by
  simp only [Hygienic, Expr.allCodeNames, List.mem_flatMap, forall_exists_index, and_imp]
  exact ⟨fun h site hsite name e he hname => h site hsite e he name hname,
    fun h site hsite e he name hname => h site hsite name e he hname⟩

variable {text space : String} {registry : Registry} {f : RowFunction}

/-- The compiled form of a row function is hygienic exactly if the row function is unshadowed. -/
theorem hygienic_numbered_iff (hparse : RowFunction.parse text = .ok f) (first : Nat) :
    ((f.canonical space).numbered registry first).Hygienic ↔ f.Unshadowed space registry := by
  have hnames : ∀ site ∈ f.body.sitesBy .hoisted, ∀ m,
      ((site.expr.canonical (f.names space)).numbered registry m).allCodeNames =
        site.expr.neededNames (f.names space) registry := by
    intro site hsite m
    have hwritten := written_of_parse hparse _ (f.body.expr_mem_exprs site hsite)
    exact hwritten.allCodeNames_numbered m
  rw [hygienic_iff]
  constructor
  · intro h site hsite name hname
    -- the site is carried along by the canonical form and by the numbering
    obtain ⟨_, hcanonical⟩ := Body.exists_mem_sites_mapExprs (fun _ => 0)
      (fun _ e => e.canonical (f.names space)) 0 hsite
    rw [← body_canonical] at hcanonical
    obtain ⟨m, hmem⟩ := Body.exists_mem_sites_mapExprs (Expr.operatorCount registry)
      (fun n e => e.numbered registry n) first hcanonical
    exact h _ hmem name (by rwa [hnames site hsite m])
  · -- and every site of the compiled function comes from one that was written
    intro h site'' hsite'' name hname
    obtain ⟨site', hsite', m, rfl⟩ := Body.exists_site_of_mem_mapExprs hsite''
    rw [body_canonical] at hsite'
    obtain ⟨site, hsite, _, rfl⟩ := Body.exists_site_of_mem_mapExprs hsite'
    rw [hnames site hsite m] at hname
    exact h site hsite name hname

/-- No local that is in scope anywhere in a compiled row function has a reserved name. -/
theorem reserves_eq_false_of_mem_scope (hcheck : f.check space = .ok ()) (registry : Registry)
    (first : Nat) :
    ∀ site ∈ ((f.canonical space).numbered registry first).body.sitesBy .hoisted,
      ∀ name ∈ site.locals, (f.names space).reserves name = false := by
  have hdeclared : ((f.canonical space).numbered registry first).body.declared =
      f.body.declared := by
    rw [numbered, Body.declared_mapExprs, body_canonical, Body.declared_mapExprs]
  refine Scoping.forall_mem_hoisted ?_
  rw [hdeclared]
  exact reserves_eq_false_of_check hcheck

end RowFunction

namespace Compiler

variable {τ : Type} (c : Compiler τ)

/-- Every definition of a set that compiles is compiled, under its own name. -/
lemma functionsFrom_eq_ok {calls : List OperatorCall} {defs : Definitions}
    {r : Compiled RowFunction} (h : c.functionsFrom calls defs = .ok r) :
    List.Forall₂ (fun (entry : String × Definition) (tree : String × RowFunction) =>
      tree.1 = entry.1 ∧ ∃ before after, c.function entry.2 before = .ok (tree.2, after))
      defs r.values := by
  induction defs generalizing calls r with
  | nil =>
    cases h
    exact List.Forall₂.nil
  | cons entry rest ih =>
    obtain ⟨name, d⟩ := entry
    simp only [functionsFrom] at h
    obtain ⟨⟨g, after⟩, hfunction, h⟩ := Expr.bind_eq_ok_iff.mp h
    obtain ⟨compiled, hrest, h⟩ := Expr.bind_eq_ok_iff.mp h
    cases h
    have hok : c.function d calls = .ok (g, after) := by
      cases hd : c.function d calls with
      | error cause => simp [hd, Except.mapError] at hfunction
      | ok p => simpa [hd, Except.mapError] using hfunction
    exact List.Forall₂.cons ⟨rfl, calls, after, hok⟩ (ih hrest)

/-- What a set of definitions compiles to: what the host makes of the code of the compiled row
functions. -/
lemma compileFrom_eq_ok {calls : List OperatorCall} {defs : Definitions} {r : Compiled τ}
    (h : c.compileFrom calls defs = .ok r) :
    ∃ trees : Table RowFunction, c.functionsFrom calls defs = .ok ⟨r.ops, trees⟩ ∧
      List.Forall₂ (fun (tree : String × RowFunction) (value : String × τ) =>
        value.1 = tree.1 ∧ c.host Code.params tree.2.body.code = .ok value.2) trees r.values := by
  induction defs generalizing calls r with
  | nil =>
    cases h
    exact ⟨[], rfl, List.Forall₂.nil⟩
  | cons entry rest ih =>
    obtain ⟨name, d⟩ := entry
    simp only [compileFrom, compileOne, generate_eq_map] at h
    obtain ⟨⟨value, after⟩, hvalue, h⟩ := Expr.bind_eq_ok_iff.mp h
    obtain ⟨compiled, hrest, h⟩ := Expr.bind_eq_ok_iff.mp h
    cases h
    obtain ⟨trees, htrees, hvalues⟩ := ih hrest
    cases hd : c.function d calls with
    | error cause => simp [hd, Except.mapError, Except.map, bind, Except.bind] at hvalue
    | ok p =>
      obtain ⟨g, ops⟩ := p
      cases hhost : c.host Code.params g.body.code with
      | error e => simp [hd, hhost, Except.mapError, Except.map, bind, Except.bind] at hvalue
      | ok v =>
        simp only [hd, hhost, Except.mapError, Except.map, bind, Except.bind, pure, Except.pure,
          Except.ok.injEq, Prod.mk.injEq] at hvalue
        obtain ⟨rfl, rfl⟩ := hvalue
        refine ⟨(name, g) :: trees, ?_, List.Forall₂.cons ⟨rfl, hhost⟩ hvalues⟩
        simp only [functionsFrom, hd, htrees, Except.mapError, bind, Except.bind]
        rfl

/-- A set of definitions that compiles is compiled to row functions, whose code the host turns into
the values.  Each of them is hygienic exactly if its definition, as it is written, is unshadowed.
No local that is in scope anywhere in it has the name of the row parameter, of the operator
namespace, of a constant or of an ambient binding. -/
theorem compile_hygienic_iff (defs : Definitions) (r : Compiled τ) (h : c.compile defs = .ok r) :
    ∃ trees : Table RowFunction, c.functions defs = .ok ⟨r.ops, trees⟩ ∧
      List.Forall₂ (fun tree value =>
        value.1 = tree.1 ∧ c.host Code.params tree.2.body.code = .ok value.2) trees r.values ∧
      List.Forall₂ (fun entry tree =>
        tree.1 = entry.1 ∧ ∃ f, RowFunction.parse entry.2.function = .ok f ∧
          (tree.2.Hygienic ↔ f.Unshadowed c.space c.registry) ∧
          ∀ site ∈ tree.2.body.sitesBy .hoisted, ∀ name ∈ site.locals,
            (f.names c.space).reserves name = false) defs trees := by
  obtain ⟨trees, htrees, hvalues⟩ := compileFrom_eq_ok c h
  refine ⟨trees, htrees, hvalues, (functionsFrom_eq_ok c htrees).imp ?_⟩
  rintro ⟨name, d⟩ ⟨_, g⟩ ⟨hname, before, after, hfunction⟩
  obtain ⟨f, hparse, hcheck, hextract⟩ := c.function_eq_ok hfunction
  have hloop := (RowFunction.permitted_canonical hcheck).loopFree
  obtain ⟨rfl, -⟩ := RowFunction.numbered_of_extract hloop hextract
  exact ⟨hname, f, hparse, RowFunction.hygienic_numbered_iff hparse _,
    RowFunction.reserves_eq_false_of_mem_scope hcheck c.registry _⟩

/-- A local has the name of the row number, but no column is read in its scope. -/
def rowOfMean : Definition where
  function := "d=>\x7b\x7bconst row=mean(d.x);return row\x7d\x7d"

theorem compile_hygienic_iff_rowOfMean :
    let c : Compiler String := ⟨RowFunction.meanAndLag, "op", .text⟩
    let ops : List OperatorCall := [⟨"mean", ["data.x.get(row)"], [], 0, none⟩]
    c.compile [("a", rowOfMean)] = .ok ⟨ops,
        [("a", "(row,data,op)=>\x7b\x7bconst row=op[0];return row;\x7d;\x7d")]⟩ ∧
      ∃ g, c.functions [("a", rowOfMean)] = .ok ⟨ops, [("a", g)]⟩ ∧ g.Hygienic := by
  intro c ops
  have hparse : RowFunction.parse rowOfMean.function = .ok ⟨some "d", .block [.block [
      .declare .const "row" (some (.call (.identifier "mean") [.member (.identifier "d") "x"])),
      .return_ (some (.identifier "row"))]]⟩ := by
    unfold RowFunction.parse
    conv in TokenRun.ofText _ _ => cbv
    cbv
  have hcompile : c.compile [("a", rowOfMean)] = .ok ⟨ops,
      [("a", "(row,data,op)=>\x7b\x7bconst row=op[0];return row;\x7d;\x7d")]⟩ := by
    simp only [c, compile, compileFrom, compileOne, generate, RowFunction.ofText, hparse]
    rfl
  refine ⟨hcompile, ?_⟩
  obtain ⟨trees, htrees, -, hdefs⟩ := compile_hygienic_iff c _ _ hcompile
  obtain _ | ⟨⟨hname, f, hf, hygienic, -⟩, hrest⟩ := hdefs
  obtain _ | _ := hrest
  rename_i tree
  obtain ⟨name, g⟩ := tree
  cases hname
  cases hparse.symm.trans hf
  refine ⟨g, htrees, hygienic.mpr ?_⟩
  -- the mean needs `op`, and the local needs nothing
  refine List.forall_mem_cons.mpr ⟨?_, List.forall_mem_singleton.mpr ?_⟩
  · intro name hname
    rw [Expr.neededNames_eq] at hname
    obtain rfl := List.mem_singleton.mp hname
    decide
  · intro name hname
    rw [Expr.neededNames_eq] at hname
    cases hname

/-- A column is read in the scope of a local that has the name of the row number. -/
def rowBeforeColumn : Definition where
  function := "d=>\x7b\x7bconst row=true;return d.x\x7d\x7d"

/-- The column is read at the local instead of the row. -/
theorem not_hygienic_rowBeforeColumn :
    Compiler.standard.compile [("v", rowBeforeColumn)] = .ok ⟨[],
        [("v", "(row,data,op)=>\x7b\x7bconst row=true;return data.x.get(row);\x7d;\x7d")]⟩ ∧
      ∃ g, Compiler.standard.functions [("v", rowBeforeColumn)] = .ok ⟨[], [("v", g)]⟩ ∧
        ¬ g.Hygienic := by
  have hparse : RowFunction.parse rowBeforeColumn.function = .ok ⟨some "d", .block [.block [
      .declare .const "row" (some (.literal (.boolean true))),
      .return_ (some (.member (.identifier "d") "x"))]]⟩ := by
    unfold RowFunction.parse
    conv in TokenRun.ofText _ _ => cbv
    cbv
  refine ⟨?_, ⟨some "d", .block [.block [
    .declare .const "row" (some (.literal (.boolean true))),
    .return_ (some (.column "x"))]]⟩, ?_, ?_⟩
  · simp only [compile, compileFrom, compileOne, generate, RowFunction.ofText, standard, hparse]
    rfl
  · simp only [functions, functionsFrom, function, RowFunction.ofText, standard, hparse]
    rfl
  · intro hygienic
    have hrow : Code.rowParam ∉ ["row"] := hygienic ⟨["row"], .column "x"⟩
      (List.mem_cons_of_mem _ List.mem_cons_self) (.column "x") (Expr.mem_subterms_self _)
      Code.rowParam (List.mem_cons_of_mem _ List.mem_cons_self)
    exact hrow (List.mem_singleton_self _)

end Compiler

end RowExpr
