/-
# Sets of definitions one after the other

Definitions share one list of operator calls, but they share nothing else: to compile one set of
definitions after another is to compile both alone and to move the operator calls of the second set,
and the references to them, behind those of the first.  The first failure alone decides.

The code of a definition is text, so the statement is made about the compiled trees: `functions`
compiles definitions to row functions, and `compile` prints what it gives.
-/
import RowExpr.Compiler
import RowExpr.Proofs.Check.Sites
import RowExpr.Proofs.Extract.Shift

namespace RowExpr

/-! ## What is read refers to no operator result -/

/-- The canonical form of a written expression refers to no operator result. -/
lemma Expr.Written.refs_canonical {names : Names} {e : Expr} (h : e.Written) :
    (e.canonical names).refs = [] := by
  induction e using parts_induction with
  | node e ih =>
    have hparts : ∀ c ∈ e.children, (c.canonical names).refs = [] :=
      fun c hc => ih c hc (h.child hc)
    cases e with
    | identifier name =>
      simp only [canonical]
      split <;> rfl
    | member owner name =>
      simp only [canonical]
      split
      · rfl
      · rw [refs_eq]
        simpa [ref?, children] using hparts
    | index owner key =>
      simp only [canonical]
      split
      · rfl
      · rw [refs_eq]
        simpa [ref?, children] using hparts
    | call callee args =>
      rw [children, List.forall_mem_cons] at hparts
      have hargs : (canonicalList names args).flatMap refs = [] := by
        rw [canonicalList_eq, List.flatMap_eq_nil_iff, List.forall_mem_map]
        exact hparts.2
      simp only [canonical]
      split
      · rw [refs_eq]
        exact hargs
      · rw [refs_eq, children, List.flatMap_cons, hparts.1, hargs]
        rfl
    | column _ | constant _ | opCall _ _ | opRef _ | fnCall _ _ =>
      exact absurd ((written_iff _).mp h).1 (by simp [isWritten])
    | _ =>
      rw [refs_eq, children_canonical rfl, List.append_eq_nil_iff]
      refine ⟨rfl, ?_⟩
      rw [List.flatMap_eq_nil_iff, List.forall_mem_map]
      exact hparts

lemma RowFunction.refs_canonical {text space : String} {f : RowFunction}
    (hparse : RowFunction.parse text = .ok f) (hloop : f.body.LoopFree) :
    (f.canonical space).refs = [] := by
  rw [refs, exprs_canonical hloop, List.flatMap_eq_nil_iff, List.forall_mem_map]
  exact fun e he => (written_of_parse hparse e he).refs_canonical

/-- A text gives a row function if it can be read and is accepted. -/
lemma RowFunction.ofText_eq_ok_iff {text space : String} {f : RowFunction} :
    RowFunction.ofText text space = .ok f ↔
      RowFunction.parse text = .ok f ∧ f.check space = .ok () := by
  unfold ofText
  cases hparse : RowFunction.parse text with
  | error m => simp [Except.mapError, bind, Except.bind]
  | ok f' =>
    cases hcheck : f'.check space with
    | error cause =>
      simp only [Except.mapError, bind, Except.bind, hcheck, Except.ok.injEq]
      constructor
      · nofun
      · rintro ⟨rfl, hcheck'⟩
        rw [hcheck] at hcheck'
        cases hcheck'
    | ok _ =>
      simp only [Except.mapError, bind, Except.bind, hcheck, pure, Except.pure, Except.ok.injEq]
      constructor
      · rintro rfl
        exact ⟨rfl, hcheck⟩
      · exact fun h => h.1

/-! ## Compiled trees -/

/-- The text of a compiled row function. -/
def RowFunction.text (g : RowFunction) : String :=
  "(" ++ ",".intercalate Code.params ++ ")=>" ++ g.body.code

/-- Operator calls and values under names, moved behind `k` other operator calls. -/
def Compiled.shift (k : Nat) (r : Compiled RowFunction) : Compiled RowFunction where
  ops := r.ops.map (OperatorCall.shift k)
  values := r.values.map fun (name, g) => (name, g.shiftRefs k)

/-- Compiled row functions with their texts as values. -/
def Compiled.print (r : Compiled RowFunction) : Compiled String where
  ops := r.ops
  values := r.values.map fun (name, g) => (name, g.text)

/-- One set of compiled definitions, and another one moved behind it. -/
def Compiled.append (a b : Compiled RowFunction) : Compiled RowFunction where
  ops := a.ops ++ (b.shift a.ops.length).ops
  values := a.values ++ (b.shift a.ops.length).values

lemma Compiled.append_assoc (a b r : Compiled RowFunction) :
    (a.append b).append r = a.append (b.append r) := by
  simp only [append, shift, List.map_append, List.map_map, List.append_assoc, List.length_append,
    List.length_map]
  congr 3
  · refine List.map_congr_left fun call _ => ?_
    simp [OperatorCall.shift, Nat.add_comm, Nat.add_left_comm]
  · refine List.map_congr_left fun value _ => ?_
    simp [RowFunction.shiftRefs_shiftRefs, Nat.add_comm]

lemma Compiled.print_append (a b : Compiled RowFunction) :
    (a.append b).print = {
      ops := a.ops ++ b.ops.map (fun r => { r with id := r.id + a.ops.length })
      values := a.print.values ++
        b.values.map (fun (name, g) => (name, (g.shiftRefs a.ops.length).text)) } := by
  simp only [print, append, shift, List.map_append, List.map_map]
  rfl

namespace Compiler

variable {τ : Type} (c : Compiler τ)

/-- The compiled row function of a definition, and the operator calls after it. -/
def function (d : Definition) (calls : List OperatorCall) :
    Except Cause (RowFunction × List OperatorCall) := do
  d.checkFrame.mapError Cause.rejected
  let f ← RowFunction.ofText d.function c.space
  let (result, calls) := (f.canonical c.space).extract c.registry d.window calls
  let g ← result
  return (g, calls)

/-- Compiles definitions to row functions after those that gave `calls`. -/
def functionsFrom (calls : List OperatorCall) :
    Definitions → Except CompileError (Compiled RowFunction)
  | [] => .ok ⟨calls, []⟩
  | (name, d) :: rest => do
    let (g, calls) ← (c.function d calls).mapError fun cause => ⟨cause, some name⟩
    let compiled ← functionsFrom calls rest
    return { compiled with values := (name, g) :: compiled.values }

/-- Compiles definitions to row functions. -/
def functions (defs : Definitions) : Except CompileError (Compiled RowFunction) :=
  c.functionsFrom [] defs

/-- What is behind a compiled row function: a text that is read and accepted. -/
lemma function_eq_ok {d : Definition} {calls calls' : List OperatorCall} {g : RowFunction}
    (h : c.function d calls = .ok (g, calls')) :
    ∃ f, RowFunction.parse d.function = .ok f ∧ f.check c.space = .ok () ∧
      (f.canonical c.space).extract c.registry d.window calls = (.ok g, calls') := by
  unfold function at h
  obtain ⟨_, -, h⟩ := Expr.bind_eq_ok_iff.mp h
  obtain ⟨f, hf, h⟩ := Expr.bind_eq_ok_iff.mp h
  obtain ⟨hparse, hcheck⟩ := RowFunction.ofText_eq_ok_iff.mp hf
  refine ⟨f, hparse, hcheck, ?_⟩
  rcases hextract : (f.canonical c.space).extract c.registry d.window calls with ⟨cause | g, ops⟩
  · simp only [hextract, bind, Except.bind, reduceCtorEq] at h
  · simp only [hextract, bind, Except.bind, pure, Except.pure, Except.ok.injEq,
      Prod.mk.injEq] at h
    rw [h.1, h.2]

/-- A definition that is compiled after some calls is the definition compiled alone, moved. -/
theorem function_eq_map (d : Definition) (calls : List OperatorCall) :
    c.function d calls = (c.function d []).map fun p =>
      (p.1.shiftRefs calls.length, calls ++ p.2.map (OperatorCall.shift calls.length)) := by
  unfold function
  cases d.checkFrame.mapError Cause.rejected with
  | error cause => rfl
  | ok _ =>
    cases hf : RowFunction.ofText d.function c.space with
    | error cause => rfl
    | ok f =>
      obtain ⟨hparse, hcheck⟩ := RowFunction.ofText_eq_ok_iff.mp hf
      have hrefs : (f.canonical c.space).refs = [] :=
        RowFunction.refs_canonical hparse (RowFunction.check_eq_ok hcheck).2.loopFree
      rcases hextract : (f.canonical c.space).extract c.registry d.window [] with ⟨cause | g, ops⟩
      · have herror := RowFunction.extract_error (congrArg Prod.fst hextract) calls
        rcases hcalls : (f.canonical c.space).extract c.registry d.window calls with ⟨result, after⟩
        obtain rfl : result = .error cause := by rwa [hcalls] at herror
        simp only [bind, Except.bind, hextract, hcalls]
        rfl
      · have hloop := (RowFunction.permitted_canonical hcheck).loopFree
        have hshift := RowFunction.extract_shift hloop hrefs hextract calls
        simp only [bind, Except.bind, hextract, hshift]
        rfl

/-- Definitions that are compiled after some calls are the definitions compiled alone, moved. -/
theorem functionsFrom_eq_map (calls : List OperatorCall) (defs : Definitions) :
    c.functionsFrom calls defs = (c.functions defs).map (Compiled.append ⟨calls, []⟩) := by
  unfold functions
  induction defs generalizing calls with
  | nil => simp [functionsFrom, Except.map, Compiled.append, Compiled.shift]
  | cons entry rest ih =>
    obtain ⟨name, d⟩ := entry
    simp only [functionsFrom]
    rw [function_eq_map c d calls]
    cases c.function d [] with
    | error cause => rfl
    | ok p =>
      obtain ⟨g, ops⟩ := p
      simp only [Except.map, Except.mapError, bind, Except.bind]
      -- on both sides the rest is compiled after other calls, so bring both to the rest alone
      rw [ih ops, ih (calls ++ ops.map (OperatorCall.shift calls.length))]
      cases c.functionsFrom [] rest with
      | error e => rfl
      | ok r =>
        exact congrArg Except.ok (Compiled.append_assoc ⟨calls, []⟩ ⟨ops, [(name, g)]⟩ r)

/-- The first definition is compiled alone, and the others are moved behind it. -/
lemma functions_cons (name : String) (d : Definition) (rest : Definitions) :
    c.functions ((name, d) :: rest) =
      ((c.function d []).mapError fun cause => ⟨cause, some name⟩) >>= fun p =>
        (c.functions rest).map (Compiled.append ⟨p.2, [(name, p.1)]⟩) := by
  rw [functions, functionsFrom]
  cases c.function d [] with
  | error cause => rfl
  | ok p =>
    obtain ⟨g, ops⟩ := p
    simp only [Except.mapError, bind, Except.bind]
    rw [functionsFrom_eq_map c ops rest]
    cases c.functions rest <;> rfl

/-- Two sets of definitions one after the other are compiled alone, and the second is moved behind
the first. -/
theorem functions_append (first second : Definitions) :
    c.functions (first ++ second) =
      c.functions first >>= fun a => (c.functions second).map a.append := by
  induction first with
  | nil => exact functionsFrom_eq_map c [] second
  | cons entry rest ih =>
    obtain ⟨name, d⟩ := entry
    rw [List.cons_append, functions_cons, functions_cons, ih]
    cases (c.function d []).mapError fun cause => (⟨cause, some name⟩ : CompileError) with
    | error e => rfl
    | ok p =>
      cases c.functions rest with
      | error e => rfl
      | ok a =>
        cases c.functions second with
        | error e => rfl
        | ok b =>
          exact congrArg Except.ok (Compiled.append_assoc ⟨p.2, [(name, p.1)]⟩ a b).symm

/-! ## Printed code -/

lemma generate_eq_map (d : Definition) (calls : List OperatorCall) :
    c.generate d calls = (c.function d calls).map fun p => (p.1.body.code, p.2) := by
  unfold generate function
  cases d.checkFrame.mapError Cause.rejected with
  | error cause => rfl
  | ok _ =>
    cases RowFunction.ofText d.function c.space with
    | error cause => rfl
    | ok f =>
      simp only [bind, Except.bind]
      rcases (f.canonical c.space).extract c.registry d.window calls with ⟨cause | g, ops⟩ <;> rfl

lemma compileFrom_eq_print (registry : Registry) (space : String) (calls : List OperatorCall)
    (defs : Definitions) :
    (⟨registry, space, .text⟩ : Compiler String).compileFrom calls defs =
      ((⟨registry, space, .text⟩ : Compiler String).functionsFrom calls defs).map
        Compiled.print := by
  induction defs generalizing calls with
  | nil => rfl
  | cons entry rest ih =>
    obtain ⟨name, d⟩ := entry
    simp only [compileFrom, functionsFrom, compileOne, generate_eq_map]
    cases (⟨registry, space, .text⟩ : Compiler String).function d calls with
    | error cause => rfl
    | ok p =>
      obtain ⟨g, ops⟩ := p
      simp only [Except.map, Except.mapError, bind, Except.bind, pure, Except.pure, Host.text, ih]
      cases (⟨registry, space, .text⟩ : Compiler String).functionsFrom ops rest <;> rfl

/-- To compile with the host that keeps texts is to compile to row functions and to print them. -/
theorem compile_eq_print (registry : Registry) (space : String) (defs : Definitions) :
    (⟨registry, space, .text⟩ : Compiler String).compile defs =
      ((⟨registry, space, .text⟩ : Compiler String).functions defs).map Compiled.print :=
  compileFrom_eq_print registry space [] defs

/-- Two sets of definitions one after the other, compiled to texts.  They compile if both compile
alone.  The first set that fails decides: its error is the error of both together.  If both
compile, the operator calls of the second set follow those of the first with their numbers moved
by the number of calls in the first and nothing else changed, and the texts of the second set are
those of its compiled row functions with the references moved by the same number. -/
theorem compile_append (registry : Registry) (space : String) (first second : Definitions) :
    let c : Compiler String := ⟨registry, space, .text⟩
    ((∃ r, c.compile (first ++ second) = .ok r) ↔
        (∃ a, c.compile first = .ok a) ∧ ∃ b, c.compile second = .ok b) ∧
      (∀ e, c.compile first = .error e → c.compile (first ++ second) = .error e) ∧
      (∀ a e, c.compile first = .ok a → c.compile second = .error e →
        c.compile (first ++ second) = .error e) ∧
      ∀ a b, c.compile first = .ok a → c.compile second = .ok b →
        ∃ trees : Table RowFunction, c.functions second = .ok ⟨b.ops, trees⟩ ∧
          b.values = trees.map (fun (name, g) => (name, g.text)) ∧
          c.compile (first ++ second) = .ok {
            ops := a.ops ++ b.ops.map (fun r => { r with id := r.id + a.ops.length })
            values := a.values ++
              trees.map (fun (name, g) => (name, (g.shiftRefs a.ops.length).text)) } := by
  intro c
  simp only [c, compile_eq_print, functions_append]
  cases (⟨registry, space, .text⟩ : Compiler String).functions first with
  | error e => simp [bind, Except.bind, Except.map]
  | ok a =>
    cases (⟨registry, space, .text⟩ : Compiler String).functions second with
    | error e => simp [bind, Except.bind, Except.map]
    | ok b =>
      simp only [bind, Except.bind, Except.map, Except.ok.injEq, exists_eq', reduceCtorEq,
        and_self, false_implies, implies_true, true_and]
      rintro _ _ rfl rfl
      exact ⟨b.values, rfl, rfl, Compiled.print_append a b⟩

/-- The mean of a column. -/
def meanOfColumn : Definition where
  function := "d=>mean(d.x)"

/-- The same definition under two names: the second refers to the second operator. -/
theorem compile_append_meanOfColumn :
    let c : Compiler String := ⟨RowFunction.meanAndLag, "op", .text⟩
    c.compile [("a", meanOfColumn)] =
        .ok ⟨[⟨"mean", ["data.x.get(row)"], [], 0, none⟩], [("a", "(row,data,op)=>op[0]")]⟩ ∧
      c.compile [("b", meanOfColumn)] =
        .ok ⟨[⟨"mean", ["data.x.get(row)"], [], 0, none⟩], [("b", "(row,data,op)=>op[0]")]⟩ ∧
      c.compile ([("a", meanOfColumn)] ++ [("b", meanOfColumn)]) =
        .ok ⟨[⟨"mean", ["data.x.get(row)"], [], 0, none⟩,
            ⟨"mean", ["data.x.get(row)"], [], 1, none⟩],
          [("a", "(row,data,op)=>op[0]"), ("b", "(row,data,op)=>op[1]")]⟩ := by
  intro c
  have hparse : RowFunction.parse meanOfColumn.function =
      .ok ⟨some "d", .expr (.call (.identifier "mean") [.member (.identifier "d") "x"])⟩ := by
    unfold RowFunction.parse
    conv in TokenRun.ofText _ _ => cbv
    cbv
  have hfirst : c.compile [("a", meanOfColumn)] =
      .ok ⟨[⟨"mean", ["data.x.get(row)"], [], 0, none⟩], [("a", "(row,data,op)=>op[0]")]⟩ := by
    simp only [c, compile, compileFrom, compileOne, generate, RowFunction.ofText, hparse]
    rfl
  have hsecond : c.compile [("b", meanOfColumn)] =
      .ok ⟨[⟨"mean", ["data.x.get(row)"], [], 0, none⟩], [("b", "(row,data,op)=>op[0]")]⟩ := by
    simp only [c, compile, compileFrom, compileOne, generate, RowFunction.ofText, hparse]
    rfl
  have hfunctions : c.functions [("b", meanOfColumn)] =
      .ok ⟨[⟨"mean", ["data.x.get(row)"], [], 0, none⟩],
        [("b", ⟨some "d", .expr (.opRef 0)⟩)]⟩ := by
    simp only [c, functions, functionsFrom, function, RowFunction.ofText, hparse]
    rfl
  obtain ⟨trees, htrees, -, hall⟩ :=
    (compile_append RowFunction.meanAndLag "op" _ _).2.2.2 _ _ hfirst hsecond
  rw [hfunctions] at htrees
  cases htrees
  have htext : ((⟨some "d", .expr (.opRef 0)⟩ : RowFunction).shiftRefs 1).text =
      "(row,data,op)=>op[1]" := by
    simp only [RowFunction.shiftRefs, Body.mapExprs, Expr.shiftRefs_opRef]
    rfl
  refine ⟨hfirst, hsecond, hall.trans ?_⟩
  simp only [List.length_cons, List.length_nil, List.map_cons, List.map_nil, Nat.zero_add, htext]
  rfl

end Compiler

end RowExpr
