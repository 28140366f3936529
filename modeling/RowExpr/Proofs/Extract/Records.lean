/-
# The list of operator calls over any run

Extraction visits the expressions of a row function in order and adds a record for each operator
call.  It may fail on the way, and what it added until then stays.  `Expr.Visits` says what the
list of calls looks like in both cases: after a success all operator calls that were visited are
recorded, and after a failure those in front of the call that failed, which adds nothing itself.

From this the list is well-formed after any number of extractions, whether they succeed or not
(`Extraction.wellFormed_calls`).  The code of a field does not tell what the field reads, as any
text can be the spelling of a literal; so a record is well-formed as the record of a call, and what
it reads is said of the arguments of that call.
-/
import RowExpr.Proofs.Check.Sites
import RowExpr.Proofs.Compiler.Batch
import RowExpr.Proofs.Extract.Shift
import Mathlib.Data.List.Induction

namespace RowExpr

open Extract

variable {registry : Registry} {window : Option Window} {α β : Type}

namespace Expr

/-! ## Both outcomes of an extraction -/

/-- The fields of an operator call are accepted. -/
def FieldsAccepted (registry : Registry) (e : Expr) : Prop :=
  ∀ name args o, e = opCall name args → registry.operator? name = some o →
    ∀ field ∈ args.take o.fields, checkField registry name field = .ok ()

/-- The list `calls'` is `calls` with the records of the operator calls `es` after them, all of
which have fields that are accepted. -/
structure Records (registry : Registry) (window : Option Window) (es : List Expr)
    (calls calls' : List OperatorCall) : Prop where
  adds : Adds registry window es calls calls'
  accepted : ∀ e ∈ es, e.FieldsAccepted registry

/-- The expression is a call by name that cannot be extracted, and nothing is recorded for it, nor
for anything inside of it. -/
def FailsAlone (registry : Registry) (window : Option Window) (cause : Cause) (e : Expr) : Prop :=
  (∃ name args, e = opCall name args) ∧
    ∀ calls, Fails (e.extract registry window) calls cause calls

/-- Among the nodes of `es`, in order, there is one that fails alone, and `calls'` is `calls` with
the records of the operator calls in front of it. -/
def StopsAt (registry : Registry) (window : Option Window) (es : List Expr)
    (calls : List OperatorCall) (cause : Cause) (calls' : List OperatorCall) : Prop :=
  ∃ done culprit rest, es.flatMap subterms = done ++ culprit :: rest ∧
    Records registry window (done.filter (isOperatorCall registry)) calls calls' ∧
    culprit.FailsAlone registry window cause

/-- The computation takes the operators out of `es`, in order, until it is done or fails. -/
structure Visits (registry : Registry) (window : Option Window) (es : List Expr)
    (m : Extract α) : Prop where
  yields : ∀ {calls a calls'}, Yields m calls a calls' →
    Records registry window (es.flatMap (operatorCalls registry)) calls calls'
  fails : ∀ {calls cause calls'}, Fails m calls cause calls' →
    StopsAt registry window es calls cause calls'

variable {es es' : List Expr} {calls middle calls' : List OperatorCall} {cause : Cause}

lemma records_nil : Records registry window [] calls calls := ⟨adds_nil, by simp⟩

lemma Records.append (h : Records registry window es calls middle)
    (h' : Records registry window es' middle calls') :
    Records registry window (es ++ es') calls calls' :=
  ⟨h.adds.append h'.adds, List.forall_mem_append.mpr ⟨h.accepted, h'.accepted⟩⟩

/-- Nothing is recorded where there is no operator call. -/
lemma Records.eq_of_nil (h : Records registry window [] calls calls') : calls' = calls :=
  adds_nil_iff.mp h.adds

lemma StopsAt.append_right (h : StopsAt registry window es calls cause calls') (es' : List Expr) :
    StopsAt registry window (es ++ es') calls cause calls' := by
  obtain ⟨done, culprit, rest, hnodes, hrecords, hculprit⟩ := h
  refine ⟨done, culprit, rest ++ es'.flatMap subterms, ?_, hrecords, hculprit⟩
  rw [List.flatMap_append, hnodes, List.append_assoc, List.cons_append]

lemma StopsAt.append_left
    (h : Records registry window (es.flatMap (operatorCalls registry)) calls middle)
    (h' : StopsAt registry window es' middle cause calls') :
    StopsAt registry window (es ++ es') calls cause calls' := by
  obtain ⟨done, culprit, rest, hnodes, hrecords, hculprit⟩ := h'
  refine ⟨es.flatMap subterms ++ done, culprit, rest, ?_, ?_, hculprit⟩
  · rw [List.flatMap_append, hnodes, List.append_assoc]
  · rw [List.filter_append, List.filter_flatMap]
    exact h.append hrecords

lemma visits_pure (a : α) : Visits registry window [] (pure a : Extract α) where
  yields h := by
    obtain ⟨-, rfl⟩ := yields_pure_iff.mp h
    exact records_nil
  fails h := absurd h not_fails_pure

lemma Visits.bind {m : Extract α} {k : α → Extract β} (hm : Visits registry window es m)
    (hk : ∀ a, Visits registry window es' (k a)) :
    Visits registry window (es ++ es') (m >>= k) where
  yields h := by
    obtain ⟨a, middle, ha, h⟩ := yields_bind_iff.mp h
    rw [List.flatMap_append]
    exact (hm.yields ha).append ((hk a).yields h)
  fails h := by
    rcases fails_bind_iff.mp h with h | ⟨a, middle, ha, h⟩
    · exact (hm.fails h).append_right es'
    · exact ((hk a).fails h).append_left (hm.yields ha)

/-- What is done with the result does not matter. -/
lemma Visits.map {m : Extract α} (hm : Visits registry window es m) (f : α → β) :
    Visits registry window es (do let a ← m; return f a) := by
  have h : Visits registry window (es ++ []) (do let a ← m; return f a) :=
    hm.bind fun a => visits_pure (f a)
  rwa [List.append_nil] at h

/-! ## Expressions -/

/-- A node that calls no operator is visited as its parts are. -/
lemma Visits.node {e : Expr} {m : Extract α} (hself : e.isOperatorCall registry = false)
    (h : Visits registry window e.children m) : Visits registry window [e] m where
  yields hm := by
    rw [List.flatMap_singleton, operatorCalls_of_not_call hself]
    exact h.yields hm
  fails hm := by
    obtain ⟨done, culprit, rest, hnodes, hrecords, hculprit⟩ := h.fails hm
    refine ⟨e :: done, culprit, rest, ?_, ?_, hculprit⟩
    · rw [List.flatMap_singleton, subterms_eq, hnodes, List.cons_append]
    · rwa [List.filter_cons_of_neg (by simp [hself])]

lemma visits_extractList (h : ∀ e ∈ es, Visits registry window [e] (e.extract registry window)) :
    Visits registry window es (extractList registry window es) := by
  induction es with
  | nil => exact visits_pure _
  | cons e rest ih =>
    rw [List.forall_mem_cons] at h
    exact h.1.bind fun _ => (ih h.2).map _

/-- A call that fails by itself is visited as a whole. -/
lemma stopsAt_self {name : String} {args : List Expr}
    (h : ∀ calls, Fails ((opCall name args).extract registry window) calls cause calls) :
    StopsAt registry window [opCall name args] calls cause calls := by
  refine ⟨[], opCall name args, args.flatMap subterms, ?_, records_nil, ⟨name, args, rfl⟩, h⟩
  rw [List.flatMap_singleton, subterms_eq]
  rfl

/-- Nothing is added where there is no operator call, even if the extraction fails. -/
lemma StopsAt.eq_of_nil {e : Expr} (hnil : e.operatorCalls registry = [])
    (h : StopsAt registry window [e] calls cause calls') : calls' = calls := by
  obtain ⟨done, culprit, rest, hnodes, hrecords, -⟩ := h
  have hdone : done.filter (isOperatorCall registry) = [] := by
    rw [List.flatMap_singleton] at hnodes
    rw [operatorCalls, hnodes, List.filter_append, List.append_eq_nil_iff] at hnil
    exact hnil.1
  rw [hdone] at hrecords
  exact hrecords.eq_of_nil

/-- The fields of an operator add nothing, even if one of them is refused. -/
lemma fails_extractFields {operator : String} {count : Nat}
    (h : ∀ e ∈ es, Visits registry window [e] (e.extract registry window))
    (hfails : Fails (extractFields registry window operator count es) calls cause calls') :
    calls' = calls := by
  induction count generalizing es calls with
  | zero => exact absurd (by simpa [extractFields] using hfails) not_fails_pure
  | succ count ih =>
    cases es with
    | nil => exact absurd (by simpa [extractFields] using hfails) not_fails_pure
    | cons e rest =>
      rw [List.forall_mem_cons] at h
      rw [extractFields] at hfails
      rcases fails_bind_iff.mp hfails with hcheck | ⟨⟨⟩, after, hcheck, hfield⟩
      · exact (fails_ofExcept_iff.mp hcheck).2
      obtain ⟨haccepted, hafter⟩ := yields_ofExcept_iff.mp hcheck
      rw [hafter] at hfield
      -- an accepted field holds no operator call
      have hnil := operatorCalls_of_checkField haccepted
      rcases fails_bind_iff.mp hfield with hfield | ⟨_, after', hfield, hothers⟩
      · exact (h.1.fails hfield).eq_of_nil hnil
      have hrecords := h.1.yields hfield
      rw [List.flatMap_singleton, hnil] at hrecords
      rw [hrecords.eq_of_nil] at hothers
      rcases fails_bind_iff.mp hothers with hothers | ⟨_, _, _, hpure⟩
      · exact ih h.2 hothers
      · exact absurd hpure not_fails_pure

/-- The fields that were extracted are accepted. -/
lemma checkField_of_yields {operator : String} {count : Nat} {fields : List String}
    (h : Yields (extractFields registry window operator count es) calls fields calls') :
    ∀ e ∈ es.take count, checkField registry operator e = .ok () := by
  induction count generalizing es calls fields calls' with
  | zero => simp
  | succ count ih =>
    cases es with
    | nil => simp
    | cons e rest =>
      rw [extractFields] at h
      obtain ⟨⟨⟩, _, hcheck, h⟩ := yields_bind_iff.mp h
      obtain ⟨_, _, _, h⟩ := yields_bind_iff.mp h
      obtain ⟨_, _, hrest, _⟩ := yields_bind_iff.mp h
      rw [List.take_succ_cons, List.forall_mem_cons]
      exact ⟨(yields_ofExcept_iff.mp hcheck).1, ih hrest⟩

section Operator

variable {name : String} {args : List Expr} {o : Operator}

/-- An operator whose arguments are refused adds nothing. -/
lemma fails_operator (ho : registry.operator? name = some o)
    (h : ∀ e ∈ args, Visits registry window [e] (e.extract registry window))
    (hfails : Fails ((opCall name args).extract registry window) calls cause calls') :
    calls' = calls := by
  simp only [extract, Registry.lookup?, ho] at hfails
  rcases fails_bind_iff.mp hfails with hcount | ⟨⟨⟩, after, hcount, hfields⟩
  · exact (fails_ofExcept_iff.mp hcount).2
  rw [(yields_ofExcept_iff.mp hcount).2] at hfields
  rcases fails_bind_iff.mp hfields with hfields | ⟨fields, after', hfields, hparams⟩
  · exact fails_extractFields h hfields
  rw [(yields_extractFields (fun e _ => takesOut registry window e) hfields).1] at hparams
  rcases fails_bind_iff.mp hparams with hparams | ⟨params, _, _, hpush⟩
  · exact (fails_ofExcept_iff.mp hparams).2
  rcases fails_bind_iff.mp hpush with hpush | ⟨_, _, _, hpure⟩
  · exact absurd hpush not_fails_push
  · exact absurd hpure not_fails_pure

lemma fieldsAccepted_of_yields (ho : registry.operator? name = some o) {e' : Expr}
    (h : Yields ((opCall name args).extract registry window) calls e' calls') :
    (opCall name args).FieldsAccepted registry := by
  rintro _ _ o' ⟨rfl, rfl⟩ ho'
  obtain rfl : o = o' := Option.some.inj (ho ▸ ho')
  simp only [extract, Registry.lookup?, ho] at h
  obtain ⟨_, _, _, h⟩ := yields_bind_iff.mp h
  obtain ⟨_, _, hfields, _⟩ := yields_bind_iff.mp h
  exact checkField_of_yields hfields

lemma visits_operator (ho : registry.operator? name = some o)
    (h : ∀ e ∈ args, Visits registry window [e] (e.extract registry window)) :
    Visits registry window [opCall name args] ((opCall name args).extract registry window) where
  yields hyields := by
    obtain ⟨-, hargs, hadds⟩ := yields_operator (fun e _ => takesOut registry window e) ho hyields
    have hcalls : (opCall name args).operatorCalls registry = [opCall name args] := by
      rw [operatorCalls_eq, isOperatorCall, ho]
      simpa [children] using fun a ha => (hargs a ha).1
    rw [List.flatMap_singleton, hcalls]
    exact ⟨hadds, List.forall_mem_singleton.mpr (fieldsAccepted_of_yields ho hyields)⟩
  fails hfails := by
    rw [fails_operator ho h hfails]
    refine stopsAt_self fun other => ?_
    -- the arguments are refused for the same cause whatever was recorded before
    obtain ⟨_, hfailsAs⟩ := exists_failsAs_extract registry window (opCall name args)
    obtain ⟨after, hafter⟩ := hfailsAs.fails hfails other
    rwa [fails_operator ho h hafter] at hafter

/-- Another call by name is a call of a function, or it fails at once. -/
lemma visits_function (ho : registry.operator? name = none)
    (h : ∀ e ∈ args, Visits registry window [e] (e.extract registry window)) :
    Visits registry window [opCall name args] ((opCall name args).extract registry window) := by
  have hself : (opCall name args).isOperatorCall registry = false := by simp [isOperatorCall, ho]
  have hthrow : ∀ cause, (opCall name args).extract registry window = throw cause →
      Visits registry window [opCall name args] ((opCall name args).extract registry window) := by
    intro cause hcause
    constructor
    · intro calls a calls' hyields
      rw [hcause] at hyields
      exact absurd hyields not_yields_throw
    · intro calls cause' calls' hfails
      obtain ⟨rfl, rfl⟩ := fails_throw_iff.mp (hcause ▸ hfails)
      refine stopsAt_self fun calls => ?_
      rw [hcause]
      exact fails_throw_iff.mpr ⟨rfl, rfl⟩
  cases hf : registry.function? name with
  | none => exact hthrow (.unknownOperator name) (by simp [extract, Registry.lookup?, ho, hf])
  | some f =>
    by_cases haccepts : f.accepts args.length = true
    · have hextract : (opCall name args).extract registry window = (do
          let args ← extractList registry window args
          return fnCall name args) := by
        simp [extract, Registry.lookup?, ho, hf, haccepts]
      rw [hextract]
      exact Visits.node hself ((visits_extractList h).map _)
    · refine hthrow (.argument (.functionArity name args.length)) ?_
      simp [extract, Registry.lookup?, ho, hf, haccepts]

end Operator

/-- Extraction from an expression visits the expression. -/
theorem visits_extract (registry : Registry) (window : Option Window) (e : Expr) :
    Visits registry window [e] (e.extract registry window) := by
  induction e using parts_induction with
  | node e ih =>
    rcases eq_opCall_or_ne e with ⟨name, args, rfl⟩ | hne
    · cases ho : registry.operator? name with
      | some o => exact visits_operator ho ih
      | none => exact visits_function ho ih
    · rw [extract_eq_rebuild hne]
      exact Visits.node (isOperatorCall_of_ne registry hne) ((visits_extractList ih).map _)

end Expr

/-! ## Statements -/

namespace Stmt

open RowExpr.Expr (Visits visits_pure visits_extract)

variable {σ : Type} {scoping : Scoping σ}

lemma visits_extractExpr? (locals : σ) (e? : Option Expr) :
    Visits registry window ((e?.toList.map (Site.mk locals)).map Site.expr)
      (extractExpr? registry window e?) := by
  cases e? with
  | none => exact visits_pure _
  | some e => exact (visits_extract registry window e).map _

mutual

lemma visits_extract (locals : σ) (s : Stmt) :
    Visits registry window ((s.sites scoping locals).map Site.expr)
      (s.extract registry window) := by
  match s with
  | expr value => exact (Expr.visits_extract registry window value).map _
  | declare _ _ e? | return_ e? => exact (visits_extractExpr? locals e?).map _
  | block body => exact (visits_extractStmts _ body).map _
  | if_ test yes no =>
    rw [sites, List.map_cons, List.map_append]
    exact (Expr.visits_extract registry window test).bind fun _ =>
      (visits_extract _ yes).bind fun _ => (visits_extractElse locals no).map _
  | switch subject arms =>
    rw [sites, List.map_cons]
    exact (Expr.visits_extract registry window subject).bind fun _ =>
      (visits_extractArms _ arms).map _
  | break_ | continue_ | empty => exact visits_pure _
  | for_ _ _ _ _ | forEach _ _ _ _ _ | while_ _ _ | doWhile _ _ => exact visits_pure _

lemma visits_extractElse (locals : σ) (s? : Option Stmt) :
    Visits registry window ((sitesOfElse scoping locals s?).map Site.expr)
      (extractOption registry window s?) := by
  match s? with
  | none => exact visits_pure _
  | some s => exact (visits_extract _ s).map _

lemma visits_extractStmts (locals : σ) (body : List Stmt) :
    Visits registry window ((sitesOfList scoping locals body).map Site.expr)
      (extractList registry window body) := by
  match body with
  | [] => exact visits_pure _
  | s :: rest =>
    rw [sitesOfList, List.map_append]
    exact (visits_extract locals s).bind fun _ => (visits_extractStmts _ rest).map _

lemma visits_extractArms (locals : σ) (arms : List (Arm Stmt)) :
    Visits registry window ((sitesOfArms scoping locals arms).map Site.expr)
      (extractArms registry window arms) := by
  match arms with
  | [] => exact visits_pure _
  | ⟨test, body⟩ :: rest =>
    rw [sitesOfArms, List.map_append, List.map_append, List.append_assoc]
    exact (visits_extractExpr? locals test).bind fun _ =>
      (visits_extractStmts locals body).bind fun _ => (visits_extractArms _ rest).map _

end

end Stmt

/-- Extraction from a body visits its expressions outside of loops. -/
theorem Body.visits_extract (registry : Registry) (window : Option Window) (body : Body) :
    Expr.Visits registry window (body.sites.map Site.expr) (body.extract registry window) := by
  cases body with
  | expr value => exact (Expr.visits_extract registry window value).map _
  | block body => exact (Stmt.visits_extractStmts _ body).map _

/-! ## The fields of a record -/

namespace Expr

lemma numberedList_eq_map {es : List Expr} (h : ∀ e ∈ es, e.operatorCalls registry = [])
    (first : Nat) : numberedList registry first es = es.map (numbered registry first) := by
  induction es with
  | nil => rfl
  | cons e rest ih =>
    rw [List.forall_mem_cons] at h
    rw [numberedList, operatorCount, h.1, List.length_nil, Nat.add_zero, ih h.2, List.map_cons]

/-- Without operator calls, each node is numbered by itself. -/
theorem subterms_numbered {e : Expr} (h : e.operatorCalls registry = []) (first : Nat) :
    (e.numbered registry first).subterms = e.subterms.map (numbered registry first) := by
  induction e using parts_induction with
  | node e ih =>
    have hnil : ∀ c ∈ e.children, c.operatorCalls registry = [] :=
      fun c hc => operatorCalls_child_eq_nil h hc
    have hchildren : (e.numbered registry first).children =
        e.children.map (numbered registry first) := by
      rw [← numberedList_eq_map hnil]
      rcases eq_opCall_or_ne e with ⟨name, args, rfl⟩ | hne
      · have hnone : registry.operator? name = none := by
          have hself := operatorCalls_eq_nil_iff.mp h _ (mem_subterms_self _)
          simpa [isOperatorCall] using hself
        rw [numbered_function first hnone]
        rfl
      · exact children_numbered first hne
    have hparts : e.children.flatMap (fun c => (c.numbered registry first).subterms) =
        e.children.flatMap (fun c => c.subterms.map (numbered registry first)) :=
      List.flatMap_congr fun c hc => ih c hc (hnil c hc)
    rw [subterms_eq, hchildren, List.flatMap_map, hparts, subterms_eq e, List.map_cons,
      List.map_flatMap]

/-- The expression reads the row, and nothing that is not there when operators are computed: no
local, no operator and no result of one. -/
structure ReadsRowOnly (e : Expr) : Prop where
  column : ∃ name, column name ∈ e.subterms
  identifier : ∀ name, identifier name ∉ e.subterms
  opCall : ∀ name args, opCall name args ∉ e.subterms
  opRef : ∀ id, opRef id ∉ e.subterms

/-- An accepted field reads only the row, once its calls are resolved. -/
theorem readsRowOnly_numbered {operator : String} {field : Expr}
    (h : checkField registry operator field = .ok ()) (hrefs : field.refs = []) :
    (field.numbered registry 0).ReadsRowOnly := by
  have hcalls := operatorCalls_of_checkField h
  have hself := operatorCalls_eq_nil_iff.mp hcalls
  obtain ⟨hlocal, hrow⟩ : field.subterms.findSome? localName? = none ∧ field.readsRow = true := by
    unfold checkField at h
    split at h
    · cases h
    · split at h
      · cases h
      · rename_i hlocal
        split at h
        · rename_i hrow
          exact ⟨hlocal, hrow⟩
        · cases h
  rw [List.findSome?_eq_none_iff] at hlocal
  -- a node of the field keeps its form, unless it calls a function
  have hnode : ∀ s ∈ (field.numbered registry 0).subterms, ∃ t ∈ field.subterms,
      t.numbered registry 0 = s := by
    intro s hs
    rw [subterms_numbered hcalls] at hs
    exact List.mem_map.mp hs
  constructor
  · obtain ⟨s, hs, hcolumn⟩ := List.any_eq_true.mp hrow
    cases s with
    | column name =>
      refine ⟨name, ?_⟩
      rw [subterms_numbered hcalls]
      exact List.mem_map_of_mem hs
    | _ => cases hcolumn
  · intro name hmem
    obtain ⟨t, ht, hnumbered⟩ := hnode _ hmem
    cases t with
    | identifier other => cases hlocal _ ht
    | opCall other args =>
      simp only [numbered] at hnumbered
      split at hnumbered <;> cases hnumbered
    | _ => cases hnumbered
  · intro name args hmem
    obtain ⟨t, ht, hnumbered⟩ := hnode _ hmem
    cases t with
    | opCall other args =>
      simp only [numbered] at hnumbered
      split at hnumbered <;> cases hnumbered
    | _ => cases hnumbered
  · intro id hmem
    obtain ⟨t, ht, hnumbered⟩ := hnode _ hmem
    cases t with
    | opRef other =>
      have hmem : other ∈ field.refs := List.mem_filterMap.mpr ⟨_, ht, rfl⟩
      rw [hrefs] at hmem
      cases hmem
    | opCall other args =>
      have hnone : (registry.operator? other).isSome = false := hself _ ht
      simp [numbered, hnone] at hnumbered
    | _ => cases hnumbered

end Expr

/-! ## Runs of extractions -/

/-- The record is one of an operator of the registry that `call` is a call of, with its number of
fields and no more than its number of parameters.  The fields are the code of the first arguments
of the call, with their function calls resolved, and each of these reads only the row. -/
def OperatorCall.WellFormed (registry : Registry) (call : Expr) (r : OperatorCall) : Prop :=
  ∃ args o, call = .opCall r.name args ∧ registry.operator? r.name = some o ∧
    r.fields.length = o.fields ∧ r.params.length ≤ o.params ∧
    r.fields = (args.take o.fields).map (fun field => (field.numbered registry 0).code) ∧
    ∀ field ∈ args.take o.fields, (field.numbered registry 0).ReadsRowOnly

/-- What is extracted: a row function that was read, to be brought into canonical form for the
namespace `space`, and the window of its operators. -/
structure Extraction where
  text : String
  function : RowFunction
  read : RowFunction.parse text = .ok function
  space : String
  window : Option Window

namespace Extraction

/-- The extraction after `calls`. -/
def run (x : Extraction) (registry : Registry) (calls : List OperatorCall) :
    Except Cause RowFunction × List OperatorCall :=
  (x.function.canonical x.space).extract registry x.window calls

/-- The calls after extractions one after the other, from none on. -/
def callsAfter (registry : Registry) (xs : List Extraction) : List OperatorCall :=
  xs.foldl (fun calls x => (x.run registry calls).2) []

/-- The expressions that an extraction visits: those of the canonical function, outside of loops. -/
def visited (x : Extraction) : List Expr :=
  (x.function.canonical x.space).body.sites.map Site.expr

variable {x : Extraction} {calls : List OperatorCall}

/-- What was read refers to no result of an operator. -/
lemma refs_of_mem_visited {e s : Expr} (he : e ∈ x.visited) (hs : s ∈ e.subterms) :
    s.refs = [] := by
  obtain ⟨site, hsite, rfl⟩ := List.mem_map.mp he
  rw [RowFunction.body_canonical] at hsite
  obtain ⟨source, hsource, _, rfl⟩ := Body.exists_site_of_mem_mapExprs hsite
  have hwritten := RowFunction.written_of_parse x.read _ (Body.expr_mem_exprs _ source hsource)
  have hrefs : (source.expr.canonical (x.function.names x.space)).refs = [] :=
    hwritten.refs_canonical
  rw [Expr.refs, List.filterMap_eq_nil_iff] at hrefs ⊢
  exact fun t ht => hrefs t (Expr.mem_subterms_trans ht hs)

/-- The record is what the extraction records for an operator call: it is well-formed, and it has
the values of the parameters and the window. -/
def RecordsAs (x : Extraction) (registry : Registry) (call : Expr) (r : OperatorCall) : Prop :=
  r.WellFormed registry call ∧ Expr.RecordedAs registry x.window call r

/-- An operator call with accepted fields leaves a well-formed record. -/
lemma wellFormed_of_recordedAs {call : Expr} {r : OperatorCall}
    (h : Expr.RecordedAs registry window call r) (haccepted : call.FieldsAccepted registry)
    (hrefs : ∀ s ∈ call.subterms, s.refs = []) : r.WellFormed registry call := by
  obtain ⟨name, args, o, rfl, ho, hleast, hmost, rfl, hfields, hparams, -⟩ := h
  refine ⟨args, o, rfl, ho, ?_, ?_, hfields, ?_⟩
  · rw [hfields, List.length_map, List.length_take, Nat.min_eq_left hleast]
  · have hlength := hparams.length_eq
    rw [List.length_drop] at hlength
    omega
  · intro field hfield
    have hmem : field ∈ (Expr.opCall r.name args).subterms :=
      Expr.mem_subterms_of_mem_children (List.mem_of_mem_take hfield) (Expr.mem_subterms_self field)
    exact Expr.readsRowOnly_numbered (haccepted r.name args o rfl ho field hfield)
      (hrefs field hmem)

/-- The records that one extraction adds, for operator calls among the nodes that it visits. -/
lemma recordsAs_of_records {es : List Expr} {calls' : List OperatorCall}
    (h : Expr.Records registry x.window es calls calls')
    (hes : ∀ e ∈ es, e ∈ x.visited.flatMap Expr.subterms) :
    ∃ records, calls' = calls ++ records ∧ List.Forall₂ (x.RecordsAs registry) es records ∧
      records.map OperatorCall.id = List.range' calls.length records.length ∧
      ∀ r ∈ records, ∃ call ∈ x.visited.flatMap Expr.subterms, x.RecordsAs registry call r := by
  obtain ⟨⟨records, hcalls, hrecorded, hids⟩, haccepted⟩ := h
  have hrecords : List.Forall₂ (x.RecordsAs registry) es records := by
    -- by position, as it matters that the call of each record was visited
    refine List.forall₂_iff_get.mpr ⟨hrecorded.length_eq, fun i hi hi' => ?_⟩
    have hmem := List.get_mem es ⟨i, hi⟩
    have hrecord := (List.forall₂_iff_get.mp hrecorded).2 i hi hi'
    obtain ⟨owner, howner, hnode⟩ := List.mem_flatMap.mp (hes _ hmem)
    refine ⟨wellFormed_of_recordedAs hrecord (haccepted _ hmem) fun s hs => ?_, hrecord⟩
    exact refs_of_mem_visited howner (Expr.mem_subterms_trans hs hnode)
  refine ⟨records, hcalls, hrecords, hrecorded.length_eq ▸ hids, fun r hr => ?_⟩
  obtain ⟨call, hcall, hrecord⟩ := exists_mem_of_forall₂ hrecords hr
  exact ⟨call, hes call hcall, hrecord⟩

/-- The records that an extraction adds belong to all operator calls that it visits if it succeeds.
If it fails, there is a call by name among the nodes that it visits that fails by itself without
adding a record, and the records belong to the operator calls in front of it. -/
def Accounted (x : Extraction) (registry : Registry) (result : Except Cause RowFunction)
    (records : List OperatorCall) : Prop :=
  match result with
  | .ok _ => List.Forall₂ (x.RecordsAs registry)
      (x.visited.flatMap (Expr.operatorCalls registry)) records
  | .error cause => ∃ done culprit rest,
      x.visited.flatMap Expr.subterms = done ++ culprit :: rest ∧
      List.Forall₂ (x.RecordsAs registry)
        (done.filter (Expr.isOperatorCall registry)) records ∧
      culprit.FailsAlone registry x.window cause

/-- What one extraction does to the list of calls. -/
theorem run_adds (x : Extraction) (registry : Registry) (calls : List OperatorCall) :
    ∃ records, (x.run registry calls).2 = calls ++ records ∧
      records.map OperatorCall.id = List.range' calls.length records.length ∧
      (∀ r ∈ records, ∃ call ∈ x.visited.flatMap Expr.subterms, x.RecordsAs registry call r) ∧
      x.Accounted registry (x.run registry calls).1 records := by
  have hvisits := Body.visits_extract registry x.window (x.function.canonical x.space).body
  unfold run RowFunction.extract
  rcases hrun : ((x.function.canonical x.space).body.extract registry x.window).run.run calls
    with ⟨cause | body, calls'⟩
  · obtain ⟨done, culprit, rest, hnodes, hrecords, hculprit⟩ := hvisits.fails hrun
    obtain ⟨records, rfl, hrecorded, hids, hformed⟩ := recordsAs_of_records hrecords fun e he => by
      rw [visited, hnodes]
      exact List.mem_append_left _ (List.mem_of_mem_filter he)
    exact ⟨records, rfl, hids, hformed, done, culprit, rest, hnodes, hrecorded, hculprit⟩
  · have hrecords := hvisits.yields hrun
    obtain ⟨records, rfl, hrecorded, hids, hformed⟩ := recordsAs_of_records hrecords fun e he => by
      obtain ⟨owner, howner, he⟩ := List.mem_flatMap.mp he
      exact List.mem_flatMap.mpr ⟨owner, howner, List.mem_of_mem_filter he⟩
    exact ⟨records, rfl, hids, hformed, hrecorded⟩

/-- What holds of the list of calls after the extractions `xs`. -/
structure Invariant (registry : Registry) (xs : List Extraction) (calls : List OperatorCall) :
    Prop where
  ids : calls.map OperatorCall.id = List.range calls.length
  formed : ∀ r ∈ calls, ∃ x ∈ xs, ∃ call ∈ x.visited.flatMap Expr.subterms,
    x.RecordsAs registry call r

lemma Invariant.run {xs : List Extraction} (h : Invariant registry xs calls) (x : Extraction) :
    Invariant registry (xs ++ [x]) (x.run registry calls).2 := by
  obtain ⟨records, hcalls, hids, hformed, -⟩ := x.run_adds registry calls
  rw [hcalls]
  constructor
  · rw [List.map_append, h.ids, hids, List.length_append, List.range_eq_range',
      List.range_eq_range', ← List.range'_append_1, Nat.zero_add]
  · refine List.forall_mem_append.mpr ⟨fun r hr => ?_, fun r hr => ?_⟩
    · obtain ⟨y, hy, hrecorded⟩ := h.formed r hr
      exact ⟨y, List.mem_append_left _ hy, hrecorded⟩
    · exact ⟨x, List.mem_append_right _ (List.mem_singleton_self x), hformed r hr⟩

lemma callsAfter_append (registry : Registry) (xs : List Extraction) (x : Extraction) :
    callsAfter registry (xs ++ [x]) = (x.run registry (callsAfter registry xs)).2 := by
  rw [callsAfter, List.foldl_append]
  rfl

lemma invariant_callsAfter (registry : Registry) (xs : List Extraction) :
    Invariant registry xs (callsAfter registry xs) := by
  -- extractions run from left to right, and the last one is the step
  induction xs using List.reverseRecOn with
  | nil => exact ⟨rfl, nofun⟩
  | append_singleton xs x ih =>
    rw [callsAfter_append]
    exact ih.run x

/-- After any extractions of functions that were read, each with its own window and successful or
not, one more extraction keeps the list of calls and adds records to it.  Then each record has its
place for its number, and is the record of an operator call that one of the extractions has
visited: it belongs to an operator of the registry, has as many fields and parameters as that
operator takes, and its fields are the code of the arguments of the call, which read columns, but no
local and no operator.  The new records carry the window of the extraction and belong to the
operator calls that it visits; if it fails, to those in front of the call that is at fault, which
adds none. -/
theorem wellFormed_calls (registry : Registry) (earlier : List Extraction) (x : Extraction) :
    (callsAfter registry (earlier ++ [x])).map OperatorCall.id =
        List.range (callsAfter registry (earlier ++ [x])).length ∧
      (∀ r ∈ callsAfter registry (earlier ++ [x]),
        ∃ y ∈ earlier ++ [x], ∃ call ∈ y.visited.flatMap Expr.subterms,
          r.WellFormed registry call ∧ r.window = y.window) ∧
      ∃ records, callsAfter registry (earlier ++ [x]) = callsAfter registry earlier ++ records ∧
        (∀ r ∈ records, r.window = x.window) ∧
        x.Accounted registry (x.run registry (callsAfter registry earlier)).1 records := by
  have hinvariant := invariant_callsAfter registry (earlier ++ [x])
  refine ⟨hinvariant.ids, fun r hr => ?_, ?_⟩
  · obtain ⟨y, hy, call, hcall, hformed, hrecorded⟩ := hinvariant.formed r hr
    exact ⟨y, hy, call, hcall, hformed, hrecorded.window_eq⟩
  · obtain ⟨records, hcalls, -, hformed, haccounted⟩ :=
      x.run_adds registry (callsAfter registry earlier)
    refine ⟨records, ?_, fun r hr => ?_, haccounted⟩
    · rw [callsAfter_append, hcalls]
    · obtain ⟨call, -, -, hrecorded⟩ := hformed r hr
      exact hrecorded.window_eq

/-- The mean of a column. -/
def meanX : RowFunction :=
  ⟨some "d", .expr (.call (.identifier "mean") [.member (.identifier "d") "x"])⟩

lemma parse_meanX : RowFunction.parse "d=>mean(d.x)" = .ok meanX := by
  unfold RowFunction.parse
  conv in TokenRun.ofText _ _ => cbv
  cbv

/-- The mean of a column in front of a mean without one. -/
def meanYAndNull : RowFunction :=
  ⟨some "d", .expr (.array [.call (.identifier "mean") [.member (.identifier "d") "y"],
    .call (.identifier "mean") [.literal .null]])⟩

lemma parse_meanYAndNull :
    RowFunction.parse "d=>[mean(d.y),mean(null)]" = .ok meanYAndNull := by
  unfold RowFunction.parse
  conv in TokenRun.ofText _ _ => cbv
  cbv

/-- The second extraction fails, and leaves the record of the first mean in it. -/
theorem wellFormed_calls_meanYAndNull :
    let first : Extraction := ⟨_, meanX, parse_meanX, "op", none⟩
    let second : Extraction := ⟨_, meanYAndNull, parse_meanYAndNull, "op", some {}⟩
    (second.run RowFunction.meanAndLag (callsAfter RowFunction.meanAndLag [first])).1 =
        .error (.argument (.fieldWithoutColumn "mean")) ∧
      callsAfter RowFunction.meanAndLag ([first] ++ [second]) =
        [⟨"mean", ["data.x.get(row)"], [], 0, none⟩,
          ⟨"mean", ["data.y.get(row)"], [], 1, some {}⟩] ∧
      ∀ r ∈ callsAfter RowFunction.meanAndLag ([first] ++ [second]),
        ∃ y ∈ [first] ++ [second], ∃ call ∈ y.visited.flatMap Expr.subterms,
          r.WellFormed RowFunction.meanAndLag call ∧ r.window = y.window :=
  ⟨rfl, rfl, (wellFormed_calls RowFunction.meanAndLag [_] _).2.1⟩

end Extraction

end RowExpr
