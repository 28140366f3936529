/-
# Taking operators out of an expression

What a successful extraction does to an expression: it gives the numbered expression, and to the
list of calls it adds one record for each operator call, in order, and nothing else.
-/
import RowExpr.Proofs.Expr.Fold
import RowExpr.Proofs.Extract.Numbering
import RowExpr.Proofs.Extract.Run
import Mathlib.Data.List.Forall2

namespace RowExpr.Expr

open Extract

variable {registry : Registry} {window : Option Window}

/-! ## Extraction node by node -/

lemma extractEntries_eq (entries : List (Entry Expr)) :
    extractEntries registry window entries = do
      let parts ← extractList registry window (entries.flatMap Entry.children)
      return rebuildEntries entries parts := by
  induction entries with
  | nil => simp [extractEntries, extractList, rebuildEntries]
  | cons entry rest ih =>
    obtain ⟨key, value, shorthand⟩ := entry
    cases key <;>
      simp only [extractEntries, extractKey, Entry.children, Key.children, rebuildEntries,
        extractList, ih, List.flatMap_cons, List.cons_append, List.nil_append, bind_assoc,
        pure_bind]

lemma extractParts_eq (parts : List (Expr × String)) :
    extractParts registry window parts = do
      let exprs ← extractList registry window (parts.map Prod.fst)
      return rebuildParts parts exprs := by
  induction parts with
  | nil => simp [extractParts, extractList, rebuildParts]
  | cons part rest ih => simp [extractParts, extractList, rebuildParts, ih]

/-- Apart from calls by name, the operators are taken out of the parts of a node from left to right,
and the node is rebuilt. -/
theorem extract_eq_rebuild {e : Expr} (h : ∀ name args, e ≠ opCall name args) :
    e.extract registry window = do
      let parts ← extractList registry window e.children
      return e.rebuild parts := by
  cases e with
  | opCall name args => exact absurd rfl (h name args)
  | object entries =>
    simp only [extract, extractEntries_eq, rebuild, children, bind_assoc, pure_bind]
  | template head parts =>
    simp only [extract, extractParts_eq, rebuild, children, bind_assoc, pure_bind]
  | _ => simp only [extract, extractList, rebuild, children, bind_assoc, pure_bind]

/-! ## The records of operator calls -/

/-- The record `r` is what an operator call leaves behind: its name, the code of its fields with
their function calls resolved, the values of its parameters, and the window. -/
def RecordedAs (registry : Registry) (window : Option Window) (e : Expr) (r : OperatorCall) :
    Prop :=
  ∃ name args o, e = opCall name args ∧ registry.operator? name = some o ∧
    o.fields ≤ args.length ∧ args.length ≤ o.fields + o.params ∧ r.name = name ∧
    r.fields = (args.take o.fields).map (fun field => (field.numbered registry 0).code) ∧
    List.Forall₂ (fun e value => e.fold registry = .ok value) (args.drop o.fields) r.params ∧
    r.window = window

lemma RecordedAs.window_eq {e : Expr} {r : OperatorCall}
    (h : RecordedAs registry window e r) : r.window = window := by
  obtain ⟨_, _, _, _, _, _, _, _, _, _, hwindow⟩ := h
  exact hwindow

/-- The list `calls'` is `calls` with the records of the operator calls `es` after them, numbered on
from where `calls` ends. -/
def Adds (registry : Registry) (window : Option Window) (es : List Expr)
    (calls calls' : List OperatorCall) : Prop :=
  ∃ rs, calls' = calls ++ rs ∧ List.Forall₂ (RecordedAs registry window) es rs ∧
    rs.map OperatorCall.id = List.range' calls.length es.length

variable {es es' : List Expr} {calls middle calls' : List OperatorCall}

lemma adds_nil : Adds registry window [] calls calls := ⟨[], by simp, List.Forall₂.nil, rfl⟩

lemma adds_nil_iff : Adds registry window [] calls calls' ↔ calls' = calls := by
  constructor
  · rintro ⟨rs, rfl, hrs, -⟩
    cases hrs
    exact List.append_nil calls
  · rintro rfl
    exact adds_nil

lemma Adds.length_eq (h : Adds registry window es calls calls') :
    calls'.length = calls.length + es.length := by
  obtain ⟨rs, rfl, hrs, -⟩ := h
  rw [List.length_append, hrs.length_eq]

lemma Adds.append (h : Adds registry window es calls middle)
    (h' : Adds registry window es' middle calls') :
    Adds registry window (es ++ es') calls calls' := by
  have hlength := h.length_eq
  obtain ⟨rs, rfl, hrs, hids⟩ := h
  obtain ⟨rs', rfl, hrs', hids'⟩ := h'
  refine ⟨rs ++ rs', List.append_assoc _ _ _, List.rel_append hrs hrs', ?_⟩
  rw [List.map_append, hids, hids', hlength, List.length_append, List.range'_append_1]

/-! ## Fields and parameters hold no operator calls -/

/-- An accepted field holds no operator call. -/
lemma operatorCalls_of_checkField {operator : String} {field : Expr}
    (h : checkField registry operator field = .ok ()) : field.operatorCalls registry = [] := by
  rw [operatorCalls_eq_nil_iff]
  unfold checkField at h
  split at h
  · cases h
  · rename_i hnone
    intro s hs
    have hs' := List.findSome?_eq_none_iff.mp hnone s hs
    cases s with
    | opCall name args => simpa [operatorCalled?, isOperatorCall] using hs'
    | _ => rfl

/-- Every call by name inside an expression has a name that the registry knows. -/
def Resolved (registry : Registry) (e : Expr) : Prop :=
  ∀ name args, opCall name args ∈ e.subterms → (registry.lookup? name).isSome

lemma resolved_of_children {e : Expr}
    (hself : ∀ name args, e = opCall name args → (registry.lookup? name).isSome)
    (h : ∀ c ∈ e.children, c.Resolved registry) : e.Resolved registry := by
  intro name args hmem
  rw [subterms_eq] at hmem
  rcases List.mem_cons.mp hmem with heq | hmem
  · exact hself name args heq.symm
  · obtain ⟨c, hc, hmem⟩ := List.mem_flatMap.mp hmem
    exact h c hc name args hmem

/-- A constant expression holds no operator call. -/
lemma operatorCalls_of_fold {e : Expr} {value : Value} (h : e.fold registry = .ok value) :
    e.operatorCalls registry = [] := by
  rw [operatorCalls_eq_nil_iff]
  intro s hs
  have hs' := obstacle?_of_fold h s hs
  cases s with
  | opCall name args =>
    simp only [isOperatorCall]
    cases ho : registry.operator? name with
    | none => rfl
    | some o => simp [obstacle?, Registry.lookup?, ho] at hs'
  | _ => rfl

/-- A constant expression calls functions of the registry only. -/
lemma resolved_of_fold {e : Expr} {value : Value} (h : e.fold registry = .ok value) :
    e.Resolved registry := by
  intro name args hmem
  have hmem' := obstacle?_of_fold h _ hmem
  cases hlookup : registry.lookup? name with
  | some callable => rfl
  | none => simp [obstacle?, hlookup] at hmem'

lemma forall₂_of_foldList {es : List Expr} {values : List Value}
    (h : foldList registry es = .ok values) :
    List.Forall₂ (fun e value => e.fold registry = .ok value) es values := by
  induction es generalizing values with
  | nil =>
    cases h
    exact List.Forall₂.nil
  | cons e rest ih =>
    cases he : e.fold registry with
    | error cause => simp [foldList, he, bind, Except.bind] at h
    | ok value =>
      cases hrest : foldList registry rest with
      | error cause => simp [foldList, he, hrest, bind, Except.bind] at h
      | ok values' =>
        have hvalues : value :: values' = values := by
          simpa [foldList, he, hrest, bind, Except.bind, pure, Except.pure] using h
        subst hvalues
        exact List.Forall₂.cons he (ih hrest)

lemma exists_fold_of_forall₂ {values : List Value}
    (h : List.Forall₂ (fun e value => e.fold registry = .ok value) es values) :
    ∀ e ∈ es, ∃ value, e.fold registry = .ok value := by
  induction h with
  | nil => simp
  | cons he _ ih => exact List.forall_mem_cons.mpr ⟨⟨_, he⟩, ih⟩

lemma bounds_of_checkCount {name : String} {o : Operator} {count : Nat}
    (h : checkCount name o count = .ok ()) : o.fields ≤ count ∧ count ≤ o.fields + o.params := by
  unfold checkCount at h
  split at h
  · cases h
  · split at h
    · cases h
    · omega

/-! ## Successful extractions -/

/-- What a successful extraction from `es` leaves behind: the records of the operator calls in `es`,
none of which stands inside another.  The other calls by name are calls of functions. -/
structure Taken (registry : Registry) (window : Option Window) (es : List Expr)
    (calls calls' : List OperatorCall) : Prop where
  adds : Adds registry window (es.flatMap (operatorCalls registry)) calls calls'
  unnested : ∀ e ∈ es, e.Unnested registry
  resolved : ∀ e ∈ es, e.Resolved registry

lemma taken_nil : Taken registry window [] calls calls := ⟨adds_nil, by simp, by simp⟩

lemma Taken.append (h : Taken registry window es calls middle)
    (h' : Taken registry window es' middle calls') :
    Taken registry window (es ++ es') calls calls' := by
  refine ⟨?_, List.forall_mem_append.mpr ⟨h.unnested, h'.unnested⟩,
    List.forall_mem_append.mpr ⟨h.resolved, h'.resolved⟩⟩
  rw [List.flatMap_append]
  exact h.adds.append h'.adds

lemma taken_singleton_iff {e : Expr} :
    Taken registry window [e] calls calls' ↔
      Adds registry window (e.operatorCalls registry) calls calls' ∧ e.Unnested registry ∧
        e.Resolved registry := by
  have hself := List.mem_singleton_self e
  constructor
  · intro h
    exact ⟨by simpa using h.adds, h.unnested e hself, h.resolved e hself⟩
  · rintro ⟨hadds, hnest, hresolved⟩
    exact ⟨by simpa using hadds, by simpa using hnest, by simpa using hresolved⟩

/-- Every successful extraction from `e` gives the numbered expression and leaves the records of
its operator calls. -/
def TakesOut (registry : Registry) (window : Option Window) (e : Expr) : Prop :=
  ∀ calls e' calls', Yields (e.extract registry window) calls e' calls' →
    e' = e.numbered registry calls.length ∧ Taken registry window [e] calls calls'

/-- Expressions are taken from left to right, each numbered on from where the one before ends. -/
lemma yields_extractList (ih : ∀ e ∈ es, TakesOut registry window e) {parts : List Expr}
    (h : Yields (extractList registry window es) calls parts calls') :
    parts = numberedList registry calls.length es ∧ Taken registry window es calls calls' := by
  induction es generalizing calls parts with
  | nil =>
    obtain ⟨rfl, rfl⟩ := yields_pure_iff.mp h
    exact ⟨rfl, taken_nil⟩
  | cons e rest ihrest =>
    rw [List.forall_mem_cons] at ih
    obtain ⟨e', middle, he, h⟩ := yields_bind_iff.mp h
    obtain ⟨rest', after, hrest, h⟩ := yields_bind_iff.mp h
    obtain ⟨rfl, rfl⟩ := yields_pure_iff.mp h
    obtain ⟨rfl, htaken⟩ := ih.1 _ _ _ he
    obtain ⟨rfl, htakenRest⟩ := ihrest ih.2 hrest
    refine ⟨?_, htaken.append htakenRest⟩
    rw [numberedList, (taken_singleton_iff.mp htaken).1.length_eq]
    rfl

/-- The fields of an operator add no records, since they hold no operator calls. -/
lemma yields_extractFields (ih : ∀ e ∈ es, TakesOut registry window e) {operator : String}
    {count : Nat} {fields : List String}
    (h : Yields (extractFields registry window operator count es) calls fields calls') :
    calls' = calls ∧
      fields = (es.take count).map (fun field => (field.numbered registry 0).code) ∧
      ∀ e ∈ es.take count, e.operatorCalls registry = [] ∧ e.Resolved registry := by
  induction count generalizing es calls fields with
  | zero =>
    obtain ⟨rfl, rfl⟩ := yields_pure_iff.mp (by simpa [extractFields] using h)
    exact ⟨rfl, by simp, by simp⟩
  | succ count ihcount =>
    cases es with
    | nil =>
      obtain ⟨rfl, rfl⟩ := yields_pure_iff.mp (by simpa [extractFields] using h)
      exact ⟨rfl, by simp, by simp⟩
    | cons e rest =>
      rw [List.forall_mem_cons] at ih
      rw [extractFields] at h
      obtain ⟨⟨⟩, _, hfield, h⟩ := yields_bind_iff.mp h
      obtain ⟨field, _, he, h⟩ := yields_bind_iff.mp h
      obtain ⟨fields', _, hrest, h⟩ := yields_bind_iff.mp h
      obtain ⟨rfl, rfl⟩ := yields_pure_iff.mp h
      obtain ⟨hcheck, rfl⟩ := yields_ofExcept_iff.mp hfield
      -- without operator calls, nothing is added, and the first number does not matter
      have hnil := operatorCalls_of_checkField hcheck
      obtain ⟨rfl, htaken⟩ := ih.1 _ _ _ he
      obtain ⟨hadds, -, hresolved⟩ := taken_singleton_iff.mp htaken
      rw [hnil, adds_nil_iff] at hadds
      subst hadds
      obtain ⟨rfl, rfl, hnilRest⟩ := ihcount ih.2 hrest
      refine ⟨rfl, ?_, ?_⟩
      · rw [List.take_succ_cons, List.map_cons, numbered_congr hnil _ 0]
      · rw [List.take_succ_cons]
        exact List.forall_mem_cons.mpr ⟨⟨hnil, hresolved⟩, hnilRest⟩

/-- What becomes of an operator call: one record, and a reference to it. -/
lemma yields_operator {name : String} {args : List Expr} {o : Operator}
    (ih : ∀ e ∈ args, TakesOut registry window e) (ho : registry.operator? name = some o)
    {e' : Expr} (h : Yields ((opCall name args).extract registry window) calls e' calls') :
    e' = opRef calls.length ∧
      (∀ a ∈ args, a.operatorCalls registry = [] ∧ a.Resolved registry) ∧
      Adds registry window [opCall name args] calls calls' := by
  -- the steps of the extraction: the number of arguments, the fields, the parameters, the record
  simp only [extract, Registry.lookup?, ho] at h
  obtain ⟨⟨⟩, _, hcheck, h⟩ := yields_bind_iff.mp h
  obtain ⟨fields, _, hfields, h⟩ := yields_bind_iff.mp h
  obtain ⟨params, _, hparams, h⟩ := yields_bind_iff.mp h
  obtain ⟨id, _, hpush, h⟩ := yields_bind_iff.mp h
  obtain ⟨hcount, rfl⟩ := yields_ofExcept_iff.mp hcheck
  obtain ⟨rfl, rfl, hfieldCalls⟩ := yields_extractFields ih hfields
  obtain ⟨hfoldList, rfl⟩ := yields_ofExcept_iff.mp hparams
  obtain ⟨rfl, rfl⟩ := yields_push_iff.mp hpush
  obtain ⟨rfl, rfl⟩ := yields_pure_iff.mp h
  have hfold := forall₂_of_foldList hfoldList
  have hbounds := bounds_of_checkCount hcount
  refine ⟨rfl, ?_, ?_⟩
  · intro a ha
    rw [← List.take_append_drop o.fields args] at ha
    rcases List.mem_append.mp ha with ha | ha
    · exact hfieldCalls a ha
    · obtain ⟨value, hvalue⟩ := exists_fold_of_forall₂ hfold a ha
      exact ⟨operatorCalls_of_fold hvalue, resolved_of_fold hvalue⟩
  · refine ⟨_, rfl, List.Forall₂.cons ?_ List.Forall₂.nil, rfl⟩
    exact ⟨name, args, o, rfl, ho, hbounds.1, hbounds.2, rfl, rfl, hfold, rfl⟩

/-- What becomes of another call by name: a call of a function. -/
lemma yields_function {name : String} {args : List Expr} (ho : registry.operator? name = none)
    {e' : Expr} (h : Yields ((opCall name args).extract registry window) calls e' calls') :
    (registry.lookup? name).isSome ∧
      ∃ args', Yields (extractList registry window args) calls args' calls' ∧
        e' = fnCall name args' := by
  simp only [extract, Registry.lookup?, ho] at h
  cases hf : registry.function? name with
  | none =>
    rw [hf] at h
    exact absurd h not_yields_throw
  | some f =>
    rw [hf] at h
    simp only [Option.map_some] at h
    split at h
    · obtain ⟨args', _, hargs, h⟩ := yields_bind_iff.mp h
      obtain ⟨rfl, rfl⟩ := yields_pure_iff.mp h
      exact ⟨by simp [Registry.lookup?, ho, hf], args', hargs, rfl⟩
    · exact absurd h not_yields_throw

/-- A node that calls no operator leaves what its parts leave. -/
lemma taken_of_children {e : Expr} (hself : e.isOperatorCall registry = false)
    (hname : ∀ name args, e = opCall name args → (registry.lookup? name).isSome)
    (h : Taken registry window e.children calls calls') :
    Taken registry window [e] calls calls' := by
  rw [taken_singleton_iff, operatorCalls_of_not_call hself]
  exact ⟨h.adds, unnested_of_children hself h.unnested, resolved_of_children hname h.resolved⟩

/-- A successful extraction gives the numbered expression and adds the records of its operator
calls, none of which stands inside another; its other calls by name are calls of functions. -/
theorem takesOut (registry : Registry) (window : Option Window) (e : Expr) :
    TakesOut registry window e := by
  induction e using parts_induction with
  | node e ih =>
    intro calls e' calls' h
    rcases eq_opCall_or_ne e with ⟨name, args, rfl⟩ | hne
    · cases ho : registry.operator? name with
      | some o =>
        obtain ⟨rfl, hargs, hadds⟩ := yields_operator ih ho h
        -- the call is the only one inside itself, since its arguments hold none
        have hnil : ∀ a ∈ args, a.operatorCalls registry = [] := fun a ha => (hargs a ha).1
        have hcalls : (opCall name args).operatorCalls registry = [opCall name args] := by
          rw [operatorCalls_eq, isOperatorCall, ho]
          simpa [children] using hnil
        rw [numbered_operator _ (by simp [ho]), taken_singleton_iff, hcalls]
        refine ⟨rfl, hadds, ?_, resolved_of_children ?_ fun a ha => (hargs a ha).2⟩
        · intro c hc
          rw [hcalls, List.mem_singleton] at hc
          subst hc
          exact hnil
        · rintro _ _ ⟨rfl, rfl⟩
          simp [Registry.lookup?, ho]
      | none =>
        have hself : (opCall name args).isOperatorCall registry = false := by
          simp [isOperatorCall, ho]
        obtain ⟨hlookup, args', hargs, rfl⟩ := yields_function ho h
        obtain ⟨rfl, htaken⟩ := yields_extractList ih hargs
        rw [numbered_function _ ho]
        refine ⟨rfl, taken_of_children hself ?_ htaken⟩
        rintro _ _ ⟨rfl, rfl⟩
        exact hlookup
    · have hself := isOperatorCall_of_ne registry hne
      rw [extract_eq_rebuild hne] at h
      obtain ⟨parts, _, hparts, h⟩ := yields_bind_iff.mp h
      obtain ⟨rfl, rfl⟩ := yields_pure_iff.mp h
      obtain ⟨rfl, htaken⟩ := yields_extractList ih hparts
      rw [numbered_eq_rebuild _ hne]
      exact ⟨rfl, taken_of_children hself (fun name args heq => absurd heq (hne name args)) htaken⟩

end RowExpr.Expr
