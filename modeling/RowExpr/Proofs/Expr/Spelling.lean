/-
# Spellings of columns and operators

A column and an operator call can each be spelled in several ways.  In the standard spelling of an
expression every operator is called by its bare name and every column is a name in brackets behind
the row parameter, and nothing else changes.

The canonical form and the standard spelling of a written expression determine each other:

* `Expr.canonical_respelled`: an expression and its standard spelling have one canonical form;
* `Expr.Written.unreduced_canonical`: the standard spelling can be read off the canonical form.

So the canonical form forgets how columns and operators are spelled, and it forgets nothing else.
-/
import RowExpr.Proofs.Expr.Canonical
import RowExpr.Proofs.Expr.Surface
import RowExpr.Proofs.Grammar.Written

namespace RowExpr.Expr

variable {names : Names}

/-! ## The standard spelling -/

/-- What a node stands for, where its form alone does not say it. -/
inductive Meaning where
  /-- A member of the row parameter whose name is known. -/
  | column (name : String)
  /-- A call whose callee names an operator. -/
  | operator (name : String)
  | constant (value : Constant)
  /-- What the form of the node says. -/
  | plain

/-- What a node stands for in a function with the given names. -/
def meaning (names : Names) : Expr → Meaning
  | identifier name =>
    match Constant.ofName? name with
    | some c => .constant c
    | none => .plain
  | member owner name => if owner.isParam names then .column name else .plain
  | index owner key =>
    match owner.isParam names, key.keyName? with
    | true, some name => .column name
    | _, _ => .plain
  | call callee _ =>
    match callee.operatorName? names.space with
    | some name => .operator name
    | none => .plain
  | _ => .plain

attribute [local simp] meaning

/-- A column as a name in brackets. -/
def bracketed (names : Names) (name : String) : Expr :=
  index (identifier (names.param.getD ""))
    (literal (.string name (String.ofList (Text.jsonQuote name.toList))))

/-- A node in standard spelling, from parts in standard spelling. -/
def Meaning.respell (names : Names) (e : Expr) (parts : List Expr) : Meaning → Expr
  | .column name => bracketed names name
  | .operator name => e.rebuild (identifier name :: parts.tail)
  | .constant _ | .plain => e.rebuild parts

/-- The standard spelling of an expression: columns in brackets, operators by their bare names. -/
def respelled (names : Names) (e : Expr) : Expr :=
  (e.meaning names).respell names e (e.children.attach.map fun c => respelled names c.1)
termination_by sizeOf e
decreasing_by exact sizeOf_lt_of_mem_children c.2

/-! ## The node equations -/

/-- A node in canonical form, from parts in canonical form. -/
def Meaning.reduce (e : Expr) (parts : List Expr) : Meaning → Expr
  | .column name => Expr.column name
  | .operator name => opCall name parts.tail
  | .constant c => Expr.constant c
  | .plain => e.rebuild parts

theorem respelled_eq (e : Expr) :
    e.respelled names =
      (e.meaning names).respell names e (e.children.map (respelled names)) := by
  rw [respelled, List.map_attach_eq_pmap, List.pmap_eq_map]

theorem canonical_eq (e : Expr) :
    e.canonical names = (e.meaning names).reduce e (e.children.map (canonical names)) := by
  cases e with
  | identifier name =>
    simp only [canonical, meaning]
    cases Constant.ofName? name <;> rfl
  | member owner name =>
    simp only [canonical, meaning]
    split <;> rfl
  | index owner key =>
    simp only [canonical, meaning]
    cases owner.isParam names <;> cases key.keyName? <;> rfl
  | call callee args =>
    simp only [canonical, meaning, canonicalList_eq]
    cases callee.operatorName? names.space <;> rfl
  | _ => exact canonical_eq_rebuild rfl

lemma canonical_of_plain {e : Expr} (h : e.meaning names = .plain) :
    e.canonical names = e.rebuild (e.children.map (canonical names)) := by
  rw [canonical_eq, h, Meaning.reduce]

lemma respelled_of_plain {e : Expr} (h : e.meaning names = .plain) :
    e.respelled names = e.rebuild (e.children.map (respelled names)) := by
  rw [respelled_eq, h, Meaning.respell]

@[simp] lemma respelled_identifier (name : String) :
    (identifier name).respelled names = identifier name := by
  rw [respelled_eq, meaning]
  split <;> rfl

/-! ## What a node with a meaning looks like -/

lemma eq_identifier_of_isParam {e : Expr} (h : e.isParam names = true) :
    e = identifier (names.param.getD "") := by
  cases e with
  | identifier name =>
    have hparam : names.param = some name := by simpa [isParam, Names.isParam] using h
    rw [hparam, Option.getD_some]
  | _ => cases h

lemma isParam_of_column {e : Expr} {name : String} (h : e.meaning names = .column name) :
    (identifier (names.param.getD "")).isParam names = true := by
  cases e with
  | member owner _ =>
    simp only [meaning] at h
    split at h
    · rename_i howner
      rwa [← eq_identifier_of_isParam howner]
    · cases h
  | index owner _ =>
    simp only [meaning] at h
    split at h
    · rename_i howner _
      rwa [← eq_identifier_of_isParam howner]
    · cases h
  | identifier _ | call _ _ =>
    simp only [meaning] at h
    split at h <;> cases h
  | _ => cases h

lemma eq_call_of_operator {e : Expr} {name : String} (h : e.meaning names = .operator name) :
    ∃ callee args, e = call callee args := by
  cases e with
  | call callee args => exact ⟨callee, args, rfl⟩
  | identifier _ | member _ _ | index _ _ =>
    simp only [meaning] at h
    split at h <;> cases h
  | _ => cases h

lemma eq_identifier_of_constant {e : Expr} {c : Constant} (h : e.meaning names = .constant c) :
    e = identifier c.name := by
  cases e with
  | identifier name =>
    simp only [meaning] at h
    split at h
    · rename_i c' hc
      obtain rfl : c' = c := by simpa using h
      have hname : c'.name = name := by simpa using List.find?_some hc
      rw [hname]
    · cases h
  | member _ _ | index _ _ | call _ _ =>
    simp only [meaning] at h
    split at h <;> cases h
  | _ => cases h

/-! ## The canonical form of the standard spelling -/

@[simp] lemma isParam_respelled (e : Expr) :
    (e.respelled names).isParam names = e.isParam names := by
  cases e with
  | identifier name => rw [respelled_identifier]
  | member _ _ | index _ _ | call _ _ =>
    rw [respelled_eq, meaning]
    split <;> rfl
  | _ => rw [respelled_eq]; rfl

@[simp] lemma keyName?_respelled (e : Expr) : (e.respelled names).keyName? = e.keyName? := by
  cases e with
  | identifier name => rw [respelled_identifier]
  | member _ _ | index _ _ | call _ _ =>
    rw [respelled_eq, meaning]
    split <;> rfl
  | _ => rw [respelled_eq]; rfl

lemma isPath_of_respelled {e : Expr} (h : (e.respelled names).isPath = true) : e.isPath = true := by
  induction e using parts_induction with
  | node e ih =>
    cases e with
    | identifier name => rfl
    | member owner name =>
      rw [respelled_eq, meaning] at h
      split at h
      · cases h
      · exact ih owner (List.mem_singleton_self owner) h
    | index _ _ | call _ _ =>
      rw [respelled_eq, meaning] at h
      split at h <;> cases h
    | _ => rw [respelled_eq] at h; cases h

lemma isNamespace_of_respelled {e : Expr} {space : String}
    (h : (e.respelled names).isNamespace space = true) : e.isNamespace space = true := by
  cases e with
  | identifier name => rwa [respelled_identifier] at h
  | member owner name =>
    rw [respelled_eq, meaning] at h
    split at h
    · cases h
    · have hboth : name = space ∧ (owner.respelled names).isPath = true := by
        simpa [isNamespace, Meaning.respell, children, rebuild] using h
      simp [isNamespace, hboth.1, isPath_of_respelled hboth.2]
  | index _ _ | call _ _ =>
    rw [respelled_eq, meaning] at h
    split at h <;> cases h
  | _ => rw [respelled_eq] at h; cases h

/-- In standard spelling nothing names an operator that did not name one before. -/
lemma operatorName?_respelled {e : Expr} (h : e.operatorName? names.space = none) :
    (e.respelled names).operatorName? names.space = none := by
  cases e with
  | identifier name => cases h
  | member owner name =>
    have howner : owner.isNamespace names.space = false := by simpa [operatorName?] using h
    rw [respelled_eq, meaning]
    split
    · -- the row parameter is not the namespace, so it is not in brackets either
      rename_i hparam
      rw [eq_identifier_of_isParam hparam] at howner
      simp [Meaning.respell, bracketed, operatorName?, keyName?, howner]
    · have hnot : (owner.respelled names).isNamespace names.space = false :=
        Bool.eq_false_iff.mpr fun h' => by simp [isNamespace_of_respelled h'] at howner
      simp [Meaning.respell, children, rebuild, operatorName?, hnot]
  | index owner key =>
    rw [respelled_eq, meaning]
    split
    · rename_i hparam hkey
      have howner : owner.isNamespace names.space = false := by simpa [operatorName?, hkey] using h
      rw [eq_identifier_of_isParam hparam] at howner
      simp [Meaning.respell, bracketed, operatorName?, keyName?, howner]
    · simp only [Meaning.respell, children, List.map_cons, List.map_nil, rebuild, operatorName?,
        keyName?_respelled]
      cases hkey : key.keyName? with
      | none => rfl
      | some name =>
        have howner : owner.isNamespace names.space = false := by
          simpa [operatorName?, hkey] using h
        have hnot : (owner.respelled names).isNamespace names.space = false :=
          Bool.eq_false_iff.mpr fun h' => by simp [isNamespace_of_respelled h'] at howner
        simp [hnot]
  | call _ _ =>
    rw [respelled_eq, meaning]
    split <;> rfl
  | _ => rw [respelled_eq]; rfl

/-- A node that stands for what its form says does so in standard spelling too. -/
lemma meaning_rebuild_respelled {e : Expr} (h : e.meaning names = .plain) :
    (e.rebuild (e.children.map (respelled names))).meaning names = .plain := by
  cases e with
  | identifier name => exact h
  | member owner name =>
    simpa only [children, List.map_cons, List.map_nil, rebuild, meaning, isParam_respelled] using h
  | index owner key =>
    simpa only [children, List.map_cons, List.map_nil, rebuild, meaning, isParam_respelled,
      keyName?_respelled] using h
  | call callee args =>
    simp only [meaning] at h
    split at h
    · cases h
    · rename_i hname
      simp only [children, List.map_cons, rebuild, meaning, operatorName?_respelled hname]
  | _ => rfl

/-- An expression has the canonical form of its standard spelling. -/
theorem canonical_respelled (e : Expr) :
    (e.respelled names).canonical names = e.canonical names := by
  induction e using parts_induction with
  | node e ih =>
    have hparts : (e.children.map (respelled names)).map (canonical names) =
        e.children.map (canonical names) := by
      rw [List.map_map]
      exact List.map_congr_left ih
    cases hmeaning : e.meaning names with
    | column name =>
      rw [respelled_eq, canonical_eq e, hmeaning, Meaning.respell, Meaning.reduce, bracketed,
        canonical, isParam_of_column hmeaning]
      rfl
    | operator name =>
      obtain ⟨callee, args, rfl⟩ := eq_call_of_operator hmeaning
      have hargs := congrArg List.tail hparts
      rw [respelled_eq, canonical_eq (call callee args), hmeaning]
      simpa [Meaning.respell, Meaning.reduce, children, rebuild, canonical, operatorName?,
        canonicalList_eq] using hargs
    | constant c => rw [eq_identifier_of_constant hmeaning, respelled_identifier]
    | plain =>
      have hlength : (e.children.map (respelled names)).length = e.children.length :=
        List.length_map _
      rw [respelled_of_plain hmeaning, canonical_of_plain (meaning_rebuild_respelled hmeaning),
        children_rebuild hlength, hparts, rebuild_rebuild hlength (List.length_map _),
        canonical_of_plain hmeaning]

/-! ## The standard spelling of the canonical form -/

/-- A canonical node, spelled. -/
def unreduceNode (names : Names) : Expr → Expr
  | column name => bracketed names name
  | opCall name args => call (identifier name) args
  | constant c => identifier c.name
  | e => e

/-- The expression with every canonical node spelled. -/
def unreduced (names : Names) (e : Expr) : Expr := e.mapNodes (unreduceNode names)

lemma unreduced_eq (e : Expr) :
    e.unreduced names = unreduceNode names (e.rebuild (e.children.map (unreduced names))) :=
  mapNodes_eq _ e

lemma unreduceNode_rebuild {e : Expr} (h : e.isWritten = true) (parts : List Expr) :
    unreduceNode names (e.rebuild parts) = e.rebuild parts := by
  cases e with
  | column _ | constant _ | opCall _ _ | opRef _ | fnCall _ _ => cases h
  | _ =>
    -- no node but a list of its own has more than three parts
    rcases parts with _ | ⟨_, _ | ⟨_, _ | ⟨_, _ | ⟨_, _⟩⟩⟩⟩ <;> rfl

/-- The standard spelling of a written expression can be read off its canonical form. -/
theorem Written.unreduced_canonical {e : Expr} (h : e.Written) :
    (e.canonical names).unreduced names = e.respelled names := by
  induction e using parts_induction with
  | node e ih =>
    have hparts : (e.children.map (canonical names)).map (unreduced names) =
        e.children.map (respelled names) := by
      rw [List.map_map]
      exact List.map_congr_left fun c hc => ih c hc (h.child hc)
    rw [canonical_eq, respelled_eq]
    cases hmeaning : e.meaning names with
    | column name => exact unreduced_eq _
    | operator name =>
      obtain ⟨callee, args, rfl⟩ := eq_call_of_operator hmeaning
      have hargs := congrArg List.tail hparts
      rw [Meaning.reduce, unreduced_eq]
      simpa [Meaning.respell, children, rebuild, unreduceNode] using hargs
    | constant c =>
      rw [eq_identifier_of_constant hmeaning]
      exact unreduced_eq _
    | plain =>
      have hlength : (e.children.map (canonical names)).length = e.children.length :=
        List.length_map _
      rw [Meaning.reduce, Meaning.respell, unreduced_eq, children_rebuild hlength, hparts,
        rebuild_rebuild hlength (List.length_map _),
        unreduceNode_rebuild ((written_iff e).mp h).1]

end RowExpr.Expr
