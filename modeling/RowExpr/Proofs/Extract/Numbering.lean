/-
# Numbering the operator calls of an expression

What should be left of an expression when its operators are taken out, without a list of calls to
carry along: `numbered registry first e` is `e` with the operator call at place `j` (from the
outside in and from left to right) replaced by the reference `first + j`, and with every other call
by name turned into a call of a function.  A part of a node starts at the number that the parts to
its left leave free.

* `Expr.numbered_eq_rebuild`: apart from calls by name, a node is rebuilt from numbered parts;
* `Expr.numbered_congr`: the first number does not matter where there is no operator call;
* `Expr.refs_numbered`: the references in a numbered expression are the numbers from the first one
  on, in order.
-/
import RowExpr.Expr.Check
import RowExpr.Expr.Extract
import RowExpr.Proofs.Expr.Parts

namespace RowExpr.Expr

/-! ## Operator calls -/

/-- Whether a node calls an operator of the registry. -/
def isOperatorCall (registry : Registry) : Expr → Bool
  | opCall name _ => (registry.operator? name).isSome
  | _ => false

/-- The operator calls inside an expression, from the outside in and from left to right. -/
def operatorCalls (registry : Registry) (e : Expr) : List Expr :=
  e.subterms.filter (isOperatorCall registry)

/-- The number of operator calls inside an expression. -/
def operatorCount (registry : Registry) (e : Expr) : Nat := (e.operatorCalls registry).length

/-- The number of operator calls inside a key. -/
def operatorCountOfKey (registry : Registry) : Key Expr → Nat
  | .computed key => key.operatorCount registry
  | .name _ | .string _ _ | .number _ _ => 0

/-- No operator call stands inside another one. -/
def Unnested (registry : Registry) (e : Expr) : Prop :=
  ∀ c ∈ e.operatorCalls registry, ∀ a ∈ c.children, a.operatorCalls registry = []

/-- The operator whose result a node refers to. -/
def ref? : Expr → Option Nat
  | opRef id => some id
  | _ => none

/-- The references to operators inside an expression, from left to right. -/
def refs (e : Expr) : List Nat := e.subterms.filterMap ref?

/-! ## Numbered expressions -/

mutual

/-- The expression with its operator calls replaced by references, numbered from `first` on, and
with its other calls by name as calls of functions. -/
def numbered (registry : Registry) (first : Nat) : Expr → Expr
  | opCall name args =>
    if (registry.operator? name).isSome then opRef first
    else fnCall name (numberedList registry first args)
  | array items => array (numberedList registry first items)
  | object entries => object (numberedEntries registry first entries)
  | template head parts => template head (numberedParts registry first parts)
  | member owner name => member (numbered registry first owner) name
  | index owner key =>
    index (numbered registry first owner)
      (numbered registry (first + owner.operatorCount registry) key)
  | call callee args =>
    call (numbered registry first callee)
      (numberedList registry (first + callee.operatorCount registry) args)
  | new callee args =>
    new (numbered registry first callee)
      (numberedList registry (first + callee.operatorCount registry) args)
  | unary op argument => unary op (numbered registry first argument)
  | update op before argument => update op before (numbered registry first argument)
  | binary op left right =>
    binary op (numbered registry first left)
      (numbered registry (first + left.operatorCount registry) right)
  | logical op left right =>
    logical op (numbered registry first left)
      (numbered registry (first + left.operatorCount registry) right)
  | conditional test yes no =>
    conditional (numbered registry first test)
      (numbered registry (first + test.operatorCount registry) yes)
      (numbered registry
        (first + test.operatorCount registry + yes.operatorCount registry) no)
  | assign op target value =>
    assign op (numbered registry first target)
      (numbered registry (first + target.operatorCount registry) value)
  | fnCall name args => fnCall name (numberedList registry first args)
  | literal value => literal value
  | identifier name => identifier name
  | this => this
  | column name => column name
  | constant c => constant c
  | opRef id => opRef id

/-- Expressions one after the other, numbered on. -/
def numberedList (registry : Registry) (first : Nat) : List Expr → List Expr
  | [] => []
  | e :: rest =>
    numbered registry first e :: numberedList registry (first + e.operatorCount registry) rest

/-- The entries of an object, numbered on, a computed key before its value. -/
def numberedEntries (registry : Registry) (first : Nat) : List (Entry Expr) → List (Entry Expr)
  | [] => []
  | ⟨key, value, shorthand⟩ :: rest =>
    ⟨numberedKey registry first key,
      numbered registry (first + operatorCountOfKey registry key) value, shorthand⟩ ::
    numberedEntries registry
      (first + operatorCountOfKey registry key + value.operatorCount registry) rest

/-- The key of an entry. -/
def numberedKey (registry : Registry) (first : Nat) : Key Expr → Key Expr
  | .computed key => .computed (numbered registry first key)
  | .name name => .name name
  | .string value raw => .string value raw
  | .number value raw => .number value raw

/-- The holes of a template, numbered on. -/
def numberedParts (registry : Registry) (first : Nat) :
    List (Expr × String) → List (Expr × String)
  | [] => []
  | (e, text) :: rest =>
    (numbered registry first e, text) ::
      numberedParts registry (first + e.operatorCount registry) rest

end

variable {registry : Registry}

/-- A node is a call by name or has another form. -/
lemma eq_opCall_or_ne (e : Expr) :
    (∃ name args, e = opCall name args) ∨ ∀ name args, e ≠ opCall name args := by
  by_cases h : ∃ name args, e = opCall name args
  · exact Or.inl h
  · exact Or.inr fun name args he => h ⟨name, args, he⟩

/-! ## Operator calls of a node and of its parts -/

lemma operatorCalls_eq (e : Expr) :
    e.operatorCalls registry =
      (if e.isOperatorCall registry then [e] else []) ++
        e.children.flatMap (operatorCalls registry) := by
  unfold operatorCalls
  rw [subterms_eq, List.filter_cons, List.filter_flatMap]
  split <;> rfl

/-- A node that calls no operator has the operator calls of its parts. -/
lemma operatorCalls_of_not_call {e : Expr} (h : e.isOperatorCall registry = false) :
    e.operatorCalls registry = e.children.flatMap (operatorCalls registry) := by
  rw [operatorCalls_eq, h]
  rfl

lemma isOperatorCall_of_ne (registry : Registry) {e : Expr}
    (h : ∀ name args, e ≠ opCall name args) : e.isOperatorCall registry = false := by
  cases e with
  | opCall name args => exact absurd rfl (h name args)
  | _ => rfl

lemma operatorCalls_eq_nil_iff {e : Expr} :
    e.operatorCalls registry = [] ↔ ∀ s ∈ e.subterms, s.isOperatorCall registry = false := by
  simp [operatorCalls, List.filter_eq_nil_iff]

lemma operatorCalls_child_eq_nil {e c : Expr} (h : e.operatorCalls registry = [])
    (hc : c ∈ e.children) : c.operatorCalls registry = [] := by
  rw [operatorCalls_eq_nil_iff] at h ⊢
  exact fun s hs => h s (mem_subterms_of_mem_children hc hs)

/-! ## Numbering node by node -/

@[simp] lemma numberedList_length (first : Nat) (es : List Expr) :
    (numberedList registry first es).length = es.length := by
  induction es generalizing first with
  | nil => rfl
  | cons e rest ih => simp [numberedList, ih]

lemma numberedEntries_eq (first : Nat) (entries : List (Entry Expr)) :
    numberedEntries registry first entries =
      rebuildEntries entries (numberedList registry first (entries.flatMap Entry.children)) := by
  induction entries generalizing first with
  | nil => rfl
  | cons entry rest ih =>
    obtain ⟨key, value, shorthand⟩ := entry
    cases key <;>
      simp [numberedEntries, numberedKey, operatorCountOfKey, Entry.children, Key.children,
        rebuildEntries, numberedList, ih]

lemma numberedParts_eq (first : Nat) (parts : List (Expr × String)) :
    numberedParts registry first parts =
      rebuildParts parts (numberedList registry first (parts.map Prod.fst)) := by
  induction parts generalizing first with
  | nil => rfl
  | cons part rest ih => simp [numberedParts, rebuildParts, numberedList, ih]

/-- Apart from calls by name, a node is rebuilt from its numbered parts. -/
theorem numbered_eq_rebuild (first : Nat) {e : Expr} (h : ∀ name args, e ≠ opCall name args) :
    e.numbered registry first = e.rebuild (numberedList registry first e.children) := by
  cases e with
  | opCall name args => exact absurd rfl (h name args)
  | object entries => simp only [numbered, numberedEntries_eq, rebuild, children]
  | template head parts => simp only [numbered, numberedParts_eq, rebuild, children]
  | _ => rfl

lemma children_numbered (first : Nat) {e : Expr} (h : ∀ name args, e ≠ opCall name args) :
    (e.numbered registry first).children = numberedList registry first e.children := by
  rw [numbered_eq_rebuild first h]
  exact children_rebuild (numberedList_length first e.children)

/-- An operator call becomes a reference. -/
lemma numbered_operator (first : Nat) {name : String} {args : List Expr}
    (h : (registry.operator? name).isSome) :
    (opCall name args).numbered registry first = opRef first :=
  if_pos h

/-- Another call by name becomes a call of a function. -/
lemma numbered_function (first : Nat) {name : String} {args : List Expr}
    (h : registry.operator? name = none) :
    (opCall name args).numbered registry first =
      fnCall name (numberedList registry first args) :=
  if_neg (by simp [h])

/-! ## Expressions without operator calls -/

lemma numberedList_congr {es : List Expr} (hcalls : ∀ e ∈ es, e.operatorCalls registry = [])
    (h : ∀ e ∈ es, ∀ m n, e.numbered registry m = e.numbered registry n) (m n : Nat) :
    numberedList registry m es = numberedList registry n es := by
  induction es generalizing m n with
  | nil => rfl
  | cons e rest ih =>
    rw [List.forall_mem_cons] at hcalls h
    simp only [numberedList]
    rw [h.1 m n, ih hcalls.2 h.2]

/-- The first number does not matter where there is no operator call. -/
theorem numbered_congr {e : Expr} (hcalls : e.operatorCalls registry = []) (m n : Nat) :
    e.numbered registry m = e.numbered registry n := by
  induction e using parts_induction generalizing m n with
  | node e ih =>
    have hchildren : ∀ c ∈ e.children, c.operatorCalls registry = [] :=
      fun c hc => operatorCalls_child_eq_nil hcalls hc
    have hparts := numberedList_congr hchildren (fun c hc => ih c hc (hchildren c hc)) m n
    rcases eq_opCall_or_ne e with ⟨name, args, rfl⟩ | hne
    · have hnone : registry.operator? name = none := by
        have hself := operatorCalls_eq_nil_iff.mp hcalls _ (mem_subterms_self _)
        simpa [isOperatorCall] using hself
      rw [numbered_function m hnone, numbered_function n hnone]
      exact congrArg (fnCall name) hparts
    · rw [numbered_eq_rebuild m hne, numbered_eq_rebuild n hne, hparts]

/-! ## The references in a numbered expression -/

lemma refs_eq (e : Expr) : e.refs = e.ref?.toList ++ e.children.flatMap refs := by
  unfold refs
  rw [subterms_eq, List.filterMap_cons, List.filterMap_flatMap]
  cases e.ref? <;> rfl

lemma refs_child_eq_nil {e c : Expr} (h : e.refs = []) (hc : c ∈ e.children) : c.refs = [] := by
  rw [refs_eq, List.append_eq_nil_iff, List.flatMap_eq_nil_iff] at h
  exact h.2 c hc

lemma Unnested.child {e c : Expr} (h : e.Unnested registry) (hc : c ∈ e.children) :
    c.Unnested registry := by
  intro s hs
  refine h s ?_
  rw [operatorCalls_eq]
  exact List.mem_append_right _ (List.mem_flatMap.mpr ⟨c, hc, hs⟩)

/-- Where operator calls do not stand inside each other, each is the only one inside itself. -/
lemma Unnested.operatorCalls_eq {e c : Expr} (h : e.Unnested registry)
    (hc : c ∈ e.operatorCalls registry) : c.operatorCalls registry = [c] := by
  have hself : c.isOperatorCall registry = true := (List.mem_filter.mp hc).2
  rw [Expr.operatorCalls_eq, hself, List.flatMap_eq_nil_iff.mpr (h c hc)]
  rfl

lemma unnested_of_children {e : Expr} (hself : e.isOperatorCall registry = false)
    (h : ∀ c ∈ e.children, c.Unnested registry) : e.Unnested registry := by
  intro s hs
  rw [operatorCalls_of_not_call hself] at hs
  obtain ⟨c, hc, hs⟩ := List.mem_flatMap.mp hs
  exact h c hc s hs

lemma refs_numberedList {es : List Expr}
    (h : ∀ e ∈ es, ∀ first,
      (e.numbered registry first).refs = List.range' first (e.operatorCount registry))
    (first : Nat) :
    (numberedList registry first es).flatMap refs =
      List.range' first (es.flatMap (operatorCalls registry)).length := by
  induction es generalizing first with
  | nil => rfl
  | cons e rest ih =>
    rw [List.forall_mem_cons] at h
    simp only [numberedList, List.flatMap_cons, List.length_append]
    rw [h.1 first, ih h.2, ← List.range'_append_1]
    rfl

/-- The references in a numbered expression are the numbers from the first one on, in order. -/
theorem refs_numbered {e : Expr} (hrefs : e.refs = []) (hnest : e.Unnested registry)
    (first : Nat) :
    (e.numbered registry first).refs = List.range' first (e.operatorCount registry) := by
  induction e using parts_induction generalizing first with
  | node e ih =>
    have hparts := refs_numberedList
      (fun c hc => ih c hc (refs_child_eq_nil hrefs hc) (hnest.child hc)) first
    rcases eq_opCall_or_ne e with ⟨name, args, rfl⟩ | hne
    · cases ho : registry.operator? name with
      | some o =>
        -- the arguments hold no operator call, so this call is the only one
        have hself : (opCall name args).isOperatorCall registry = true := by
          simp [isOperatorCall, ho]
        have hnil : args.flatMap (operatorCalls registry) = [] := by
          rw [List.flatMap_eq_nil_iff]
          refine hnest (opCall name args) ?_
          rw [operatorCalls_eq, hself]
          exact List.mem_append_left _ (List.mem_singleton_self _)
        have hcount : (opCall name args).operatorCount registry = 1 := by
          rw [operatorCount, operatorCalls_eq, hself]
          simp only [children, hnil]
          rfl
        rw [numbered_operator first (by simp [ho]), hcount]
        rfl
      | none =>
        have hself : (opCall name args).isOperatorCall registry = false := by
          simp [isOperatorCall, ho]
        rw [numbered_function first ho, operatorCount, operatorCalls_of_not_call hself, ← hparts,
          refs_eq]
        rfl
    · have hself := isOperatorCall_of_ne registry hne
      have href : (e.numbered registry first).ref? = none := by
        cases e with
        | opRef id => simp [refs, subterms, ref?] at hrefs
        | opCall name args => exact absurd rfl (hne name args)
        | _ => rfl
      rw [refs_eq, href, children_numbered first hne, operatorCount,
        operatorCalls_of_not_call hself, ← hparts]
      rfl

/-! ## What numbering keeps -/

lemma forall_mem_numberedList {p : Expr → Prop} {es : List Expr}
    (h : ∀ e ∈ es, ∀ n, p (e.numbered registry n)) (first : Nat) :
    ∀ e ∈ numberedList registry first es, p e := by
  induction es generalizing first with
  | nil => simp [numberedList]
  | cons e rest ih =>
    rw [List.forall_mem_cons] at h
    exact List.forall_mem_cons.mpr ⟨h.1 first, ih h.2 _⟩

@[simp] lemma keyName?_numbered (first : Nat) (e : Expr) :
    (e.numbered registry first).keyName? = e.keyName? := by
  cases e with
  | opCall name args =>
    simp only [numbered]
    split <;> rfl
  | _ => rfl

@[simp] lemma isNumeric_numbered (first : Nat) (e : Expr) :
    (e.numbered registry first).isNumeric = e.isNumeric := by
  induction e using parts_induction generalizing first with
  | node e ih =>
    cases e with
    | opCall name args =>
      simp only [numbered]
      split <;> rfl
    | binary op left right =>
      simp only [numbered, isNumeric, ih left (by simp [children]), ih right (by simp [children])]
    | conditional test yes no =>
      simp only [numbered, isNumeric, ih yes (by simp [children]), ih no (by simp [children])]
    | _ => rfl

@[simp] lemma root?_numbered (first : Nat) (e : Expr) :
    (e.numbered registry first).root? = e.root? := by
  induction e using parts_induction generalizing first with
  | node e ih =>
    cases e with
    | opCall name args =>
      simp only [numbered]
      split <;> rfl
    | member owner _ | index owner _ => exact ih owner (by simp [children]) first
    | _ => rfl

end RowExpr.Expr
