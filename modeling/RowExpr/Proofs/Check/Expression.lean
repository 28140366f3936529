/-
# What accepted expressions are made of

An accepted expression is confined: it reaches locals, columns and constants and nothing else.  The
check looks at the expression as it is written, and what runs is its canonical form with the
operators taken out, so that each of the two steps has to keep what the check has seen.

* `Expr.Confined` says what a node of a compiled expression may be;
* `Expr.accepted_of_check`, `Expr.acceptedCallee_of_checkCallee`: what the check has seen of a node
  and of a callee;
* `Expr.confined_canonical`: the canonical form of an accepted expression is confined, up to calls
  by name;
* `Expr.confined_numbered`: taking out the operators leaves a confined expression.
-/
import RowExpr.Expr.Check
import RowExpr.Proofs.Expr.Spelling
import RowExpr.Proofs.Extract.Numbering

namespace RowExpr

/-! ## Reserved names -/

/-- Whether a name has a meaning of its own, so that no local may have it. -/
def Names.reserves (names : Names) (name : String) : Bool :=
  names.isParam name || name == names.space || (Constant.ofName? name).isSome ||
    ambientNames.contains name

/-- No local has a reserved name. -/
def Locals.Apart (names : Names) (locals : Locals) : Prop :=
  ∀ name, locals.has name = true → names.reserves name = false

lemma Locals.Apart.isParam_eq_false {names : Names} {locals : Locals} {name : String}
    (h : locals.Apart names) (hname : locals.has name = true) : names.isParam name = false := by
  have hreserves := h name hname
  simp only [Names.reserves, Bool.or_eq_false_iff] at hreserves
  exact hreserves.1.1.1

lemma Locals.Apart.ofName?_eq_none {names : Names} {locals : Locals} {name : String}
    (h : locals.Apart names) (hname : locals.has name = true) : Constant.ofName? name = none := by
  have hreserves := h name hname
  simp only [Names.reserves, Bool.or_eq_false_iff, Option.isSome_eq_false_iff,
    Option.isNone_iff_eq_none] at hreserves
  exact hreserves.1.2

lemma Locals.Apart.has_eq_false {names : Names} {locals : Locals} {name : String}
    (h : locals.Apart names) (hname : name = names.space ∨ names.param = some name) :
    locals.has name = false := by
  rw [Bool.eq_false_iff]
  intro hhas
  have hreserves := h name hhas
  rcases hname with rfl | hparam
  · simp [Names.reserves] at hreserves
  · simp [Names.reserves, Names.isParam, hparam] at hreserves

namespace Expr

/-! ## Confined expressions -/

/-- What an assignment may change: a local that is not constant, or a part of a local. -/
def Assignable (locals : Locals) : Expr → Prop
  | identifier name => ∃ kind, locals.kind? name = some kind ∧ kind ≠ .const
  | member owner _ => ∃ root, owner.root? = some root ∧ locals.has root = true
  | index owner _ => ∃ root, owner.root? = some root ∧ locals.has root = true
  | _ => False

/-- What a node of a compiled expression may be where `locals` can be seen.  A name is a local, only
a method of a column is called, no property leads to a prototype, and a property whose name is not
known is a number. -/
def Confined (locals : Locals) : Expr → Prop
  | this | new _ _ | opCall _ _ => False
  | identifier name => locals.has name = true
  | column name => name ∉ prototypeNames
  | member _ name => name ∉ prototypeNames
  | index _ key =>
    (∀ name, key.keyName? = some name → name ∉ prototypeNames) ∧
      (key.keyName? = none → key.isNumeric = true)
  | call callee _ => ∃ name, callee = column name
  | unary op _ => op ≠ .delete
  | object entries => ∀ entry ∈ entries, entry.key.staticName? ≠ some "__proto__"
  | update _ _ target => target.Assignable locals
  | assign _ target _ => target.Assignable locals
  | literal _ | array _ | template _ _ | binary _ _ _ | logical _ _ _ | conditional _ _ _
  | constant _ | opRef _ | fnCall _ _ => True

/-! ## What the check has seen -/

/-- A computation of two steps succeeds if both do. -/
lemma bind_eq_ok_iff {ε α β : Type} {m : Except ε α} {next : α → Except ε β} {b : β} :
    (m >>= next) = .ok b ↔ ∃ a, m = .ok a ∧ next a = .ok b := by
  cases m with
  | error e => simp [bind, Except.bind]
  | ok a => simp [bind, Except.bind]

variable {names : Names} {locals : Locals}

lemma checkList_eq_ok_iff {es : List Expr} :
    checkList names locals es = .ok () ↔ ∀ e ∈ es, e.check names locals = .ok () := by
  induction es with
  | nil => simp [checkList]
  | cons e rest ih =>
    rw [checkList, bind_eq_ok_iff, List.forall_mem_cons, ← ih]
    exact ⟨fun ⟨_, he, hrest⟩ => ⟨he, hrest⟩, fun ⟨he, hrest⟩ => ⟨(), he, hrest⟩⟩

lemma checkParts_eq_ok_iff {parts : List (Expr × String)} :
    checkParts names locals parts = .ok () ↔
      ∀ part ∈ parts, part.1.check names locals = .ok () := by
  induction parts with
  | nil => simp [checkParts]
  | cons part rest ih =>
    rw [checkParts, bind_eq_ok_iff, List.forall_mem_cons, ← ih]
    exact ⟨fun ⟨_, he, hrest⟩ => ⟨he, hrest⟩, fun ⟨he, hrest⟩ => ⟨(), he, hrest⟩⟩

lemma checkEntryName_eq_ok_iff {name? : Option String} :
    checkEntryName name? = .ok () ↔ name? ≠ some "__proto__" := by
  unfold checkEntryName
  split
  · rename_i h
    simp [h]
  · rename_i h
    simp [h]

lemma checkEntries_eq_ok {entries : List (Entry Expr)}
    (h : checkEntries names locals entries = .ok ()) :
    ∀ entry ∈ entries, entry.key.staticName? ≠ some "__proto__" ∧
      ∀ c ∈ entry.children, c.check names locals = .ok () := by
  induction entries with
  | nil => simp
  | cons entry rest ih =>
    obtain ⟨key, value, shorthand⟩ := entry
    cases key with
    | computed key =>
      obtain ⟨_, hkey, h⟩ := bind_eq_ok_iff.mp h
      obtain ⟨_, hvalue, h⟩ := bind_eq_ok_iff.mp h
      refine List.forall_mem_cons.mpr ⟨⟨nofun, ?_⟩, ih h⟩
      exact List.forall_mem_cons.mpr ⟨hkey, List.forall_mem_singleton.mpr hvalue⟩
    | name _ | string _ _ | number _ _ =>
      obtain ⟨_, hname, h⟩ := bind_eq_ok_iff.mp h
      obtain ⟨_, hvalue, h⟩ := bind_eq_ok_iff.mp h
      refine List.forall_mem_cons.mpr ⟨⟨checkEntryName_eq_ok_iff.mp hname, ?_⟩, ih h⟩
      exact List.forall_mem_singleton.mpr hvalue

lemma checkName_eq_ok_iff {name : String} :
    checkName names locals name = .ok () ↔
      locals.has name = true ∨ (Constant.ofName? name).isSome = true := by
  unfold checkName
  rw [← Bool.or_eq_true]
  split
  · rename_i h
    simp [h]
  · rename_i h
    refine ⟨fun hok => ?_, fun hor => absurd hor h⟩
    split at hok
    · cases hok
    · split at hok
      · cases hok
      · split at hok <;> cases hok

lemma checkProperty_eq_ok_iff {name? : Option String} :
    checkProperty name? = .ok () ↔ ∀ name, name? = some name → name ∉ prototypeNames := by
  cases name? with
  | none => simp [checkProperty]
  | some name =>
    simp only [checkProperty]
    split
    · rename_i h
      simp only [List.contains_eq_mem, decide_eq_true_eq] at h
      simp [h]
    · rename_i h
      simp only [List.contains_eq_mem, decide_eq_true_eq] at h
      simp [h]

/-- A key that is accepted is an expression that is accepted, and a number unless its name is
known. -/
lemma checkKey_eq_ok {key : Expr}
    (h : (if key.keyName?.isSome then Except.ok () else if key.isNumeric then key.check names locals
      else .error (.rejected .dynamicKey)) = .ok ()) :
    key.check names locals = .ok () ∧ (key.keyName? = none → key.isNumeric = true) := by
  split at h
  · rename_i hsome
    -- only a literal has a name that is known, and literals are accepted
    cases key with
    | literal value =>
      refine ⟨rfl, fun hnone => ?_⟩
      rw [hnone] at hsome
      cases hsome
    | _ => cases hsome
  · split at h
    · rename_i hnumeric
      exact ⟨h, fun _ => hnumeric⟩
    · cases h

/-- A target that is accepted may be assigned, and is accepted as an expression as well. -/
lemma checkTarget_eq_ok {e : Expr} (h : e.checkTarget names locals = .ok ()) :
    e.check names locals = .ok () ∧ e.Assignable locals := by
  cases e with
  | identifier name =>
    simp only [checkTarget, checkVariable] at h
    split at h
    · cases h
    · rename_i kind hconst hkind
      refine ⟨?_, kind, hkind, hconst⟩
      simp [check, checkName, Locals.has, hkind]
    · obtain ⟨_, _, h⟩ := bind_eq_ok_iff.mp h
      cases h
  | member owner name =>
    obtain ⟨_, hproperty, h⟩ := bind_eq_ok_iff.mp h
    split at h
    · rename_i root hroot
      split at h
      · rename_i hhas
        refine ⟨bind_eq_ok_iff.mpr ⟨(), hproperty, ?_⟩, root, hroot, hhas⟩
        split
        · rfl
        · exact h
      · split at h
        · cases h
        · obtain ⟨_, _, h⟩ := bind_eq_ok_iff.mp h
          cases h
    · obtain ⟨_, _, h⟩ := bind_eq_ok_iff.mp h
      cases h
  | index owner key =>
    obtain ⟨_, hproperty, h⟩ := bind_eq_ok_iff.mp h
    split at h
    · rename_i root hroot
      split at h
      · rename_i hhas
        -- the owner starts at a local, so that it is not the row
        have hrow : owner.isRow names locals = false := by
          cases owner with
          | identifier name =>
            obtain rfl : name = root := Option.some.inj hroot
            simp [isRow, hhas]
          | _ => rfl
        refine ⟨bind_eq_ok_iff.mpr ⟨(), hproperty, ?_⟩, root, hroot, hhas⟩
        rw [hrow]
        exact h
      · split at h
        · cases h
        · obtain ⟨_, _, h⟩ := bind_eq_ok_iff.mp h
          cases h
    · obtain ⟨_, _, h⟩ := bind_eq_ok_iff.mp h
      cases h
  | _ => cases h

/-! ## Accepted nodes -/

/-- The node reads a column of the row, by a name that is known. -/
inductive ReadsColumn (names : Names) (locals : Locals) : Expr → String → Prop
  | member {owner : Expr} {name : String} (howner : owner.isRow names locals = true) :
      ReadsColumn names locals (member owner name) name
  | index {owner key : Expr} {name : String} (howner : owner.isRow names locals = true)
      (hkey : key.keyName? = some name) : ReadsColumn names locals (index owner key) name

/-- Whether a node is no call and no member of the row, so that it is accepted for its parts. -/
def isOrdinary (names : Names) (locals : Locals) : Expr → Bool
  | member owner _ | index owner _ => !owner.isRow names locals
  | call _ _ => false
  | _ => true

/-- What a node is that is accepted. -/
inductive Accepted (names : Names) (locals : Locals) : Expr → Prop
  | column {e : Expr} {name : String} (hcolumn : e.ReadsColumn names locals name)
      (hname : name ∉ prototypeNames) : Accepted names locals e
  | constant {name : String} (hname : (Constant.ofName? name).isSome) :
      Accepted names locals (identifier name)
  /-- The callee is not accepted as an expression, but as a callee. -/
  | call {callee : Expr} {args : List Expr} (hcallee : callee.checkCallee names locals = .ok ())
      (hargs : ∀ arg ∈ args, arg.check names locals = .ok ()) :
      Accepted names locals (call callee args)
  | node {e : Expr} (hordinary : e.isOrdinary names locals = true) (hself : e.Confined locals)
      (hparts : ∀ c ∈ e.children, c.check names locals = .ok ()) : Accepted names locals e

/-- The check accepts a written node for one of these reasons. -/
theorem accepted_of_check {e : Expr} (hwritten : e.isWritten = true)
    (h : e.check names locals = .ok ()) : e.Accepted names locals := by
  cases e with
  | literal _ => exact .node rfl trivial (by simp [children])
  | array items => exact .node rfl trivial (checkList_eq_ok_iff.mp h)
  | object entries =>
    have hentries := checkEntries_eq_ok h
    refine .node rfl (fun entry hentry => (hentries entry hentry).1) ?_
    rw [children, List.forall_mem_flatMap]
    exact fun entry hentry => (hentries entry hentry).2
  | template head parts =>
    refine .node rfl trivial ?_
    rw [children, List.forall_mem_map]
    exact checkParts_eq_ok_iff.mp h
  | identifier name =>
    rw [check, checkName_eq_ok_iff] at h
    exact h.elim (fun hhas => .node rfl hhas (by simp [children])) .constant
  | this | new _ _ => cases h
  | member owner name =>
    obtain ⟨_, hproperty, h⟩ := bind_eq_ok_iff.mp h
    have hname := checkProperty_eq_ok_iff.mp hproperty name rfl
    cases hrow : owner.isRow names locals with
    | true => exact .column (.member hrow) hname
    | false =>
      rw [hrow, if_neg Bool.false_ne_true] at h
      exact .node (by simp [isOrdinary, hrow]) hname (List.forall_mem_singleton.mpr h)
  | index owner key =>
    obtain ⟨_, hproperty, h⟩ := bind_eq_ok_iff.mp h
    have hname := checkProperty_eq_ok_iff.mp hproperty
    cases hrow : owner.isRow names locals with
    | true =>
      rw [hrow, if_pos rfl] at h
      cases hkey : key.keyName? with
      | none => simp [hkey, checkColumn] at h
      | some name => exact .column (.index hrow hkey) (hname name hkey)
    | false =>
      rw [hrow, if_neg Bool.false_ne_true] at h
      obtain ⟨_, howner, h⟩ := bind_eq_ok_iff.mp h
      obtain ⟨hkey, hnumeric⟩ := checkKey_eq_ok h
      exact .node (by simp [isOrdinary, hrow]) ⟨hname, hnumeric⟩
        (forall_mem_pair_iff.mpr ⟨howner, hkey⟩)
  | call callee args =>
    obtain ⟨_, hcallee, hargs⟩ := bind_eq_ok_iff.mp h
    exact .call hcallee (checkList_eq_ok_iff.mp hargs)
  | unary op argument =>
    simp only [check] at h
    split at h
    · cases h
    · rename_i hdelete
      exact .node rfl hdelete (List.forall_mem_singleton.mpr h)
  | update op before argument =>
    obtain ⟨hargument, hassignable⟩ := checkTarget_eq_ok h
    exact .node rfl hassignable (List.forall_mem_singleton.mpr hargument)
  | binary op left right | logical op left right =>
    obtain ⟨_, hleft, hright⟩ := bind_eq_ok_iff.mp h
    exact .node rfl trivial (forall_mem_pair_iff.mpr ⟨hleft, hright⟩)
  | conditional test yes no =>
    obtain ⟨_, htest, h⟩ := bind_eq_ok_iff.mp h
    obtain ⟨_, hyes, hno⟩ := bind_eq_ok_iff.mp h
    exact .node rfl trivial
      (List.forall_mem_cons.mpr ⟨htest, forall_mem_pair_iff.mpr ⟨hyes, hno⟩⟩)
  | assign op target value =>
    obtain ⟨_, htarget, hvalue⟩ := bind_eq_ok_iff.mp h
    obtain ⟨htarget, hassignable⟩ := checkTarget_eq_ok htarget
    exact .node rfl hassignable (forall_mem_pair_iff.mpr ⟨htarget, hvalue⟩)
  | column _ | constant _ | opCall _ _ | opRef _ | fnCall _ _ => cases hwritten

/-- What a callee is that is accepted: an operator, which is not reached through a local or the row,
or else a column. -/
inductive AcceptedCallee (names : Names) (locals : Locals) (callee : Expr) : Prop
  | operator {name : String} (hname : callee.operatorName? names.space = some name)
      (hroot : ∀ root, callee.root? = some root →
        locals.has root = false ∧ names.isParam root = false)
  | column {name : String} (hoperator : callee.operatorName? names.space = none)
      (hcolumn : callee.ReadsColumn names locals name) (hname : name ∉ prototypeNames)

lemma acceptedCallee_of_checkMethod {callee owner : Expr}
    (hcolumn : ∀ name, owner.isRow names locals = true → callee.property? = some name →
      callee.ReadsColumn names locals name)
    (h : checkMethod names locals callee owner = .ok ()) : callee.AcceptedCallee names locals := by
  obtain ⟨_, hproperty, h⟩ := bind_eq_ok_iff.mp h
  cases hoperator : callee.operatorName? names.space with
  | some name =>
    refine .operator hoperator fun root hroot => ?_
    simpa [hoperator, hroot] using h
  | none =>
    rw [hoperator, if_neg (by simp)] at h
    split at h
    · rename_i hrow
      cases hname : callee.property? with
      | none => simp [hname, checkColumn] at h
      | some name =>
        exact .column hoperator (hcolumn name hrow hname)
          (checkProperty_eq_ok_iff.mp hproperty name hname)
    · cases h

theorem acceptedCallee_of_checkCallee {callee : Expr}
    (h : callee.checkCallee names locals = .ok ()) : callee.AcceptedCallee names locals := by
  cases callee with
  | identifier name =>
    refine .operator rfl fun root hroot => ?_
    obtain rfl : name = root := Option.some.inj hroot
    simp only [checkCallee] at h
    split at h
    · cases h
    · rename_i hlocal
      split at h
      · cases h
      · rename_i hreserved
        rw [Bool.not_eq_true, Bool.or_eq_false_iff] at hreserved
        exact ⟨Bool.eq_false_iff.mpr hlocal, hreserved.1⟩
  | member owner name =>
    refine acceptedCallee_of_checkMethod (fun name' hrow hname => ?_) h
    obtain rfl := Option.some.inj hname
    exact .member hrow
  | index owner key => exact acceptedCallee_of_checkMethod (fun _ hrow hname => .index hrow hname) h
  | _ => cases h

/-! ## The canonical form of an accepted expression -/

/-- Where locals stand apart, the row parameter is never shadowed. -/
lemma isRow_eq_isParam (hapart : locals.Apart names) (e : Expr) :
    e.isRow names locals = e.isParam names := by
  cases e with
  | identifier name =>
    cases hhas : locals.has name with
    | true => simp [isRow, isParam, hapart.isParam_eq_false hhas]
    | false => simp [isRow, isParam, hhas]
  | _ => rfl

lemma isParam_of_root? (hapart : locals.Apart names) {e : Expr} {root : String}
    (hroot : e.root? = some root) (hhas : locals.has root = true) : e.isParam names = false := by
  cases e with
  | identifier name =>
    obtain rfl : name = root := Option.some.inj hroot
    exact hapart.isParam_eq_false hhas
  | _ => rfl

/-- A chain of member accesses keeps the local that it starts at. -/
lemma root?_canonical (hapart : locals.Apart names) {e : Expr} {root : String}
    (hroot : e.root? = some root) (hhas : locals.has root = true) :
    (e.canonical names).root? = some root := by
  induction e using parts_induction with
  | node e ih =>
    cases e with
    | identifier name =>
      obtain rfl : name = root := Option.some.inj hroot
      simp [canonical, hapart.ofName?_eq_none hhas, root?]
    | member owner name =>
      have hparam : owner.isParam names = false := isParam_of_root? hapart hroot hhas
      simp only [canonical, hparam]
      exact ih owner (by simp [children]) hroot
    | index owner key =>
      have hparam : owner.isParam names = false := isParam_of_root? hapart hroot hhas
      simp only [canonical, hparam]
      exact ih owner (by simp [children]) hroot
    | _ => cases hroot

lemma Assignable.canonical (hapart : locals.Apart names) {e : Expr} (h : e.Assignable locals) :
    (e.canonical names).Assignable locals := by
  cases e with
  | identifier name =>
    obtain ⟨kind, hkind, hconst⟩ := h
    have hhas : locals.has name = true := by simp [Locals.has, hkind]
    simp only [Expr.canonical, hapart.ofName?_eq_none hhas]
    exact ⟨kind, hkind, hconst⟩
  | member owner name =>
    obtain ⟨root, hroot, hhas⟩ := h
    simp only [Expr.canonical, isParam_of_root? hapart hroot hhas]
    exact ⟨root, root?_canonical hapart hroot hhas, hhas⟩
  | index owner key =>
    obtain ⟨root, hroot, hhas⟩ := h
    simp only [Expr.canonical, isParam_of_root? hapart hroot hhas]
    exact ⟨root, root?_canonical hapart hroot hhas, hhas⟩
  | _ => exact absurd h id

lemma ReadsColumn.meaning_eq (hapart : locals.Apart names) {e : Expr} {name : String}
    (h : e.ReadsColumn names locals name) : e.meaning names = .column name := by
  cases h with
  | member howner =>
    rw [isRow_eq_isParam hapart] at howner
    simp [meaning, howner]
  | index howner hkey =>
    rw [isRow_eq_isParam hapart] at howner
    simp [meaning, howner, hkey]

lemma ReadsColumn.canonical_eq (hapart : locals.Apart names) {e : Expr} {name : String}
    (h : e.ReadsColumn names locals name) : e.canonical names = column name := by
  rw [Expr.canonical_eq, h.meaning_eq hapart, Meaning.reduce]

/-- An ordinary node is rebuilt in canonical form. -/
lemma Confined.meaning_eq (hapart : locals.Apart names) {e : Expr} (h : e.Confined locals)
    (hordinary : e.isOrdinary names locals = true) : e.meaning names = .plain := by
  cases e with
  | identifier name => simp [meaning, hapart.ofName?_eq_none h]
  | member owner _ | index owner _ =>
    have hparam : owner.isParam names = false := by
      simpa [isOrdinary, isRow_eq_isParam hapart] using hordinary
    simp [meaning, hparam]
  | call _ _ => cases hordinary
  | _ => rfl

lemma Confined.canonical (hapart : locals.Apart names) {e : Expr} (h : e.Confined locals)
    (hordinary : e.isOrdinary names locals = true) : (e.canonical names).Confined locals := by
  have hplain := h.meaning_eq hapart hordinary
  cases e with
  | identifier _ | member _ _ =>
    rw [canonical_of_plain hplain]
    exact h
  | index owner key =>
    rw [canonical_of_plain hplain]
    simpa [children, rebuild, Confined] using h
  | object entries =>
    intro entry hentry
    rw [canonicalEntries_eq] at hentry
    obtain ⟨entry', hentry', hname⟩ := staticName?_rebuildEntries hentry
    rw [hname]
    exact h entry' hentry'
  | update _ _ _ | assign _ _ _ => exact Assignable.canonical hapart h
  | call _ _ => cases hordinary
  | _ => exact h

/-- A node is confined, or a call by name, of which it is not known yet what it calls. -/
def ConfinedOrCall (locals : Locals) (e : Expr) : Prop :=
  (∃ name args, e = opCall name args) ∨ e.Confined locals

/-- Everywhere in the canonical form of an accepted expression stand confined nodes or calls by
name. -/
theorem confined_canonical (hapart : locals.Apart names) {e : Expr} (hwritten : e.Written)
    (h : e.check names locals = .ok ()) :
    ∀ s ∈ (e.canonical names).subterms, s.ConfinedOrCall locals := by
  induction e using parts_induction with
  | node e ih =>
    -- what is left of the parts is confined because the parts are accepted
    have hparts : ∀ cs : List Expr, cs ⊆ e.children → (∀ c ∈ cs, c.check names locals = .ok ()) →
        ∀ c ∈ cs.map (canonical names), ∀ s ∈ c.subterms, s.ConfinedOrCall locals := by
      intro cs hcs hchecks
      rw [List.forall_mem_map]
      exact fun c hc => ih c (hcs hc) (hwritten.child (hcs hc)) (hchecks c hc)
    cases accepted_of_check ((written_iff e).mp hwritten).1 h with
    | column hcolumn hname =>
      rw [hcolumn.canonical_eq hapart]
      exact List.forall_mem_singleton.mpr (Or.inr hname)
    | @constant name hname =>
      obtain ⟨c, hc⟩ := Option.isSome_iff_exists.mp hname
      simp only [canonical, hc]
      exact List.forall_mem_singleton.mpr (Or.inr trivial)
    | @call callee args hcallee hargs =>
      have hargs := hparts args (List.subset_cons_self _ _) hargs
      rw [← canonicalList_eq] at hargs
      cases acceptedCallee_of_checkCallee hcallee with
      | operator hname _ =>
        simp only [canonical, hname]
        exact (forall_subterms_iff _).mpr ⟨Or.inl ⟨_, _, rfl⟩, hargs⟩
      | column hoperator hcolumn hname =>
        simp only [canonical, hoperator, hcolumn.canonical_eq hapart]
        refine (forall_subterms_iff _).mpr ⟨Or.inr ⟨_, rfl⟩, List.forall_mem_cons.mpr ⟨?_, hargs⟩⟩
        exact List.forall_mem_singleton.mpr (Or.inr hname)
    | node hordinary hself hchecks =>
      have hplain := hself.meaning_eq hapart hordinary
      refine (forall_subterms_iff _).mpr ⟨Or.inr (hself.canonical hapart hordinary), ?_⟩
      rw [canonical_of_plain hplain, children_rebuild (List.length_map _)]
      exact hparts e.children (List.Subset.refl _) hchecks

/-! ## Taking out the operators -/

variable {registry : Registry}

lemma Assignable.numbered {e : Expr} (h : e.Assignable locals) (first : Nat) :
    (e.numbered registry first).Assignable locals := by
  cases e with
  | identifier name => exact h
  | member owner _ | index owner _ =>
    obtain ⟨root, hroot, hhas⟩ := h
    exact ⟨root, by rw [root?_numbered, hroot], hhas⟩
  | _ => exact absurd h id

lemma Confined.numbered {e : Expr} (h : e.Confined locals) (first : Nat) :
    (e.numbered registry first).Confined locals := by
  cases e with
  | opCall name args => exact absurd h id
  | index owner key => simpa [Expr.numbered, Confined] using h
  | call callee args =>
    obtain ⟨name, rfl⟩ := h
    exact ⟨name, rfl⟩
  | object entries =>
    intro entry hentry
    rw [numberedEntries_eq] at hentry
    obtain ⟨entry', hentry', hname⟩ := staticName?_rebuildEntries hentry
    rw [hname]
    exact h entry' hentry'
  | update op before target => exact Assignable.numbered h first
  | assign op target value => exact Assignable.numbered h first
  | _ => exact h

/-- Where the operators are taken out, only confined nodes are left. -/
theorem confined_numbered {e : Expr} (h : ∀ s ∈ e.subterms, s.ConfinedOrCall locals) (first : Nat) :
    ∀ s ∈ (e.numbered registry first).subterms, s.Confined locals := by
  induction e using parts_induction generalizing first with
  | node e ih =>
    obtain ⟨hself, hchildren⟩ := (forall_subterms_iff e).mp h
    have hparts : ∀ c ∈ numberedList registry first e.children, ∀ s ∈ c.subterms,
        s.Confined locals :=
      forall_mem_numberedList (fun c hc n => ih c hc (hchildren c hc) n) first
    rcases eq_opCall_or_ne e with ⟨name, args, rfl⟩ | hne
    · cases ho : registry.operator? name with
      | some o =>
        rw [numbered_operator first (by simp [ho])]
        exact List.forall_mem_singleton.mpr trivial
      | none =>
        rw [numbered_function first ho]
        exact (forall_subterms_iff _).mpr ⟨trivial, hparts⟩
    · have hconfined : e.Confined locals :=
        hself.resolve_left fun ⟨name, args, heq⟩ => hne name args heq
      refine (forall_subterms_iff _).mpr ⟨hconfined.numbered first, ?_⟩
      rw [children_numbered first hne]
      exact hparts

end Expr

end RowExpr
