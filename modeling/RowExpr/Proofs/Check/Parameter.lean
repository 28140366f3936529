/-
# What accepted functions take from the row

The row parameter is no value of its own.  An accepted function reads columns of it, by names that
are known, and its canonical form reads these columns, in the same order, and has no other trace of
the row parameter.

There is one way to write the row parameter alone.  The check asks whether a name is a constant
before it asks whether it is the row parameter, and the canonical form reads it as that constant.  So
a row parameter with the name of a constant is accepted wherever the constant is, and stands for it
where no column is read.

* `Expr.columnsOnly_or_constant`: apart from names of constants, the row parameter stands only where
  a column is read;
* `Expr.columnsRead_canonical`: the canonical form reads the columns that are written;
* `RowFunction.row_read_by_columns`: both, for the expressions of an accepted row function.
-/
import RowExpr.Proofs.Check.Legible
import RowExpr.Proofs.Expr.Spelling

namespace RowExpr

namespace Expr

/-! ## Uses of the row -/

/-- The column that a node reads from the row parameter `p`: it is a member of it whose name is
known. -/
def columnOf? (p : String) : Expr → Option String
  | member (identifier q) name => if q = p then some name else none
  | index (identifier q) key => if q = p then key.keyName? else none
  | _ => none

/-- The row parameter `p` stands only where a column of it is read. -/
structure ColumnsOnly (p : String) (e : Expr) : Prop where
  /-- It is not the whole expression. -/
  ne : e ≠ identifier p
  /-- A node that it is a part of reads a column. -/
  parts : ∀ s ∈ e.subterms, identifier p ∈ s.children → (s.columnOf? p).isSome

/-- The columns of the row parameter `p` that an expression reads as it is written, from left to
right. -/
def columnsUsed (p : String) (e : Expr) : List String := e.subterms.filterMap (columnOf? p)

/-- The name of a column in canonical form. -/
def column? : Expr → Option String
  | column name => some name
  | _ => none

/-- The columns that an expression in canonical form reads, from left to right. -/
def columnsRead (e : Expr) : List String := e.subterms.filterMap column?

variable {names : Names} {locals : Locals} {p : String}

lemma filterMap_subterms (g : Expr → Option String) (e : Expr) :
    e.subterms.filterMap g =
      (g e).toList ++ e.children.flatMap fun c => c.subterms.filterMap g := by
  rw [subterms_eq, List.filterMap_cons, List.filterMap_flatMap]
  cases g e <;> rfl

lemma eq_literal_of_keyName? {key : Expr} {name : String} (h : key.keyName? = some name) :
    ∃ value, key = literal value := by
  cases key with
  | literal value => exact ⟨value, rfl⟩
  | _ => cases h

lemma columnOf?_eq_some {e : Expr} {name : String} (h : e.columnOf? p = some name) :
    e = member (identifier p) name ∨ ∃ value, e = index (identifier p) (literal value) := by
  unfold columnOf? at h
  split at h
  · split at h
    · rename_i hq
      obtain rfl := Option.some.inj h
      exact Or.inl (by rw [hq])
    · cases h
  · split at h
    · rename_i hq
      obtain ⟨value, rfl⟩ := eq_literal_of_keyName? h
      exact Or.inr ⟨value, by rw [hq]⟩
    · cases h
  · cases h

lemma columnsOnly_of_columnOf? {e : Expr} {name : String} (h : e.columnOf? p = some name) :
    e.ColumnsOnly p := by
  have hsome : (e.columnOf? p).isSome := by rw [h]; rfl
  -- the parts are the row parameter and a literal, which have no parts
  rcases columnOf?_eq_some h with rfl | ⟨value, rfl⟩
  · exact ⟨by simp, (forall_subterms_iff _).mpr ⟨fun _ => hsome, by simp [children, subterms]⟩⟩
  · exact ⟨by simp, (forall_subterms_iff _).mpr ⟨fun _ => hsome, by simp [children, subterms]⟩⟩

/-- A node uses the row parameter as its parts do, unless it is the row parameter. -/
lemma columnsOnly_of_children {e : Expr} (hne : e ≠ identifier p)
    (h : ∀ c ∈ e.children, c.ColumnsOnly p) : e.ColumnsOnly p := by
  refine ⟨hne, (forall_subterms_iff e).mpr ⟨fun hmem => ?_, fun c hc => (h c hc).parts⟩⟩
  exact absurd rfl (h _ hmem).ne

lemma columnsOnly_of_not_mem {e : Expr} (h : identifier p ∉ e.subterms) : e.ColumnsOnly p := by
  constructor
  · rintro rfl
    exact h (mem_subterms_self _)
  · intro s hs hmem
    have hp := mem_subterms_of_mem_children hmem (mem_subterms_self _)
    exact absurd (mem_subterms_trans hp hs) h

lemma columnsUsed_of_not_mem {e : Expr} (h : identifier p ∉ e.subterms) :
    e.columnsUsed p = [] := by
  refine List.filterMap_eq_nil_iff.mpr fun s hs => ?_
  by_contra hcolumn
  obtain ⟨name, hname⟩ := Option.ne_none_iff_exists'.mp hcolumn
  have hmem : identifier p ∈ s.children := by
    rcases columnOf?_eq_some hname with rfl | ⟨value, rfl⟩ <;> exact List.mem_cons_self
  have hp := mem_subterms_of_mem_children hmem (mem_subterms_self _)
  exact h (mem_subterms_trans hp hs)

/-! ## What the canonical form keeps of a node -/

/-- The column that a node stands for. -/
def Meaning.column? : Meaning → Option String
  | .column name => some name
  | _ => none

lemma columnOf?_eq_meaning (hparam : names.param = some p) (e : Expr) :
    e.columnOf? p = (e.meaning names).column? := by
  have hisParam : ∀ q, names.isParam q = decide (q = p) := by
    intro q
    by_cases hq : q = p
    · simp [Names.isParam, hparam, hq]
    · simp [Names.isParam, hparam, hq, Ne.symm hq]
  cases e with
  | member owner name =>
    cases owner with
    | identifier q =>
      by_cases hq : q = p <;>
        simp [columnOf?, meaning, isParam, hisParam, hq, Meaning.column?]
    | _ => rfl
  | index owner key =>
    cases owner with
    | identifier q =>
      by_cases hq : q = p <;> cases hkey : key.keyName? <;>
        simp [columnOf?, meaning, isParam, hisParam, hq, hkey, Meaning.column?]
    | _ => rfl
  | identifier _ | call _ _ =>
    simp only [columnOf?, meaning]
    split <;> rfl
  | _ => rfl

/-- The parts of a node that its canonical form is made of.  A column has none, and of the call of
an operator the arguments are left. -/
def kept (names : Names) (e : Expr) : List Expr :=
  match e.meaning names with
  | .column _ => []
  | .operator _ => e.children.tail
  | .constant _ | .plain => e.children

lemma mem_children_of_mem_kept {e c : Expr} (h : c ∈ e.kept names) : c ∈ e.children := by
  unfold kept at h
  split at h
  · cases h
  · exact List.mem_of_mem_tail h
  · exact h
  · exact h

lemma children_canonical_eq (e : Expr) :
    (e.canonical names).children = (e.kept names).map (canonical names) := by
  rw [canonical_eq, kept]
  cases hmeaning : e.meaning names with
  | column name => rfl
  | operator name => exact List.map_tail.symm
  | constant c =>
    rw [eq_identifier_of_constant hmeaning]
    rfl
  | plain => exact children_rebuild (List.length_map _)

lemma column?_rebuild {e : Expr} (h : e.isWritten = true) (parts : List Expr) :
    (e.rebuild parts).column? = none := by
  cases e with
  | column _ | constant _ | opCall _ _ | opRef _ | fnCall _ _ => cases h
  | _ => rcases parts with _ | ⟨_, _ | ⟨_, _ | ⟨_, _ | ⟨_, _⟩⟩⟩⟩ <;> rfl

lemma column?_canonical (hparam : names.param = some p) {e : Expr} (h : e.isWritten = true) :
    (e.canonical names).column? = e.columnOf? p := by
  rw [columnOf?_eq_meaning hparam, canonical_eq]
  cases e.meaning names with
  | column _ | operator _ | constant _ => rfl
  | plain => exact column?_rebuild h _

/-! ## What the check says of the parts of a node -/

/-- A chain of names has one name that is not a property: the one it starts with. -/
lemma root?_of_isPath {e : Expr} {q : String} (hpath : e.isPath = true)
    (h : identifier q ∈ e.subterms) : e.root? = some q := by
  induction e using parts_induction with
  | node e ih =>
    rw [subterms_eq] at h
    cases e with
    | identifier name =>
      obtain rfl : q = name := by simpa [children] using h
      rfl
    | member owner name =>
      have howner : identifier q ∈ owner.subterms := by simpa [children] using h
      exact ih owner (List.mem_singleton_self owner) hpath howner
    | _ => cases hpath

/-- The row parameter does not occur in the callee of an operator. -/
lemma not_mem_subterms_callee (hparam : names.param = some p) {callee : Expr}
    (hoperator : (callee.operatorName? names.space).isSome)
    (hroot : ∀ root, callee.root? = some root → names.isParam root = false) :
    identifier p ∉ callee.subterms := by
  have hnot : callee.root? ≠ some p := by
    intro h
    simpa [Names.isParam, hparam] using hroot p h
  intro hmem
  rw [subterms_eq] at hmem
  cases callee with
  | identifier name =>
    obtain rfl : p = name := by simpa [children] using hmem
    exact hnot rfl
  | member owner name =>
    have howner : identifier p ∈ owner.subterms := by simpa [children] using hmem
    have hstart := root?_of_isPath (isPath_of_member hoperator) howner
    exact hnot hstart
  | index owner key =>
    obtain ⟨hpath, hname⟩ := isPath_of_index hoperator
    obtain ⟨name, hname⟩ := Option.isSome_iff_exists.mp hname
    obtain ⟨value, rfl⟩ := eq_literal_of_keyName? hname
    have howner : identifier p ∈ owner.subterms := by simpa [children, subterms] using hmem
    have hstart := root?_of_isPath hpath howner
    exact hnot hstart
  | _ => cases hoperator

/-- A column whose name leads to no prototype is accepted as an expression. -/
lemma check_of_readsColumn {e : Expr} {name : String} (h : e.ReadsColumn names locals name)
    (hname : name ∉ prototypeNames) : e.check names locals = .ok () := by
  cases h with
  | member howner =>
    have hproperty : checkProperty (some name) = .ok () :=
      checkProperty_eq_ok_iff.mpr fun _ h => Option.some.inj h ▸ hname
    exact bind_eq_ok_iff.mpr ⟨(), hproperty, by rw [if_pos howner]⟩
  | @index _ key _ howner hkey =>
    have hproperty : checkProperty key.keyName? = .ok () :=
      checkProperty_eq_ok_iff.mpr fun _ h => Option.some.inj (hkey.symm.trans h) ▸ hname
    exact bind_eq_ok_iff.mpr ⟨(), hproperty, by rw [if_pos howner, hkey]; rfl⟩

/-- The parts that are left of an accepted node are accepted. -/
lemma check_of_mem_kept (hapart : locals.Apart names) {e : Expr} (hwritten : e.isWritten = true)
    (h : e.check names locals = .ok ()) :
    ∀ c ∈ e.kept names, c.check names locals = .ok () := by
  cases accepted_of_check hwritten h with
  | column hcolumn _ =>
    rw [kept, hcolumn.meaning_eq hapart]
    exact List.forall_mem_nil _
  | constant _ => exact fun c hc => absurd (mem_children_of_mem_kept hc) List.not_mem_nil
  | call hcallee hargs =>
    cases acceptedCallee_of_checkCallee hcallee with
    | operator hname _ => simpa [kept, meaning, hname, children] using hargs
    | column hoperator hcolumn hname =>
      have hcallee := check_of_readsColumn hcolumn hname
      simpa [kept, meaning, hoperator, children] using And.intro hcallee hargs
  | node _ _ hparts => exact fun c hc => hparts c (mem_children_of_mem_kept hc)

/-- The parts that an accepted node loses do not use the row parameter, but for the one that is read
as a column. -/
lemma kept_cases (hparam : names.param = some p) {e : Expr}
    (h : e.check names locals = .ok ()) :
    (∃ name, e.columnOf? p = some name ∧ e.kept names = []) ∨
      (∃ callee, identifier p ∉ callee.subterms ∧ e.children = callee :: e.kept names) ∨
      e.children = e.kept names := by
  cases hmeaning : e.meaning names with
  | column name =>
    refine Or.inl ⟨name, ?_, by rw [kept, hmeaning]⟩
    rw [columnOf?_eq_meaning hparam, hmeaning]
    rfl
  | operator name =>
    obtain ⟨callee, args, rfl⟩ := eq_call_of_operator hmeaning
    obtain ⟨_, hcallee, _⟩ := bind_eq_ok_iff.mp h
    cases acceptedCallee_of_checkCallee hcallee with
    | operator hname hroot =>
      refine Or.inr (Or.inl ⟨callee, ?_, by rw [kept, hmeaning]; rfl⟩)
      exact not_mem_subterms_callee hparam (by rw [hname]; rfl) fun root h => (hroot root h).2
    | column hoperator _ _ => simp [meaning, hoperator] at hmeaning
  | constant c => exact Or.inr (Or.inr (by rw [kept, hmeaning]))
  | plain => exact Or.inr (Or.inr (by rw [kept, hmeaning]))

/-! ## Accepted expressions -/

/-- In an accepted expression the row parameter stands only where a column is read, unless it has
the name of a constant, which is then in the canonical form. -/
theorem columnsOnly_or_constant (hapart : locals.Apart names) (hparam : names.param = some p)
    {e : Expr} (hwritten : e.Written) (h : e.check names locals = .ok ()) :
    e.ColumnsOnly p ∨
      ∃ c, Constant.ofName? p = some c ∧ constant c ∈ (e.canonical names).subterms := by
  induction e using parts_induction with
  | node e ih =>
    by_cases hself : e = identifier p
    · subst hself
      rw [check, checkName_eq_ok_iff, hapart.has_eq_false (Or.inr hparam)] at h
      obtain ⟨c, hc⟩ := Option.isSome_iff_exists.mp (h.resolve_left Bool.false_ne_true)
      refine Or.inr ⟨c, hc, ?_⟩
      simp only [canonical, hc]
      exact mem_subterms_self _
    by_cases hkept : ∀ c ∈ e.kept names, c.ColumnsOnly p
    · left
      rcases kept_cases hparam h with ⟨name, hname, _⟩ | ⟨callee, hcallee, hchildren⟩ | hchildren
      · exact columnsOnly_of_columnOf? hname
      · refine columnsOnly_of_children hself ?_
        rw [hchildren]
        exact List.forall_mem_cons.mpr ⟨columnsOnly_of_not_mem hcallee, hkept⟩
      · exact columnsOnly_of_children hself (hchildren ▸ hkept)
    · -- a part that is left has the constant in its canonical form, so the node has it too
      right
      push Not at hkept
      obtain ⟨part, hpart, hbare⟩ := hkept
      have hnode := ((written_iff e).mp hwritten).1
      have hmem := mem_children_of_mem_kept hpart
      obtain ⟨c, hc, hin⟩ := (ih part hmem (hwritten.child hmem)
        (check_of_mem_kept hapart hnode h part hpart)).resolve_left hbare
      refine ⟨c, hc, mem_subterms_of_mem_children ?_ hin⟩
      rw [children_canonical_eq]
      exact List.mem_map_of_mem hpart

/-- The canonical form of an accepted expression reads the columns that the expression reads as it
is written, in the same order, each as often. -/
theorem columnsRead_canonical (hapart : locals.Apart names) (hparam : names.param = some p)
    {e : Expr} (hwritten : e.Written) (h : e.check names locals = .ok ()) :
    (e.canonical names).columnsRead = e.columnsUsed p := by
  induction e using parts_induction with
  | node e ih =>
    have hnode := ((written_iff e).mp hwritten).1
    have hparts : (e.kept names).flatMap (fun c => (c.canonical names).columnsRead) =
        (e.kept names).flatMap (columnsUsed p) := by
      refine List.flatMap_congr fun c hc => ?_
      have hmem := mem_children_of_mem_kept hc
      exact ih c hmem (hwritten.child hmem) (check_of_mem_kept hapart hnode h c hc)
    have hdropped : e.children.flatMap (columnsUsed p) = (e.kept names).flatMap (columnsUsed p) := by
      rcases kept_cases hparam h with ⟨name, hname, hnil⟩ | ⟨callee, hcallee, hchildren⟩ | hchildren
      · rw [hnil]
        rcases columnOf?_eq_some hname with rfl | ⟨value, rfl⟩ <;> rfl
      · rw [hchildren, List.flatMap_cons, columnsUsed_of_not_mem hcallee, List.nil_append]
      · rw [hchildren]
    calc (e.canonical names).columnsRead
        = (e.canonical names).column?.toList ++
            (e.kept names).flatMap (fun c => (c.canonical names).columnsRead) := by
          rw [columnsRead, filterMap_subterms, children_canonical_eq, List.flatMap_map]
          rfl
      _ = (e.columnOf? p).toList ++ e.children.flatMap (columnsUsed p) := by
          rw [column?_canonical hparam hnode, hparts, hdropped]
      _ = e.columnsUsed p := (filterMap_subterms _ e).symm

/-- The canonical form of an accepted expression has no trace of the row parameter's name. -/
lemma not_mem_subterms_canonical (hapart : locals.Apart names) (hparam : names.param = some p)
    {e : Expr} (hwritten : e.Written) (h : e.check names locals = .ok ()) :
    identifier p ∉ (e.canonical names).subterms := by
  intro hmem
  rcases confined_canonical hapart hwritten h _ hmem with ⟨name, args, heq⟩ | hhas
  · cases heq
  · have hnot := hapart.has_eq_false (Or.inr hparam)
    rw [Confined, hnot] at hhas
    cases hhas

/-- What the canonical form `e'` of an expression `e` takes from the row parameter `p`. -/
structure TakesFromRow (p : String) (e e' : Expr) : Prop where
  /-- The row parameter stands only where columns are read, or else it is read as a constant. -/
  uses : e.ColumnsOnly p ∨ ∃ c, Constant.ofName? p = some c ∧ constant c ∈ e'.subterms
  /-- The columns are those that are written, in order. -/
  columns : e'.columnsRead = e.columnsUsed p
  /-- Nothing else is left of the row parameter. -/
  gone : identifier p ∉ e'.subterms

end Expr

/-! ## Row functions -/

namespace RowFunction

variable {text space p : String} {f : RowFunction}

lemma takesFromRow_canonical (hparse : RowFunction.parse text = .ok f)
    (hcheck : f.check space = .ok ()) (hparam : f.param = some p) :
    ∀ e ∈ f.body.exprs, e.TakesFromRow p (e.canonical (f.names space)) := by
  intro e he
  have hwritten := written_of_parse hparse e he
  obtain ⟨site, hsite, rfl⟩ := exists_site_of_check hcheck he
  obtain ⟨hapart, haccepted⟩ := (check_eq_ok hcheck).1 site hsite
  exact ⟨Expr.columnsOnly_or_constant hapart hparam hwritten haccepted,
    Expr.columnsRead_canonical hapart hparam hwritten haccepted,
    Expr.not_mem_subterms_canonical hapart hparam hwritten haccepted⟩

/-- A row function was read and is accepted.  If its row parameter does not have the name of a
constant, then the row parameter stands only where a column of it is read, by a name that is known.
In any case, the canonical form reads the columns that are written and has nothing else of the row
parameter; where the row parameter stands alone, the canonical form has the constant of that name. -/
theorem row_read_by_columns (hparse : RowFunction.parse text = .ok f)
    (hcheck : f.check space = .ok ()) (hparam : f.param = some p) :
    (Constant.ofName? p = none → ∀ e ∈ f.body.exprs, e.ColumnsOnly p) ∧
      List.Forall₂ (Expr.TakesFromRow p) f.body.exprs (f.canonical space).body.exprs := by
  have htakes := takesFromRow_canonical hparse hcheck hparam
  constructor
  · intro hnone e he
    refine (htakes e he).uses.resolve_right ?_
    rintro ⟨c, hc, _⟩
    rw [hnone] at hc
    cases hc
  · rw [exprs_canonical (check_eq_ok hcheck).2.loopFree, List.forall₂_map_right_iff,
      List.forall₂_same]
    exact htakes

open RowExpr.Expr in
/-- A column inside an operator, and a method of a column. -/
def meanAndMethod : Expr :=
  binary .add (call (identifier "mean") [member (identifier "d") "x"])
    (call (index (identifier "d") (literal (.string "y z" "'y z'"))) [identifier "PI"])

open RowExpr.Expr in
theorem row_read_by_columns_meanAndMethod :
    RowFunction.parse "d=>mean(d.x)+d['y z'](PI)" = .ok ⟨some "d", .expr meanAndMethod⟩ ∧
      RowFunction.check ⟨some "d", .expr meanAndMethod⟩ "op" = .ok () ∧
      Constant.ofName? "d" = none ∧ meanAndMethod.ColumnsOnly "d" ∧
      meanAndMethod.TakesFromRow "d" (binary .add (opCall "mean" [column "x"])
        (call (column "y z") [constant .pi])) ∧
      meanAndMethod.columnsUsed "d" = ["x", "y z"] := by
  have hparse : RowFunction.parse "d=>mean(d.x)+d['y z'](PI)" =
      .ok ⟨some "d", .expr meanAndMethod⟩ := by
    unfold RowFunction.parse
    conv in TokenRun.ofText _ _ => cbv
    cbv
  have hcheck : RowFunction.check ⟨some "d", .expr meanAndMethod⟩ "op" = .ok () := rfl
  have hnone : Constant.ofName? "d" = none := rfl
  obtain ⟨honly, hforms⟩ := row_read_by_columns hparse hcheck rfl
  refine ⟨hparse, hcheck, hnone, honly hnone _ (List.mem_singleton_self _), ?_, rfl⟩
  exact (List.forall₂_cons.mp hforms).1

/-- A row parameter with the name of a constant may stand alone, against the rule that the row
parameter only gives access to columns. -/
theorem not_columnsOnly_pi :
    RowFunction.parse "PI=>PI" = .ok ⟨some "PI", .expr (.identifier "PI")⟩ ∧
      RowFunction.check ⟨some "PI", .expr (.identifier "PI")⟩ "op" = .ok () ∧
      (RowFunction.canonical ⟨some "PI", .expr (.identifier "PI")⟩ "op").body =
        .expr (.constant .pi) ∧
      ¬ (Expr.identifier "PI").ColumnsOnly "PI" := by
  refine ⟨?_, rfl, rfl, fun h => h.ne rfl⟩
  unfold RowFunction.parse
  conv in TokenRun.ofText _ _ => cbv
  cbv

end RowFunction

end RowExpr
