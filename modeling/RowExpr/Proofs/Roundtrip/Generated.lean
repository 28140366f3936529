/-
# Generated expressions, read back from their code

In generated code, columns, constants, results of operators and calls of functions are spelled out.
The code of what is left of an accepted expression, and the code of each field of the operators
taken out of it, is an expression again: the tree that it spells.  Each operation stands in
parentheses, so that nothing depends on how tightly operators bind.  One operation is an exception:
the code of `undefined` begins with an operator and has no parentheses of its own, and nothing like
it may be raised to a power.

The names of columns are the one place where any text at all becomes code.  It cannot leave its
place: `Code.column_reads_back` says that the code of a column is one access and nothing else.
-/
import RowExpr.Proofs.Extract.Function
import RowExpr.Proofs.Roundtrip.Expression
import RowExpr.Registry.Standard

namespace RowExpr

open Token (isName isWord NumberText StringText Chunk)

namespace Expr

variable {names : Names} {locals : Locals} {registry : Registry}

/-! ## What canonical forms and numbering keep of the spelling -/

/-- The literals, texts and names of the node are spelled as the scanner reads them, and the node is
no choice with a pointed number. -/
def IsPrinted : Expr → Prop
  | literal (.number value raw) => NumberText value raw
  | literal (.string value raw) => StringText value raw
  | object entries => ∀ entry ∈ entries, entry.key.IsSpelled
  | template head parts => Chunk head.toList ∧ ∀ part ∈ parts, Chunk part.2.toList
  | member _ name | fnCall name _ => isWord name
  | conditional _ yes _ => yes.isPointNumber = false
  | _ => True

lemma IsSpelled.isPrinted {e : Expr} (h : e.IsSpelled) (hpointed : e.isPointed = false) :
    e.IsPrinted := by
  cases e with
  | literal value => cases value <;> exact h
  | object _ | template _ _ => exact h
  | member owner name => exact h.2
  | conditional test yes no => exact hpointed
  | fnCall name args => exact h.elim
  | _ => exact trivial

lemma IsPrinted.isPointed_eq_false {e : Expr} (h : e.IsPrinted) : e.isPointed = false := by
  cases e with
  | conditional test yes no => exact h
  | _ => rfl

/-- A confined node is legible, where the locals are. -/
lemma IsPrinted.isLegible {e : Expr} (h : e.IsPrinted) (hconfined : e.Confined locals)
    (hnames : ∀ name, locals.has name = true → isName name = true) : e.IsLegible := by
  cases e with
  | literal value => cases value <;> exact h
  | object _ | template _ _ | member _ _ | fnCall _ _ => exact h
  | identifier name => exact hnames name hconfined
  | call callee args =>
    obtain ⟨name, rfl⟩ := hconfined
    exact rfl
  | update op before target => exact Assignable.isTarget hconfined
  | assign op target value => exact Assignable.isTarget hconfined
  | this | new _ _ | opCall _ _ => exact hconfined.elim
  | _ => exact trivial

lemma isSpelled_rebuildEntries {entries : List (Entry Expr)} {parts : List Expr}
    (h : ∀ entry ∈ entries, entry.key.IsSpelled) :
    ∀ entry ∈ rebuildEntries entries parts, entry.key.IsSpelled := by
  fun_induction rebuildEntries entries parts with
  | case5 => simp
  | _ =>
    rename_i ih
    rw [List.forall_mem_cons] at h ⊢
    exact ⟨h.1, ih h.2⟩

/-- A node stays printed when its parts are replaced by others, numbers by the same numbers. -/
lemma IsPrinted.rebuild {e : Expr} {parts : List Expr} (h : e.IsPrinted)
    (hparts : List.Forall₂ (fun c c' => c'.isPointNumber = c.isPointNumber) e.children parts) :
    (e.rebuild parts).IsPrinted := by
  cases e with
  | object entries => exact isSpelled_rebuildEntries h
  | template head holes =>
    refine ⟨h.1, fun part hpart => ?_⟩
    obtain ⟨hole, hhole, htext⟩ := List.mem_map.mp (List.of_mem_zip hpart).2
    rw [← htext]
    exact h.2 hole hhole
  | member owner name =>
    obtain _ | ⟨_, _ | _⟩ := hparts
    exact h
  | conditional test yes no =>
    obtain _ | ⟨_, _ | ⟨hyes, _ | ⟨_, _ | _⟩⟩⟩ := hparts
    exact hyes.trans h
  | unary _ _ | update _ _ _ =>
    obtain _ | ⟨_, _ | _⟩ := hparts
    exact trivial
  | index _ _ | binary _ _ _ | logical _ _ _ | assign _ _ _ =>
    obtain _ | ⟨_, _ | ⟨_, _ | _⟩⟩ := hparts
    exact trivial
  | call _ _ | new _ _ =>
    obtain _ | ⟨_, _⟩ := hparts
    exact trivial
  | literal _ | fnCall _ _ => exact h
  | _ => exact trivial

lemma isPointNumber_canonical (e : Expr) :
    (e.canonical names).isPointNumber = e.isPointNumber := by
  cases e with
  | identifier _ | member _ _ | index _ _ | call _ _ =>
    simp only [canonical]
    split <;> rfl
  | _ => rfl

lemma isPointNumber_numbered (first : Nat) (e : Expr) :
    (e.numbered registry first).isPointNumber = e.isPointNumber := by
  cases e with
  | opCall name args =>
    simp only [numbered]
    split <;> rfl
  | _ => rfl

lemma forall₂_numberedList (first : Nat) (es : List Expr) :
    List.Forall₂ (fun c c' => c'.isPointNumber = c.isPointNumber) es
      (numberedList registry first es) := by
  induction es generalizing first with
  | nil => exact .nil
  | cons e rest ih => exact .cons (isPointNumber_numbered first e) (ih _)

/-- The canonical form of an expression that was read is spelled as it was. -/
theorem isPrinted_canonical {e : Expr} (hspelled : e.Spelled)
    (hpointed : ∀ s ∈ e.subterms, s.isPointed = false) :
    ∀ s ∈ (e.canonical names).subterms, s.IsPrinted := by
  induction e using parts_induction with
  | node e ih =>
    obtain ⟨hnode, hchildren⟩ := (spelled_iff e).mp hspelled
    obtain ⟨hself, hpointed⟩ := (forall_subterms_iff e).mp hpointed
    have hparts : ∀ c ∈ e.children, ∀ s ∈ (c.canonical names).subterms, s.IsPrinted :=
      fun c hc => ih c hc (hchildren c hc) (hpointed c hc)
    have hargs : ∀ args : List Expr, (∀ c ∈ args, c ∈ e.children) →
        ∀ c ∈ canonicalList names args, ∀ s ∈ c.subterms, s.IsPrinted := by
      intro args hmem
      rw [canonicalList_eq, List.forall_mem_map]
      exact fun c hc => hparts c (hmem c hc)
    by_cases href : e.isReference = false
    · refine (forall_subterms_iff _).mpr ⟨?_, ?_⟩
      · rw [canonical_eq_rebuild href]
        refine (hnode.isPrinted hself).rebuild ?_
        rw [List.forall₂_map_right_iff, List.forall₂_same]
        exact fun c _ => isPointNumber_canonical c
      · rw [children_canonical href, List.forall_mem_map]
        exact hparts
    · cases e with
      | identifier name =>
        simp only [canonical]
        split <;> exact List.forall_mem_singleton.mpr trivial
      | member owner name =>
        simp only [canonical]
        split
        · exact List.forall_mem_singleton.mpr trivial
        · refine (forall_subterms_iff _).mpr ⟨hnode.2, List.forall_mem_singleton.mpr ?_⟩
          exact hparts owner (by simp [children])
      | index owner key =>
        simp only [canonical]
        split
        · exact List.forall_mem_singleton.mpr trivial
        · refine (forall_subterms_iff _).mpr ⟨trivial, forall_mem_pair_iff.mpr ⟨?_, ?_⟩⟩
          · exact hparts owner (by simp [children])
          · exact hparts key (by simp [children])
      | call callee args =>
        have hargs := hargs args fun c hc => List.mem_cons_of_mem _ hc
        simp only [canonical]
        split
        · exact (forall_subterms_iff _).mpr ⟨trivial, hargs⟩
        · refine (forall_subterms_iff _).mpr ⟨trivial, List.forall_mem_cons.mpr ⟨?_, hargs⟩⟩
          exact hparts callee (by simp [children])
      | _ => exact absurd rfl href

/-- So is what is left when the operators are taken out, if functions have names that may follow a
point. -/
theorem isPrinted_numbered (hwords : ∀ name, (registry.function? name).isSome → isWord name)
    {e : Expr} (h : ∀ s ∈ e.subterms, s.IsPrinted) (hresolved : e.Resolved registry)
    (first : Nat) : ∀ s ∈ (e.numbered registry first).subterms, s.IsPrinted := by
  induction e using parts_induction generalizing first with
  | node e ih =>
    obtain ⟨hself, hchildren⟩ := (forall_subterms_iff e).mp h
    have hparts : ∀ c ∈ numberedList registry first e.children, ∀ s ∈ c.subterms, s.IsPrinted :=
      forall_mem_numberedList (fun c hc n => ih c hc (hchildren c hc)
        (fun name args hmem => hresolved name args (mem_subterms_of_mem_children hc hmem)) n) first
    rcases eq_opCall_or_ne e with ⟨name, args, rfl⟩ | hne
    · cases ho : registry.operator? name with
      | some o =>
        rw [numbered_operator first (by simp [ho])]
        exact List.forall_mem_singleton.mpr trivial
      | none =>
        have hlookup := hresolved name args (mem_subterms_self _)
        rw [numbered_function first ho]
        refine (forall_subterms_iff _).mpr ⟨hwords name ?_, hparts⟩
        simpa [Registry.lookup?, ho] using hlookup
    · refine (forall_subterms_iff _).mpr ⟨?_, ?_⟩
      · rw [numbered_eq_rebuild first hne]
        exact hself.rebuild (forall₂_numberedList first e.children)
      · rw [children_numbered first hne]
        exact hparts

/-! ## Whole texts -/

/-- The expression that a text writes, all of it. -/
def parse (text : String) : Except Malformed Expr := do
  let run := TokenRun.ofText 0 text
  Grammar.reach run.ending run.tokens
  let step ← Grammar.assignment run.ending run.tokens
  Grammar.expectEnd run.ending step.rest
  return step.value

/-- The code of the expression writes the tree that it spells, all of it, exactly if there is no
power of `undefined` inside.  If there is one, the code is malformed. -/
structure ReadsBack (e : Expr) : Prop where
  parse_iff : parse e.code = .ok e.surface ↔ ∀ s ∈ e.subterms, s.raisesUndefined = false
  malformed : (∃ s ∈ e.subterms, s.raisesUndefined = true) → ∃ m, parseFront e.code = .error m

theorem Legible.readsBack {e : Expr} (h : e.Legible)
    (hpointed : ∀ s ∈ e.subterms, s.isPointed = false) : e.ReadsBack := by
  have hclean : e.Clean ↔ ∀ s ∈ e.subterms, s.raisesUndefined = false :=
    forall₂_congr fun s hs => and_iff_right (hpointed s hs)
  have hreads := Grammar.rereads_of_legible e h
  obtain ⟨token, run, hstarts, _⟩ := hreads.starts (0 + e.code.toList.length)
  have hreach := Grammar.reached_of_starts hstarts
  have hwhole := (hreads.whole (0 + e.code.toList.length) rfl).congr hclean
  refine ⟨⟨fun hok => ?_, (hwhole.wholeText hreach).1⟩, fun ⟨s, hs, hraises⟩ => ?_⟩
  · by_contra hnot
    obtain ⟨m, hm⟩ := (hwhole.wholeText hreach).2 hnot
    cases hok.symm.trans hm
  · obtain ⟨m, hm⟩ := hwhole.2 fun hall => by cases hraises.symm.trans (hall s hs)
    refine ⟨m, ?_⟩
    unfold parseFront TokenRun.ofText
    dsimp only
    rw [Grammar.reach_eq_ok hreach, hm]
    rfl

end Expr

/-- The functions of the standard registry have names that may follow a point. -/
lemma Registry.isWord_of_standard {name : String}
    (h : (Registry.standard.function? name).isSome) : isWord name := by
  have hall : ∀ entry ∈ Registry.standard.functions, isWord entry.1 = true := by decide
  have hget : ∀ table : Table ScalarFunction, (∀ entry ∈ table, isWord entry.1 = true) →
      (table.get? name).isSome → isWord name = true := by
    intro table
    induction table with
    | nil => exact fun _ h => by cases h
    | cons entry rest ih =>
      intro hall h
      rw [List.forall_mem_cons] at hall
      by_cases hname : entry.1 = name
      · exact hname ▸ hall.1
      · exact ih hall.2 (by simpa [Table.get?, hname] using h)
  exact hget _ hall h

namespace Expr

/-- The fields of an operator call, with their function calls resolved. -/
def fields (registry : Registry) : Expr → List Expr
  | opCall name args =>
    match registry.operator? name with
    | some o => (args.take o.fields).map (numbered registry 0)
    | none => []
  | _ => []

lemma RecordedAs.fields_eq {registry : Registry} {window : Option Window} {e : Expr}
    {record : OperatorCall} (h : RecordedAs registry window e record) :
    record.fields = (e.fields registry).map code := by
  obtain ⟨name, args, o, rfl, ho, _, _, _, hfields, _⟩ := h
  rw [hfields, fields, ho]
  simp only [List.map_map]
  rfl

lemma exists_of_mem_fields {registry : Registry} {e field : Expr} (h : field ∈ e.fields registry) :
    ∃ part ∈ e.subterms, field = part.numbered registry 0 := by
  unfold fields at h
  split at h
  · split at h
    · rename_i name args _ o _
      obtain ⟨part, hpart, rfl⟩ := List.mem_map.mp h
      have hchild : part ∈ (opCall name args).children := List.mem_of_mem_take hpart
      exact ⟨part, mem_subterms_of_mem_children hchild (mem_subterms_self part), rfl⟩
    · cases h
  · cases h

/-- Whatever is left of a part of an accepted expression is read back from its code. -/
lemma readsBack_numbered {e s : Expr} (hprinted : ∀ t ∈ e.subterms, t.IsPrinted)
    (hconfined : ∀ t ∈ e.subterms, t.ConfinedOrCall {}) (hresolved : e.Resolved .standard)
    (hs : s ∈ e.subterms) (first : Nat) : (s.numbered .standard first).ReadsBack := by
  have hprinted : ∀ t ∈ (s.numbered .standard first).subterms, t.IsPrinted :=
    isPrinted_numbered (fun _ => Registry.isWord_of_standard)
      (fun t ht => hprinted t (mem_subterms_trans ht hs))
      (fun name args hmem => hresolved name args (mem_subterms_trans hmem hs)) first
  have hconfined : ∀ t ∈ (s.numbered .standard first).subterms, t.Confined {} :=
    confined_numbered (fun t ht => hconfined t (mem_subterms_trans ht hs)) first
  refine Legible.readsBack (fun t ht => ?_) (fun t ht => (hprinted t ht).isPointed_eq_false)
  exact (hprinted t ht).isLegible (hconfined t ht) fun name hname => by cases hname

end Expr

/-- An expression that was read and accepted, without a choice that has a number beginning with a
point behind its question mark, is compiled with the standard registry.  Then the code of what is
left of it and the code of each field of each operator taken out of it write the trees that they
spell: exactly those without a power of `undefined` do, and the code of the others is malformed. -/
theorem RowFunction.readsBack_of_extract {text space : String} {window : Option Window}
    {calls calls' : List OperatorCall} {f g : RowFunction} {source : Expr}
    (hparse : RowFunction.parse text = .ok f) (hcheck : f.check space = .ok ())
    (hbody : f.body = .expr source) (hpointed : ∀ s ∈ source.subterms, s.isPointed = false)
    (hextract : (f.canonical space).extract .standard window calls = (.ok g, calls')) :
    (∃ e, g.body = .expr e ∧ e.ReadsBack) ∧
      ∃ records, calls' = calls ++ records ∧
        List.Forall₂ (fun call record => record.fields = (call.fields .standard).map Expr.code ∧
          ∀ field ∈ call.fields .standard, field.ReadsBack)
        ((f.canonical space).operatorCalls .standard) records := by
  have hspelled := (spelled_of_parse hparse).body.exprs source (by
    rw [hbody]
    exact List.mem_singleton_self source)
  have haccepted : source.check (f.names space) {} = .ok () := by
    have hsite := (check_eq_ok hcheck).1 ⟨{}, source⟩ (by
      rw [hbody]
      exact List.mem_singleton_self _)
    exact hsite.2
  have hcanonical : (f.canonical space).body = .expr (source.canonical (f.names space)) := by
    rw [body_canonical, hbody]
    rfl
  obtain ⟨rfl, htaken⟩ := numbered_of_extract (permitted_canonical hcheck).loopFree hextract
  rw [hcanonical] at htaken
  have hresolved := htaken.resolved _ (List.mem_singleton_self _)
  have hback : ∀ s ∈ (source.canonical (f.names space)).subterms, ∀ first,
      (s.numbered .standard first).ReadsBack := fun s hs first =>
    Expr.readsBack_numbered (Expr.isPrinted_canonical hspelled hpointed)
      (Expr.confined_canonical Locals.apart_start hspelled.written haccepted) hresolved hs first
  refine ⟨⟨_, ?_, hback _ (Expr.mem_subterms_self _) calls.length⟩, ?_⟩
  · rw [numbered, hcanonical]
    rfl
  · obtain ⟨records, hcalls, hrecorded, _⟩ := htaken.adds
    refine ⟨records, hcalls, ?_⟩
    rw [operatorCalls, hcanonical]
    -- the fields of a call are parts of the canonical form, like the call itself
    have hfields : ∀ call ∈ (Body.expr (source.canonical (f.names space))).exprs.flatMap
        (Expr.operatorCalls .standard), ∀ field ∈ call.fields .standard, field.ReadsBack := by
      intro call hcall field hfield
      obtain ⟨e, he, hcall⟩ := List.mem_flatMap.mp hcall
      obtain rfl := List.mem_singleton.mp he
      obtain ⟨hmem, _⟩ := List.mem_filter.mp hcall
      obtain ⟨part, hpart, rfl⟩ := Expr.exists_of_mem_fields hfield
      exact hback part (Expr.mem_subterms_trans hpart hmem) 0
    refine ((List.forall₂_and_left _ _).mpr ⟨hfields, hrecorded⟩).imp fun call record h => ?_
    exact ⟨h.2.fields_eq, h.1⟩

open RowExpr.Expr in
/-- The distance of a column from the mean of another one. -/
def meanAbsolute : Expr :=
  binary .subtract (index (identifier "d") (literal (.string "a b" "'a b'")))
    (call (identifier "mean") [call (identifier "abs") [member (identifier "d") "x"]])

open RowExpr.Expr in
theorem RowFunction.readsBack_of_extract_meanAbsolute :
    RowFunction.parse "d=>d['a b']-mean(abs(d.x))" = .ok ⟨some "d", .expr meanAbsolute⟩ ∧
      RowFunction.check ⟨some "d", .expr meanAbsolute⟩ "op" = .ok () ∧
      (∀ s ∈ meanAbsolute.subterms, s.isPointed = false) ∧
      (RowFunction.canonical ⟨some "d", .expr meanAbsolute⟩ "op").extract .standard none [] =
        (.ok ⟨some "d", .expr (binary .subtract (column "a b") (opRef 0))⟩,
          [⟨"mean", ["fun.abs(data.x.get(row))"], [], 0, none⟩]) ∧
      Expr.parse "(data[\"a b\"].get(row)-op[0])" =
        .ok (binary .subtract (column "a b") (opRef 0)).surface ∧
      Expr.parse "fun.abs(data.x.get(row))" = .ok (fnCall "abs" [column "x"]).surface := by
  have hparse : RowFunction.parse "d=>d['a b']-mean(abs(d.x))" =
      .ok ⟨some "d", .expr meanAbsolute⟩ := by
    unfold RowFunction.parse
    conv in TokenRun.ofText _ _ => cbv
    cbv
  have hcheck : RowFunction.check ⟨some "d", .expr meanAbsolute⟩ "op" = .ok () := rfl
  have hextract : (RowFunction.canonical ⟨some "d", .expr meanAbsolute⟩ "op").extract .standard
      none [] = (.ok ⟨some "d", .expr (binary .subtract (column "a b") (opRef 0))⟩,
        [⟨"mean", ["fun.abs(data.x.get(row))"], [], 0, none⟩]) := rfl
  obtain ⟨⟨e, he, hback⟩, records, hrecords, hfields⟩ :=
    RowFunction.readsBack_of_extract hparse hcheck rfl (by decide) hextract
  cases he
  have hcalls : (RowFunction.canonical ⟨some "d", .expr meanAbsolute⟩ "op").operatorCalls
      .standard = [opCall "mean" [opCall "abs" [column "x"]]] := rfl
  rw [hcalls] at hfields
  obtain _ | ⟨⟨_, hfield⟩, _⟩ := hfields
  have hfield := hfield (fnCall "abs" [column "x"]) (List.mem_singleton_self _)
  exact ⟨hparse, hcheck, by decide, hextract, hback.parse_iff.mpr (by decide),
    hfield.parse_iff.mpr (by decide)⟩

open RowExpr.Expr in
/-- A power of `undefined` is accepted, and its code is malformed. -/
theorem RowFunction.not_readsBack_undefinedPower :
    RowFunction.parse "d=>undefined**d.x" =
        .ok ⟨some "d", .expr (binary .power (identifier "undefined")
          (member (identifier "d") "x"))⟩ ∧
      RowFunction.check ⟨some "d", .expr (binary .power (identifier "undefined")
        (member (identifier "d") "x"))⟩ "op" = .ok () ∧
      (RowFunction.canonical ⟨some "d", .expr (binary .power (identifier "undefined")
        (member (identifier "d") "x"))⟩ "op").extract .standard none [] =
        (.ok ⟨some "d", .expr (binary .power (constant .undefined) (column "x"))⟩, []) ∧
      (binary .power (constant .undefined) (column "x")).code = "(void(0)**data.x.get(row))" ∧
      ∃ m, Expr.parseFront "(void(0)**data.x.get(row))" = .error m := by
  refine ⟨?_, rfl, rfl, rfl, ?_⟩
  · unfold RowFunction.parse
    conv in TokenRun.ofText _ _ => cbv
    cbv
  · have hlegible : (binary .power (constant .undefined) (column "x")).Legible := by
      simp [Legible, subterms, IsLegible]
    exact (hlegible.readsBack (by decide)).malformed ⟨_, mem_subterms_self _, rfl⟩

/-! ## Columns -/

namespace Expr

lemma parseFront_of_parse {text : String} {e : Expr} (h : parse text = .ok e) :
    parseFront text = .ok e := by
  obtain ⟨_, hreach, h⟩ := bind_eq_ok_iff.mp h
  obtain ⟨step, hstep, h⟩ := bind_eq_ok_iff.mp h
  obtain ⟨_, _, hvalue⟩ := bind_eq_ok_iff.mp h
  exact bind_eq_ok_iff.mpr ⟨_, hreach, bind_eq_ok_iff.mpr ⟨step, hstep, hvalue⟩⟩

/-- The code of a column is read back, whatever the name of the column is. -/
lemma parse_code_column (name : String) :
    parse (Code.column name) =
      .ok (call (member (columnOwner name) "get") [identifier Code.rowParam]) := by
  have hlegible : (column name).Legible := List.forall_mem_singleton.mpr trivial
  have hback := hlegible.readsBack (List.forall_mem_singleton.mpr rfl)
  have hparse := hback.parse_iff.mpr (List.forall_mem_singleton.mpr rfl)
  rwa [surface_eq] at hparse

lemma property?_columnOwner (name : String) : (columnOwner name).property? = some name := by
  unfold columnOwner
  split <;> rfl

lemma columnOwner_cases (name : String) :
    columnOwner name = member (identifier Code.dataParam) name ∨
      ∃ key, columnOwner name = index (identifier Code.dataParam) key ∧
        key.keyName? = some name := by
  unfold columnOwner
  split
  · exact Or.inl rfl
  · exact Or.inr ⟨_, rfl, rfl⟩

end Expr

/-- The code of a column is one call and nothing else, whatever text names the column: the method
`get` of the member of `data` with that name, called with `row`.  So no name can add to the code
that it stands in, and columns with different names have different code. -/
theorem Code.column_reads_back :
    (∀ name : String, ∃ owner : Expr,
      (owner = .member (.identifier "data") name ∨
        ∃ key, owner = .index (.identifier "data") key ∧ key.keyName? = some name) ∧
      Expr.parseFront (Code.column name) = .ok (.call (.member owner "get") [.identifier "row"]) ∧
      Expr.parse (Code.column name) = .ok (.call (.member owner "get") [.identifier "row"])) ∧
    Function.Injective Code.column := by
  constructor
  · intro name
    have hparse := Expr.parse_code_column name
    exact ⟨_, Expr.columnOwner_cases name, Expr.parseFront_of_parse hparse, hparse⟩
  · intro name name' h
    have hparse := (Expr.parse_code_column name).symm.trans
      ((congrArg Expr.parse h).trans (Expr.parse_code_column name'))
    have howner : Expr.columnOwner name = Expr.columnOwner name' := by simpa using hparse
    have hname := congrArg Expr.property? howner
    simpa only [Expr.property?_columnOwner, Option.some.injEq] using hname

/-- A name that would end the string and the call, if it were written as it is. -/
example : Code.column "x\"].get(row)+(y" = "data[\"x\\\"].get(row)+(y\"].get(row)" := by decide

end RowExpr
