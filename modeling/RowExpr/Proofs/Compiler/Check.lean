/-
# Accepting definitions and compiling them

To accept definitions is to do the first half of what is done to compile them, for each definition
before the next.  So definitions that compile are accepted, and definitions that are refused do not
compile.  The two need not fail at the same place: compiling may stop at an earlier definition, for
a reason that only the second half finds.

An error names its definition, and a name has one position: in a table that is built by insertion
the names are distinct (`Table.nodup_keys_ofList`), and so they are in definitions that are read.

* `Definitions.nodup_names_of_parse?`: the names of definitions that are read from a text;
* `Compiler.compileOne_of_checkOne_error`, `Compiler.compileOne_of_checkOne_ok`: one definition;
* `Compiler.compileFrom_agrees`: any number of definitions, after any operator calls;
* `Compiler.check_agrees_with_compile`: the positions of the two errors.
-/
import RowExpr.Command.Definitions
import RowExpr.Json.Parse
import RowExpr.Proofs.Extract.Causes
import Mathlib

namespace RowExpr

/-! ## The names of definitions -/

namespace Json

lemma value_of_readWord {spelling : String} {value : Json} {cs : List Char}
    {s : Scanned cs Json} (h : readWord spelling value cs = some s) : s.value = value := by
  obtain ⟨_, -, rfl⟩ := Option.map_eq_some_iff.mp h
  rfl

/-- An object is not an atom. -/
lemma value_ne_object_of_readAtom {c : Char} {rest : List Char} {s : Scanned (c :: rest) Json}
    (h : readAtom c rest = some s) (members : List (String × Json)) :
    s.value ≠ object members := by
  unfold readAtom at h
  split_ifs at h
  · obtain ⟨_, -, rfl⟩ := Option.map_eq_some_iff.mp h
    nofun
  · rw [value_of_readWord h]
    nofun
  · rw [value_of_readWord h]
    nofun
  · rw [value_of_readWord h]
    nofun
  · unfold readNumber at h
    dsimp only at h
    split_ifs at h
    obtain ⟨_, -, h⟩ := Option.bind_eq_some_iff.mp h
    obtain ⟨_, -, h⟩ := Option.bind_eq_some_iff.mp h
    obtain ⟨_, -, h⟩ := Option.bind_eq_some_iff.mp h
    cases h
    nofun

/-- The members of an object that is read have different names, if those before them have. -/
lemma nodup_readMembers {depth : Nat} {members : Table Json} {cs : List Char}
    {s : Scanned cs (Table Json)} (h : readMembers depth members cs = some s)
    (hmembers : (members.map Prod.fst).Nodup) : (s.value.map Prod.fst).Nodup := by
  rw [readMembers] at h
  obtain ⟨⟨r, hr⟩, -, h⟩ := Option.bind_eq_some_iff.mp h
  obtain ⟨⟨name, r₁, hr₁⟩, -, h⟩ := Option.bind_eq_some_iff.mp h
  obtain ⟨⟨r₂, hr₂⟩, -, h⟩ := Option.bind_eq_some_iff.mp h
  obtain ⟨⟨value, r₃, hr₃⟩, -, h⟩ := Option.bind_eq_some_iff.mp h
  have hadded := Table.nodup_keys_insert members (String.ofList name) value hmembers
  dsimp only at h
  split at h
  · rename_i r₄ hr₄ _
    obtain ⟨all, hall, h⟩ := Option.bind_eq_some_iff.mp h
    cases h
    -- what follows the comma is shorter
    have hle := hr.length_le
    have hle₁ := hr₁.length_le
    have hle₂ := hr₂.length_le
    have hle₃ := hr₃.length_le
    have hle₄ := hr₄.length_le
    exact nodup_readMembers (s := all) hall hadded
  · obtain ⟨_, -, h⟩ := Option.bind_eq_some_iff.mp h
    cases h
    exact hadded
termination_by cs.length
decreasing_by
  simp only [List.length_cons] at *
  omega

/-- The members of an object that is read have different names. -/
lemma nodup_of_readValue {depth : Nat} {cs : List Char} {s : Scanned cs Json}
    {members : List (String × Json)} (h : readValue depth cs = some s)
    (hs : s.value = object members) : (members.map Prod.fst).Nodup := by
  rw [readValue] at h
  obtain ⟨⟨c, r, hr⟩, -, h⟩ := Option.bind_eq_some_iff.mp h
  dsimp only at h
  split at h
  · split at h
    · cases h
      cases hs
    · obtain ⟨items, -, h⟩ := Option.bind_eq_some_iff.mp h
      cases h
      cases hs
  · split at h
    · cases h
      cases hs
      exact List.nodup_nil
    · obtain ⟨all, hall, h⟩ := Option.bind_eq_some_iff.mp h
      cases h
      cases hs
      exact nodup_readMembers (s := all) hall List.nodup_nil
  · cases h
  · obtain ⟨atom, hatom, h⟩ := Option.bind_eq_some_iff.mp h
    cases h
    exact absurd hs (value_ne_object_of_readAtom hatom members)

end Json

lemma Definitions.names_ofMembers {members : List (String × Json)} {defs : Definitions}
    (h : Definitions.ofMembers members = .ok defs) : defs.map Prod.fst = members.map Prod.fst := by
  induction members generalizing defs with
  | nil =>
    cases h
    rfl
  | cons entry rest ih =>
    obtain ⟨name, value⟩ := entry
    obtain ⟨d, -, h⟩ := Expr.bind_eq_ok_iff.mp h
    obtain ⟨others, hothers, h⟩ := Expr.bind_eq_ok_iff.mp h
    cases h
    rw [List.map_cons, List.map_cons, ih hothers]

/-- Definitions that are read from a text have different names. -/
theorem Definitions.nodup_names_of_parse? {text : String} {json : Json} {defs : Definitions}
    (hjson : Json.parse? text = some json) (h : Definitions.ofJson json = .ok defs) :
    (defs.map Prod.fst).Nodup := by
  obtain ⟨s, hs, hjson⟩ := Option.bind_eq_some_iff.mp hjson
  cases json with
  | object members =>
    rw [names_ofMembers h]
    refine Json.nodup_of_readValue hs ?_
    split at hjson
    · exact Option.some.inj hjson
    · cases hjson
  | _ => cases h

/-! ## Errors and their definitions -/

/-- Whether a cause can only be found after a definition is accepted: a call, or what the host makes
of the code. -/
def Cause.isLate : Cause → Bool
  | argument _ | unknownOperator _ | host _ => true
  | malformed _ | rejected _ | reference _ => false

lemma Cause.isLate_of_inCall {cause : Cause} (h : cause.inCall = true) : cause.isLate = true := by
  cases cause with
  | argument _ | unknownOperator _ => rfl
  | _ => cases h

/-- The error belongs to the definition at position `i`. -/
def CompileError.BelongsTo (e : CompileError) (defs : Definitions) (i : Nat) : Prop :=
  ∃ name d, defs[i]? = some (name, d) ∧ e.expression = some name

namespace CompileError

variable {e : CompileError} {defs : Definitions} {i j : Nat}

lemma belongsTo_zero (cause : Cause) (name : String) (d : Definition) (rest : Definitions) :
    BelongsTo ⟨cause, some name⟩ ((name, d) :: rest) 0 :=
  ⟨name, d, rfl, rfl⟩

lemma BelongsTo.succ (h : e.BelongsTo defs i) (entry : String × Definition) :
    e.BelongsTo (entry :: defs) (i + 1) :=
  h

/-- Definitions with different names have different errors. -/
lemma BelongsTo.unique (hnames : (defs.map Prod.fst).Nodup) (hi : e.BelongsTo defs i)
    (hj : e.BelongsTo defs j) : i = j := by
  obtain ⟨name, d, hget, hname⟩ := hi
  obtain ⟨name', d', hget', hname'⟩ := hj
  obtain rfl : name = name' := Option.some.inj (hname ▸ hname')
  have hlt : i < (defs.map Prod.fst).length := by
    rw [List.length_map]
    exact (List.getElem?_eq_some_iff.mp hget).1
  refine (List.getElem?_inj hlt hnames).mp ?_
  rw [List.getElem?_map, List.getElem?_map, hget, hget', Option.map_some, Option.map_some]

end CompileError

/-- The host fails only with errors of its own, which it attributes to no definition. -/
def Host.FailsAsHost {τ : Type} (host : Host τ) : Prop :=
  ∀ params body e, host params body = .error e → ∃ text, e = ⟨.host text, none⟩

namespace Compiler

variable {τ : Type} (c : Compiler τ)

/-! ## One definition -/

/-- A definition that is refused does not compile, for the same cause. -/
lemma compileOne_of_checkOne_error {d : Definition} {cause : Cause}
    (h : c.checkOne d = .error cause) (calls : List OperatorCall) :
    c.compileOne d calls = .error ⟨cause, none⟩ := by
  unfold checkOne at h
  unfold compileOne generate
  cases hframe : d.checkFrame.mapError Cause.rejected with
  | error cause' =>
    rw [hframe] at h
    cases h
    rfl
  | ok _ =>
    rw [hframe] at h
    cases htext : RowFunction.ofText d.function c.space with
    | error cause' =>
      rw [htext] at h
      cases h
      rfl
    | ok f =>
      rw [htext] at h
      cases h

/-- A definition that is accepted compiles, or fails for a cause that is found late. -/
lemma compileOne_of_checkOne_ok (hhost : c.host.FailsAsHost) {d : Definition}
    (h : c.checkOne d = .ok ()) (calls : List OperatorCall) :
    (∃ value calls', c.compileOne d calls = .ok (value, calls')) ∨
      ∃ cause, c.compileOne d calls = .error ⟨cause, none⟩ ∧ cause.isLate = true := by
  unfold checkOne at h
  obtain ⟨_, hframe, h⟩ := Expr.bind_eq_ok_iff.mp h
  obtain ⟨f, htext⟩ := Stmt.discard_eq_ok_iff.mp h
  unfold compileOne generate
  rw [hframe, htext]
  rcases hextract : (f.canonical c.space).extract c.registry d.window calls with ⟨cause | g, calls'⟩
  · have hcause := RowFunction.inCall_of_extract_eq_error (congrArg Prod.fst hextract)
    refine .inr ⟨cause, ?_, Cause.isLate_of_inCall hcause⟩
    simp only [bind, Except.bind, hextract]
    rfl
  · simp only [bind, Except.bind, hextract, pure, Except.pure, Except.mapError]
    cases hvalue : c.host Code.params g.body.code with
    | ok value => exact .inl ⟨value, calls', rfl⟩
    | error e =>
      obtain ⟨text, rfl⟩ := hhost _ _ _ hvalue
      exact .inr ⟨.host text, rfl, rfl⟩

/-! ## Any number of definitions -/

/-- The error of compiling `defs` that goes with the error `e` of accepting them: it belongs to the
same definition and is the same, or it belongs to an earlier one and is found late. -/
structure Precedes (defs : Definitions) (e' e : CompileError) (j i : Nat) : Prop where
  le : j ≤ i
  belongsTo : e'.BelongsTo defs j
  same : j = i → e' = e
  late : j < i → e'.cause.isLate = true

lemma check_cons_of_ok {name : String} {d : Definition} (h : c.checkOne d = .ok ())
    (rest : Definitions) : c.check ((name, d) :: rest) = c.check rest := by
  rw [check, h]
  rfl

lemma check_cons_of_error {name : String} {d : Definition} {cause : Cause}
    (h : c.checkOne d = .error cause) (rest : Definitions) :
    c.check ((name, d) :: rest) = .error ⟨cause, some name⟩ := by
  rw [check, h]
  rfl

lemma compileFrom_cons_of_error {name : String} {d : Definition} {cause : Cause}
    {calls : List OperatorCall} (h : c.compileOne d calls = .error ⟨cause, none⟩)
    (rest : Definitions) :
    c.compileFrom calls ((name, d) :: rest) = .error ⟨cause, some name⟩ := by
  rw [compileFrom, h]
  rfl

lemma compileFrom_cons_of_ok {name : String} {d : Definition} {value : τ}
    {calls calls' : List OperatorCall} (h : c.compileOne d calls = .ok (value, calls'))
    (rest : Definitions) :
    c.compileFrom calls ((name, d) :: rest) = (c.compileFrom calls' rest).map fun compiled =>
      { compiled with values := (name, value) :: compiled.values } := by
  rw [compileFrom, h]
  simp only [Except.mapError, bind, Except.bind]
  cases c.compileFrom calls' rest <;> rfl

/-- Definitions are accepted, or they do not compile after any operator calls: compiling fails at
the definition that is refused or before it. -/
theorem compileFrom_agrees (hhost : c.host.FailsAsHost) (calls : List OperatorCall)
    (defs : Definitions) :
    c.check defs = .ok () ∨ ∃ e i e' j, c.check defs = .error e ∧ e.BelongsTo defs i ∧
      c.compileFrom calls defs = .error e' ∧ Precedes defs e' e j i := by
  induction defs generalizing calls with
  | nil => exact .inl rfl
  | cons entry rest ih =>
    obtain ⟨name, d⟩ := entry
    cases hcheck : c.checkOne d with
    | error cause =>
      have hcompile := c.compileOne_of_checkOne_error hcheck calls
      have hbelongs := CompileError.belongsTo_zero cause name d rest
      refine .inr ⟨_, 0, _, 0, c.check_cons_of_error hcheck rest, hbelongs,
        c.compileFrom_cons_of_error hcompile rest, ?_⟩
      exact ⟨Nat.le_refl 0, hbelongs, fun _ => rfl, fun h => absurd h (Nat.lt_irrefl 0)⟩
    | ok _ =>
      rw [c.check_cons_of_ok hcheck]
      rcases c.compileOne_of_checkOne_ok hhost hcheck calls with
        ⟨value, calls', hcompile⟩ | ⟨cause, hcompile, hlate⟩
      · -- both go on with the rest
        rcases ih calls' with hok | ⟨e, i, e', j, he, hi, he', hprec⟩
        · exact .inl hok
        · refine .inr ⟨e, i + 1, e', j + 1, he, hi.succ _, ?_, ?_⟩
          · rw [c.compileFrom_cons_of_ok hcompile, he']
            rfl
          · exact ⟨Nat.succ_le_succ hprec.le, hprec.belongsTo.succ _,
              fun h => hprec.same (Nat.succ.inj h), fun h => hprec.late (Nat.lt_of_succ_lt_succ h)⟩
      · -- compiling stops here, whatever is wrong with the rest
        rcases ih calls with hok | ⟨e, i, _, _, he, hi, -, -⟩
        · exact .inl hok
        · refine .inr ⟨e, i + 1, _, 0, he, hi.succ _, c.compileFrom_cons_of_error hcompile rest, ?_⟩
          exact ⟨Nat.zero_le _, CompileError.belongsTo_zero cause name d rest, nofun,
            fun _ => hlate⟩

/-- Definitions that compile are accepted.  If definitions are refused with an error of the one at
position `i`, they do not compile either, and the error of that belongs to a definition at some
position `j ≤ i`.  It is the same error if `j = i`, and otherwise one that cannot be found without
compiling. -/
theorem check_agrees_with_compile (hhost : c.host.FailsAsHost) (defs : Definitions)
    (hnames : (defs.map Prod.fst).Nodup) :
    (∀ compiled, c.compile defs = .ok compiled → c.check defs = .ok ()) ∧
    ∀ e, c.check defs = .error e →
      (∃ i, e.BelongsTo defs i) ∧
      ∀ i, e.BelongsTo defs i →
        ∃ e' j, c.compile defs = .error e' ∧ Precedes defs e' e j i := by
  rcases c.compileFrom_agrees hhost [] defs with hok | ⟨e₀, i₀, e', j, he₀, hi₀, he', hprec⟩
  · refine ⟨fun _ _ => hok, fun e he => ?_⟩
    rw [hok] at he
    cases he
  · constructor
    · intro compiled hcompiled
      rw [compile, he'] at hcompiled
      cases hcompiled
    · intro e he
      obtain rfl : e₀ = e := by simpa [he₀] using he
      refine ⟨⟨i₀, hi₀⟩, fun i hi => ⟨e', j, he', ?_⟩⟩
      rwa [hi.unique hnames hi₀]

/-- The compiler whose host refuses all code. -/
def refusing : Compiler Unit where
  registry := .standard
  space := "op"
  host := fun _ body => .error ⟨.host body, none⟩

/-- A definition that only the host refuses, and one that is not accepted. -/
def columnThenUnbound : Definitions := [("a", ⟨"d=>d.x", none⟩), ("b", ⟨"d=>q", none⟩)]

lemma parse_column : RowFunction.parse "d=>d.x" =
    .ok ⟨some "d", .expr (.member (.identifier "d") "x")⟩ := by
  unfold RowFunction.parse
  conv in TokenRun.ofText _ _ => cbv
  cbv

lemma parse_unbound : RowFunction.parse "d=>q" = .ok ⟨some "d", .expr (.identifier "q")⟩ := by
  unfold RowFunction.parse
  conv in TokenRun.ofText _ _ => cbv
  cbv

/-- Compiling fails before the definition that is not accepted. -/
theorem check_agrees_with_compile_refusing :
    refusing.check columnThenUnbound = .error ⟨.reference (.undefined "q"), some "b"⟩ ∧
    ∃ e' j, refusing.compile columnThenUnbound = .error e' ∧
      Precedes columnThenUnbound e' ⟨.reference (.undefined "q"), some "b"⟩ j 1 := by
  have hhost : refusing.host.FailsAsHost := by
    intro _ body e h
    cases h
    exact ⟨body, rfl⟩
  have hcheck : refusing.check columnThenUnbound =
      .error ⟨.reference (.undefined "q"), some "b"⟩ := by
    simp only [columnThenUnbound, check, checkOne, RowFunction.ofText, parse_column, parse_unbound]
    cbv
  have hagree := (refusing.check_agrees_with_compile hhost columnThenUnbound (by decide)).2 _ hcheck
  exact ⟨hcheck, hagree.2 1 ⟨"b", _, rfl, rfl⟩⟩

end Compiler

end RowExpr
