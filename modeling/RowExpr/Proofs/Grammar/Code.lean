/-
# Reading generated code

The code of an expression is read as its surface form, wherever it stands in generated code, if
each node is legible: its names and literals are spelled as the scanner reads them, its callee
needs no parentheses and its targets are variables. Only two nodes spoil the reading of an
expression that is legible throughout: a choice with a number that begins with a point behind its
question mark, and a power of `undefined` (`rereads_of_legible`).
-/
import RowExpr.Proofs.Expr.Surface
import RowExpr.Proofs.Grammar.Operation
import RowExpr.Proofs.Grammar.Written
import RowExpr.Proofs.Number.Digits
import Mathlib

namespace RowExpr

/-! ## Written names, texts and numbers -/

namespace Token

open RowExpr.Number (isDigit isDigitOf ofDigits)

/-- A character of a JSON string stands for itself, or its escape is read as it. -/
lemma jsonEscape_cases (c : Char) :
    Text.jsonEscape c = [c] ∧ c ≠ '"' ∧ c ≠ '\n' ∧ c ≠ '\\' ∨
      ∃ text, Text.jsonEscape c = '\\' :: text ∧ ∀ next, Escape next text (some c) := by
  have hcode : ∀ n < 32, ∃ digits : List Char, digits.length = 4 ∧ ofDigits 16 digits = n ∧
      digits.all (isDigitOf 16) = true ∧ ['\\', 'u', '0', '0'] ++
        List.replicate (2 - (Text.hex n).length) '0' ++ Text.hex n = '\\' :: 'u' :: digits := by
    intro n hn
    refine ⟨['0', '0'] ++ List.replicate (2 - (Text.hex n).length) '0' ++ Text.hex n, ?_⟩
    revert n
    decide
  by_cases hspecial : c ∈ ['"', '\\', '\x08', '\t', '\n', '\x0c', '\r']
  · right
    simp only [List.mem_cons, List.not_mem_nil, or_false] at hspecial
    rcases hspecial with rfl | rfl | rfl | rfl | rfl | rfl | rfl
    · exact ⟨_, rfl, fun _ => .plain rfl (by decide) (by decide) (by decide) (by decide)⟩
    · exact ⟨_, rfl, fun _ => .plain rfl (by decide) (by decide) (by decide) (by decide)⟩
    all_goals exact ⟨_, rfl, fun _ => .control rfl⟩
  · simp only [List.mem_cons, List.not_mem_nil, or_false, not_or] at hspecial
    obtain ⟨hquote, hslash, hback, htab, hline, hfeed, hreturn⟩ := hspecial
    rw [Text.jsonEscape, if_neg hquote, if_neg hslash, if_neg hback, if_neg htab, if_neg hline,
      if_neg hfeed, if_neg hreturn]
    by_cases hlow : c.toNat < 32
    · obtain ⟨digits, hlength, hvalue, hdigits, htext⟩ := hcode c.toNat hlow
      have hescape : ∀ next,
          Escape next ('u' :: digits) (some (Char.ofNat (ofDigits 16 digits))) :=
        fun next => .unicode hlength (List.all_eq_true.mp hdigits) (by
          rw [hvalue]
          exact .inl (by omega))
      rw [hvalue, Char.ofNat_toNat] at hescape
      rw [if_pos hlow]
      exact .inr ⟨_, htext, hescape⟩
    · rw [if_neg hlow]
      exact .inl ⟨rfl, hquote, hline, hslash⟩

lemma stringBody_jsonEscape (cs : List Char) :
    StringBody '"' (cs.flatMap Text.jsonEscape) cs := by
  induction cs with
  | nil => exact .nil
  | cons c cs ih =>
    rw [List.flatMap_cons]
    rcases jsonEscape_cases c with ⟨htext, hquote, hline, hslash⟩ | ⟨text, htext, hescape⟩
    · rw [htext]
      exact .plain hquote hline hslash ih
    · rw [htext]
      exact .escape (hescape _) ih

lemma stringText_jsonQuote (text : String) :
    StringText text (String.ofList (Text.jsonQuote text.toList)) :=
  ⟨'"', _, text.toList, .inl rfl, by simp [Text.jsonQuote], stringBody_jsonEscape _, by simp⟩

lemma numberText_toString (n : Nat) : NumberText (Number.ofInt n) (toString n) := by
  have hrepr : (toString n).toList = Nat.toDigits 10 n := Nat.toList_repr
  have hdigit : ∀ c ∈ Nat.toDigits 10 n, isDigit c = true :=
    fun c hc => Number.isDigit_of_mem_toDigits hc
  have hvalue : Number.Numeral.toFloat false ⟨Nat.toDigits 10 n, [], false, []⟩ =
      Number.ofInt n := by
    have hdecimal : Number.Numeral.decimal ⟨Nat.toDigits 10 n, [], false, []⟩ = ⟨n, 0⟩ := by
      rw [Number.Numeral.decimal, List.append_nil, Number.ofDigits_toDigits]
      rfl
    have hsign : decide ((n : Int) < 0) = false := by simp
    rw [Number.Numeral.toFloat, hdecimal, Number.Decimal.toFloat, Number.ofInt, hsign,
      Int.natAbs_natCast]
    dsimp only
    by_cases hzero : n = 0
    · rw [if_pos hzero, hzero]
    · rw [if_neg hzero, if_neg (by decide), if_neg (by omega), if_pos (by decide)]
      exact congrArg (Number.ofRatio false · 1) (Nat.mul_one n)
  cases hdigits : Nat.toDigits 10 n with
  | nil => exact absurd hdigits Nat.toDigits_ne_nil
  | cons c digits =>
    rw [hdigits] at hvalue hdigit
    refine ⟨c, digits, hrepr.trans hdigits, ?_⟩
    have hbody : NumberBody c (digits ++ ([] ++ []))
        (Number.Numeral.toFloat false ⟨c :: digits, [], false, []⟩) :=
      .whole (hdigit c (by simp)) (fun d hd => hdigit d (by simp [hd])) .missing .missing
    rwa [hvalue, List.append_nil, List.append_nil] at hbody

end Token

/-! ## Legible expressions -/

namespace Expr

open Token (isName isWord NumberText StringText Chunk)

/-- The node is spelled as the scanner reads it, and as the grammar wants it. -/
def IsLegible : Expr → Prop
  | literal (.number value raw) => NumberText value raw
  | literal (.string value raw) => StringText value raw
  | object entries => ∀ entry ∈ entries, entry.key.IsSpelled
  | template head parts => Chunk head.toList ∧ ∀ part ∈ parts, Chunk part.2.toList
  | identifier name => isName name
  | member _ name | opCall name _ | fnCall name _ => isWord name
  | call callee _ => callee.wrapsAsOwner = false
  | update _ _ target | assign _ target _ => Grammar.isTarget target
  | this | new _ _ => False
  | _ => True

/-- Every node of the expression is legible. -/
def Legible (e : Expr) : Prop := ∀ s ∈ e.subterms, s.IsLegible

section Code

variable (a b c : Expr) (name : String) (es : List Expr)

lemma code_array : (array es).code = "[" ++ codeOfList es ++ "]" := rfl

lemma code_object (entries : List (Entry Expr)) :
    (object entries).code = "(\x7b" ++ codeOfEntries entries ++ "\x7d)" := rfl

lemma code_template (head : String) (parts : List (Expr × String)) :
    (template head parts).code = "`" ++ head ++ codeOfParts parts ++ "`" := rfl

lemma code_member : (member a name).code =
    (if a.wrapsAsOwner then "(" ++ a.code ++ ")" else a.code) ++ "." ++ name := rfl

lemma code_index : (index a b).code =
    (if a.wrapsAsOwner then "(" ++ a.code ++ ")" else a.code) ++ "[" ++ b.code ++ "]" := rfl

lemma code_call : (call a es).code = a.code ++ "(" ++ codeOfList es ++ ")" := rfl

lemma code_unary (op : UnaryOp) : (unary op a).code =
    "(" ++ op.spelling ++ (if op.isWord then " " else "") ++ a.code ++ ")" := rfl

lemma code_update (op : UpdateOp) (before : Bool) : (update op before a).code =
    if before then "(" ++ op.spelling ++ a.code ++ ")"
    else "(" ++ a.code ++ op.spelling ++ ")" := by
  cases before <;> rfl

lemma code_binary (op : BinaryOp) : (binary op a b).code =
    let gap := if op.isWord then " " else ""
    "(" ++ a.code ++ gap ++ op.spelling ++ gap ++ b.code ++ ")" := rfl

lemma code_logical (op : LogicalOp) :
    (logical op a b).code = "(" ++ a.code ++ op.spelling ++ b.code ++ ")" := rfl

lemma code_conditional :
    (conditional a b c).code = "(" ++ a.code ++ "?" ++ b.code ++ ":" ++ c.code ++ ")" := rfl

lemma code_assign (op : AssignOp) :
    (assign op a b).code = "(" ++ a.code ++ op.spelling ++ b.code ++ ")" := rfl

end Code

/-- Whether the expression is a number that begins with a point. -/
def isPointNumber : Expr → Bool
  | literal (.number _ raw) => raw.toList.head? == some '.'
  | _ => false

/-- Whether the node is a choice with a number that begins with a point behind its question
mark. -/
def isPointed : Expr → Bool
  | conditional _ yes _ => yes.isPointNumber
  | _ => false

/-- Whether the expression is the constant `undefined`. -/
def isUndefined : Expr → Bool
  | constant .undefined => true
  | _ => false

/-- Whether the node is a power of `undefined`. -/
def raisesUndefined : Expr → Bool
  | binary .power base _ => base.isUndefined
  | _ => false

/-- Neither of the two nodes whose code is misread is inside the expression. -/
def Clean (e : Expr) : Prop :=
  ∀ s ∈ e.subterms, s.isPointed = false ∧ s.raisesUndefined = false

lemma clean_iff (e : Expr) : e.Clean ↔
    (e.isPointed = false ∧ e.raisesUndefined = false) ∧ ∀ c ∈ e.children, c.Clean :=
  forall_subterms_iff e

/-- A node of any other form is clean if its parts are. -/
lemma clean_node_iff {e : Expr} (hpoint : e.isPointed = false)
    (hpower : e.raisesUndefined = false) : e.Clean ↔ ∀ c ∈ e.children, c.Clean := by
  rw [clean_iff, and_iff_right ⟨hpoint, hpower⟩]

end Expr

namespace Grammar

open RowExpr.Expr (Clean clean_iff clean_node_iff surface_eq)
open Token (Opens Skips StopsWord isNamePart isName isWord NumberText StringText)

/-! ## One node at a time -/

/-- The code of the expression is read as its surface form, if it is clean. -/
structure Rereads (e : Expr) : Prop where
  operand : e.wrapsAsOwner = false → ReadsOperand e.code.toList e.surface e.Clean
  simple : ReadsSimple e.code.toList e.surface e.Clean e.isUndefined

section Nodes

variable {text : List Char} {e e' a b c : Expr} {ok : Prop}

lemma Rereads.group (h : Rereads e) : ReadsGroup e.code.toList e.surface e.Clean :=
  h.simple.group

lemma rereads_of_operand (h : ReadsOperand text e' ok) (htext : e.code.toList = text)
    (hsurface : e.surface = e') (hclean : e.Clean ↔ ok) (hdefined : e.isUndefined = false) :
    Rereads e := by
  have hoperand : ReadsOperand e.code.toList e.surface e.Clean := by
    rwa [htext, hsurface, propext hclean]
  exact ⟨fun _ => hoperand, hdefined ▸ hoperand.simple⟩

/-- An expression as the owner of a member. -/
lemma Rereads.owner (h : Rereads e) :
    ReadsOperand (if e.wrapsAsOwner then "(" ++ e.code ++ ")" else e.code).toList e.surface
      e.Clean := by
  split
  case isTrue =>
    have htext : ("(" ++ e.code ++ ")").toList = '(' :: (e.code.toList ++ [')']) := by simp
    rw [htext]
    exact h.group.paren
  case isFalse hwrap => exact h.operand (by simpa using hwrap)

lemma rereads_member {name : String} (h : Rereads a) (hname : isWord name) :
    Rereads (.member a name) := by
  refine rereads_of_operand (h.owner.member hname) ?_ (surface_eq _) ?_ rfl
  · simp [Expr.code_member]
  · rw [clean_node_iff rfl rfl]
    simp [Expr.children]

lemma rereads_index (h : Rereads a) (h' : Rereads b) : Rereads (.index a b) := by
  refine rereads_of_operand (h.owner.index h'.group) ?_ (surface_eq _) ?_ rfl
  · simp [Expr.code_index]
  · rw [clean_node_iff rfl rfl]
    simp [Expr.children]

/-- What is known of the items of a list. -/
def itemsOf (es : List Expr) : List Item := es.map fun e => ⟨e.code.toList, e.surface, e.Clean⟩

lemma reads_itemsOf {es : List Expr} (h : ∀ e ∈ es, Rereads e) :
    ∀ item ∈ itemsOf es, ReadsGroup item.text item.expr item.ok := by
  intro item hitem
  obtain ⟨e, he, rfl⟩ := List.mem_map.1 hitem
  exact (h e he).group

lemma codeOfList_eq (es : List Expr) :
    (Expr.codeOfList es).toList = commaSeparated ((itemsOf es).map Item.text) := by
  induction es with
  | nil => rfl
  | cons e es ih =>
    cases es with
    | nil => rfl
    | cons e' es =>
      change (e.code ++ "," ++ Expr.codeOfList (e' :: es)).toList = _
      rw [String.toList_append, String.toList_append, ih]
      simp [itemsOf, commaSeparated]

lemma exprs_itemsOf (es : List Expr) : (itemsOf es).map Item.expr = es.map Expr.surface := by
  simp [itemsOf]

lemma forall_itemsOf (es : List Expr) :
    (∀ item ∈ itemsOf es, item.ok) ↔ ∀ e ∈ es, e.Clean := by
  simp [itemsOf]

lemma rereads_array {es : List Expr} (h : ∀ e ∈ es, Rereads e) : Rereads (.array es) := by
  refine rereads_of_operand (readsOperand_array (reads_itemsOf h)) ?_ ?_ ?_ rfl
  · rw [← codeOfList_eq]
    simp [Expr.code_array]
  · rw [surface_eq, exprs_itemsOf]
    rfl
  · rw [clean_node_iff rfl rfl, forall_itemsOf]
    rfl

lemma rereads_call {es : List Expr} (h : Rereads a) (hwrap : a.wrapsAsOwner = false)
    (hargs : ∀ e ∈ es, Rereads e) : Rereads (.call a es) := by
  refine rereads_of_operand ((h.operand hwrap).call (reads_itemsOf hargs)) ?_ ?_ ?_ rfl
  · rw [← codeOfList_eq]
    simp [Expr.code_call]
  · rw [surface_eq, exprs_itemsOf]
    rfl
  · rw [clean_node_iff rfl rfl, forall_itemsOf]
    simp [Expr.children]

lemma reads_key {key : Key Expr} (hkey : key.IsSpelled) (h : ∀ c ∈ key.children, Rereads c) :
    ReadsKey (Expr.codeOfKey key).toList (Expr.surfaceOfKey key)
      (∀ c ∈ key.children, c.Clean) := by
  have hcolon : ∀ rest, Apart (':' :: rest) := apart_cons (by decide)
  cases key with
  | name word =>
    have hnone : (∀ c ∈ (Key.name word).children, Clean c) ↔ True := by simp [Key.children]
    have hword : isWord word ∧ ∃ token, Token.ofWord word = token ∧ closes token = false ∧
        ∀ ending p r, key ending (⟨p, token⟩ :: r) = take ending r (.name word) := by
      simp only [Key.IsSpelled, Token.isKeyName, Bool.and_eq_true] at hkey
      refine ⟨hkey.1, ?_⟩
      have hother := hkey.2
      split at hother
      case h_1 name hname =>
        obtain rfl := Token.eq_of_ofWord hname
        exact ⟨_, hname, rfl, fun _ _ _ => key.eq_1 ..⟩
      case h_2 k hk =>
        obtain rfl : k.spelling = word := by
          have := Token.propertyName?_ofWord word
          rw [hk] at this
          simpa [propertyName?] using this
        exact ⟨_, hk, rfl, fun _ _ _ => key.eq_2 ..⟩
      case h_3 => cases hother
    obtain ⟨hword, token, htoken, hcloses, hread⟩ := hword
    rw [propext hnone]
    exact readsKey_of_token (Token.skips_of_isWord hword)
      (fun stop rest => htoken ▸ TokenRun.starts_word hword (hcolon rest).stopsWord) hcloses hread
  | string value raw =>
    have hnone : (∀ c ∈ (Key.string value raw).children, Clean c) ↔ True := by simp [Key.children]
    rw [propext hnone]
    exact readsKey_of_token (Token.StringText.opens_skips hkey).2
      (fun stop rest => TokenRun.starts_string hkey) rfl fun _ _ _ => key.eq_3 ..
  | number value raw =>
    have hnone : (∀ c ∈ (Key.number value raw).children, Clean c) ↔ True := by simp [Key.children]
    rw [propext hnone]
    exact readsKey_of_token (Token.NumberText.opens_skips hkey).2
      (fun stop rest => TokenRun.starts_number hkey (hcolon rest).stopsNumber) rfl
      fun _ _ _ => key.eq_4 ..
  | computed e =>
    have hone : (∀ c ∈ (Key.computed e).children, Clean c) ↔ e.Clean := by simp [Key.children]
    have htext : (Expr.codeOfKey (.computed e)).toList = '[' :: (e.code.toList ++ [']']) := by
      change ("[" ++ e.code ++ "]").toList = _
      simp
    rw [propext hone, htext]
    exact (h e (by simp [Key.children])).group.computed

/-- What is known of an entry of an object. -/
def memberOf (entry : Entry Expr) : Member where
  keyText := (Expr.codeOfKey entry.key).toList
  key := Expr.surfaceOfKey entry.key
  keyOk := ∀ c ∈ entry.key.children, c.Clean
  text := entry.value.code.toList
  value := entry.value.surface
  ok := entry.value.Clean

lemma codeOfEntries_eq (entries : List (Entry Expr)) :
    (Expr.codeOfEntries entries).toList =
      commaSeparated ((entries.map memberOf).map Member.written) := by
  have hentry : ∀ entry : Entry Expr,
      (Expr.codeOfEntry entry).toList = (memberOf entry).written := by
    intro entry
    obtain ⟨key, value, shorthand⟩ := entry
    change (Expr.codeOfKey key ++ ":" ++ value.code).toList = _
    simp [memberOf, Member.written]
  induction entries with
  | nil => rfl
  | cons entry rest ih =>
    cases rest with
    | nil => exact hentry entry
    | cons entry' rest =>
      change (Expr.codeOfEntry entry ++ "," ++ Expr.codeOfEntries (entry' :: rest)).toList = _
      rw [String.toList_append, String.toList_append, ih, hentry]
      simp [commaSeparated]

lemma rereads_object {entries : List (Entry Expr)}
    (hkeys : ∀ entry ∈ entries, entry.key.IsSpelled)
    (h : ∀ c ∈ (Expr.object entries).children, Rereads c) : Rereads (.object entries) := by
  have hreads : ∀ member ∈ entries.map memberOf, member.Reads := by
    intro member hmember
    obtain ⟨entry, hentry, rfl⟩ := List.mem_map.1 hmember
    have hchildren : ∀ c ∈ entry.children, Rereads c :=
      fun c hc => h c (List.mem_flatMap.2 ⟨entry, hentry, hc⟩)
    rw [Entry.children, List.forall_mem_append, List.forall_mem_singleton] at hchildren
    exact ⟨reads_key (hkeys entry hentry) hchildren.1, hchildren.2.group⟩
  refine rereads_of_operand (readsGroup_object hreads).paren ?_ ?_ ?_ rfl
  · rw [← codeOfEntries_eq]
    simp [Expr.code_object]
  · rw [Expr.surface_object, List.map_map]
    rfl
  · rw [clean_node_iff rfl rfl]
    simp only [Expr.children, List.mem_flatMap, List.forall_mem_map, Entry.children,
      List.mem_append, List.mem_singleton, memberOf]
    constructor
    · intro hall entry hentry
      exact ⟨fun c hc => hall c ⟨entry, hentry, .inl hc⟩, hall _ ⟨entry, hentry, .inr rfl⟩⟩
    · rintro hall c ⟨entry, hentry, hc | rfl⟩
      · exact (hall entry hentry).1 c hc
      · exact (hall entry hentry).2

/-- What is known of a hole of a template. -/
def partOf (part : Expr × String) : Part where
  text := part.1.code
  expr := part.1.surface
  ok := part.1.Clean
  after := part.2

lemma codeOfParts_eq (parts : List (Expr × String)) :
    (Expr.codeOfParts parts).toList = Token.weave ((parts.map partOf).map fun part =>
      (part.text.toList, part.after.toList)) := by
  induction parts with
  | nil => rfl
  | cons part parts ih =>
    obtain ⟨e, after⟩ := part
    change ("$\x7b" ++ e.code ++ "\x7d" ++ after ++ Expr.codeOfParts parts).toList = _
    rw [String.toList_append, ih]
    simp [Token.weave, partOf]

lemma rereads_template {head : String} {parts : List (Expr × String)}
    (hhead : Token.Chunk head.toList) (hparts : ∀ part ∈ parts, Token.Chunk part.2.toList)
    (h : ∀ part ∈ parts, Rereads part.1) : Rereads (.template head parts) := by
  have hreads : ∀ part ∈ parts.map partOf,
      ReadsGroup part.text.toList part.expr part.ok ∧ Token.Chunk part.after.toList := by
    rw [List.forall_mem_map]
    exact fun part hpart => ⟨(h part hpart).group, hparts part hpart⟩
  refine rereads_of_operand (readsOperand_template hhead hreads) ?_ ?_ ?_ rfl
  · rw [← codeOfParts_eq]
    simp [Expr.code_template]
  · rw [Expr.surface_template, List.map_map]
    rfl
  · rw [clean_node_iff rfl rfl, Expr.children, List.forall_mem_map, List.forall_mem_map]
    rfl

lemma rereads_of_group (h : ReadsGroup text e' ok)
    (htext : e.code.toList = '(' :: (text ++ [')']))
    (hsurface : e.surface = e') (hclean : e.Clean ↔ ok) (hdefined : e.isUndefined = false) :
    Rereads e :=
  rereads_of_operand h.paren htext hsurface hclean hdefined

lemma rereads_unary (h : Rereads a) (op : UnaryOp) : Rereads (.unary op a) := by
  refine rereads_of_group (h.simple.unary op) ?_ (surface_eq _) ?_ rfl
  · cases op <;> simp [Expr.code_unary, spacedUnary, UnaryOp.isWord]
  · rw [clean_node_iff rfl rfl]
    simp [Expr.children]

lemma rereads_update (h : Rereads a) (htarget : isTarget a) (op : UpdateOp) (before : Bool) :
    Rereads (.update op before a) := by
  have hwrap : a.wrapsAsOwner = false := by
    cases a <;> first | rfl | cases htarget
  have hclean : (Expr.update op before a).Clean ↔ a.Clean := by
    rw [clean_node_iff rfl rfl]
    simp [Expr.children]
  cases before with
  | true =>
    refine rereads_of_group (h.simple.update op) ?_ (surface_eq _) hclean rfl
    simp [Expr.code_update]
  | false =>
    refine rereads_of_group ((h.operand hwrap).updated op) ?_ (surface_eq _) hclean rfl
    simp [Expr.code_update]

lemma rereads_binary (h : Rereads a) (h' : Rereads b) (op : BinaryOp) :
    Rereads (.binary op a b) := by
  have htext : (Expr.binary op a b).code.toList =
      '(' :: (a.code.toList ++ (spacedBinary op ++ b.code.toList) ++ [')']) := by
    cases op <;> simp [Expr.code_binary, spacedBinary, BinaryOp.isWord]
  have hchildren : (∀ c ∈ (Expr.binary op a b).children, c.Clean) ↔ a.Clean ∧ b.Clean := by
    simp [Expr.children]
  obtain ⟨token, hinfixOp, ⟨rfl, rfl⟩ | ⟨hop, strength, hstrength, htoken⟩⟩ := readsInfix_binary op
  · refine rereads_of_group (h.simple.power h'.simple hinfixOp) htext (surface_eq _) ?_ rfl
    rw [clean_iff, hchildren]
    change (_ ∧ a.isUndefined = false) ∧ _ ↔ _
    tauto
  · refine rereads_of_group (h.simple.infixed h'.simple hinfixOp htoken hstrength) htext
      (surface_eq _) ?_ rfl
    have hpower : (Expr.binary op a b).raisesUndefined = false := by
      cases op <;> first | rfl | exact absurd rfl hop
    rw [clean_node_iff rfl hpower, hchildren]

lemma rereads_logical (h : Rereads a) (h' : Rereads b) (op : LogicalOp) :
    Rereads (.logical op a b) := by
  obtain ⟨token, hinfixOp, strength, hstrength, htoken⟩ := readsInfix_logical op
  refine rereads_of_group (h.simple.infixed h'.simple hinfixOp htoken hstrength) ?_
    (surface_eq _) ?_ rfl
  · simp [Expr.code_logical]
  · rw [clean_node_iff rfl rfl]
    simp [Expr.children]

lemma rereads_assign (h : Rereads a) (h' : Rereads b) (htarget : isTarget a) (op : AssignOp) :
    Rereads (.assign op a b) := by
  have htarget' : isTarget a.surface := by
    rw [surface_eq]
    cases a <;> first | rfl | cases htarget
  refine rereads_of_group (h.simple.assign h'.simple op htarget') ?_ (surface_eq _) ?_ rfl
  · simp [Expr.code_assign]
  · rw [clean_node_iff rfl rfl]
    simp [Expr.children]

/-- Only the code of a number begins with a point. -/
lemma Rereads.head?_code (h : Rereads b) (a c : Expr) :
    b.code.toList.head? ≠ some '.' ↔ (Expr.conditional a b c).isPointed = false := by
  by_cases hwrap : b.wrapsAsOwner = false
  · refine iff_of_true (h.operand hwrap).opens.2 ?_
    cases b with
    | literal value => cases value <;> first | rfl | cases hwrap
    | _ => rfl
  · cases b with
    | literal value =>
      cases value with
      | number value raw =>
        change raw.toList.head? ≠ some '.' ↔ (raw.toList.head? == some '.') = false
        simp
      | _ => exact absurd rfl hwrap
    | constant value =>
      refine iff_of_true ?_ rfl
      cases value <;> decide
    | _ => exact absurd rfl hwrap

lemma rereads_conditional (h : Rereads a) (h' : Rereads b) (h'' : Rereads c) :
    Rereads (.conditional a b c) := by
  refine rereads_of_group (h.simple.choice h'.simple h''.simple) ?_ (surface_eq _) ?_ rfl
  · simp [Expr.code_conditional]
  · rw [clean_iff, h'.head?_code a c]
    have hpower : (Expr.conditional a b c).raisesUndefined = false := rfl
    simp only [Expr.children, List.forall_mem_cons, List.not_mem_nil]
    tauto

lemma clean_of_leaf (hchildren : e.children = []) (hpoint : e.isPointed = false)
    (hpower : e.raisesUndefined = false) : e.Clean ↔ True := by
  rw [clean_node_iff hpoint hpower, hchildren]
  simp

lemma rereads_identifier {name : String} (h : isName name) : Rereads (.identifier name) :=
  rereads_of_operand (readsOperand_identifier h) rfl (surface_eq _)
    (clean_of_leaf rfl rfl rfl) rfl

lemma rereads_literal {value : Literal} (h : (Expr.literal value).IsLegible) :
    Rereads (.literal value) := by
  have hclean : (Expr.literal value).Clean ↔ True := clean_of_leaf rfl rfl rfl
  cases value with
  | number value raw =>
    refine ⟨fun hwrap => (by cases hwrap), ?_⟩
    rw [propext hclean, surface_eq]
    exact readsSimple_number h
  | string value raw =>
    exact rereads_of_operand (readsOperand_string h) rfl (surface_eq _) hclean rfl
  | boolean value =>
    exact rereads_of_operand (readsOperand_boolean value) rfl (surface_eq _) hclean rfl
  | null => exact rereads_of_operand readsOperand_null rfl (surface_eq _) hclean rfl

/-- A canonical node whose code is also the code of a written node. -/
lemma Rereads.respell (h : Rereads e') (hwrap : e'.wrapsAsOwner = false)
    (hcode : e.code = e'.code) (hsurface : e.surface = e'.surface) (hclean : e.Clean ↔ e'.Clean)
    (hdefined : e.isUndefined = false) : Rereads e :=
  rereads_of_operand (h.operand hwrap) (by rw [hcode]) hsurface hclean hdefined

lemma rereads_fnCall {name : String} {es : List Expr} (hname : isWord name)
    (h : ∀ e ∈ es, Rereads e) : Rereads (.fnCall name es) ∧ Rereads (.opCall name es) := by
  have hcall : Rereads (.call (.member (.identifier Code.functions) name) es) :=
    rereads_call (rereads_member (rereads_identifier (by decide)) hname) rfl h
  have hclean : (Expr.call (.member (.identifier Code.functions) name) es).Clean ↔
      ∀ e ∈ es, e.Clean := by
    have howner : (Expr.member (.identifier Code.functions) name).Clean := by
      simp [Clean, Expr.subterms, Expr.isPointed, Expr.raisesUndefined]
    rw [clean_node_iff rfl rfl, Expr.children, List.forall_mem_cons, and_iff_right howner]
  constructor
  all_goals
    refine hcall.respell rfl ?_ ?_ ?_ rfl
    · rfl
    · rw [surface_eq, Expr.surface_call, Expr.surface_member, Expr.surface_identifier]
      rfl
    · rw [hclean, clean_node_iff rfl rfl]
      rfl

lemma isWord_of_isPlainName {name : String} (h : Code.isPlainName name) : isWord name := by
  have halpha : ∀ c : Char, c.isAlpha → Text.isAlphabetic c := by
    intro c hc
    refine Token.alphabeticRanges_letters ?_
    simpa [Char.isAlpha, Char.isUpper, Char.isLower, UInt32.le_iff_toNat_le] using hc
  have hdigit : ∀ c : Char, c.isDigit → Token.isNamePart c := by
    intro c hc
    refine Token.isNamePart_of_isDigit ?_
    rwa [Number.isDigit_eq]
  unfold Code.isPlainName at h
  unfold isWord
  cases hname : name.toList with
  | nil =>
    rw [hname] at h
    cases h
  | cons c r =>
    rw [hname] at h
    simp only [Bool.and_eq_true, List.all_eq_true] at h ⊢
    refine ⟨?_, fun d hd => ?_⟩
    · have hc := h.1
      simp only [Code.isPlainStart, Bool.or_eq_true] at hc
      simp only [Token.isNameStart, Bool.or_eq_true]
      exact hc.imp_left (Or.imp_left (halpha c))
    · have hd := h.2 d hd
      simp only [Code.isPlainPart, Char.isAlphanum, Bool.or_eq_true] at hd
      rcases hd with ((hd | hd) | hd) | hd
      · exact Token.isNamePart_of_isNameStart (by simp [Token.isNameStart, halpha d hd])
      · exact hdigit d hd
      · simp [Token.isNamePart, hd]
      · simp [Token.isNamePart, hd]

lemma rereads_column (name : String) : Rereads (.column name) := by
  have howner : Rereads (Expr.columnOwner name) := by
    unfold Expr.columnOwner
    split
    case isTrue hplain =>
      exact rereads_member (rereads_identifier (by decide)) (isWord_of_isPlainName hplain)
    case isFalse =>
      exact rereads_index (rereads_identifier (by decide))
        (rereads_literal (Token.stringText_jsonQuote name))
  have hcall :
      Rereads (.call (.member (Expr.columnOwner name) "get") [.identifier Code.rowParam]) :=
    rereads_call (rereads_member howner (by decide)) rfl
      (by simpa using rereads_identifier (by decide))
  refine hcall.respell rfl ?_ ?_ ?_ rfl
  · apply String.toList_inj.1
    change (Code.column name).toList = _
    unfold Expr.columnOwner Code.column
    split
    case isTrue =>
      change _ = (Code.dataParam ++ "." ++ name ++ "." ++ "get" ++ "(" ++ Code.rowParam ++
        ")").toList
      simp
    case isFalse =>
      change _ = (Code.dataParam ++ "[" ++ String.ofList (Text.jsonQuote name.toList) ++ "]" ++
        "." ++ "get" ++ "(" ++ Code.rowParam ++ ")").toList
      simp
  · rw [surface_eq]
    change Expr.call (.member (Expr.columnOwner name) "get") [.identifier Code.rowParam] = _
    unfold Expr.columnOwner
    split <;> simp
  · rw [clean_of_leaf rfl rfl rfl]
    unfold Expr.columnOwner
    split <;> simp [Clean, Expr.subterms, Expr.subtermsOfList, Expr.isPointed, Expr.raisesUndefined]

lemma rereads_opRef (id : Nat) : Rereads (.opRef id) := by
  have hindex : Rereads (.index (.identifier Code.opParam)
      (.literal (.number (Number.ofInt id) (toString id)))) :=
    rereads_index (rereads_identifier (by decide)) (rereads_literal (Token.numberText_toString id))
  refine hindex.respell rfl ?_ ?_ ?_ rfl
  · rfl
  · rw [surface_eq, Expr.surface_index, Expr.surface_identifier, Expr.surface_literal]
    rfl
  · rw [clean_of_leaf rfl rfl rfl]
    simp [Clean, Expr.subterms, Expr.isPointed, Expr.raisesUndefined]

/-- The code of `undefined` begins with an operator. -/
lemma readsSimple_undefined :
    ReadsSimple Constant.undefined.code.toList Constant.undefined.surface True true := by
  have hzero : ReadsOperand ('(' :: ("0".toList ++ [')']))
      (.literal (.number (Number.ofInt 0) "0")) True :=
    (readsSimple_number (Token.numberText_toString 0)).group.paren
  have hword : isWord "void" := by decide
  have htext : Constant.undefined.code.toList =
      "void".toList ++ '(' :: ("0".toList ++ [')']) := rfl
  have hvoid : ∀ stop rest,
      (TokenRun.scan stop (Constant.undefined.code.toList ++ rest)).Starts (.keyword .void)
        (TokenRun.scan stop ('(' :: ("0".toList ++ [')']) ++ rest)) := by
    intro stop rest
    rw [htext, List.append_assoc]
    exact TokenRun.starts_word hword (stopsWord_cons (by decide) _)
  refine ⟨?_, ?_, ?_, ?_⟩
  · exact (Token.opens_of_isWord hword).1.append _
  · rw [htext]
    exact (Token.skips_of_isWord hword).append hzero.skips
  · exact fun stop rest _ => ⟨_, _, hvoid stop rest, .inr ⟨rfl, rfl⟩⟩
  · intro stop rest ending hrest hfront hending
    exact readsIff_unary (hvoid stop rest) rfl (hzero.simple.reached hrest stop)
      (hzero.simple.reads hrest hfront) hending

lemma rereads_constant (value : Constant) : Rereads (.constant value) := by
  have hclean : (Expr.constant value).Clean ↔ True := clean_of_leaf rfl rfl rfl
  have hmember : ∀ owner name : String, isName owner → isWord name →
      value.surface = .member (.identifier owner) name → value.code = owner ++ "." ++ name →
      (Expr.constant value).isUndefined = false → Rereads (.constant value) := by
    intro owner name howner hname hsurface hcode hdefined
    refine (rereads_member (rereads_identifier howner) hname).respell rfl ?_ ?_ ?_ hdefined
    · exact hcode
    · rw [surface_eq, Expr.surface_member, Expr.surface_identifier, ← hsurface]
      rfl
    · rw [hclean]
      simp [Clean, Expr.subterms, Expr.isPointed, Expr.raisesUndefined]
  cases value with
  | undefined =>
    refine ⟨fun hwrap => (by cases hwrap), ?_⟩
    rw [propext hclean, surface_eq]
    exact readsSimple_undefined
  | infinity => exact hmember "Number" "POSITIVE_INFINITY" (by decide) (by decide) rfl rfl rfl
  | notANumber => exact hmember "Number" "NaN" (by decide) (by decide) rfl rfl rfl
  | _ => exact hmember "Math" _ (by decide) (by decide) rfl rfl rfl

end Nodes

/-- The code of a legible expression is read as its surface form, if it is clean; otherwise it is
not read at all. -/
theorem rereads_of_legible (e : Expr) (h : e.Legible) : Rereads e := by
  induction e using Expr.parts_induction with
  | node e ih =>
    obtain ⟨hnode, hparts⟩ := (Expr.forall_subterms_iff e).1 h
    have hchildren : ∀ c ∈ e.children, Rereads c := fun c hc => ih c hc (hparts c hc)
    cases e with
    | literal value => exact rereads_literal hnode
    | array items => exact rereads_array hchildren
    | object entries => exact rereads_object hnode hchildren
    | template head parts =>
      exact rereads_template hnode.1 hnode.2
        fun part hpart => hchildren _ (List.mem_map_of_mem hpart)
    | identifier name => exact rereads_identifier hnode
    | this => exact hnode.elim
    | member owner name => exact rereads_member (hchildren owner (by simp [Expr.children])) hnode
    | index owner key =>
      exact rereads_index (hchildren owner (by simp [Expr.children]))
        (hchildren key (by simp [Expr.children]))
    | call callee args =>
      exact rereads_call (hchildren callee (by simp [Expr.children])) hnode
        fun arg harg => hchildren arg (List.mem_cons_of_mem _ harg)
    | new callee args => exact hnode.elim
    | unary op argument => exact rereads_unary (hchildren argument (by simp [Expr.children])) op
    | update op before argument =>
      exact rereads_update (hchildren argument (by simp [Expr.children])) hnode op before
    | binary op left right =>
      exact rereads_binary (hchildren left (by simp [Expr.children]))
        (hchildren right (by simp [Expr.children])) op
    | logical op left right =>
      exact rereads_logical (hchildren left (by simp [Expr.children]))
        (hchildren right (by simp [Expr.children])) op
    | conditional test yes no =>
      exact rereads_conditional (hchildren test (by simp [Expr.children]))
        (hchildren yes (by simp [Expr.children])) (hchildren no (by simp [Expr.children]))
    | assign op target value =>
      exact rereads_assign (hchildren target (by simp [Expr.children]))
        (hchildren value (by simp [Expr.children])) hnode op
    | column name => exact rereads_column name
    | constant value => exact rereads_constant value
    | opCall name args => exact (rereads_fnCall hnode hchildren).2
    | opRef id => exact rereads_opRef id
    | fnCall name args => exact (rereads_fnCall hnode hchildren).1

end Grammar

end RowExpr
