/-
# Members under an index

The items of an array and the units of a text have the whole numbers as keys.  A key is any value,
and what counts is its text: the text is read as a number, and the number as an index.  The text of
an index has one canonical form, its digits, but more texts than that are read as the index: those
with zeros or a plus in front.

* `Value.indexOf?_eq_some_iff`: the texts that are read as an index;
* `Value.indexed_member`: the member of a value under any key;
* `Expr.fold_access_indexed`: the same of member accesses in constant expressions.
-/
import RowExpr.Proofs.Expr.Branches
import RowExpr.Proofs.Number.Digits

namespace RowExpr

namespace Value

/-! ## Texts of an index -/

/-- The text is a decimal numeral of the number, perhaps with zeros and a plus in front. -/
def IsNumeralOf (name : String) (i : ℕ) : Prop :=
  ∃ sign count, (sign = "" ∨ sign = "+") ∧ name = sign ++ Number.zeros count ++ toString i

/-- The text is the canonical decimal numeral of the number: its digits alone. -/
def IsCanonicalOf (name : String) (i : ℕ) : Prop := name = toString i

lemma IsCanonicalOf.isNumeralOf {name : String} {i : ℕ} (h : IsCanonicalOf name i) :
    IsNumeralOf name i :=
  ⟨"", 0, .inl rfl, h⟩

lemma toList_numeral (sign : String) (count i : ℕ) :
    (sign ++ Number.zeros count ++ toString i).toList =
      sign.toList ++ (List.replicate count '0' ++ Nat.toDigits 10 i) := by
  simp [Number.zeros]

/-- The texts that are read as an index are its numerals. -/
theorem indexOf?_eq_some_iff {name : String} {i : ℕ} :
    indexOf? name = some i ↔ IsNumeralOf name i := by
  constructor
  · intro h
    unfold indexOf? at h
    split at h
    case h_1 digits hname =>
      obtain ⟨count, rfl⟩ := Number.readDigits?_eq_some_iff.mp h
      exact ⟨"+", count, .inr rfl, String.toList_injective (by rw [hname, toList_numeral]; rfl)⟩
    case h_2 =>
      obtain ⟨count, hname⟩ := Number.readDigits?_eq_some_iff.mp h
      exact ⟨"", count, .inl rfl, String.toList_injective (by rw [hname, toList_numeral]; rfl)⟩
  · rintro ⟨sign, count, hsign, rfl⟩
    have hread := Number.readDigits?_eq_some_iff.mpr
      ⟨count, (rfl : List.replicate count '0' ++ Nat.toDigits 10 i = _)⟩
    unfold indexOf?
    rw [toList_numeral]
    rcases hsign with rfl | rfl
    · split
      case h_1 digits hplus =>
        -- a row of digits does not begin with a plus
        have hmem : '+' ∈ List.replicate count '0' ++ Nat.toDigits 10 i := by
          rw [← List.nil_append (List.replicate count '0' ++ Nat.toDigits 10 i)]
          exact hplus ▸ List.mem_cons_self
        rw [Number.readDigits?] at hread
        split_ifs at hread with hall
        simp only [Bool.and_eq_true, List.all_eq_true] at hall
        exact absurd (hall.2 '+' hmem) (by decide)
      case h_2 => exact hread
    · exact hread

/-! ## Members -/

/-- The values that a value has under an index: the items of an array, and the units of a text.  A
unit is a text by itself, and half of a pair is `U+FFFD`. -/
def elements? : Value → Option (List Value)
  | array items => some items
  | string s => some ((Text.units s.toList).map fun unit =>
      string (String.singleton (Text.charOfUnit unit)))
  | _ => none

/-- The value is what a name stands for if it may be `length` or the numeral of an index, for the
given notion of a numeral. -/
structure Indexed (numeral : String → ℕ → Prop) (items : List Value) (name : String)
    (v : Value) : Prop where
  length : name = "length" → v = number (Number.ofInt items.length)
  item : ∀ i w, items[i]? = some w → numeral name i → v = w
  missing : name ≠ "length" → (∀ i < items.length, ¬ numeral name i) → v = undefined

/-- Only the numerals of the indices below the length matter. -/
lemma Indexed.of_numerals {numeral numeral' : String → ℕ → Prop} {items : List Value}
    {name : String} {v : Value} (h : Indexed numeral items name v)
    (hsame : ∀ i < items.length, numeral name i ↔ numeral' name i) :
    Indexed numeral' items name v where
  length := h.length
  item i w hw hname :=
    h.item i w hw ((hsame i (List.getElem?_eq_some_iff.mp hw).1).mpr hname)
  missing hlength hnone :=
    h.missing hlength fun i hi hname => hnone i hi ((hsame i hi).mp hname)

lemma member_of_elements {v : Value} {items : List Value} (h : v.elements? = some items)
    (key : Value) :
    v.member key =
      if key.toText = "length" then number (Number.ofInt items.length)
      else ((indexOf? key.toText).bind (items[·]?)).getD undefined := by
  cases v with
  | array items' =>
    cases h
    rfl
  | string s =>
    cases h
    simp only [member, List.length_map, List.getElem?_map]
    cases indexOf? key.toText with
    | none => rfl
    | some i =>
      simp only [Option.bind_some]
      cases (Text.units s.toList)[i]? <;> rfl
  | undefined | null | boolean _ | number _ | object _ => cases h

/-- The member of an array or of a text under any key follows the numerals of the indices. -/
theorem indexed_member {v : Value} {items : List Value} (h : v.elements? = some items)
    (key : Value) : Indexed IsNumeralOf items key.toText (v.member key) := by
  rw [member_of_elements h]
  refine ⟨fun hlength => if_pos hlength, fun i w hw hname => ?_, fun hlength hnone => ?_⟩
  · have hindex := indexOf?_eq_some_iff.mpr hname
    have hlength : key.toText ≠ "length" := by
      intro hlength
      rw [hlength] at hindex
      exact absurd hindex (by simp [indexOf?, Number.readDigits?, Number.isDigitOf,
        Number.digitValue])
    rw [if_neg hlength, hindex, Option.bind_some, hw, Option.getD_some]
  · rw [if_neg hlength]
    cases hindex : indexOf? key.toText with
    | none => rfl
    | some i =>
      have hout : items[i]? = none := by
        rw [List.getElem?_eq_none_iff]
        by_contra hi
        exact hnone i (by omega) (indexOf?_eq_some_iff.mp hindex)
      rw [Option.bind_some, hout, Option.getD_none]

end Value

/-! ## Member accesses -/

namespace Expr

open RowExpr.Value (Indexed IsNumeralOf IsCanonicalOf)

variable {registry : Registry}

/-- The expression is an access to a member of `owner`, under a constant key with the given text. -/
inductive Accesses (registry : Registry) (owner : Expr) : Expr → String → Prop
  | named (name : String) : Accesses registry owner (member owner name) name
  | computed {key : Expr} {k : Value} (hkey : key.fold registry = .ok k) :
    Accesses registry owner (index owner key) k.toText

/-- An access to a constant is folded to the member of the constant. -/
lemma fold_access {owner access : Expr} {name : String} {v : Value}
    (howner : owner.fold registry = .ok v) (haccess : Accesses registry owner access name) :
    ∃ key : Value, key.toText = name ∧ access.fold registry = .ok (v.member key) := by
  obtain ⟨hconstant, howner⟩ := fold_eq_ok_iff_eval.mp howner
  cases haccess with
  | named =>
    refine ⟨.string name, rfl, fold_eq_ok_iff_eval.mpr ⟨?_, ?_⟩⟩
    · exact forall_within_iff.mpr ⟨id, List.forall_mem_singleton.mpr hconstant⟩
    · rw [eval, howner]
      rfl
  | @computed key k hkey =>
    obtain ⟨hkeyConstant, hkey⟩ := fold_eq_ok_iff_eval.mp hkey
    refine ⟨k, rfl, fold_eq_ok_iff_eval.mpr ⟨?_, ?_⟩⟩
    · refine forall_within_iff.mpr ⟨id, List.forall_mem_cons.mpr ⟨hconstant, ?_⟩⟩
      exact List.forall_mem_singleton.mpr hkeyConstant
    · rw [eval, howner, hkey]
      rfl

/-- A member access to a constant array or text is folded to the length, to the element under the
index that the text of the key is a numeral of, or else to `undefined`.  So it follows the canonical
numerals alone, unless the text of the key is another numeral of an index below the length. -/
theorem fold_access_indexed {owner access : Expr} {name : String} {v : Value} {items : List Value}
    (howner : owner.fold registry = .ok v) (hitems : v.elements? = some items)
    (haccess : Accesses registry owner access name) :
    ∃ w, access.fold registry = .ok w ∧ Indexed IsNumeralOf items name w ∧
      ((∀ i < items.length, IsNumeralOf name i → IsCanonicalOf name i) →
        Indexed IsCanonicalOf items name w) := by
  obtain ⟨key, rfl, hfold⟩ := fold_access howner haccess
  have hindexed := Value.indexed_member hitems key
  refine ⟨_, hfold, hindexed, fun hcanonical => hindexed.of_numerals fun i hi => ?_⟩
  exact ⟨hcanonical i hi, IsCanonicalOf.isNumeralOf⟩

/-- The second half of a pair of units, under an array with a text as key. -/
theorem fold_access_indexed_secondHalf :
    ∃ owner key : Expr,
      owner.fold .standard = .ok (.string "a😀") ∧ key.fold .standard = .ok (.array [.string "2"]) ∧
      (index owner key).fold .standard = .ok (.string "\uFFFD") := by
  have howner : (literal (.string "a😀" "'a😀'")).fold .standard = .ok (.string "a😀") := rfl
  have hkey : (array [literal (.string "2" "'2'")]).fold .standard =
      .ok (.array [.string "2"]) := rfl
  obtain ⟨w, hfold, hindexed, _⟩ := fold_access_indexed howner rfl (.computed hkey)
  have hitem : w = .string "\uFFFD" := hindexed.item 2 _ rfl ⟨"", 0, .inl rfl, rfl⟩
  exact ⟨_, _, howner, hkey, hitem ▸ hfold⟩

/-- The item of an array, under a key that is not the canonical numeral of an index. -/
def signedAccess : Expr := index (array [literal .null]) (literal (.string "+0" "'+0'"))

theorem not_indexed_signedAccess :
    RowFunction.parse "d=>[null]['+0']" = .ok ⟨some "d", .expr signedAccess⟩ ∧
      (RowFunction.canonical ⟨some "d", .expr signedAccess⟩ "op").body = .expr signedAccess ∧
      signedAccess.fold .standard = .ok .null ∧
      ¬ Indexed IsCanonicalOf [.null] "+0" .null := by
  have hparse : RowFunction.parse "d=>[null]['+0']" = .ok ⟨some "d", .expr signedAccess⟩ := by
    unfold RowFunction.parse
    conv in TokenRun.ofText _ _ => cbv
    cbv
  refine ⟨hparse, rfl, rfl, fun h => ?_⟩
  have hnone : ∀ i < 1, ¬ IsCanonicalOf "+0" i := by
    rintro i hi hname
    obtain rfl : i = 0 := by omega
    have hdigits : "+0" ≠ toString 0 := by decide
    exact hdigits hname
  cases h.missing (by decide) hnone

end Expr

end RowExpr
