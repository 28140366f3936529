/-
# Arrays as numbers

Arithmetic converts an array to a number item by item: an array of one item is the number of that
item.  Comparison first makes a text of the array and then converts the text.  The two ways meet
again for almost all arrays, because the text of a number is converted to the number, and because a
text with a comma in it is no number.  They part where arrays of one item end at a boolean or at
`undefined`: such an item is a number of its own, but its text is another one or none.

* `sameNumber_iff`: the values whose text is converted to their number;
* `comparesAs_iff`: an array compares as a number if its text is converted to that number;
* `array_converts_as_text_iff`: the arrays that compare as the number they compute as.
-/
import RowExpr.Proofs.Number.RoundTrip
import RowExpr.Value.Operator

namespace RowExpr.Number

open Float.Model Float.Model.UnpackedFloat

/-! ## Numbers that are the same -/

lemma isNaN_iff {x : Float} : x.isNaN = true ↔ x = Float.nan := by
  rw [Float.isNaN_eq_decide_eq_nan, decide_eq_true_eq]

/-- Numbers that are the same differ in the sign of zero at most. -/
lemma SameNumber.cases {x y : Float} (h : SameNumber x y) :
    x = y ∨ x = 0 ∧ y = -0 ∨ x = -0 ∧ y = 0 := by
  rcases h with heq | ⟨hx, hy⟩
  · exact (Float.beq_iff_ne_nan_and_eq.mp heq).2.2
  · exact .inl ((isNaN_iff.mp hx).trans (isNaN_iff.mp hy).symm)

lemma SameNumber.symm {x y : Float} (h : SameNumber x y) : SameNumber y x := by
  rcases h.cases with rfl | ⟨rfl, rfl⟩ | ⟨rfl, rfl⟩
  · exact h
  · exact .inl (by decide)
  · exact .inl (by decide)

lemma lt_iff (x y : Float) :
    x < y ↔ x.toModel.unpack.compare y.toModel.unpack = some .lt := by
  change Float.lt x y = true ↔ _
  rw [Float.lt, decide_eq_true_eq]
  change (x.toModel.unpack.compare y.toModel.unpack == some Ordering.lt) = true ↔ _
  rw [beq_iff_eq]

/-- The order does not see the sign of zero. -/
lemma compare_zero (sign sign' : UnpackedFloat.Sign) (y : UnpackedFloat) :
    (zero sign).compare y = (zero sign').compare y ∧
      y.compare (zero sign) = y.compare (zero sign') := by
  cases y with
  | infinity s => cases s <;> exact ⟨rfl, rfl⟩
  | notANumber => exact ⟨rfl, rfl⟩
  | zero s => exact ⟨rfl, rfl⟩
  | finite s _ _ _ => cases s <;> exact ⟨rfl, rfl⟩

/-- Numbers that are the same compare alike. -/
lemma SameNumber.compare_eq {x x' : Float} (h : SameNumber x x') (y : UnpackedFloat) :
    x.toModel.unpack.compare y = x'.toModel.unpack.compare y ∧
      y.compare x.toModel.unpack = y.compare x'.toModel.unpack := by
  have hzero : (0 : Float).toModel.unpack = zero .positive := rfl
  have hneg : (-0 : Float).toModel.unpack = zero .negative := rfl
  rcases h.cases with rfl | ⟨rfl, rfl⟩ | ⟨rfl, rfl⟩
  · exact ⟨rfl, rfl⟩
  · rw [hzero, hneg]
    exact compare_zero _ _ y
  · rw [hzero, hneg]
    exact compare_zero _ _ y

lemma SameNumber.beq_eq {x x' : Float} (h : SameNumber x x') (y : Float) :
    (x == y) = (x' == y) ∧ (y == x) = (y == x') := by
  have hbeq : ∀ a b : Float,
      (a == b) = (a.toModel.unpack.compare b.toModel.unpack == some Ordering.eq) := fun _ _ => rfl
  obtain ⟨hleft, hright⟩ := h.compare_eq y.toModel.unpack
  rw [hbeq, hbeq, hbeq, hbeq, hleft, hright]
  exact ⟨rfl, rfl⟩

lemma SameNumber.compareNumbers_eq {x x' : Float} (h : SameNumber x x') (y : Float) :
    Value.compareNumbers x y = Value.compareNumbers x' y ∧
      Value.compareNumbers y x = Value.compareNumbers y x' := by
  obtain ⟨hleft, hright⟩ := h.compare_eq y.toModel.unpack
  obtain ⟨hbeq, hbeq'⟩ := h.beq_eq y
  simp only [Value.compareNumbers, lt_iff, hleft, hright, hbeq, hbeq', and_self]

/-- A number is told apart from all others by what it is equal to. -/
lemma sameNumber_of_beq {x x' : Float} (h : ∀ y : Float, (x == y) = (x' == y)) :
    SameNumber x x' := by
  by_cases hnan : x' = Float.nan
  · rw [SameNumber, isNaN_iff, isNaN_iff]
    refine .inr ⟨?_, hnan⟩
    by_contra hx
    have hself := (h x).symm.trans (Float.beq_self_iff.mpr hx)
    rw [hnan, Float.nan_beq_eq_false] at hself
    exact Bool.noConfusion hself
  · exact .inl ((h x').trans (Float.beq_self_iff.mpr hnan))

end RowExpr.Number

namespace RowExpr.Value

open RowExpr.Number (SameNumber)

/-! ## The two ways to a number -/

/-- What is found when arrays of one item are opened, one after the other. -/
def innermost : Value → Value
  | array [item] => innermost item
  | v => v

lemma toText_singleton (item : Value) :
    (array [item]).toText = if item.isNullish then "" else item.toText := by
  simp only [toText, textOfItems]

lemma isNaN_ofText_many (a b : Value) (rest : List Value) :
    (Number.ofText (array (a :: b :: rest)).toText).isNaN = true := by
  have htext : (array (a :: b :: rest)).toText =
      (if a.isNullish then "" else a.toText) ++ "," ++ textOfItems (b :: rest) := by
    simp only [toText, textOfItems]
  refine Number.isNaN_ofText_of_mem (c := ',') ?_ (by decide) (by decide) (by decide)
  rw [htext]
  simp

/-- The number of a value is that of its text, a missing value having none, unless arrays of one
item end at a boolean or at `undefined`. -/
theorem sameNumber_iff (v : Value) :
    SameNumber v.toNumber (Number.ofText (if v.isNullish then "" else v.toText)) ↔
      v.innermost ≠ undefined ∧ ∀ b, v.innermost ≠ boolean b := by
  have hnan : Number.nan.isNaN = true := by decide
  induction v using innermost.induct with
  | case1 item ih =>
    rw [innermost, toNumber, if_neg (by simp [isNullish]), toText_singleton]
    exact ih
  | case2 v hv =>
    cases v with
    | undefined =>
      -- the text of a missing item is empty, and an empty text is zero
      refine iff_of_false ?_ fun h => h.1 rfl
      rintro (h | h) <;> exact absurd h (by decide)
    | null => exact iff_of_true (.inl (by decide)) ⟨nofun, nofun⟩
    | boolean b =>
      refine iff_of_false ?_ fun h => h.2 b rfl
      cases b <;> rintro (h | h) <;> exact absurd h (by decide)
    | number x =>
      exact iff_of_true (Number.sameNumber_ofText_format x).symm ⟨nofun, nofun⟩
    | string s => exact iff_of_true (Number.sameNumber_refl _) ⟨nofun, nofun⟩
    | object members =>
      have htext : (Number.ofText "[object Object]").isNaN = true :=
        Number.isNaN_ofText_of_mem (c := '[') (by decide) (by decide) (by decide) (by decide)
      exact iff_of_true (.inr ⟨hnan, htext⟩) ⟨nofun, nofun⟩
    | array items =>
      match items, hv with
      | [], _ => exact iff_of_true (.inl (by decide)) ⟨nofun, nofun⟩
      | [item], hv => exact absurd rfl (hv item)
      | a :: b :: rest, _ =>
        exact iff_of_true (.inr ⟨hnan, isNaN_ofText_many a b rest⟩) ⟨nofun, nofun⟩

/-! ## Comparison -/

/-- The value compares with all numbers as the number does. -/
def ComparesAs (v : Value) (x : Float) : Prop :=
  ∀ y, looseEqual v (number y) = (x == y) ∧ looseEqual (number y) v = (y == x) ∧
    order v (number y) = compareNumbers x y ∧ order (number y) v = compareNumbers y x

/-- An array compares as the number of its text. -/
lemma comparesAs_iff {items : List Value} {x : Float} :
    ComparesAs (array items) x ↔ SameNumber x (string (array items).toText).toNumber := by
  have hnumber : ∀ y, looseEqual (array items) (number y) =
        ((string (array items).toText).toNumber == y) ∧
      looseEqual (number y) (array items) = (y == (string (array items).toText).toNumber) ∧
      order (array items) (number y) =
        compareNumbers (string (array items).toText).toNumber y ∧
      order (number y) (array items) =
        compareNumbers y (string (array items).toText).toNumber :=
    fun y => ⟨rfl, rfl, rfl, rfl⟩
  generalize (string (array items).toText).toNumber = x' at hnumber
  constructor
  · intro h
    exact Number.sameNumber_of_beq fun y => (h y).1.symm.trans (hnumber y).1
  · intro h y
    obtain ⟨hbeq, hbeq'⟩ := h.beq_eq y
    obtain ⟨horder, horder'⟩ := h.compareNumbers_eq y
    rw [hbeq, hbeq', horder, horder']
    exact hnumber y

/-- The number that an array computes as is the number of its text, and it is the number that the
array compares as, unless arrays of one item end at a boolean or at `undefined`. -/
theorem array_converts_as_text_iff (items : List Value) :
    (SameNumber (array items).toNumber (string (array items).toText).toNumber ↔
      (array items).innermost ≠ undefined ∧ ∀ b, (array items).innermost ≠ boolean b) ∧
    (ComparesAs (array items) (array items).toNumber ↔
      (array items).innermost ≠ undefined ∧ ∀ b, (array items).innermost ≠ boolean b) := by
  have hsame := sameNumber_iff (array items)
  rw [if_neg (by simp [isNullish])] at hsame
  exact ⟨hsame, comparesAs_iff.trans hsame⟩

/-- An array of one boolean computes as a number, but its text is none. -/
theorem not_converts_as_text_singleBoolean :
    ¬ SameNumber (array [boolean true]).toNumber
      (string (array [boolean true]).toText).toNumber := by
  rintro (h | h) <;> exact absurd h (by decide)

end RowExpr.Value
