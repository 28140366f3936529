/-
# The longest numeral at the front of a text

The number at the front of a text is found in two passes.  The search over the bytes passes every
numeral, and it may pass more: the letter of an exponent without digits, or a sign on its own.  The
trials then take off one byte after the other, until what is left is a numeral.  This file shows
that both together find the longest numeral that the text begins with, and the double that is
nearest to its value, and that the text is cut only between characters.

* `Text.isSome_takeBytes?_iff`: a text is cut between two characters or not at all;
* `FrontScan.length_le_reach`: no numeral at the front goes farther than the search;
* `decimalWithin?_reach`: search and trials find the longest numeral;
* `ofTextFront_longest_decimal`: the number at the front of a text, for all texts.
-/
import RowExpr.Proofs.Number.Digits
import RowExpr.Proofs.Number.Text
import RowExpr.Registry.Text

namespace RowExpr.Text

/-! ## Cuts between characters -/

/-- The first bytes of the text, as many as given, are whole characters. -/
def IsBoundary (cs : List Char) (n : ℕ) : Prop :=
  ∃ front rest, cs = front ++ rest ∧ (bytes front).length = n

lemma length_bytes_cons (c : Char) (cs : List Char) :
    (bytes (c :: cs)).length = c.utf8Size + (bytes cs).length := by
  rw [bytes_cons, List.length_append, String.length_utf8EncodeChar]

lemma takeBytes?_append (front rest : List Char) :
    takeBytes? (front ++ rest) (bytes front).length = some front := by
  induction front with
  | nil => exact takeBytes?.eq_1 rest
  | cons c front ih =>
    have hpos : 0 < c.utf8Size := c.utf8Size_pos
    obtain ⟨n, hn⟩ : ∃ n, c.utf8Size + (bytes front).length = n + 1 :=
      Nat.exists_eq_add_one.mpr (by omega)
    have hrest : n + 1 - c.utf8Size = (bytes front).length := by omega
    rw [length_bytes_cons, hn, List.cons_append, takeBytes?, if_pos (by omega), hrest, ih,
      Option.map_some]

lemma exists_rest_of_takeBytes? {cs front : List Char} {n : ℕ}
    (h : takeBytes? cs n = some front) :
    ∃ rest, cs = front ++ rest ∧ (bytes front).length = n := by
  fun_induction takeBytes? cs n generalizing front with
  | case1 cs =>
    obtain rfl := Option.some.inj h
    exact ⟨cs, rfl, rfl⟩
  | case2 => cases h
  | case3 c cs n hsize ih =>
    obtain ⟨front, hfront, rfl⟩ := Option.map_eq_some_iff.mp h
    obtain ⟨rest, rfl, hlength⟩ := ih hfront
    refine ⟨rest, rfl, ?_⟩
    rw [length_bytes_cons]
    omega
  | case4 => cases h

/-- A text is cut between two characters, or not at all. -/
theorem isSome_takeBytes?_iff {cs : List Char} {n : ℕ} :
    (takeBytes? cs n).isSome ↔ IsBoundary cs n := by
  rw [Option.isSome_iff_exists]
  constructor
  · rintro ⟨front, h⟩
    exact ⟨front, exists_rest_of_takeBytes? h⟩
  · rintro ⟨front, rest, rfl, rfl⟩
    exact ⟨front, takeBytes?_append front rest⟩

end RowExpr.Text

namespace RowExpr.Number

open RowExpr.Token (Sign Exponent Fraction)

/-! ## Decimal numerals and their doubles -/

/-- The number that the parts of a numeral write, without rounding. -/
def Numeral.value (n : Numeral) : ℚ :=
  (ofDigits 10 n.whole + ofDigits 10 n.fraction * 10 ^ (-(n.fraction.length : ℤ))) *
    10 ^ (if n.negativeExponent then -(ofDigits 10 n.exponent : ℤ) else ofDigits 10 n.exponent)

/-- The text is a decimal numeral behind an optional sign: `sign? (digits ('.' digits*)? | '.'
digits) ((e|E) sign? digits)?`.  The sign is `true` for a minus. -/
inductive SignedNumeral : List Char → Bool → Numeral → Prop
  | intro {sign text : List Char} {negative : Bool} {n : Numeral} (hsign : Sign sign negative)
      (hn : Numeral.Writes text n) : SignedNumeral (sign ++ text) negative n

/-- The text is a decimal numeral. -/
def IsDecimal (text : List Char) : Prop := ∃ negative n, SignedNumeral text negative n

/-- The text is a decimal numeral, and the double is the nearest to its value, with its sign. -/
def Denotes (text : List Char) (x : Float) : Prop :=
  ∃ negative n bits, SignedNumeral text negative n ∧ Rounds n.value bits ∧ x = signed negative bits

/-- The text begins with this decimal numeral, and with no longer one. -/
structure IsLongestDecimal (front cs : List Char) : Prop where
  starts : front <+: cs
  isDecimal : IsDecimal front
  longest : ∀ other, other <+: cs → IsDecimal other → other.length ≤ front.length

/-- The number that a text without blanks in front begins with. -/
inductive FrontNumber (t : List Char) : Float → Prop
  /-- The longest decimal numeral counts. -/
  | decimal {front : List Char} {x : Float} (hfront : IsLongestDecimal front t)
      (hx : Denotes front x) : FrontNumber t x
  | infinity (hnone : ∀ front, front <+: t → ¬ IsDecimal front)
      (h : "Infinity".toList <+: t ∨ "+Infinity".toList <+: t) : FrontNumber t infinity
  | minusInfinity (hnone : ∀ front, front <+: t → ¬ IsDecimal front)
      (h : "-Infinity".toList <+: t) : FrontNumber t (-infinity)
  /-- All other texts begin with no number. -/
  | nan (hnone : ∀ front, front <+: t → ¬ IsDecimal front)
      (h : ¬ ("Infinity".toList <+: t ∨ "+Infinity".toList <+: t ∨ "-Infinity".toList <+: t)) :
      FrontNumber t nan

lemma Denotes.isDecimal {text : List Char} {x : Float} (h : Denotes text x) : IsDecimal text := by
  obtain ⟨negative, n, -, hn, -⟩ := h
  exact ⟨negative, n, hn⟩

lemma Numeral.value_eq (n : Numeral) :
    n.value = n.decimal.digits * 10 ^ n.decimal.exponent :=
  ofDigits_fraction n.whole n.fraction _

/-- A numeral with either sign is the double that is nearest to its value, with that sign. -/
lemma Numeral.exists_rounds (n : Numeral) :
    ∃ bits, Rounds n.value bits ∧ ∀ negative, n.toFloat negative = signed negative bits := by
  obtain ⟨bits, hbits, -⟩ := isNearest_decimal n.decimal
  exact ⟨bits, n.value_eq ▸ hbits, fun negative => toFloat_of_rounds hbits negative⟩

lemma readDecimal?_eq_some_iff_denotes {cs : List Char} {x : Float} :
    readDecimal? cs = some x ↔ Denotes cs x := by
  rw [readDecimal?_eq_some_iff]
  constructor
  · rintro ⟨sign, negative, text, n, hsign, hn, rfl, rfl⟩
    obtain ⟨bits, hbits, hfloat⟩ := n.exists_rounds
    exact ⟨negative, n, bits, .intro hsign hn, hbits, hfloat negative⟩
  · rintro ⟨negative, n, bits, ⟨hsign, hn⟩, hbits, rfl⟩
    obtain ⟨bits', hbits', hfloat⟩ := n.exists_rounds
    refine ⟨_, negative, _, n, hsign, hn, rfl, ?_⟩
    rw [hfloat, hbits.unique hbits']

/-- What is read as a number is exactly the decimal numerals. -/
lemma readDecimal?_eq_none_iff {cs : List Char} : readDecimal? cs = none ↔ ¬ IsDecimal cs := by
  rw [← not_iff_not, not_not, ← Ne, Option.ne_none_iff_exists']
  simp only [readDecimal?_eq_some_iff_denotes]
  constructor
  · rintro ⟨x, hx⟩
    exact hx.isDecimal
  · rintro ⟨negative, n, hn⟩
    obtain ⟨bits, hbits, -⟩ := n.exists_rounds
    exact ⟨_, negative, n, bits, hn, hbits, rfl⟩

/-! ## The search for the end -/

namespace FrontScan

variable {scan next : FrontScan}

lemma step?_digit {c : Char} (hc : isDigit c) :
    scan.step? c = some { scan with last := some c } := by
  rw [step?, if_pos hc]

lemma step?_sign {c : Char} (hc : c = '+' ∨ c = '-')
    (hlast : scan.last = none ∨ scan.last = some 'e' ∨ scan.last = some 'E') :
    scan.step? c = some { scan with last := some c } := by
  have hdigit : isDigit c = false := by rcases hc with rfl | rfl <;> decide
  rw [step?, if_neg (by simp [hdigit]), if_pos hc, if_pos hlast]

lemma step?_point (hpoint : scan.seenPoint = false) (hexponent : scan.seenExponent = false) :
    scan.step? '.' = some { scan with last := some '.', seenPoint := true } := by
  rw [step?, if_neg (by decide), if_neg (by decide), if_pos rfl, if_neg (by simp [*])]

lemma step?_letter {c : Char} (hc : c = 'e' ∨ c = 'E') (hexponent : scan.seenExponent = false)
    (hlast : scan.last ≠ none) :
    scan.step? c = some { scan with last := some c, seenExponent := true } := by
  have hother : isDigit c = false ∧ ¬ (c = '+' ∨ c = '-') ∧ c ≠ '.' := by
    rcases hc with rfl | rfl <;> decide
  rw [step?, if_neg (by simp [hother.1]), if_neg hother.2.1, if_neg hother.2.2, if_pos hc,
    if_neg (by simp [*])]

/-- The search goes through the whole text, from the first state to the second. -/
inductive Passes : FrontScan → List Char → FrontScan → Prop
  | nil {scan : FrontScan} : Passes scan [] scan
  | cons {scan middle next : FrontScan} {c : Char} {cs : List Char}
      (hstep : scan.step? c = some middle) (h : Passes middle cs next) : Passes scan (c :: cs) next

lemma Passes.append {middle : FrontScan} {cs ds : List Char} (h : Passes scan cs middle)
    (h' : Passes middle ds next) : Passes scan (cs ++ ds) next := by
  induction h with
  | nil => exact h'
  | cons hstep _ ih => exact .cons hstep (ih h')

/-- The search reaches at least the end of a text that it goes through. -/
lemma Passes.length_le_reach {cs : List Char} (h : Passes scan cs next) (rest : List Char) :
    cs.length ≤ scan.reach (Text.bytes (cs ++ rest)) := by
  induction h with
  | nil => exact Nat.zero_le _
  | cons hstep _ ih =>
    rw [List.cons_append, reach_bytes_cons, hstep, List.length_cons]
    exact Nat.succ_le_succ ih

lemma passes_digits (scan : FrontScan) {digits : List Char} (hdigits : ∀ d ∈ digits, isDigit d) :
    ∃ last, Passes scan digits { scan with last := last } ∧
      (scan.last ≠ none ∨ digits ≠ [] → last ≠ none) := by
  induction digits generalizing scan with
  | nil => exact ⟨scan.last, .nil, fun h => h.resolve_right (absurd rfl)⟩
  | cons d digits ih =>
    obtain ⟨hd, hdigits⟩ := List.forall_mem_cons.mp hdigits
    obtain ⟨last, hpasses, hlast⟩ := ih { scan with last := some d } hdigits
    exact ⟨last, .cons (step?_digit hd) hpasses, fun _ => hlast (.inl nofun)⟩

lemma passes_sign (scan : FrontScan) {sign : List Char} {negative : Bool} (h : Sign sign negative)
    (hlast : scan.last = none ∨ scan.last = some 'e' ∨ scan.last = some 'E') :
    ∃ last, Passes scan sign { scan with last := last } := by
  cases h with
  | missing => exact ⟨scan.last, .nil⟩
  | plus => exact ⟨some '+', .cons (step?_sign (.inl rfl) hlast) .nil⟩
  | minus => exact ⟨some '-', .cons (step?_sign (.inr rfl) hlast) .nil⟩

lemma passes_fraction (scan : FrontScan) {point fraction : List Char} (h : Fraction point fraction)
    (hpoint : scan.seenPoint = false) (hexponent : scan.seenExponent = false) :
    ∃ next : FrontScan, Passes scan point next ∧ next.seenExponent = false ∧
      (scan.last ≠ none ∨ fraction ≠ [] → next.last ≠ none) := by
  cases h with
  | missing => exact ⟨scan, .nil, hexponent, fun h => h.resolve_right (absurd rfl)⟩
  | given hdigits =>
    obtain ⟨last, hpasses, hlast⟩ := passes_digits _ hdigits
    exact ⟨_, .cons (step?_point hpoint hexponent) hpasses, hexponent, fun _ => hlast (.inl nofun)⟩

lemma passes_exponent (scan : FrontScan) {power digits : List Char} {negative : Bool}
    (h : Exponent power negative digits) (hexponent : scan.seenExponent = false)
    (hlast : scan.last ≠ none) : ∃ next, Passes scan power next := by
  cases h with
  | missing => exact ⟨scan, .nil⟩
  | @given e _ _ _ he hsign _ hdigits =>
    have hletter : some e = none ∨ some e = some 'e' ∨ some e = some 'E' := by
      rcases he with rfl | rfl <;> simp
    obtain ⟨_, hsigned⟩ :=
      passes_sign { scan with last := some e, seenExponent := true } hsign hletter
    obtain ⟨_, hpasses, -⟩ := passes_digits _ hdigits
    exact ⟨_, .cons (step?_letter he hexponent hlast) (hsigned.append hpasses)⟩

/-- The search goes through every decimal numeral. -/
lemma passes_decimal {text : List Char} (h : IsDecimal text) : ∃ next, Passes {} text next := by
  obtain ⟨negative, n, ⟨hsign, hwhole, hpoint, hpower, hne⟩⟩ := h
  -- no part raises a flag that a part behind it needs to be down, and a digit or a point has been
  -- passed before the letter of the exponent
  obtain ⟨first, hsigned⟩ := passes_sign {} hsign (.inl rfl)
  obtain ⟨last, hdigits, hlast⟩ := passes_digits { last := first } hwhole
  obtain ⟨_, hfraction, hexponent, hlast'⟩ := passes_fraction { last := last } hpoint rfl rfl
  obtain ⟨next, hend⟩ := passes_exponent _ hpower hexponent
    (hlast' (hne.imp (fun h => hlast (.inr h)) id))
  exact ⟨next, hsigned.append (hdigits.append (hfraction.append hend))⟩

/-- No decimal numeral at the front of a text goes farther than the search. -/
theorem length_le_reach {front cs : List Char} (h : IsDecimal front) (hfront : front <+: cs) :
    front.length ≤ FrontScan.reach {} (Text.bytes cs) := by
  obtain ⟨rest, rfl⟩ := hfront
  obtain ⟨next, hpasses⟩ := passes_decimal h
  exact hpasses.length_le_reach rest

lemma isBoundary_of_le_reach {cs : List Char} {n : ℕ} (h : n ≤ scan.reach (Text.bytes cs)) :
    Text.IsBoundary cs n := by
  rw [← Text.isSome_takeBytes?_iff, takeBytes?_of_le_reach h]
  rfl

end FrontScan

/-! ## Trying the fronts -/

/-- Of the fronts up to a place that the search reaches, the longest that is read as a number is
found. -/
lemma decimalWithin?_cases {scan : FrontScan} {cs : List Char} {n : ℕ}
    (h : n ≤ scan.reach (Text.bytes cs)) :
    (∃ m ≤ n, ∃ x, decimalWithin? cs n = some (some x) ∧ readDecimal? (cs.take m) = some x ∧
        ∀ k ≤ n, m < k → readDecimal? (cs.take k) = none) ∨
      (decimalWithin? cs n = some none ∧ ∀ k ≤ n, readDecimal? (cs.take k) = none) := by
  induction n with
  | zero =>
    refine .inr ⟨rfl, fun k hk => ?_⟩
    rw [Nat.le_zero.mp hk]
    rfl
  | succ n ih =>
    rw [decimalWithin?_succ h]
    cases hread : readDecimal? (cs.take (n + 1)) with
    | some x => exact .inl ⟨n + 1, le_rfl, x, rfl, hread, fun k hk hlt => absurd hk hlt.not_ge⟩
    | none =>
      -- the longest front is no numeral, so the search goes on among the others
      have hnone : ∀ k ≤ n + 1, (k ≤ n → readDecimal? (cs.take k) = none) →
          readDecimal? (cs.take k) = none := by
        intro k hk hshorter
        rcases Nat.le_succ_iff.mp hk with hk | rfl
        · exact hshorter hk
        · exact hread
      rcases ih (Nat.le_of_succ_le h) with ⟨m, hm, x, hwithin, hx, hlonger⟩ | ⟨hwithin, hall⟩
      · exact .inl ⟨m, hm.trans n.le_succ, x, hwithin, hx, fun k hk hlt =>
          hnone k hk fun hk => hlonger k hk hlt⟩
      · exact .inr ⟨hwithin, fun k hk => hnone k hk (hall k)⟩

/-- Search and trials together find the longest decimal numeral at the front of a text. -/
theorem decimalWithin?_reach (cs : List Char) :
    (∃ front x, decimalWithin? cs (FrontScan.reach {} (Text.bytes cs)) = some (some x) ∧
        IsLongestDecimal front cs ∧ Denotes front x) ∨
      (decimalWithin? cs (FrontScan.reach {} (Text.bytes cs)) = some none ∧
        ∀ front, front <+: cs → ¬ IsDecimal front) := by
  -- a numeral at the front is one of the fronts that are tried, and is read
  have htried : ∀ front, front <+: cs → IsDecimal front →
      front.length ≤ FrontScan.reach {} (Text.bytes cs) ∧
        readDecimal? (cs.take front.length) ≠ none := by
    intro front hfront hdecimal
    refine ⟨FrontScan.length_le_reach hdecimal hfront, ?_⟩
    rw [← List.prefix_iff_eq_take.mp hfront, Ne, readDecimal?_eq_none_iff, not_not]
    exact hdecimal
  rcases decimalWithin?_cases (le_refl (FrontScan.reach {} (Text.bytes cs))) with
    ⟨m, -, x, hwithin, hread, hlonger⟩ | ⟨hwithin, hnone⟩
  · have hdenotes := readDecimal?_eq_some_iff_denotes.mp hread
    refine .inl ⟨cs.take m, x, hwithin, ⟨List.take_prefix m cs, hdenotes.isDecimal, ?_⟩, hdenotes⟩
    intro other hother hdecimal
    obtain ⟨hle, hother'⟩ := htried other hother hdecimal
    have hshort : other.length ≤ m := by
      by_contra hlt
      exact hother' (hlonger _ hle (not_le.mp hlt))
    rw [List.length_take]
    exact le_min hshort hother.length_le
  · refine .inr ⟨hwithin, fun front hfront hdecimal => ?_⟩
    obtain ⟨hle, hread⟩ := htried front hfront hdecimal
    exact hread (hnone _ hle)

/-- The number at the front of a text is the double of the longest decimal numeral that it begins
with, blanks apart, and if there is none, the infinity that it begins with.  It is found for every
text, because no place at which the text is cut is inside a character. -/
theorem ofTextFront_longest_decimal (s : String) :
    ∃ x, ofTextFront? s.toList = some x ∧
      ScalarFunction.parseFloat.apply [.string s] = .number x ∧
      FrontNumber (Text.trimStart s.toList) x ∧
      ∀ n ≤ FrontScan.reach {} (Text.bytes (Text.trimStart s.toList)),
        Text.IsBoundary (Text.trimStart s.toList) n := by
  have hget : ofTextFront? s.toList = some (ofTextFront s.toList) := (Option.some_get _).symm
  refine ⟨ofTextFront s.toList, hget, rfl, ?_, fun n => FrontScan.isBoundary_of_le_reach⟩
  rw [ofTextFront?] at hget
  rcases decimalWithin?_reach (Text.trimStart s.toList) with
    ⟨front, x, hwithin, hlongest, hdenotes⟩ | ⟨hwithin, hnone⟩
  · rw [hwithin] at hget
    exact .decimal hlongest (Option.some.inj hget ▸ hdenotes)
  · rw [hwithin, Option.map_some] at hget
    rw [← Option.some.inj hget]
    simp only [Bool.or_eq_true, List.isPrefixOf_iff_prefix]
    split_ifs with hplus hminus
    · exact .infinity hnone hplus
    · exact .minusInfinity hnone hminus
    · exact .nan hnone fun h => (or_assoc.mpr h).elim hplus hminus

-- the search passes three bytes here, and the third trial is the first numeral
example : ofTextFront? "1e+é".toList = some (ofInt 1) := by decide

end RowExpr.Number
