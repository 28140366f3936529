/-
# The texts that write a number

A text is converted to a number by trimming it and trying a few forms: hexadecimal digits behind
`0x`, the name of infinity, and decimal numerals.  This file writes these forms down as a relation
between texts and numbers, with the parts of a numeral given by the grammar of number literals, and
shows that the conversion finds a number for exactly the texts of the relation.

* `Numeral.read?_eq_some_iff`: the numerals that are read are those of the grammar;
* `ofText_eq_iff`: a text is converted to a number if, without the blanks around it, it writes it;
* `isNaN_ofText_of_mem`: no text with a comma or a slash, say, writes a number.
-/
import RowExpr.Proofs.Number.Nearest
import RowExpr.Proofs.Token.Literal
import RowExpr.Value.Basic

namespace RowExpr.Text

/-! ## Trimming -/

lemma trim_eq_self {cs : List Char} (h : ∀ c ∈ cs, isBlank c = false) : trim cs = cs := by
  have htrim : ∀ ds : List Char, (∀ c ∈ ds, isBlank c = false) → trimStart ds = ds := by
    intro ds hds
    cases ds with
    | nil => rfl
    | cons c ds => rw [trimStart, List.dropWhile_cons, hds c List.mem_cons_self]; rfl
  rw [trim, htrim cs h, htrim cs.reverse (by simpa using h), List.reverse_reverse]

lemma mem_trimStart {c : Char} {cs : List Char} (hblank : isBlank c = false) (h : c ∈ cs) :
    c ∈ trimStart cs := by
  rw [← List.takeWhile_append_dropWhile (p := isBlank) (l := cs), List.mem_append] at h
  refine h.resolve_left fun hmem => ?_
  rw [List.mem_takeWhile_imp hmem] at hblank
  exact Bool.noConfusion hblank

lemma mem_trim {c : Char} {cs : List Char} (hblank : isBlank c = false) (h : c ∈ cs) :
    c ∈ trim cs := by
  rw [trim, List.mem_reverse]
  exact mem_trimStart hblank (List.mem_reverse.mpr (mem_trimStart hblank h))

lemma isBlank_of_getLast?_trim {c : Char} {cs : List Char} (h : (trim cs).getLast? = some c) :
    isBlank c = false := by
  rw [trim, List.getLast?_reverse] at h
  exact head?_dropWhile_eq_false h

end RowExpr.Text

namespace RowExpr.Number

open RowExpr.Token (Sign Exponent Fraction)

/-! ## Decimal numerals -/

/-- The text is a decimal numeral without a sign, and these are its parts. -/
inductive Numeral.Writes : List Char → Numeral → Prop
  | intro {whole point fraction power exponent : List Char} {negative : Bool}
      (hwhole : ∀ d ∈ whole, isDigit d) (hpoint : Fraction point fraction)
      (hpower : Exponent power negative exponent) (hne : whole ≠ [] ∨ fraction ≠ []) :
      Numeral.Writes (whole ++ (point ++ power)) ⟨whole, fraction, negative, exponent⟩

lemma Numeral.withExponent?_eq_some_iff {whole fraction cs : List Char} {n : Numeral} :
    Numeral.withExponent? ⟨whole, fraction, false, []⟩ cs = some n ↔
      ∃ negative exponent, Exponent cs negative exponent ∧
        n = ⟨whole, fraction, negative, exponent⟩ := by
  constructor
  · intro h
    unfold Numeral.withExponent? at h
    split at h
    case h_1 => exact ⟨false, [], .missing, (Option.some.inj h).symm⟩
    case h_2 e rest =>
      obtain ⟨sign, hrest, hsign⟩ := Token.exists_sign rest
      split_ifs at h with he
      dsimp only at h
      split_ifs at h with hdigits
      simp only [Bool.and_eq_true, Bool.not_eq_true', List.isEmpty_eq_false_iff,
        List.all_eq_true] at hdigits
      refine ⟨_, _, ?_, (Option.some.inj h).symm⟩
      have hexponent := Exponent.given he hsign hdigits.1 hdigits.2
      rwa [← hrest] at hexponent
  · rintro ⟨negative, exponent, h, rfl⟩
    cases h with
    | missing => rfl
    | @given e sign digits _ he hsign hne hdigits =>
      obtain ⟨d, ds, rfl⟩ := List.exists_cons_of_ne_nil hne
      have hd := hdigits d List.mem_cons_self
      have hsplit : splitSign (sign ++ d :: ds) = (negative, d :: ds) := by
        refine Token.splitSign_append hsign ?_ ?_ <;>
          · rintro heq
            obtain rfl := Option.some.inj heq
            exact absurd hd (by decide)
      rw [Numeral.withExponent?, if_pos he]
      simp only [hsplit]
      rw [if_pos]
      simpa using hdigits

/-- The numerals that are read are those of the grammar. -/
theorem Numeral.read?_eq_some_iff {cs : List Char} {n : Numeral} :
    Numeral.read? cs = some n ↔ Numeral.Writes cs n := by
  constructor
  · intro h
    simp only [Numeral.read?] at h
    split_ifs at h with hempty
    obtain ⟨negative, exponent, hpower, rfl⟩ := Numeral.withExponent?_eq_some_iff.mp h
    obtain ⟨point, hpoint, hfraction⟩ := Token.exists_fraction (cs.dropWhile isDigit)
    have hne : cs.takeWhile isDigit ≠ [] ∨ (splitFraction (cs.dropWhile isDigit)).1 ≠ [] := by
      rw [Bool.and_eq_true, List.isEmpty_iff, List.isEmpty_iff] at hempty
      tauto
    have hwhole : ∀ d ∈ cs.takeWhile isDigit, isDigit d := fun d hd => List.mem_takeWhile_imp hd
    have hwrites := Numeral.Writes.intro hwhole hfraction hpower hne
    rwa [← hpoint, List.takeWhile_append_dropWhile] at hwrites
  · rintro ⟨hwhole, hpoint, hpower, hne⟩
    have hstop : Token.EndsNumber [] := nofun
    have hspan := span_append hwhole fun c hc =>
      (Token.head?_afterDigits hpoint hpower hstop (by rwa [List.append_nil])).1
    have hsplit := Token.splitFraction_append hpoint hpower hstop fun _ => nofun
    rw [List.append_nil] at hsplit
    simp only [Numeral.read?, hspan.1, hspan.2, hsplit]
    rw [if_neg, Numeral.withExponent?_eq_some_iff]
    · exact ⟨_, _, hpower, rfl⟩
    · rw [Bool.and_eq_true, List.isEmpty_iff, List.isEmpty_iff]
      tauto

/-- Besides digits, a numeral has a point, the letter of the exponent and its sign. -/
lemma Numeral.Writes.forall_mem {cs : List Char} {n : Numeral} (h : Numeral.Writes cs n) :
    ∀ c ∈ cs, isDigit c ∨ c ∈ ['.', 'e', 'E', '+', '-'] := by
  obtain ⟨hwhole, hpoint, hpower, -⟩ := h
  intro c hc
  rw [List.mem_append, List.mem_append] at hc
  rcases hc with hc | hc | hc
  · exact .inl (hwhole c hc)
  · cases hpoint with
    | missing => exact absurd hc List.not_mem_nil
    | given hdigits =>
      rcases List.mem_cons.mp hc with rfl | hc
      · exact .inr (by decide)
      · exact .inl (hdigits c hc)
  · cases hpower with
    | missing => exact absurd hc List.not_mem_nil
    | given he hsign _ hdigits =>
      rcases List.mem_cons.mp hc with rfl | hc
      · rcases he with rfl | rfl <;> exact .inr (by decide)
      · rcases List.mem_append.mp hc with hc | hc
        · cases hsign <;> simp at hc <;> exact .inr (by simp [hc])
        · exact .inl (hdigits c hc)

/-- A numeral begins with a digit or with its point. -/
lemma Numeral.Writes.exists_cons {cs : List Char} {n : Numeral} (h : Numeral.Writes cs n) :
    ∃ c rest, cs = c :: rest ∧ (isDigit c ∨ c = '.') := by
  cases h with
  | @intro whole _ _ _ _ _ hwhole hpoint _ hne =>
    cases whole with
    | cons d ds => exact ⟨d, _, rfl, .inl (hwhole d List.mem_cons_self)⟩
    | nil =>
      cases hpoint with
      | missing => exact hne.elim (absurd rfl) (absurd rfl)
      | given _ => exact ⟨'.', _, rfl, .inr rfl⟩

lemma Numeral.Writes.splitSign_append {sign text : List Char} {negative : Bool} {n : Numeral}
    (h : Numeral.Writes text n) (hsign : Sign sign negative) :
    splitSign (sign ++ text) = (negative, text) := by
  obtain ⟨c, rest, rfl, hc⟩ := h.exists_cons
  refine Token.splitSign_append hsign ?_ ?_ <;>
    · rintro heq
      obtain rfl := Option.some.inj heq
      exact absurd hc (by decide)

lemma readDecimal?_eq_some_iff {cs : List Char} {x : Float} :
    readDecimal? cs = some x ↔ ∃ sign negative text n, Sign sign negative ∧
      Numeral.Writes text n ∧ cs = sign ++ text ∧ x = n.toFloat negative := by
  constructor
  · intro h
    obtain ⟨sign, hcs, hsign⟩ := Token.exists_sign cs
    obtain ⟨n, hn, hx⟩ := Option.map_eq_some_iff.mp h
    exact ⟨sign, _, _, n, hsign, Numeral.read?_eq_some_iff.mp hn, hcs, hx.symm⟩
  · rintro ⟨sign, negative, text, n, hsign, hn, rfl, rfl⟩
    simp only [readDecimal?, hn.splitSign_append hsign, Numeral.read?_eq_some_iff.mpr hn,
      Option.map_some]

/-- A whole number in any radix is a row of digits behind a sign. -/
lemma readInt?_eq_some_iff {radix : ℕ} {cs : List Char} {n : ℤ} :
    readInt? radix cs = some n ↔ ∃ sign negative digits m, Sign sign negative ∧
      cs = sign ++ digits ∧ readDigits? radix digits = some m ∧
        (if negative then -(m : ℤ) else m) = n := by
  simp only [readInt?, Option.map_eq_some_iff, Option.bind_eq_bind, Option.bind_eq_some_iff,
    Option.pure_def, Option.some_inj]
  constructor
  · rintro ⟨_, ⟨m, hm, rfl⟩, rfl⟩
    obtain ⟨sign, hcs, hsign⟩ := Token.exists_sign cs
    exact ⟨sign, _, _, m, hsign, hcs, hm, rfl⟩
  · rintro ⟨sign, negative, digits, m, hsign, rfl, hm, rfl⟩
    have hall := Token.forall_isDigitOf_of_readDigits? hm
    have hsplit : splitSign (sign ++ digits) = (negative, digits) := by
      refine Token.splitSign_append hsign ?_ ?_ <;>
        · rintro heq
          exact absurd (hall _ (List.mem_of_mem_head? heq)) Bool.false_ne_true
    rw [hsplit]
    exact ⟨m, ⟨m, hm, rfl⟩, rfl⟩

/-! ## The conversion of a text -/

/-- The text, which has no blanks around it, writes the number. -/
inductive Written : List Char → Float → Prop
  | empty : Written [] 0
  | hex {x : Char} {digits : List Char} {n : ℤ} (hx : x = 'x' ∨ x = 'X')
      (hread : readInt? 16 digits = some n)
      (hn : -0x8000000000000000 ≤ n ∧ n < 0x8000000000000000) :
      Written ('0' :: x :: digits) (ofInt n)
  | infinity {sign : List Char} {negative : Bool} (hsign : Sign sign negative) :
      Written (sign ++ "Infinity".toList) (if negative then -infinity else infinity)
  | decimal {sign text : List Char} {negative : Bool} {n : Numeral} (hsign : Sign sign negative)
      (hn : n.Writes text) : Written (sign ++ text) (n.toFloat negative)

lemma Written.isNaN {cs : List Char} {x : Float} (h : Written cs x) : x.isNaN = false := by
  cases h with
  | empty => decide
  | hex _ _ _ => exact isNaN_ofInt _
  | @infinity _ negative _ => cases negative <;> decide
  | @decimal _ _ negative n _ _ =>
    obtain ⟨bits, hle, heq⟩ := exists_toFloat_eq_signed n.decimal
    rw [Numeral.toFloat, heq]
    exact isNaN_signed hle negative

lemma readHex?_eq_some_iff {digits : List Char} {x : Float} :
    readHex? digits = some x ↔ ∃ n, readInt? 16 digits = some n ∧
      (-0x8000000000000000 ≤ n ∧ n < 0x8000000000000000) ∧ ofInt n = x := by
  simp only [readHex?, Option.bind_eq_bind, Option.bind_eq_some_iff]
  refine exists_congr fun n => and_congr_right fun _ => ?_
  split_ifs with hrange
  · rw [Option.some_inj]
    exact ⟨fun h => ⟨hrange, h⟩, fun h => h.2⟩
  · exact iff_of_false nofun fun h => hrange h.1

lemma eq_of_getD_nan {y : Option Float} {x : Float} (hx : x.isNaN = false)
    (h : y.getD nan = x) : y = some x := by
  cases y with
  | none =>
    rw [← h] at hx
    exact absurd hx (by decide)
  | some y => exact congrArg some h

/-- A numeral does not look like one of the other forms. -/
lemma ofText_decimal {text : String} {x : Float}
    (h : readDecimal? (Text.trim text.toList) = some x) : ofText text = x := by
  obtain ⟨sign, negative, digits, n, hsign, hn, hcs, -⟩ := readDecimal?_eq_some_iff.mp h
  have hmem : ∀ c ∈ Text.trim text.toList, isDigit c ∨ c ∈ ['.', 'e', 'E', '+', '-'] := by
    rw [hcs]
    intro c hc
    rcases List.mem_append.mp hc with hc | hc
    · cases hsign <;> simp at hc <;> exact .inr (by simp [hc])
    · exact hn.forall_mem c hc
  -- every other form has a letter in it that no numeral has
  unfold ofText
  split
  case h_1 hnil =>
    obtain ⟨c, rest, rfl, -⟩ := hn.exists_cons
    rw [hnil] at hcs
    simp at hcs
  case h_2 heq => exact absurd (hmem 'x' (by simp [heq])) (by decide)
  case h_3 heq => exact absurd (hmem 'X' (by simp [heq])) (by decide)
  case h_4 =>
    rw [if_neg, if_neg, h, Option.getD_some]
    · rintro heq
      exact absurd (hmem 'I' (by rw [heq]; decide)) (by decide)
    · rintro (heq | heq)
      · exact absurd (hmem 'I' (by rw [heq]; decide)) (by decide)
      · exact absurd (hmem 'I' (by rw [heq]; decide)) (by decide)

/-- A text is converted to a number if, without the blanks around it, it writes that number. -/
theorem ofText_eq_iff {text : String} {x : Float} (hx : x.isNaN = false) :
    ofText text = x ↔ Written (Text.trim text.toList) x := by
  constructor
  · intro h
    unfold ofText at h
    split at h
    case h_1 heq => rw [heq, ← h]; exact .empty
    case h_2 heq =>
      obtain ⟨n, hread, hn, rfl⟩ := readHex?_eq_some_iff.mp (eq_of_getD_nan hx h)
      rw [heq]
      exact .hex (.inl rfl) hread hn
    case h_3 heq =>
      obtain ⟨n, hread, hn, rfl⟩ := readHex?_eq_some_iff.mp (eq_of_getD_nan hx h)
      rw [heq]
      exact .hex (.inr rfl) hread hn
    case h_4 =>
      split_ifs at h with hplus hminus
      · subst h
        rcases hplus with heq | heq <;> rw [heq]
        · exact .infinity .missing
        · exact .infinity .plus
      · subst h
        rw [hminus]
        exact .infinity .minus
      · obtain ⟨sign, negative, digits, n, hsign, hn, hcs, rfl⟩ :=
          readDecimal?_eq_some_iff.mp (eq_of_getD_nan hx h)
        rw [hcs]
        exact .decimal hsign hn
  · intro h
    generalize hcs : Text.trim text.toList = cs at h
    cases h with
    | empty => rw [ofText, hcs]
    | @hex y digits n hy hread hn =>
      have hhex := readHex?_eq_some_iff.mpr ⟨n, hread, hn, rfl⟩
      rcases hy with rfl | rfl
      · rw [ofText, hcs]
        simp only [hhex, Option.getD_some]
      · rw [ofText, hcs]
        simp only [hhex, Option.getD_some]
    | infinity hsign =>
      cases hsign <;>
        · rw [ofText, hcs]
          rfl
    | decimal hsign hn =>
      refine ofText_decimal (readDecimal?_eq_some_iff.mpr ?_)
      exact ⟨_, _, _, _, hsign, hn, hcs, rfl⟩

/-! ## Characters -/

lemma isDigitOf_mono {radix radix' : ℕ} (h : radix ≤ radix') {c : Char} (hc : isDigitOf radix c) :
    isDigitOf radix' c := by
  unfold isDigitOf at *
  split at hc
  · exact decide_eq_true ((of_decide_eq_true hc).trans_le h)
  · exact absurd hc Bool.false_ne_true

/-- Only letters, digits, a point and signs stand in a text that writes a number. -/
lemma Written.forall_mem {cs : List Char} {x : Float} (h : Written cs x) :
    ∀ c ∈ cs, isDigitOf 36 c ∨ c ∈ ['.', '+', '-'] := by
  have hsigns : ∀ {sign negative}, Sign sign negative → ∀ c ∈ sign, c ∈ ['.', '+', '-'] := by
    intro sign negative hsign c hc
    cases hsign <;> simp at hc <;> simp [hc]
  intro c hc
  cases h with
  | empty => exact absurd hc List.not_mem_nil
  | @hex y digits n hy hread hn =>
    obtain ⟨sign, negative, text, m, hsign, rfl, hm, -⟩ := readInt?_eq_some_iff.mp hread
    rw [List.mem_cons, List.mem_cons, List.mem_append] at hc
    rcases hc with rfl | rfl | hc | hc
    · exact .inl (by decide)
    · rcases hy with rfl | rfl <;> exact .inl (by decide)
    · exact .inr (hsigns hsign c hc)
    · exact .inl (isDigitOf_mono (by decide) (Token.forall_isDigitOf_of_readDigits? hm c hc))
  | infinity hsign =>
    rcases List.mem_append.mp hc with hc | hc
    · exact .inr (hsigns hsign c hc)
    · have hletters : "Infinity".toList.all (isDigitOf 36) = true := by decide
      exact .inl (List.all_eq_true.mp hletters c hc)
  | decimal hsign hn =>
    rcases List.mem_append.mp hc with hc | hc
    · exact .inr (hsigns hsign c hc)
    · rcases hn.forall_mem c hc with hdigit | hmark
      · exact .inl (isDigitOf_mono (by decide) hdigit)
      · simp only [List.mem_cons, List.not_mem_nil, or_false] at hmark ⊢
        rcases hmark with rfl | rfl | rfl | rfl | rfl <;> decide

/-- A text with any other character in it is no number. -/
theorem isNaN_ofText_of_mem {text : String} {c : Char} (hmem : c ∈ text.toList)
    (hblank : Text.isBlank c = false) (hdigit : isDigitOf 36 c = false)
    (hmark : c ∉ ['.', '+', '-']) : (ofText text).isNaN = true := by
  by_contra hnumber
  rw [Bool.not_eq_true] at hnumber
  have hwritten := (ofText_eq_iff hnumber).mp rfl
  rcases hwritten.forall_mem c (Text.mem_trim hblank hmem) with h | h
  · rw [h] at hdigit
    exact Bool.noConfusion hdigit
  · exact hmark h

end RowExpr.Number
