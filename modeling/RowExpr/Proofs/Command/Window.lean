/-
# Windows through JSON

A compiled operator carries the window of the definition that it was taken from, and is written as
JSON with the frame and the peers of that window.  JSON has no infinite numbers: both of them are
written as null, and a null is read as one infinity in the first place of a frame and as the other
in the second.  The check of a frame leaves only one infinity for each place, and nothing that is no
number, so a frame that passes it is read back as the same two numbers.  A whole number is written
as an integer, which loses the sign of zero and nothing else.

* `Number.ofInt_truncate_beq`: a whole number as an integer is the same number;
* `Frame.boundOfJson_ofFloat`: what a bound of a frame is read as when it was written as JSON;
* `Definition.ofJson_of_extracted`: the window of a definition, read back from its operators.
-/
import RowExpr.Command.Definitions
import RowExpr.Command.Output
import RowExpr.Proofs.Extract.Records
import RowExpr.Proofs.Number.RoundTrip

namespace RowExpr

namespace Number

/-! ## Whole numbers -/

/-- A double is rounded to itself. -/
lemma rounds_valueOfBits {bits : ℕ} (h : bits ≤ infinityBits) : Rounds (valueOfBits bits) bits := by
  refine rounds_of_lt h fun other _ hne => ?_
  rw [sub_self, abs_zero, abs_pos, sub_ne_zero]
  exact fun heq => hne (strictMono_valueOfBits.injective heq).symm

/-- The magnitude of a whole number is a mantissa times a power of two, with nothing cut off. -/
lemma floorAbs_eq {d : Dyadic} (h : d.isWhole = true) :
    (d.floorAbs : ℚ) = d.mantissa * 2 ^ d.exponent := by
  have hpow : ∀ n, ((twoPow n : ℕ) : ℚ) = 2 ^ n := fun n => by
    rw [twoPow, Nat.pow_eq, Nat.cast_pow, Nat.cast_ofNat]
  unfold Dyadic.floorAbs
  split
  case isTrue hexponent =>
    rw [Nat.cast_mul, hpow, ← zpow_natCast, Int.toNat_of_nonneg hexponent]
  case isFalse hexponent =>
    have hdvd : twoPow (-d.exponent).toNat ∣ d.mantissa := by
      simpa [Dyadic.isWhole, hexponent, Nat.dvd_iff_mod_eq_zero] using h
    have hne : ((twoPow (-d.exponent).toNat : ℕ) : ℚ) ≠ 0 := by
      rw [hpow]
      positivity
    rw [Nat.cast_div hdvd hne, hpow, ← zpow_natCast, Int.toNat_of_nonneg (by omega), zpow_neg,
      div_inv_eq_mul]

/-- A whole number as an integer is the same number, and only the sign of zero is lost. -/
lemma ofInt_truncate_beq {x : Float} {d : Dyadic} (h : Dyadic.ofFloat? x = some d)
    (hwhole : d.isWhole = true) : (ofInt d.truncate == x) = true := by
  obtain ⟨k, hexponent, hm, hk, hbits, rfl⟩ := exists_of_ofFloat?_eq_some h
  have hvalue : (d.floorAbs : ℚ) = valueOfBits (k * mantissaSpan + d.mantissa) := by
    rw [floorAbs_eq hwhole, valueOfBits_add hm.le hk, hexponent]
  have hnearest : nearestBits d.floorAbs 1 = k * mantissaSpan + d.mantissa := by
    have hrounds := rounds_nearestBits d.floorAbs one_ne_zero
    rw [Nat.cast_one, div_one, hvalue] at hrounds
    exact hrounds.unique (rounds_valueOfBits hbits.le)
  rcases Nat.eq_zero_or_pos d.floorAbs with hzero | hpos
  · -- the bits of zero are none, with either sign
    have hnone : k * mantissaSpan + d.mantissa = 0 := by rw [← hnearest, hzero]; rfl
    have htruncate : d.truncate = 0 := by simp [Dyadic.truncate, hzero]
    rw [hnone, htruncate]
    cases d.negative <;> decide
  · have habs : d.truncate.natAbs = d.floorAbs := by
      unfold Dyadic.truncate
      split <;> simp
    have hsign : decide (d.truncate < 0) = d.negative := by
      unfold Dyadic.truncate
      cases d.negative
      · simp
      · simp; omega
    have hsame : ofInt d.truncate = signed d.negative (k * mantissaSpan + d.mantissa) := by
      rw [ofInt, ofRatio, habs, hsign, hnearest, signed]
    rw [hsame, Float.beq_self_iff]
    intro hnan
    have hnumber := isNaN_signed hbits.le d.negative
    rw [hnan] at hnumber
    exact absurd hnumber (by decide)

end Number

/-! ## Bounds -/

namespace Frame

/-- What null stands for in one place of a frame, for a bound `x` that is read from there as `y`:
the bound is written as null if it is the infinity of that place, and then it is read as it. -/
structure NullMeans (unbounded x y : Float) : Prop where
  written : Json.ofFloat x = .null ↔ x = unbounded
  read : Json.ofFloat x = .null → y = unbounded

/-- A bound that is a number is read as the same number, if the only infinity that it can be is the
one that null stands for in its place. -/
lemma boundOfJson_ofFloat (name : String) {x unbounded : Float} (hnan : x.isNaN = false)
    (hunbounded : Json.ofFloat unbounded = .null)
    (hinfinite : ∀ negative, x = Number.signed negative Number.infinityBits → x = unbounded) :
    ∃ y, boundOfJson name unbounded (Json.ofFloat x) = .ok y ∧ (y == x) = true ∧
      NullMeans unbounded x y := by
  have hself : (x == x) = true := by
    rw [Float.beq_self_iff]
    rintro rfl
    exact absurd hnan (by decide)
  -- a bound with a finite value is written as a number, and so it is not the one of null
  have hfinite : ∀ y z, Json.ofFloat x = .number z → NullMeans unbounded x y := by
    intro y z hz
    have hne : Json.ofFloat x ≠ .null := by simp [hz]
    refine ⟨iff_of_false hne ?_, fun h => absurd h hne⟩
    rintro rfl
    exact hne hunbounded
  cases hx : Number.Dyadic.ofFloat? x with
  | none =>
    obtain ⟨negative, heq⟩ := Number.exists_eq_infinity hx hnan
    have hx' := hinfinite negative heq
    refine ⟨unbounded, ?_, hx' ▸ hself, ⟨fun _ => hx', fun _ => hx' ▸ hunbounded⟩, fun _ => rfl⟩
    rw [hx', hunbounded]
    rfl
  | some d =>
    by_cases hsmall : (d.isWhole && decide (d.truncate.natAbs < 0x20000000000000)) = true
    · have hnumber : Json.ofFloat x = .number (Number.ofInt d.truncate) := by
        rw [Json.ofFloat, hx]
        exact if_pos hsmall
      rw [Bool.and_eq_true] at hsmall
      exact ⟨Number.ofInt d.truncate, by rw [hnumber]; rfl,
        Number.ofInt_truncate_beq hx hsmall.1, hfinite _ _ hnumber⟩
    · have hnumber : Json.ofFloat x = .number x := by
        rw [Json.ofFloat, hx]
        exact if_neg hsmall
      exact ⟨x, by rw [hnumber]; rfl, hself, hfinite _ _ hnumber⟩

/-- What the check of a frame leaves: numbers, and one infinity for each side. -/
lemma bounds_of_check {f : Frame} (h : f.check = .ok ()) :
    (f.preceding.isNaN = false ∧ ∀ negative,
      f.preceding = Number.signed negative Number.infinityBits → f.preceding = -Number.infinity) ∧
    f.following.isNaN = false ∧ ∀ negative,
      f.following = Number.signed negative Number.infinityBits → f.following = Number.infinity := by
  unfold check at h
  split at h
  case isTrue => cases h
  case isFalse hnan =>
    split at h
    case isTrue => cases h
    case isFalse hrow =>
      simp only [Bool.or_eq_true, not_or, Bool.not_eq_true] at hnan hrow
      refine ⟨⟨hnan.1, fun negative heq => ?_⟩, hnan.2, fun negative heq => ?_⟩
      · cases negative with
        | true => rw [heq]; decide
        | false => rw [heq] at hrow; exact absurd hrow.1 (by decide)
      · cases negative with
        | true => rw [heq] at hrow; exact absurd hrow.2 (by decide)
        | false => rw [heq]; decide

/-- The frame has the same bounds as another one, which was written as JSON, and what was null there
is infinite. -/
structure ReadBackAs (f read : Frame) : Prop where
  preceding : (read.preceding == f.preceding) = true
  following : (read.following == f.following) = true
  nullPreceding : NullMeans (-Number.infinity) f.preceding read.preceding
  nullFollowing : NullMeans Number.infinity f.following read.following

/-- A frame that passes its check is read back from JSON as the same frame. -/
lemma ofJson_of_check (name : String) {f : Frame} (h : f.check = .ok ()) :
    ∃ read, Frame.ofJson name
        (some (.array [Json.ofFloat f.preceding, Json.ofFloat f.following])) = .ok read ∧
      f.ReadBackAs read := by
  obtain ⟨⟨hnumber, hinfinite⟩, hnumber', hinfinite'⟩ := bounds_of_check h
  obtain ⟨y, hy, hsame, hnull⟩ := boundOfJson_ofFloat name hnumber rfl hinfinite
  obtain ⟨y', hy', hsame', hnull'⟩ := boundOfJson_ofFloat name hnumber' rfl hinfinite'
  refine ⟨⟨y, y'⟩, ?_, hsame, hsame', hnull, hnull'⟩
  rw [Frame.ofJson, hy, hy']
  rfl

end Frame

/-! ## Definitions -/

/-- The member of a JSON object with the given name. -/
def Json.member? (name : String) : Json → Option Json
  | .object members => Table.get? name members
  | _ => none

/-- What is written of the window of an operator call. -/
lemma OperatorCall.member?_toJson {call : OperatorCall} {w : Window} (h : call.window = some w) :
    call.toJson.member? "frame" =
        some (.array [Json.ofFloat w.frame.preceding, Json.ofFloat w.frame.following]) ∧
      call.toJson.member? "peers" = some (.boolean w.peers) := by
  simp [OperatorCall.toJson, h, Window.toMembers, Json.member?, Table.get?]

/-- The operator calls that are taken out of a definition carry its window. -/
lemma window_of_extracted {text : String} {f : RowFunction} (hread : RowFunction.parse text = .ok f)
    {registry : Registry} {space : String} {window : Option Window} {calls : List OperatorCall}
    {call : OperatorCall}
    (hcall : call ∈ ((f.canonical space).extract registry window calls).2.drop calls.length) :
    call.window = window := by
  obtain ⟨records, hcalls, _, hrecords, _⟩ :=
    Extraction.run_adds ⟨text, f, hread, space, window⟩ registry calls
  have hmem : call ∈ records := by
    rwa [show ((f.canonical space).extract registry window calls).2 = calls ++ records from hcalls,
      List.drop_left] at hcall
  obtain ⟨_, _, _, hrecorded⟩ := hrecords call hmem
  exact hrecorded.window_eq

/-- The window of a definition survives the way through JSON.  An operator call that is taken out of
the definition is written with a frame and with peers; a JSON definition with these two and the
function of the first definition is read as a definition of that function, with the same peers and
with a frame of the same bounds.  A null in it stands for the infinity of its side. -/
theorem Definition.ofJson_of_extracted {d : Definition} {w : Window} (hwindow : d.window = some w)
    (hcheck : d.checkFrame = .ok ()) {f : RowFunction}
    (hread : RowFunction.parse d.function = .ok f) {registry : Registry} {space : String}
    {calls : List OperatorCall} {call : OperatorCall}
    (hcall : call ∈ ((f.canonical space).extract registry d.window calls).2.drop calls.length)
    (name : String) {members : List (String × Json)}
    (hfunction : Table.get? "function" members = some (.string d.function))
    (hframe : Table.get? "frame" members = call.toJson.member? "frame")
    (hpeers : Table.get? "peers" members = call.toJson.member? "peers") :
    ∃ frame, Definition.ofJson name (.object members) =
        .ok ⟨d.function, some ⟨frame, w.peers⟩⟩ ∧ w.frame.ReadBackAs frame := by
  have hcarried : call.window = some w := (window_of_extracted hread hcall).trans hwindow
  obtain ⟨hwritten, hwritten'⟩ := OperatorCall.member?_toJson hcarried
  have hpasses : w.frame.check = .ok () := by
    rwa [Definition.checkFrame, hwindow] at hcheck
  obtain ⟨frame, hframe', hsame⟩ := Frame.ofJson_of_check name hpasses
  refine ⟨frame, ?_, hsame⟩
  rw [Definition.ofJson, hfunction, hframe, hwritten, hpeers, hwritten']
  simp only [hframe', Window.peersOfJson]
  rfl

/-- Negative zero is written as an integer, without its sign. -/
lemma Json.ofFloat_negativeZero : Json.ofFloat (-0) = .number 0 := by
  have hparts : Number.Dyadic.ofFloat? (-0) = some ⟨true, 0, -1074⟩ := by decide
  have hwhole : Number.Dyadic.isWhole ⟨true, 0, -1074⟩ = true := by
    rw [Number.Dyadic.isWhole, Nat.zero_mod]
    rfl
  have htruncate : Number.Dyadic.truncate ⟨true, 0, -1074⟩ = 0 := by
    simp [Number.Dyadic.truncate, Number.Dyadic.floorAbs]
  rw [Json.ofFloat, hparts]
  simp only [hwhole, htruncate]
  rfl

/-- The mean of a column over all rows up to the current one, which is given as negative zero. -/
def meanUpToNegativeZero : Definition :=
  ⟨"d=>mean(d.x)", some ⟨⟨-Number.infinity, -0⟩, false⟩⟩

/-- An open side is written as null and negative zero as an integer. -/
theorem Definition.ofJson_of_extracted_meanUpToNegativeZero :
    ∃ frame, Definition.ofJson "v" (.object [("peers", .boolean false),
        ("function", .string "d=>mean(d.x)"), ("frame", .array [.null, .number 0])]) =
          .ok ⟨"d=>mean(d.x)", some ⟨frame, false⟩⟩ ∧
      Frame.ReadBackAs ⟨-Number.infinity, -0⟩ frame := by
  have hcall : ⟨"mean", ["data.x.get(row)"], [], 0, meanUpToNegativeZero.window⟩ ∈
      ((Extraction.meanX.canonical "op").extract RowFunction.meanAndLag
        meanUpToNegativeZero.window []).2.drop ([] : List OperatorCall).length :=
    List.mem_singleton_self _
  refine Definition.ofJson_of_extracted (d := meanUpToNegativeZero) rfl rfl Extraction.parse_meanX
    hcall "v" rfl ?_ rfl
  rw [(OperatorCall.member?_toJson rfl).1, ← Json.ofFloat_negativeZero]
  rfl

end RowExpr
