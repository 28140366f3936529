/-
# Bytes

The places in a text are counted in bytes of UTF-8, one to four for a character. A text can be cut
between two characters, and nowhere else.
-/
namespace RowExpr.Text

/-- The bytes of a text. -/
def bytes (cs : List Char) : List UInt8 := cs.flatMap String.utf8EncodeChar

/-- The front of a text with the given number of bytes. There is none if the cut goes through a
character or is behind the end. -/
def takeBytes? : List Char → Nat → Option (List Char)
  | _, 0 => some []
  | [], _ + 1 => none
  | c :: cs, n + 1 =>
    if c.utf8Size ≤ n + 1 then (takeBytes? cs (n + 1 - c.utf8Size)).map (c :: ·) else none

theorem bytes_cons (c : Char) (cs : List Char) :
    bytes (c :: cs) = String.utf8EncodeChar c ++ bytes cs := rfl

theorem utf8Size_of_lt {c : Char} (h : c.toNat < 128) : c.utf8Size = 1 := by
  rw [Char.utf8Size_eq_one_iff, UInt32.le_iff_toNat_le]
  exact Nat.le_of_lt_succ h

/-- Below 128, a character is its only byte. -/
theorem bytes_cons_of_lt {c : Char} (h : c.toNat < 128) (cs : List Char) :
    bytes (c :: cs) = UInt8.ofNat c.toNat :: bytes cs := by
  rw [bytes_cons, String.utf8EncodeChar_eq_singleton (utf8Size_of_lt h)]
  rfl

/-- All other characters begin with a byte from 128 on. -/
theorem exists_bytes_cons {c : Char} (h : 128 ≤ c.toNat) (cs : List Char) :
    ∃ b rest, bytes (c :: cs) = b :: rest ∧ 128 ≤ b.toNat := by
  have hlarge : ¬ c.val.toNat ≤ 127 := Nat.not_le_of_lt h
  simp only [bytes_cons, String.utf8EncodeChar, hlarge, if_false]
  split
  · exact ⟨_, _, rfl, by rw [UInt8.toNat_ofNat']; omega⟩
  · split
    · exact ⟨_, _, rfl, by rw [UInt8.toNat_ofNat']; omega⟩
    · exact ⟨_, _, rfl, by rw [UInt8.toNat_ofNat']; omega⟩

/-- A cut behind a character below 128 is a cut of what follows it. -/
theorem takeBytes?_cons_of_lt {c : Char} (h : c.toNat < 128) (cs : List Char) (n : Nat) :
    takeBytes? (c :: cs) (n + 1) = (takeBytes? cs n).map (c :: ·) := by
  rw [takeBytes?, utf8Size_of_lt h, if_pos (Nat.le_add_left 1 n), Nat.add_sub_cancel]

end RowExpr.Text
