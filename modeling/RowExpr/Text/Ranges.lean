/-
# Sets of characters as ranges of code points

The character classes of the expression language are properties of the Unicode standard. Each
one is a table of closed ranges in increasing order, and membership is a walk along the table
that stops at the first range above the code point.
-/
namespace RowExpr.Text

/-- Closed ranges of code points, in increasing order and apart from one another. -/
abbrev Ranges := List (Nat × Nat)

/-- Whether the code point `n` lies in one of the ranges. -/
def Ranges.contains : Ranges → Nat → Bool
  | [], _ => false
  | (low, high) :: rest, n =>
    if n < low then false else if n ≤ high then true else Ranges.contains rest n

/-- Whatever a table contains lies between the two ends of one of its ranges. -/
theorem Ranges.exists_of_contains {table : Ranges} {n : Nat} (h : table.contains n = true) :
    ∃ r ∈ table, r.1 ≤ n ∧ n ≤ r.2 := by
  induction table with
  | nil => simp [Ranges.contains] at h
  | cons r rest ih =>
    obtain ⟨low, high⟩ := r
    rw [Ranges.contains] at h
    split at h
    · simp at h
    · split at h
      · exact ⟨(low, high), by simp, by simp; omega⟩
      · obtain ⟨r, hr, hn⟩ := ih h
        exact ⟨r, by simp [hr], hn⟩

end RowExpr.Text
