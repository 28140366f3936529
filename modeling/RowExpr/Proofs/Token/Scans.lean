/-
# Readings that succeed

A scanner returns what it read, what is left of the text and a proof that the second is an end
piece of it. The statements about scanners are about the first two only: which value is read and
what is left. At the end of the file the same is done for whole runs of tokens: which token a text
starts with, and what the run behind it is (`TokenRun.scan_of_scans`).
-/
import Mathlib.Data.List.TakeWhile
import RowExpr.Token.Scan

namespace RowExpr

/-- The reading succeeds with `value` and leaves `rest`. -/
def Scans {cs : List Char} {α : Type} (result : Except ScanFault (Scanned cs α)) (value : α)
    (rest : List Char) : Prop :=
  ∃ suffix, result = .ok ⟨value, rest, suffix⟩

section Scans

variable {cs : List Char} {α β : Type}

@[simp] lemma scans_ok {s : Scanned cs α} {value : α} {rest : List Char} :
    Scans (.ok s) value rest ↔ s.value = value ∧ s.rest = rest := by
  constructor
  · rintro ⟨h, hs⟩
    cases hs
    exact ⟨rfl, rfl⟩
  · rintro ⟨rfl, rfl⟩
    exact ⟨s.suffix, rfl⟩

@[simp] lemma not_scans_error {f : ScanFault} {value : α} {rest : List Char} :
    ¬ Scans (.error f : Except ScanFault (Scanned cs α)) value rest := by
  rintro ⟨h, hs⟩
  cases hs

lemma scans_bind {x : Except ScanFault β} {f : β → Except ScanFault (Scanned cs α)} {value : α}
    {rest : List Char} :
    Scans (x >>= f) value rest ↔ ∃ b, x = .ok b ∧ Scans (f b) value rest := by
  cases x with
  | error e => simp [bind, Except.bind]
  | ok b => simp [bind, Except.bind]

lemma Scans.unique {result : Except ScanFault (Scanned cs α)} {v w : α} {rest rest' : List Char}
    (h : Scans result v rest) (h' : Scans result w rest') : v = w ∧ rest = rest' := by
  obtain ⟨_, h⟩ := h
  obtain ⟨_, h'⟩ := h'
  rw [h] at h'
  cases h'
  exact ⟨rfl, rfl⟩

/-- A reading of a piece of the text, whose value and start are adjusted afterwards. -/
lemma scans_bind_ok {cs' : List Char} {x : Except ScanFault (Scanned cs' β)}
    {f : Scanned cs' β → Except ScanFault (Scanned cs α)} {value : α} {rest : List Char} :
    Scans (x >>= f) value rest ↔
      ∃ b left suffix, Scans x b left ∧ Scans (f ⟨b, left, suffix⟩) value rest := by
  rw [scans_bind]
  constructor
  · rintro ⟨s, hs, h⟩
    exact ⟨s.value, s.rest, s.suffix, ⟨s.suffix, hs⟩, h⟩
  · rintro ⟨b, left, suffix, ⟨_, hs⟩, h⟩
    exact ⟨⟨b, left, suffix⟩, hs, h⟩

lemma scans_within {cs' rest : List Char} {x : Except ScanFault (Scanned cs' α)}
    {h : cs' <:+ cs} {value : α} :
    Scans (do let s ← x; return s.within h) value rest ↔ Scans x value rest := by
  rw [scans_bind_ok]
  constructor
  · rintro ⟨v, left, _, hv, h⟩
    obtain ⟨rfl, rfl⟩ := scans_ok.1 h
    exact hv
  · intro hx
    exact ⟨value, rest, hx.1, hx, scans_ok.2 ⟨rfl, rfl⟩⟩

lemma before_append_self (text rest : List Char) : before (text ++ rest) rest = text := by
  simp [before]

end Scans

/-- A run of `p` ends where something else stands. -/
lemma span_append {p : Char → Bool} {text rest : List Char} (htext : ∀ c ∈ text, p c)
    (hrest : ∀ c, rest.head? = some c → p c = false) :
    (text ++ rest).takeWhile p = text ∧ (text ++ rest).dropWhile p = rest := by
  rw [List.takeWhile_append_of_pos htext, List.dropWhile_append_of_pos htext]
  cases rest with
  | nil => simp
  | cons c r => simp [hrest c rfl]

lemma head?_dropWhile_eq_false {p : Char → Bool} {cs : List Char} {c : Char}
    (h : (cs.dropWhile p).head? = some c) : p c = false := by
  have := List.head?_dropWhile_not p cs
  rw [h] at this
  simpa using this

/-- What can be decided along a list holds of its members. -/
lemma forall_mem_of_all {α : Type} {p : α → Prop} [DecidablePred p] {l : List α}
    (h : l.all (fun a => decide (p a)) = true) : ∀ a ∈ l, p a := by
  simpa using h

/-! ## Runs of tokens -/

/-- No blank and no comment starts with `c`, which `r` follows. -/
def StartsToken (c : Char) (r : List Char) : Prop :=
  Text.isBlank c = false ∧ (c = '/' → r.head? ≠ some '/' ∧ r.head? ≠ some '*')

lemma skipGap_of_startsToken {c : Char} {r : List Char} (h : StartsToken c r) :
    Token.skipGap .blanks (c :: r) = .ok ⟨c :: r, List.suffix_refl _⟩ := by
  rw [Token.skipGap]
  case x_2 =>
    rintro r' rfl hr
    subst hr
    exact (h.2 rfl).1 rfl
  case x_3 =>
    rintro r' rfl hr
    subst hr
    exact (h.2 rfl).2 rfl
  simp [h.1]

lemma skipGap_blank {c : Char} {r : List Char} (h : Text.isBlank c = true) :
    Token.skipGap .blanks (c :: r) = (Token.skipGap .blanks r).map fun s =>
      ⟨s.1, s.2.trans (List.suffix_cons c r)⟩ := by
  have hc : c ≠ '/' := by
    rintro rfl
    revert h
    decide
  rw [Token.skipGap]
  case x_2 => rintro r' rfl; exact absurd rfl hc
  case x_3 => rintro r' rfl; exact absurd rfl hc
  rw [if_pos h]
  cases Token.skipGap .blanks r <;> rfl

namespace TokenRun

variable {stop : Nat} {c : Char} {r : List Char}

/-- The token that a text starts with comes first, and the run of the rest behind it. -/
theorem scan_of_scans (hstart : StartsToken c r) {token : Token} {rest : List Char}
    (h : Scans (Token.scanToken stop c r) token rest) :
    scan stop (c :: r) = (scan stop rest).cons ⟨stop - (r.length + 1), token⟩ := by
  obtain ⟨_, h⟩ := h
  rw [scan, skipGap_of_startsToken hstart]
  simp [h]

lemma scan_of_fault (hstart : StartsToken c r) {f : ScanFault}
    (h : Token.scanToken stop c r = .error f) : scan stop (c :: r) = faulty stop f := by
  rw [scan, skipGap_of_startsToken hstart]
  simp [h]

lemma scan_nil (stop : Nat) : scan stop [] = ⟨[], .eof stop⟩ := by
  rw [scan]
  simp [Token.skipGap]

lemma scan_blank (h : Text.isBlank c = true) : scan stop (c :: r) = scan stop r := by
  rw [scan.eq_1 stop (c :: r), scan.eq_1 stop r, skipGap_blank h]
  cases Token.skipGap .blanks r with
  | error f => rfl
  | ok s =>
    obtain ⟨rest, _⟩ := s
    cases rest <;> rfl

end TokenRun

end RowExpr
