/-
# Reading from the front of a text

A scanner takes something off the front of a text and returns what is left, together with the
fact that it is an end piece of the text: so it never grows, and what was taken can be recovered.
-/
namespace RowExpr

/-- Something read from the front of `cs`, and what is left of `cs`. -/
structure Scanned (cs : List Char) (α : Type) where
  value : α
  rest : List Char
  suffix : rest <:+ cs

/-- What stands in `cs` before its end piece `rest`. -/
def before (cs rest : List Char) : List Char := cs.take (cs.length - rest.length)

theorem before_append {cs rest : List Char} (h : rest <:+ cs) : before cs rest ++ rest = cs := by
  obtain ⟨front, rfl⟩ := h
  simp [before]

theorem length_before {cs rest : List Char} (h : rest <:+ cs) :
    (before cs rest).length + rest.length = cs.length := by
  have := congrArg List.length (before_append h)
  simpa using this

namespace Scanned

variable {cs cs' : List Char} {α β : Type}

/-- The characters that were read. -/
def lexeme (s : Scanned cs α) : List Char := before cs s.rest

theorem lexeme_append (s : Scanned cs α) : s.lexeme ++ s.rest = cs := before_append s.suffix

theorem length_le (s : Scanned cs α) : s.rest.length ≤ cs.length := s.suffix.length_le

/-- The reading that takes nothing. -/
def stay (value : α) : Scanned cs α := ⟨value, cs, List.suffix_refl cs⟩

/-- The same reading with another value. -/
def map (f : α → β) (s : Scanned cs α) : Scanned cs β := ⟨f s.value, s.rest, s.suffix⟩

/-- A reading of an end piece, seen from the whole. -/
def within (h : cs' <:+ cs) (s : Scanned cs' α) : Scanned cs α :=
  ⟨s.value, s.rest, s.suffix.trans h⟩

/-- A reading that starts one character later. -/
def after (c : Char) (s : Scanned cs α) : Scanned (c :: cs) α := s.within (List.suffix_cons c cs)

/-- A reading that starts behind the first character of an end piece. -/
def behind {c : Char} (h : c :: cs' <:+ cs) (s : Scanned cs' α) : Scanned cs α :=
  (s.after c).within h

@[simp] theorem value_map (f : α → β) (s : Scanned cs α) : (s.map f).value = f s.value := rfl

@[simp] theorem rest_map (f : α → β) (s : Scanned cs α) : (s.map f).rest = s.rest := rfl

@[simp] theorem value_after (c : Char) (s : Scanned cs α) : (s.after c).value = s.value := rfl

@[simp] theorem rest_after (c : Char) (s : Scanned cs α) : (s.after c).rest = s.rest := rfl

@[simp] theorem value_within (h : cs' <:+ cs) (s : Scanned cs' α) :
    (s.within h).value = s.value := rfl

@[simp] theorem rest_within (h : cs' <:+ cs) (s : Scanned cs' α) :
    (s.within h).rest = s.rest := rfl

end Scanned

end RowExpr
