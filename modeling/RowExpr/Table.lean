/-
# Tables

Values under names, in the order in which the names were first given. Giving a name again replaces
its value and keeps its place.
-/
namespace RowExpr

/-- Values under names, in order. -/
abbrev Table (α : Type) := List (String × α)

namespace Table

variable {α : Type}

/-- The value under a name. -/
def get? (name : String) : Table α → Option α
  | [] => none
  | (key, value) :: rest => if key = name then some value else get? name rest

/-- The table with a value under a name, in its old place if the name had one, else at the end. -/
def insert (name : String) (value : α) : Table α → Table α
  | [] => [(name, value)]
  | (key, old) :: rest =>
    if key = name then (key, value) :: rest else (key, old) :: insert name value rest

/-- The table that arises from the given entries, one after the other. -/
def ofList (entries : List (String × α)) : Table α :=
  entries.foldl (fun table (name, value) => insert name value table) []

/-- Giving a name adds it to the names at the end, unless it is there already. -/
theorem keys_insert (table : Table α) (name : String) (value : α) :
    (insert name value table).map (·.1) =
      if name ∈ table.map (·.1) then table.map (·.1) else table.map (·.1) ++ [name] := by
  induction table with
  | nil => simp [insert]
  | cons entry rest ih =>
    obtain ⟨k, v⟩ := entry
    by_cases h : k = name
    · simp [insert, h]
    · have hne : name ≠ k := fun e => h e.symm
      simp only [insert, h, if_false, List.map_cons, ih, List.mem_cons, hne, false_or]
      split <;> simp

/-- Names stay distinct. -/
theorem nodup_keys_insert (table : Table α) (name : String) (value : α)
    (h : (table.map (·.1)).Nodup) : ((insert name value table).map (·.1)).Nodup := by
  rw [keys_insert]
  split
  · exact h
  · rename_i hn
    rw [List.nodup_append]
    refine ⟨h, by simp, ?_⟩
    intro a ha b hb
    simp only [List.mem_singleton] at hb
    subst hb
    exact fun e => hn (e ▸ ha)

/-- The names of a table that arises from entries are distinct. -/
theorem nodup_keys_ofList (entries : List (String × α)) :
    ((ofList entries).map (·.1)).Nodup := by
  -- the induction is on the entries that are still to come, after any table
  have hfrom : ∀ table : Table α, (table.map (·.1)).Nodup →
      ((entries.foldl (fun table (name, value) => insert name value table) table).map
        (·.1)).Nodup := by
    induction entries with
    | nil => exact fun _ h => h
    | cons entry rest ih => exact fun table h => ih _ (nodup_keys_insert table _ _ h)
  exact hfrom [] List.nodup_nil

end Table

end RowExpr
