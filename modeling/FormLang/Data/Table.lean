/-!
Contract: tables of named entries.

A table is a list of pairs in the order in which the names were first set. Looking a
name up is `List.lookup`; the first entry of a name is the one that counts, and
`set` keeps one entry for each name it writes.

Owns: `set` and the laws of looking up after it.
-/

set_option autoImplicit false

namespace FormLang

/-- Named entries, in the order in which the names were first set. -/
abbrev Table (α : Type) := List (String × α)

namespace Table

variable {α : Type}

/-- Set the entry of a name: a name that is present keeps its place, a new one goes
to the end. -/
def set (name : String) (entry : α) : Table α → Table α
  | [] => [(name, entry)]
  | (present, old) :: rest =>
      if present = name then (present, entry) :: rest
      else (present, old) :: set name entry rest

@[simp] theorem lookup_set_same (name : String) (entry : α) (table : Table α) :
    List.lookup name (set name entry table) = some entry := by
  induction table with
  | nil => simp [set]
  | cons first rest inductionHypothesis =>
      obtain ⟨present, old⟩ := first
      by_cases same : present = name
      · simp [set, same]
      · have different : (name == present) = false := by
          simpa using fun equal => same (Eq.symm equal)
        simp [set, same, List.lookup_cons, different, inductionHypothesis]

theorem lookup_set_other {name other : String} (entry : α) (table : Table α)
    (different : other ≠ name) :
    List.lookup other (set name entry table) = List.lookup other table := by
  have unequal : (other == name) = false := by simpa using different
  induction table with
  | nil => simp [set, List.lookup_cons, unequal]
  | cons first rest inductionHypothesis =>
      obtain ⟨present, old⟩ := first
      by_cases same : present = name
      · subst same
        simp [set, List.lookup_cons, unequal]
      · simp [set, same, List.lookup_cons, inductionHypothesis]

/-- An entry of a table that was set is the new one or an old one. -/
theorem mem_set {name other : String} {entry found : α} {table : Table α}
    (member : (other, found) ∈ set name entry table) :
    found = entry ∨ (other, found) ∈ table := by
  induction table with
  | nil =>
      left
      exact (Prod.mk.inj (List.mem_singleton.mp member)).2
  | cons first rest inductionHypothesis =>
      obtain ⟨present, old⟩ := first
      by_cases same : present = name
      · rw [set, if_pos same] at member
        rcases List.mem_cons.mp member with new | later
        · exact Or.inl (Prod.mk.inj new).2
        · exact Or.inr (List.mem_cons_of_mem _ later)
      · rw [set, if_neg same] at member
        rcases List.mem_cons.mp member with kept | later
        · exact Or.inr (kept ▸ List.mem_cons_self)
        · rcases inductionHypothesis later with new | earlier
          · exact Or.inl new
          · exact Or.inr (List.mem_cons_of_mem _ earlier)

/-- What is looked up is an entry. -/
theorem mem_of_lookup {name : String} {entry : α} {table : Table α}
    (found : List.lookup name table = some entry) : (name, entry) ∈ table := by
  obtain ⟨before, behind, rfl, -⟩ := List.lookup_eq_some_iff.mp found
  exact List.mem_append_right before List.mem_cons_self

end Table

end FormLang
