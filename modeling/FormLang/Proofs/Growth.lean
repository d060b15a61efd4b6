import FormLang.Proofs.Scopes

/-!
Contract: what can become of an environment.

Owns: growth, in which no binding is lost or replaced and the scopes of the callers stay
as they are, and the writes that are growth.
-/

set_option autoImplicit false

namespace FormLang.Environment

/-- The later environment has all bindings of the earlier one. Of a bound value only its
own properties may have changed. -/
structure Grows (earlier later : Environment) : Prop where
  callers : later.callers = earlier.callers
  procedure : ∀ {name builtIn}, earlier.lookup name = some (.procedure builtIn) →
    later.lookup name = some (.procedure builtIn)
  value : ∀ {name value}, earlier.lookup name = some (.value value) →
    ∃ value', later.lookup name = some (.value value') ∧
      value'.head = value.head ∧ value'.tail = value.tail

namespace Grows

variable {earlier middle later environment : Environment} {name : String}

theorem refl (environment : Environment) : environment.Grows environment where
  callers := rfl
  procedure found := found
  value found := ⟨_, found, rfl, rfl⟩

theorem trans (first : earlier.Grows middle) (second : middle.Grows later) :
    earlier.Grows later where
  callers := second.callers.trans first.callers
  procedure found := second.procedure (first.procedure found)
  value found := by
    obtain ⟨value', found', head', tail'⟩ := first.value found
    obtain ⟨value'', found'', head'', tail''⟩ := second.value found'
    exact ⟨value'', found'', head''.trans head', tail''.trans tail'⟩

/-- A name that stands for something never ceases to. -/
theorem bound (grows : earlier.Grows later) (known : earlier.lookup name ≠ none) :
    later.lookup name ≠ none := by
  cases found : earlier.lookup name with
  | none => exact absurd found known
  | some binding =>
      cases binding with
      | procedure builtIn =>
          rw [grows.procedure found]
          exact Option.some_ne_none _
      | value value =>
          obtain ⟨value', found', -, -⟩ := grows.value found
          rw [found']
          exact Option.some_ne_none _

/-- Binding a new name is growth. -/
theorem bind_new (value : Expr) (unbound : environment.lookup name = none) :
    environment.Grows (environment.bind name value) where
  callers := rfl
  procedure {other builtIn} found := by
    have different : other ≠ name := by
      intro same
      rw [same, unbound] at found
      cases found
    rw [lookup_bind_other environment value different]
    exact found
  value {other bound} found := by
    have different : other ≠ name := by
      intro same
      rw [same, unbound] at found
      cases found
    rw [lookup_bind_other environment value different]
    exact ⟨bound, found, rfl, rfl⟩

/-- Setting a property of a bound value is growth. -/
theorem bind_annotated {annotated : Expr} (key : String) (entry : Expr)
    (found : environment.lookup name = some (.value annotated)) :
    environment.Grows (environment.bind name (annotated.setProperty key entry)) where
  callers := rfl
  procedure {other builtIn} known := by
    have different : other ≠ name := by
      intro same
      rw [same, found] at known
      cases known
    rw [lookup_bind_other environment _ different]
    exact known
  value {other bound} known := by
    rw [lookup_bind]
    by_cases same : other = name
    · subst same
      rw [found] at known
      cases known
      exact ⟨_, if_pos rfl, rfl, rfl⟩
    · rw [if_neg same]
      exact ⟨bound, known, rfl, rfl⟩

end Grows

end FormLang.Environment
