import FormLang.Proofs.Evaluation.Atoms
import FormLang.Proofs.Numeric.Residue

/-!
Contract: every number of a session is without residue.

Owns: that the atoms without residue are closed under all that makes atoms, and the theorem
about everything that a session reads, binds, finds on its way and ends with.
-/

set_option autoImplicit false

namespace FormLang

open Numeric

/-- The numbers that the atom consists of. -/
def Atom.parts : Atom → List Float
  | .number value => [value]
  | .complex value => [value.re, value.im]
  | _ => []

/-- The numbers that the atom consists of have no residue. -/
def Atom.Cleared (atom : Atom) : Prop :=
  ∀ part ∈ atom.parts, Numeric.Cleared part

theorem Atom.Computed.cleared {atom : Atom} (computed : atom.Computed) : atom.Cleared := by
  intro part member
  cases computed with
  | number value =>
      rw [List.mem_singleton.mp member]
      exact cleared_clearResidue value
  | complex value =>
      obtain rfl | rfl : part = clearResidue value.re ∨ part = clearResidue value.im := by
        simpa [Atom.ofComplex, Atom.parts, Complex.clearResidue] using member
      · exact cleared_clearResidue value.re
      · exact cleared_clearResidue value.im

/-- A lexeme stands for a number without residue, or for no number at all. -/
theorem Source.FromLexeme.cleared {atom : Atom} (fromLexeme : Source.FromLexeme atom) :
    atom.Cleared := by
  obtain ⟨text, -, classified⟩ := fromLexeme
  unfold Source.classify at classified
  split at classified
  · cases classified
    exact (Atom.Computed.number _).cleared
  · split at classified
    · cases classified
    · split at classified <;> cases classified <;> exact fun part member => by cases member

theorem Atom.closed_cleared : Atom.Closed Atom.Cleared where
  nothing part member := by cases member
  computed computed := computed.cleared
  fromLexeme fromLexeme := fromLexeme.cleared

namespace Evaluation

/-- Every number of a session is without residue: it is none, or the positive zero, or infinite,
or further from zero than `2 ^ -52`. After any sequence of programs this holds of the outcomes,
of all that is bound, and of the program that was read last. It holds of every program that is
read next, and of all that its evaluation finds on its way, in whatever scope, and leaves
behind. -/
theorem numbers_cleared {outcomes : List (String × Except ProgramError Expr)} {session : Session}
    (runs : Session.fresh.Runs outcomes session) :
    (∀ number, Cleared number ↔ number.isNaN = true ∨ number = 0 ∨ number.isInf = true ∨
        ∃ distance ∈ distance? number, (2 : ℚ) ^ (-52 : Int) < distance) ∧
      (∀ text outcome, (text, outcome) ∈ outcomes → Outcome.MadeOf Atom.Cleared outcome) ∧
      session.MadeOf Atom.Cleared ∧
      ∀ text program, Source.read text = .ok program →
        program.MadeOf Atom.Cleared ∧
          ∀ activity, Within (.evaluation program session.environment) activity →
            activity.MadeOf Atom.Cleared ∧
              ∀ budget outcome left, activity.ending budget = some (outcome, left) →
                Outcome.MadeOf Atom.Cleared (outcome.mapError .semantic) ∧
                  left.Binds (Expr.MadeOf Atom.Cleared) := by
  have closed := Atom.closed_cleared
  obtain ⟨session, outcomes⟩ := runs_madeOf closed (fresh_madeOf closed) runs
  refine ⟨fun number => ?_, outcomes, session, fun text program read => ?_⟩
  · rw [cleared_iff, threshold_lt_abs_iff]
  have programMadeOf := read_madeOf closed read
  refine ⟨programMadeOf, fun activity within => ?_⟩
  have activityMadeOf := within_madeOf closed within ⟨programMadeOf, session.binds⟩
  exact ⟨activityMadeOf, fun budget outcome left ended => ending_madeOf closed activityMadeOf ended⟩

/-- `(define zero -0)`, as it is read. -/
def zeroDefinition : Expr :=
  .form (.symbol "define") [.leaf (.symbol "zero"), .leaf (.number 0)]

/-- A session that has defined a negative zero, and holds a positive one. -/
def zeroSession : Session :=
  ⟨Environment.initial.bind "zero" (.leaf (.number 0)), some zeroDefinition⟩

/-- The negative zero has residue, and no session that has defined it holds it. -/
theorem negative_zero_unbound :
    ¬ Cleared (-0) ∧ Outcome.MadeOf Atom.Cleared (.ok (.leaf (.number 0))) ∧
      zeroSession.MadeOf Atom.Cleared := by
  have read : Source.read "(define zero -0)" = .ok zeroDefinition := by decide +kernel
  have ran : Session.fresh.run 2 "(define zero -0)" =
      some (.ok (.leaf (.number 0)), zeroSession) := by
    unfold Session.run Session.load
    rw [read]
    rfl
  have residue : clearResidue (-0) ≠ -0 := by decide +kernel
  obtain ⟨-, outcomes, session, -⟩ := numbers_cleared (.program 2 ran (.none zeroSession))
  exact ⟨residue, outcomes _ _ List.mem_cons_self, session⟩

end Evaluation

end FormLang
