import FormLang.Kernel.Worker

/-!
Contract: what a worker does.

Owns: the cases of a step of the worker, and the theorem that a stopped worker leaves
within the steps that `Kernel.stop` allows.
Does not own: what the client does meanwhile.
-/

set_option autoImplicit false

namespace FormLang.Kernel

/-- What a step of the worker can be. -/
inductive Progress (budget : Nat) (kernel : Kernel) : Kernel → Prop where
  | absent (worker : kernel.worker = none) : Progress budget kernel kernel
  | prepares {unused session : Session} (worker : kernel.worker = some ⟨unused, .preparing⟩)
      (prepared : Session.prepared budget kernel.startup = some session) :
      Progress budget kernel (kernel.withWorker session .checking)
  | goesOn {session : Session} (worker : kernel.worker = some ⟨session, .checking⟩)
      (active : kernel.active = true) : Progress budget kernel (kernel.withWorker session .fetching)
  | leaves {session : Session} (worker : kernel.worker = some ⟨session, .checking⟩)
      (inactive : kernel.active = false) : Progress budget kernel { kernel with worker := none }
  | findsNothing {session : Session} (worker : kernel.worker = some ⟨session, .fetching⟩)
      (empty : kernel.input.waiting = []) :
      Progress budget kernel (kernel.withWorker session .checking)
  | takes {session : Session} {program : String} {rest : List String}
      (worker : kernel.worker = some ⟨session, .fetching⟩)
      (next : kernel.input.waiting = program :: rest) :
      Progress budget kernel ({ kernel with input := ⟨rest⟩ }.withWorker session (.holding program))
  | answers {session left : Session} {program : String} {answer : Answer}
      (worker : kernel.worker = some ⟨session, .holding program⟩)
      (responded : session.respond budget program = some (answer, left)) :
      Progress budget kernel (kernel.withWorker left (.publishing answer))
  | posts {session : Session} {answer : Answer}
      (worker : kernel.worker = some ⟨session, .publishing answer⟩) :
      Progress budget kernel
        ({ kernel with output := kernel.output.post answer }.withWorker session .checking)

variable {budget : Nat} {kernel next : Kernel}

theorem worker_of_not_isActive (stopped : ¬ kernel.isActive = true) :
    kernel.worker = none := by
  cases worker : kernel.worker with
  | none => rfl
  | some present =>
      rw [isActive, worker] at stopped
      exact absurd rfl stopped

/-- A step of the worker is one of these. -/
theorem advance_cases (advanced : kernel.advance budget = some next) :
    Progress budget kernel next := by
  unfold advance at advanced
  cases worker : kernel.worker with
  | none =>
      rw [worker] at advanced
      cases advanced
      exact .absent worker
  | some present =>
      obtain ⟨session, stage⟩ := present
      rw [worker] at advanced
      cases stage with
      | preparing =>
          obtain ⟨prepared, ready, rfl⟩ := Option.map_eq_some_iff.mp advanced
          exact .prepares worker ready
      | checking =>
          by_cases active : kernel.active = true
          · simp only [if_pos active] at advanced
            cases advanced
            exact .goesOn worker active
          · simp only [if_neg active] at advanced
            cases advanced
            exact .leaves worker (Bool.eq_false_iff.mpr active)
      | fetching =>
          cases waiting : kernel.input.waiting with
          | nil =>
              simp only [Mailbox.take?, waiting] at advanced
              cases advanced
              exact .findsNothing worker waiting
          | cons program rest =>
              simp only [Mailbox.take?, waiting] at advanced
              cases advanced
              exact .takes worker waiting
      | holding program =>
          obtain ⟨⟨answer, left⟩, responded, rfl⟩ := Option.map_eq_some_iff.mp advanced
          exact .answers worker responded
      | publishing answer =>
          cases advanced
          exact .posts worker

/-! ## Stopping -/

/-- The greatest number of steps until a worker that is to stop has left. -/
def remaining : Option Worker → Nat
  | none => 0
  | some ⟨_, .checking⟩ => 1
  | some ⟨_, .preparing⟩ => 2
  | some ⟨_, .publishing _⟩ => 2
  | some ⟨_, .holding _⟩ => 3
  | some ⟨_, .fetching⟩ => 4

theorem remaining_le (worker : Option Worker) : remaining worker ≤ 4 := by
  unfold remaining
  split <;> omega

theorem worker_of_remaining_eq_zero {worker : Option Worker} (gone : remaining worker = 0) :
    worker = none := by
  cases worker with
  | none => rfl
  | some present =>
      obtain ⟨session, stage⟩ := present
      cases stage <;> cases gone

/-- A worker that is to stop comes closer to leaving with every step. -/
theorem remaining_advance (inactive : kernel.active = false)
    (advanced : kernel.advance budget = some next) :
    next.active = false ∧ remaining next.worker ≤ remaining kernel.worker - 1 := by
  cases advance_cases advanced with
  | absent worker =>
      rw [worker]
      exact ⟨inactive, Nat.le_refl 0⟩
  | prepares worker _ =>
      rw [worker]
      exact ⟨inactive, Nat.le_refl 1⟩
  | goesOn _ active =>
      rw [inactive] at active
      cases active
  | leaves worker _ => exact ⟨inactive, Nat.zero_le _⟩
  | findsNothing worker _ =>
      rw [worker]
      refine ⟨inactive, ?_⟩
      change 1 ≤ 4 - 1
      omega
  | takes worker _ =>
      rw [worker]
      exact ⟨inactive, Nat.le_refl 3⟩
  | answers worker _ =>
      rw [worker]
      exact ⟨inactive, Nat.le_refl 2⟩
  | posts worker =>
      rw [worker]
      exact ⟨inactive, Nat.le_refl 1⟩

/-- After as many steps as can remain, the worker has left. -/
theorem worker_advanceBy {count : Nat} (inactive : kernel.active = false)
    (enough : remaining kernel.worker ≤ count)
    (advanced : kernel.advanceBy budget count = some next) : next.worker = none := by
  induction count generalizing kernel with
  | zero =>
      cases advanced
      exact worker_of_remaining_eq_zero (Nat.le_zero.mp enough)
  | succ count inductionHypothesis =>
      obtain ⟨middle, first, rest⟩ := Option.bind_eq_some_iff.mp advanced
      obtain ⟨stillInactive, closer⟩ := remaining_advance inactive first
      exact inductionHypothesis stillInactive (by omega) rest

/-- When a stop returns, the worker has left. -/
theorem worker_stop (stopped : kernel.stop budget = some next) : next.worker = none :=
  worker_advanceBy rfl (remaining_le _) stopped

end FormLang.Kernel
