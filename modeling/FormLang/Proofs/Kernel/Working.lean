import FormLang.Proofs.Kernel.Answers

/-!
Contract: what a worker does while its client waits.

Owns: the steps of the worker alone, what they keep of a course, and that the flag is set
wherever a worker is there and no request of the client is open.
-/

set_option autoImplicit false

namespace FormLang

/-- The steps up to the next answer, if a program waits. -/
def Stage.due : Stage → Nat
  | .preparing => 5
  | .checking => 4
  | .fetching => 3
  | .holding _ => 2
  | .publishing _ => 1

namespace Kernel

variable {kernel next : Kernel} {budget count : Nat}

/-- The worker has made some steps, each with whatever budget it takes. -/
def WorksOn : Kernel → Kernel → Prop :=
  Relation.ReflTransGen fun kernel next => ∃ budget, kernel.advance budget = some next

theorem WorksOn.refl (kernel : Kernel) : kernel.WorksOn kernel :=
  Relation.ReflTransGen.refl

theorem advanceBy_worksOn (advanced : kernel.advanceBy budget count = some next) :
    kernel.WorksOn next := by
  induction count generalizing kernel with
  | zero =>
      cases advanced
      exact .refl _
  | succ count inductionHypothesis =>
      obtain ⟨middle, first, rest⟩ := Option.bind_eq_some_iff.mp advanced
      exact Relation.ReflTransGen.head ⟨budget, first⟩ (inductionHypothesis rest)

theorem isActive_of_worker {worker : Worker} (there : kernel.worker = some worker) :
    kernel.isActive = true := by
  rw [isActive, there]
  rfl

/-- A step leaves the flag as it is, and a worker leaves only where the flag is taken back. -/
theorem advance_active (advanced : kernel.advance budget = some next) :
    next.active = kernel.active ∧ (next.isActive = true → kernel.isActive = true) ∧
      (kernel.active = true → next.isActive = kernel.isActive) := by
  cases advance_cases advanced with
  | absent _ => exact ⟨rfl, id, fun _ => rfl⟩
  | prepares worker _ =>
      exact ⟨rfl, fun _ => isActive_of_worker worker, fun _ => (isActive_of_worker worker).symm⟩
  | goesOn worker _ =>
      exact ⟨rfl, fun _ => isActive_of_worker worker, fun _ => (isActive_of_worker worker).symm⟩
  | leaves worker inactive =>
      refine ⟨rfl, fun _ => isActive_of_worker worker, fun active => ?_⟩
      rw [inactive] at active
      cases active
  | findsNothing worker _ =>
      exact ⟨rfl, fun _ => isActive_of_worker worker, fun _ => (isActive_of_worker worker).symm⟩
  | takes worker _ =>
      exact ⟨rfl, fun _ => isActive_of_worker worker, fun _ => (isActive_of_worker worker).symm⟩
  | answers worker _ =>
      exact ⟨rfl, fun _ => isActive_of_worker worker, fun _ => (isActive_of_worker worker).symm⟩
  | posts worker =>
      exact ⟨rfl, fun _ => isActive_of_worker worker, fun _ => (isActive_of_worker worker).symm⟩

/-- A worker that is there may go on. -/
def Flagged (kernel : Kernel) : Prop :=
  kernel.isActive = true → kernel.active = true

theorem not_isActive_of_worker (left : kernel.worker = none) : ¬ kernel.isActive = true := by
  rw [isActive, left]
  exact Bool.false_ne_true

theorem advance_flagged (flagged : kernel.Flagged) (advanced : kernel.advance budget = some next) :
    next.Flagged ∧ next.isActive = kernel.isActive := by
  obtain ⟨same, running, stays⟩ := advance_active advanced
  by_cases active : kernel.active = true
  · exact ⟨fun _ => same.trans active, stays active⟩
  · have absent : ¬ kernel.isActive = true := fun there => active (flagged there)
    have gone : ¬ next.isActive = true := fun there => absent (running there)
    exact ⟨fun there => absurd there gone,
      (Bool.eq_false_iff.mpr gone).trans (Bool.eq_false_iff.mpr absent).symm⟩

/-- A worker that may go on is there as long as the client does nothing. -/
theorem WorksOn.flagged (works : kernel.WorksOn next) (flagged : kernel.Flagged) :
    next.Flagged ∧ next.isActive = kernel.isActive := by
  induction works with
  | refl => exact ⟨flagged, rfl⟩
  | tail _ step inductionHypothesis =>
      obtain ⟨budget, advanced⟩ := step
      obtain ⟨middle, running⟩ := inductionHypothesis
      obtain ⟨last, stillRunning⟩ := advance_flagged middle advanced
      exact ⟨last, stillRunning.trans running⟩

/-- Starting a kernel leaves it with a worker that may go on. -/
theorem start_active (flagged : kernel.Flagged) :
    kernel.start.isActive = true ∧ kernel.start.active = true := by
  unfold start
  by_cases running : kernel.isActive = true
  · rw [if_pos running]
    exact ⟨running, flagged running⟩
  · rw [if_neg running]
    exact ⟨rfl, rfl⟩

/-! ## Waiting for an answer -/

/-- An answer has been posted, or will be within some steps of a worker that may go on. -/
def PostsWithin (steps : Nat) (kernel : Kernel) : Prop :=
  kernel.output.waiting ≠ [] ∨
    ∃ session stage, kernel.worker = some ⟨session, stage⟩ ∧ kernel.active = true ∧
      (kernel.input.waiting ≠ [] ∨ stage.due ≤ 2) ∧ stage.due ≤ steps

theorem PostsWithin.mono {steps more : Nat} (posts : kernel.PostsWithin steps)
    (atLeast : steps ≤ more) : kernel.PostsWithin more :=
  posts.imp_right fun ⟨session, stage, worker, active, waits, within⟩ =>
    ⟨session, stage, worker, active, waits, Nat.le_trans within atLeast⟩

/-- Every step brings the answer closer. -/
theorem advance_postsWithin {steps : Nat} (posts : kernel.PostsWithin (steps + 1))
    (advanced : kernel.advance budget = some next) : next.PostsWithin steps := by
  rcases posts with posted | ⟨session, stage, worker, active, waits, within⟩
  · refine .inl ?_
    cases advance_cases advanced with
    | posts _ => exact List.append_ne_nil_of_right_ne_nil _ (List.cons_ne_nil _ _)
    | _ => exact posted
  · have later : ∀ {session stage}, next.worker = some ⟨session, stage⟩ → next.active = true →
        (next.input.waiting ≠ [] ∨ stage.due ≤ 2) → stage.due ≤ steps →
        next.PostsWithin steps := fun worker active waits within =>
      .inr ⟨_, _, worker, active, waits, within⟩
    cases advance_cases advanced with
    | absent gone =>
        rw [gone] at worker
        cases worker
    | leaves _ inactive =>
        rw [inactive] at active
        cases active
    | posts _ => exact .inl (List.append_ne_nil_of_right_ne_nil _ (List.cons_ne_nil _ _))
    | prepares now _ =>
        rw [now] at worker
        cases worker
        exact later rfl active (waits.imp_right (by decide)) (Nat.le_of_succ_le_succ within)
    | goesOn now _ =>
        rw [now] at worker
        cases worker
        exact later rfl active (waits.imp_right (by decide)) (Nat.le_of_succ_le_succ within)
    | findsNothing now empty =>
        rw [now] at worker
        cases worker
        rcases waits with waits | impossible
        · exact absurd empty waits
        · exact absurd impossible (by decide)
    | takes now _ =>
        rw [now] at worker
        cases worker
        exact later rfl active (.inr (Nat.le_refl 2)) (Nat.le_of_succ_le_succ within)
    | answers now _ =>
        rw [now] at worker
        cases worker
        exact later rfl active (.inr (Nat.le_succ 1)) (Nat.le_of_succ_le_succ within)

theorem advanceBy_posts (posts : kernel.PostsWithin count)
    (advanced : kernel.advanceBy budget count = some next) : next.output.waiting ≠ [] := by
  induction count generalizing kernel with
  | zero =>
      cases advanced
      rcases posts with posted | ⟨_, stage, -, -, -, within⟩
      · exact posted
      · cases stage <;> cases within
  | succ count inductionHypothesis =>
      obtain ⟨middle, first, rest⟩ := Option.bind_eq_some_iff.mp advanced
      exact inductionHypothesis (advance_postsWithin posts first) rest

/-- A program that is submitted to a worker has an answer within five steps. -/
theorem submit_postsWithin (flagged : kernel.Flagged) (running : kernel.isActive = true)
    (program : String) : (kernel.submit program).PostsWithin 5 := by
  obtain ⟨⟨session, stage⟩, worker⟩ := Option.isSome_iff_exists.mp running
  refine .inr ⟨session, stage, worker, flagged running, .inl ?_, ?_⟩
  · exact List.append_ne_nil_of_right_ne_nil _ (List.cons_ne_nil _ _)
  · cases stage <;> simp [Stage.due]

/-- Settling ends the wait for an answer. -/
theorem settle_posts (flagged : kernel.Flagged) (running : kernel.isActive = true)
    {program : String} (settled : (kernel.submit program).settle budget = some next) :
    next.output.waiting ≠ [] := by
  have enough : 5 ≤ 4 * (kernel.submit program).input.count + 2 := by
    have waits : (kernel.submit program).input.count = kernel.input.waiting.length + 1 :=
      List.length_append
    omega
  exact advanceBy_posts ((submit_postsWithin flagged running program).mono enough) settled

namespace Course

variable {course later last : Course}

/-- Where no request of the client is open, a worker that is there may go on. -/
theorem flagged_of_free {startup : Option String} (leads : Leads (.create startup) course)
    (free : course.request = none) : course.kernel.Flagged := by
  intro running
  induction leads with
  | refl => cases running
  | tail _ step inductionHypothesis =>
      cases step with
      | submit program => exact inductionHypothesis free running
      | receive taken =>
          obtain ⟨_, -, same⟩ := Option.map_eq_some_iff.mp taken
          cases same
          exact inductionHypothesis free running
      | start wasFree =>
          rw [start_kernel] at running ⊢
          exact (start_active (inductionHypothesis wasFree)).2
      | request wanted _ => cases free
      | stopped _ left => exact absurd running (not_isActive_of_worker left)
      | restarted _ left =>
          change (Course.start _).kernel.active = true
          rw [start_kernel]
          exact (start_active fun there => absurd there (not_isActive_of_worker left)).2
      | work budget advanced =>
          rw [observe_request] at free
          rw [observe_kernel] at running ⊢
          obtain ⟨same, wasRunning, -⟩ := advance_active advanced
          rw [same]
          exact inductionHypothesis free (wasRunning running)

/-- A course later on, after steps of the worker alone. -/
structure WorkedTo (course later : Course) : Prop where
  leads : Leads course later
  request : later.request = course.request
  submitted : later.submitted = course.submitted
  received : later.received = course.received
  active : later.kernel.active = course.kernel.active
  running : course.kernel.Flagged →
    later.kernel.Flagged ∧ later.kernel.isActive = course.kernel.isActive
  /-- As long as the flag is set, no worker leaves. -/
  past : course.kernel.active = true → later.past = course.past

theorem WorkedTo.refl (course : Course) : course.WorkedTo course :=
  ⟨.refl, rfl, rfl, rfl, rfl, fun flagged => ⟨flagged, rfl⟩, fun _ => rfl⟩

theorem WorkedTo.trans (first : course.WorkedTo later) (second : later.WorkedTo last) :
    course.WorkedTo last where
  leads := first.leads.trans second.leads
  request := second.request.trans first.request
  submitted := second.submitted.trans first.submitted
  received := second.received.trans first.received
  active := second.active.trans first.active
  running flagged := by
    obtain ⟨stillFlagged, running⟩ := first.running flagged
    obtain ⟨lastFlagged, stillRunning⟩ := second.running stillFlagged
    exact ⟨lastFlagged, stillRunning.trans running⟩
  past active := (second.past (first.active.trans active)).trans (first.past active)

theorem WorkedTo.isActive_eq (worked : course.WorkedTo later) (flagged : course.kernel.Flagged) :
    later.kernel.isActive = course.kernel.isActive :=
  (worked.running flagged).2

theorem observe_workedTo (advanced : course.kernel.advance budget = some next) :
    course.WorkedTo (course.observe next) where
  leads := .single (.work budget advanced)
  request := course.observe_request next
  submitted := by unfold observe; split <;> rfl
  received := by unfold observe; split <;> rfl
  active := by
    rw [observe_kernel]
    exact (advance_active advanced).1
  running flagged := by
    rw [observe_kernel]
    exact advance_flagged flagged advanced
  past active := by
    obtain ⟨-, -, stays⟩ := advance_active advanced
    have running := stays active
    unfold observe
    split
    · rfl
    · rfl
    · next worker gone =>
        rw [isActive, isActive, worker, gone] at running
        cases running
    · rfl

/-- Steps of the worker are a course. -/
theorem worksOn_leads (works : course.kernel.WorksOn next) :
    ∃ later, course.WorkedTo later ∧ later.kernel = next := by
  induction works with
  | refl => exact ⟨course, .refl course, rfl⟩
  | tail _ step inductionHypothesis =>
      obtain ⟨budget, advanced⟩ := step
      obtain ⟨later, worked, rfl⟩ := inductionHypothesis
      exact ⟨_, worked.trans (observe_workedTo advanced), observe_kernel _ _⟩

end Course

end Kernel

end FormLang
