import FormLang.Kernel.Taking
import Mathlib.Data.List.Basic
import Mathlib.Logic.Function.Basic

/-!
Contract: a mailbox that producers and consumers share.

Producers post and consumers take, each in turns of its own and in any order. A consumer that
sleeps may have a turn at any time, and a last one behind its deadline. However the turns follow
each other, a message leaves the mailbox in the turn that returns it and in no other, and every
message leaves behind all that were posted before it.

Owns: the turns of threads at a shared mailbox, what was posted and taken in their course, and the
theorem that the mailbox holds just what was posted and not taken, in order.
-/

set_option autoImplicit false

namespace FormLang

/-! ## One turn -/

namespace Mailbox

variable {α : Type} {mailbox : Mailbox α} {patience : Patience} {occasion : Occasion}

theorem isEmpty_iff : mailbox.isEmpty = true ↔ mailbox.count = 0 := by
  rw [isEmpty, count, List.isEmpty_iff, List.length_eq_zero_iff]

/-- A consumer that finds a message takes the one that has waited longest, and one that finds
none leaves the mailbox as it is. It gives up if it is impatient or its deadline has passed. -/
theorem turn_cases (mailbox : Mailbox α) (patience : Patience) (occasion : Occasion) :
    (∃ message rest, mailbox.waiting = message :: rest ∧
        mailbox.turn patience occasion = (.returns (some message), ⟨rest⟩)) ∨
      mailbox.waiting = [] ∧
        (mailbox.turn patience occasion = (.sleeps, mailbox) ∨
          mailbox.turn patience occasion = (.returns none, mailbox) ∧
            (patience = .impatient ∨ patience = .limited ∧ occasion = .expired)) := by
  unfold turn take?
  cases waiting : mailbox.waiting with
  | cons message rest => exact .inl ⟨message, rest, rfl, rfl⟩
  | nil =>
      refine .inr ⟨rfl, ?_⟩
      cases patience with
      | impatient => exact .inr ⟨rfl, .inl rfl⟩
      | unlimited => exact .inl rfl
      | limited =>
          cases occasion with
          | called => exact .inl rfl
          | woken => exact .inl rfl
          | expired => exact .inr ⟨rfl, .inr ⟨rfl, rfl⟩⟩

end Mailbox

/-! ## The turns of all threads -/

/-- A mailbox, and the consumers that sleep beside it, with their patience. -/
structure Sharing (Consumer α : Type) where
  mailbox : Mailbox α
  sleepers : Consumer → Option Patience

/-- What a turn comes to. -/
inductive TurnRecord (Producer Consumer α : Type) where
  | posted (producer : Producer) (message : α)
  | turned (consumer : Consumer) (patience : Patience) (turn : Turn α)

namespace Sharing

variable {Producer Consumer α : Type}

/-- Nobody has posted or called yet. -/
def fresh : Sharing Consumer α where
  mailbox := .empty
  sleepers _ := none

/-- A consumer may have a turn: it calls, it sleeps and is woken, or its deadline passes. -/
def HasTurn (sharing : Sharing Consumer α) (consumer : Consumer) (patience : Patience) :
    Occasion → Prop
  | .called => sharing.sleepers consumer = none
  | .woken => sharing.sleepers consumer = some patience
  | .expired => sharing.sleepers consumer = some patience ∧ patience = .limited

/-- A consumer sleeps behind a turn, or it does not. -/
def asleep? (patience : Patience) : Turn α → Option Patience
  | .returns _ => none
  | .sleeps => some patience

variable [DecidableEq Consumer]

/-- A producer posts, or a consumer has a turn. -/
inductive Step :
    Sharing Consumer α → TurnRecord Producer Consumer α → Sharing Consumer α → Prop where
  | post (sharing : Sharing Consumer α) (producer : Producer) (message : α) :
      Step sharing (.posted producer message)
        { sharing with mailbox := sharing.mailbox.post message }
  | turn {sharing : Sharing Consumer α} {consumer : Consumer} {patience : Patience}
      (occasion : Occasion) (hasTurn : sharing.HasTurn consumer patience occasion)
      {turn : Turn α} {mailbox : Mailbox α}
      (turns : sharing.mailbox.turn patience occasion = (turn, mailbox)) :
      Step sharing (.turned consumer patience turn)
        ⟨mailbox, Function.update sharing.sleepers consumer (asleep? patience turn)⟩

/-- The turns so far, in their order, have led here. -/
inductive Reaches : List (TurnRecord Producer Consumer α) → Sharing Consumer α → Prop where
  | fresh : Reaches [] fresh
  | step {records : List (TurnRecord Producer Consumer α)} {sharing next : Sharing Consumer α}
      {record : TurnRecord Producer Consumer α} (reaches : Reaches records sharing)
      (step : Step sharing record next) : Reaches (records ++ [record]) next

end Sharing

/-! ## What was posted and taken -/

namespace TurnRecord

variable {Producer Consumer α : Type}

def posted? : TurnRecord Producer Consumer α → Option (Producer × α)
  | .posted producer message => some (producer, message)
  | .turned _ _ _ => none

def taken? : TurnRecord Producer Consumer α → Option α
  | .turned _ _ (.returns message) => message
  | .turned _ _ .sleeps => none
  | .posted _ _ => none

end TurnRecord

section History

variable {Producer Consumer α : Type}

/-- All that was posted so far, with the producers, in the order of the turns. -/
def postedMessages (records : List (TurnRecord Producer Consumer α)) : List (Producer × α) :=
  records.filterMap TurnRecord.posted?

/-- All that was taken so far, in the order of the turns. -/
def takenMessages (records : List (TurnRecord Producer Consumer α)) : List α :=
  records.filterMap TurnRecord.taken?

/-- The messages of one producer. -/
def messagesOf [DecidableEq Producer] (producer : Producer) (messages : List (Producer × α)) :
    List α :=
  (messages.filter fun message => message.1 = producer).map Prod.snd

theorem postedMessages_concat (records : List (TurnRecord Producer Consumer α))
    (record : TurnRecord Producer Consumer α) :
    postedMessages (records ++ [record]) = postedMessages records ++ record.posted?.toList := by
  rw [postedMessages, List.filterMap_append]
  cases posted : record.posted? <;> simp [postedMessages, posted]

theorem takenMessages_concat (records : List (TurnRecord Producer Consumer α))
    (record : TurnRecord Producer Consumer α) :
    takenMessages (records ++ [record]) = takenMessages records ++ record.taken?.toList := by
  rw [takenMessages, List.filterMap_append]
  cases taken : record.taken? <;> simp [takenMessages, taken]

theorem messagesOf_mono [DecidableEq Producer] (producer : Producer)
    {first all : List (Producer × α)} (front : first <+: all) :
    messagesOf producer first <+: messagesOf producer all :=
  (front.filter _).map _

end History

namespace Sharing

variable {Producer Consumer α : Type} [DecidableEq Consumer]
variable {records : List (TurnRecord Producer Consumer α)} {sharing next : Sharing Consumer α}
variable {record : TurnRecord Producer Consumer α}

/-- A turn takes from the front what it returns, and puts at the end what it posts. -/
theorem Step.conserves (step : Step sharing record next) :
    record.taken?.toList ++ next.mailbox.waiting =
      sharing.mailbox.waiting ++ record.posted?.toList.map Prod.snd := by
  cases step with
  | post producer message => rfl
  | turn occasion hasTurn turns =>
      rename_i consumer patience turn mailbox
      rcases sharing.mailbox.turn_cases patience occasion with
        ⟨message, rest, waiting, takes⟩ | ⟨waiting, sleeps | ⟨givesUp, -⟩⟩
      · rw [takes] at turns
        cases turns
        simp [TurnRecord.taken?, TurnRecord.posted?, waiting]
      · rw [sleeps] at turns
        cases turns
        simp [TurnRecord.taken?, TurnRecord.posted?]
      · rw [givesUp] at turns
        cases turns
        simp [TurnRecord.taken?, TurnRecord.posted?]

/-- A consumer that gives up has found nothing, and its patience has a limit. -/
theorem Step.found_nothing {consumer : Consumer} {patience : Patience}
    (step : Step sharing
      (.turned consumer patience (.returns none) : TurnRecord Producer Consumer α) next) :
    sharing.mailbox.isEmpty = true ∧ patience ≠ .unlimited := by
  generalize gaveUp : (Turn.returns none : Turn α) = turn at step
  cases step with
  | turn occasion hasTurn turns =>
      rcases sharing.mailbox.turn_cases patience occasion with
        ⟨message, rest, waiting, takes⟩ | ⟨waiting, sleeps | ⟨givesUp, limited⟩⟩
      · rw [takes, ← gaveUp] at turns
        cases turns
      · rw [sleeps, ← gaveUp] at turns
        cases turns
      · refine ⟨List.isEmpty_iff.mpr waiting, ?_⟩
        rintro rfl
        rcases limited with impatient | ⟨limited, -⟩
        · cases impatient
        · cases limited

/-- What was taken and what waits is what was posted, in this order. -/
theorem Reaches.conserves (reaches : Reaches records sharing) :
    takenMessages records ++ sharing.mailbox.waiting = (postedMessages records).map Prod.snd := by
  induction reaches with
  | fresh => rfl
  | step reaches step inductionHypothesis =>
      rw [takenMessages_concat, postedMessages_concat, List.append_assoc, step.conserves,
        ← List.append_assoc, inductionHypothesis, List.map_append]

/-- Every turn was taken in a sharing that the turns before it have led to. -/
theorem Reaches.turn {earlier later : List (TurnRecord Producer Consumer α)}
    (reaches : Reaches (earlier ++ record :: later) sharing) :
    ∃ before after, Reaches earlier before ∧ Step before record after := by
  generalize whole : earlier ++ record :: later = records at reaches
  induction reaches generalizing later with
  | fresh => exact absurd whole (by simp)
  | @step records before next last reaches step inductionHypothesis =>
      rcases List.eq_nil_or_concat later with rfl | ⟨later, other, rfl⟩
      · obtain ⟨rfl, same⟩ := List.append_inj' whole rfl
        cases same
        exact ⟨before, next, reaches, step⟩
      · have shape : (earlier ++ record :: later) ++ [other] = records ++ [last] := by
          rw [← whole]
          simp
        exact inductionHypothesis (List.append_inj' shape rfl).1

/-- What a mailbox owes to the producers and consumers that share it. -/
structure Faithful (records : List (TurnRecord Producer Consumer α))
    (sharing : Sharing Consumer α) [DecidableEq Producer] : Prop where
  conserved : takenMessages records ++ sharing.mailbox.waiting =
    (postedMessages records).map Prod.snd
  /-- The messages taken are those posted first, and for each producer the first of its own. -/
  ownOrder : ∃ taken, taken <+: postedMessages records ∧
    taken.map Prod.snd = takenMessages records ∧
    ∀ producer, messagesOf producer taken <+: messagesOf producer (postedMessages records)
  nothing : ∀ earlier consumer patience later,
    records = earlier ++ .turned consumer patience (.returns none) :: later →
    patience ≠ .unlimited ∧ ∃ before, Reaches earlier before ∧ before.mailbox.isEmpty = true
  counted : sharing.mailbox.count + (takenMessages records).length =
    (postedMessages records).length
  emptiness : sharing.mailbox.isEmpty = true ↔ sharing.mailbox.count = 0

/-- However the turns of producers and consumers follow each other, no message is lost, doubled or
taken out of order, and a consumer comes back with nothing only if there was nothing. -/
theorem shared_faithfully [DecidableEq Producer] (reaches : Reaches records sharing) :
    Faithful records sharing := by
  have conserved := reaches.conserves
  refine ⟨conserved, ?_, ?_, ?_, Mailbox.isEmpty_iff⟩
  · have front := List.take_prefix (takenMessages records).length (postedMessages records)
    refine ⟨_, front, ?_, fun producer => messagesOf_mono producer front⟩
    rw [List.map_take, ← conserved, List.take_left]
  · rintro earlier consumer patience later rfl
    obtain ⟨before, after, led, step⟩ := reaches.turn
    exact ⟨step.found_nothing.2, before, led, step.found_nothing.1⟩
  · have lengths := congrArg List.length conserved
    rw [List.length_append, List.length_map] at lengths
    rw [Mailbox.count, Nat.add_comm, lengths]

/-- Two producers and three consumers. A message comes when two consumers sleep, but a third one
takes it, and the one that is woken finds nothing. The next message is there by the time when the
deadline of a sleeper has passed. Behind another deadline there is none. -/
def sharedTurns : List (TurnRecord Bool Nat String) :=
  [.turned 0 .unlimited .sleeps, .turned 1 .limited .sleeps, .posted false "first",
    .turned 2 .impatient (.returns (some "first")), .turned 0 .unlimited .sleeps,
    .posted true "second", .turned 1 .limited (.returns (some "second")),
    .turned 2 .limited .sleeps, .turned 2 .limited (.returns none), .posted false "third"]

theorem shared_turns_faithful :
    ∃ sharing : Sharing Nat String, Reaches sharedTurns sharing ∧ Faithful sharedTurns sharing ∧
      takenMessages sharedTurns = ["first", "second"] ∧ sharing.mailbox.waiting = ["third"] ∧
      sharing.sleepers 0 = some .unlimited := by
  have turn {records : List (TurnRecord Bool Nat String)} {sharing : Sharing Nat String}
      (reaches : Reaches records sharing) (consumer : Nat) (patience : Patience)
      (occasion : Occasion) (hasTurn : sharing.HasTurn consumer patience occasion) :=
    reaches.step (.turn occasion hasTurn rfl)
  have start : Reaches ([] : List (TurnRecord Bool Nat String)) Sharing.fresh := .fresh
  have asleep := turn (turn start 0 .unlimited .called rfl) 1 .limited .called rfl
  have taken := turn (asleep.step (.post _ false "first")) 2 .impatient .called rfl
  have awoken := turn taken 0 .unlimited .woken rfl
  have inTime := turn (awoken.step (.post _ true "second")) 1 .limited .expired ⟨rfl, rfl⟩
  have tooLate := turn (turn inTime 2 .limited .called rfl) 2 .limited .expired ⟨rfl, rfl⟩
  have reaches : Reaches sharedTurns _ := tooLate.step (.post _ false "third")
  exact ⟨_, reaches, shared_faithfully reaches, rfl, rfl, rfl⟩

end Sharing

end FormLang
