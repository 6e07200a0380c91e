import Ftre.Inbox.QueueInvariant

/-!
Failed operations. An operation that raises before it changes the cached queues leaves everything
as it was; one whose file cannot be written has already changed them.
-/

namespace Ftre.Inbox.Account

open Lib Message MutableInbox

/-- An operation that raises leaves the cached state as it was, and the file says
the same. -/
def Atomic (account : Account) : Action → Prop
  | .perform operation written =>
      ∀ error after, account.repository.perform operation written = (.error error, after) →
        after.memory = account.memory ∧ after.Agrees
  | .reload => True

/-- An operation with something to change finds the file writable. -/
def WritesReach (account : Account) : Action → Prop
  | .perform operation written =>
      account.memory.alters account.repository.capacity operation = true →
        account.repository.Durable written
  | .reload => True

private structure Whole (account : Account) : Prop where
  kept : account.Kept
  unbroken : account.interrupted = false

private theorem whole_step {account after : Account} (whole : account.Whole) {action : Action}
    (stepped : account.step action = some after) (reaches : account.WritesReach action) :
    after.Whole := by
  refine ⟨whole.kept.step stepped, ?_⟩
  cases action with
  | reload =>
      rw [← Option.some.inj stepped]
      exact whole.unbroken
  | perform operation written =>
      rw [← Option.some.inj stepped]
      have unbroken := whole.unbroken
      rcases Repository.performed whole.kept.valid whole.kept.storable operation written with
        ⟨_, _, _, result⟩ | ⟨idle, _, result⟩ | ⟨_, _, _, _, _, result⟩ |
          ⟨alters, lost, _, _, _, _, _⟩
      · unfold perform
        rw [result]
        exact unbroken
      · unfold perform
        rw [result]
        dsimp only
        rw [unbroken, idle]
        rfl
      · unfold perform
        rw [result]
        exact unbroken
      · exact absurd (reaches alters) lost

private theorem atomic_iff {account : Account} (whole : account.Whole) (action : Action) :
    account.Atomic action ↔ account.WritesReach action := by
  cases action with
  | reload => exact Iff.rfl
  | perform operation written =>
      have settled := whole.kept.settled whole.unbroken
      rcases Repository.performed whole.kept.valid whole.kept.storable operation written with
        ⟨idle, _, _, result⟩ | ⟨idle, _, result⟩ | ⟨_, durable, _, _, _, result⟩ |
          ⟨alters, lost, after, _, altered, error, result⟩
      · apply iff_of_true
        · intro error after raised
          rw [result] at raised
          cases congrArg Prod.fst raised
        · intro alters
          change account.memory.alters _ operation = false at idle
          rw [alters] at idle
          cases idle
      · apply iff_of_true
        · intro error after raised
          rw [result] at raised
          have unchanged : account.repository = after := congrArg Prod.snd raised
          rw [← unchanged]
          exact ⟨rfl, settled.agrees⟩
        · intro alters
          change account.memory.alters _ operation = false at idle
          rw [alters] at idle
          cases idle
      · apply iff_of_true
        · intro error after raised
          rw [result] at raised
          cases congrArg Prod.fst raised
        · exact fun _ => durable
      · apply iff_of_false
        · intro atomic
          have unchanged : after = account.memory := (atomic error _ result).1
          have revision := altered.revision
          rw [unchanged] at revision
          unfold memory at revision
          omega
        · intro reaches
          exact lost (reaches alters)

/-- Operations are atomic throughout a run exactly if every operation of the run
that has something to change can write the file. -/
theorem atomic_iff_writesReach (capacity : Nat) (sessionId : String) (actions : List Action) :
    system.EachStep Atomic (opened capacity sessionId) actions ↔
      system.EachStep WritesReach (opened capacity sessionId) actions := by
  apply StepSystem.eachStep_iff_of_invariant Whole
  · intro before action after whole stepped reaches
    exact whole_step whole stepped reaches
  · intro before action _ whole _
    exact atomic_iff whole action
  · exact ⟨kept_opened capacity sessionId, rfl⟩

def helloItem : BuiltItem where
  item :=
    { requestId := "request-1"
      sequence := 0
      sessionId := "session-1"
      channelId := "web"
      content := "hello"
      attachments := []
      source := .user
      historyMessageId := none
      messages := []
      agentId := "default" }
  unnumbered := rfl
  storable :=
    { agent := by decide
      unclaimed := rfl
      attached := fun _ member => absurd member List.not_mem_nil
      readable := fun _ member => absurd member List.not_mem_nil }

/-- The admission whose write fails raises, and the item is in the queue. -/
theorem failed_admission_stays_queued :
    ¬ system.EachStep Atomic (opened 100 "session-1")
      [.perform (.admitItem helloItem .nextTurn true false) false] := by
  intro each
  have reaches := (atomic_iff ⟨kept_opened 100 "session-1", rfl⟩ _).mp (each _ rfl).1
  exact Bool.false_ne_true (reaches rfl).2

end Ftre.Inbox.Account
