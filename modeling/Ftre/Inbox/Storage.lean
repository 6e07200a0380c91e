import Ftre.Inbox.Operations
import Ftre.Lib.StepSystem

/-!
The repository of one session: the cached queues, the inbox file, and an account of what was
admitted and handed out.
-/

namespace Ftre.Inbox

open Lib Message

structure Repository where
  capacity : Nat
  memory : MutableInbox
  disk : Option Json

/-! ### Commits -/

def hasDoubleDot : List Char → Bool
  | '.' :: '.' :: _ => true
  | _ :: rest => hasDoubleDot rest
  | [] => false

/-- The check of `path_for`. -/
def legalSession (sessionId : String) : Bool :=
  decide (sessionId ≠ "") && !(sessionId.toList.any fun character =>
    character ∈ ['/', '\\', ':']) && !hasDoubleDot sessionId.toList

namespace Repository

def opened (capacity : Nat) (sessionId : String) : Repository where
  capacity := capacity
  memory := .start sessionId
  disk := none

/-- The end of an operation whose cached state is already `after`; `written` says
whether the file could be written and replaced. -/
def commit (repository : Repository) (after : MutableInbox) (validates : Bool) (reply : Reply)
    (written : Bool) : Except RepositoryError Reply × Repository :=
  let changed := { repository with memory := after }
  match if validates then after.validate else .ok () with
  | .error message => (.error (.invalid message), changed)
  | .ok _ =>
      if !legalSession after.sessionId then (.error (.illegalSession after.sessionId), changed)
      else if written then (.ok reply, { changed with disk := some after.toJson })
      else (.error .writeFailed, changed)

def perform (repository : Repository) (operation : Operation) (written : Bool) :
    Except RepositoryError Reply × Repository :=
  match repository.memory.effect repository.capacity operation with
  | .raises error => (.error error, repository)
  | .replies reply => (.ok reply, repository)
  | .changes after validates reply => repository.commit after validates reply written

def Durable (repository : Repository) (written : Bool) : Prop :=
  legalSession repository.memory.sessionId = true ∧ written = true

inductive Performed (repository : Repository) (operation : Operation) (written : Bool) : Prop where
  | answered (idle : repository.memory.alters repository.capacity operation = false) (reply : Reply)
      (silent : repository.memory.entering operation reply = [] ∧
        MutableInbox.leaving operation reply = [])
      (same : repository.perform operation written = (.ok reply, repository))
  | raised (idle : repository.memory.alters repository.capacity operation = false)
      (error : RepositoryError)
      (same : repository.perform operation written = (.error error, repository))
  | committed (alters : repository.memory.alters repository.capacity operation = true)
      (durable : repository.Durable written) (after : MutableInbox) (reply : Reply)
      (altered : MutableInbox.Altered repository.capacity repository.memory after
        (repository.memory.entering operation reply) (MutableInbox.leaving operation reply))
      (same : repository.perform operation written =
        (.ok reply, { repository with memory := after, disk := some after.toJson }))
  | interrupted (alters : repository.memory.alters repository.capacity operation = true)
      (lost : ¬ repository.Durable written) (after : MutableInbox) (reply : Reply)
      (altered : MutableInbox.Altered repository.capacity repository.memory after
        (repository.memory.entering operation reply) (MutableInbox.leaving operation reply))
      (error : RepositoryError)
      (same : repository.perform operation written =
        (.error error, { repository with memory := after }))

theorem performed {repository : Repository} (valid : repository.memory.Valid)
    (storable : repository.memory.Storable) (operation : Operation) (written : Bool) :
    repository.Performed operation written := by
  rcases repository.memory.effect_outcome repository.capacity operation with
    ⟨alters, after, validates, reply, effect⟩ | ⟨idle, reply, effect, silent⟩ |
      ⟨idle, error, effect⟩
  · have altered := MutableInbox.effect_altered valid storable effect
    have performs : repository.perform operation written =
        repository.commit after validates reply written := by
      unfold perform
      rw [effect]
    have checked : (if validates then after.validate else .ok ()) = .ok () := by
      cases validates with
      | true => exact MutableInbox.validate_of_valid altered.valid
      | false => rfl
    have commits : repository.commit after validates reply written =
        if !legalSession after.sessionId then
          (.error (.illegalSession after.sessionId), { repository with memory := after })
        else if written then
          (.ok reply, { repository with memory := after, disk := some after.toJson })
        else (.error .writeFailed, { repository with memory := after }) := by
      unfold commit
      rw [checked]
    rw [altered.session] at commits
    cases legal : legalSession repository.memory.sessionId with
    | false =>
        apply Performed.interrupted alters _ after reply altered
          (.illegalSession repository.memory.sessionId)
        · rw [performs, commits, legal]
          rfl
        · intro durable
          have impossible := durable.1
          rw [legal] at impossible
          exact Bool.false_ne_true impossible
    | true =>
        cases written with
        | true =>
            apply Performed.committed alters ⟨legal, rfl⟩ after reply altered
            rw [performs, commits, legal]
            rfl
        | false =>
            apply Performed.interrupted alters _ after reply altered .writeFailed
            · rw [performs, commits, legal]
              rfl
            · intro durable
              exact Bool.false_ne_true durable.2
  · apply Performed.answered idle reply silent
    unfold perform
    rw [effect]
  · apply Performed.raised idle error
    unfold perform
    rw [effect]

def namesRun : Json → Bool
  | .object fields => (Json.lookup "target_run_id" fields).isSome
  | _ => false

def migrates (document : Json) : Bool :=
  decide (document.get? "schema_version" ≠ some (.int 3)) ||
    ((document.get? "inflight").map Json.truthy).getD false ||
    (["next_turn", "next_step"].any fun target =>
      match document.get? target with
      | some (.array items) => items.any namesRun
      | _ => false)

/-- `close` and `load_all`: a document that is not accepted is put aside. -/
def reload (repository : Repository) : Repository :=
  match repository.disk with
  | none => { repository with memory := .start repository.memory.sessionId }
  | some document =>
      match MutableInbox.fromJson document with
      | .ok inbox =>
          { repository with
            memory := inbox
            disk := some (if migrates document then inbox.toJson else document) }
      | .error _ =>
          { repository with memory := .start repository.memory.sessionId, disk := none }

theorem migrates_toJson (inbox : MutableInbox) : migrates inbox.toJson = false := by
  have plain : ∀ (items : List QueueItem) (target : QueueTarget),
      ((items.map fun item => item.toJson target).any namesRun) = false := by
    intro items target
    rw [List.any_map, List.any_eq_false]
    intro item _
    exact Bool.false_ne_true
  change ((inbox.nextTurn.map fun item => item.toJson .nextTurn).any namesRun ||
    ((inbox.nextStep.map fun item => item.toJson .nextStep).any namesRun || false)) = false
  rw [plain, plain]
  rfl

def Agrees (repository : Repository) : Prop :=
  repository.disk = some repository.memory.toJson ∨
    repository.disk = none ∧ repository.memory = .start repository.memory.sessionId

end Repository

/-- The repository with an account of the requests it answered. -/
structure Account where
  repository : Repository
  admitted : List (String × Int)
  claimed : List QueueItem
  removed : List QueueItem
  interrupted : Bool

namespace Account

def opened (capacity : Nat) (sessionId : String) : Account where
  repository := .opened capacity sessionId
  admitted := []
  claimed := []
  removed := []
  interrupted := false

inductive Action where
  | perform (operation : Operation) (written : Bool)
  | reload

def perform (account : Account) (operation : Operation) (written : Bool) : Account :=
  let memory := account.repository.memory
  match account.repository.perform operation written with
  | (.ok reply, repository) =>
      { account with
        repository := repository
        admitted := account.admitted ++ memory.entering operation reply
        claimed := account.claimed ++ MutableInbox.claimedBy operation reply
        removed := account.removed ++ MutableInbox.removedBy operation reply }
  | (.error _, repository) =>
      { account with
        repository := repository
        interrupted := account.interrupted || memory.alters account.repository.capacity operation }

def step (account : Account) : Action → Option Account
  | .perform operation written => some (account.perform operation written)
  | .reload => some { account with repository := account.repository.reload }

def system : StepSystem Account Action := ⟨step⟩

end Account

end Ftre.Inbox
