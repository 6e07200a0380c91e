import Ftre.Inbox.Storage

/-!
What holds of the queues after any sequence of operations and reloads: they are valid and bounded,
and every admitted item is pending, claimed or removed, exactly once.
-/

namespace Ftre.Inbox.Account

open Lib Message MutableInbox

def memory (account : Account) : MutableInbox := account.repository.memory

def held (account : Account) : List (String × Int) :=
  keys account.memory.pending ++ keys account.claimed ++ keys account.removed

/-- The admitted items are the disjoint union of pending, claimed and removed. -/
structure Balanced (account : Account) : Prop where
  conserved : account.admitted.Perm account.held
  disjoint : account.held.Nodup

structure Sound (account : Account) : Prop where
  valid : account.memory.Valid
  bounded : account.memory.pending.length ≤ account.repository.capacity
  balanced : account.interrupted = false → account.Balanced

/-- A successful change raises the revision; a reload finds the same items. -/
def Progresses (account : Account) : Action → Prop
  | .perform operation written =>
      ∀ reply after, account.repository.perform operation written = (.ok reply, after) →
        after.memory = account.memory ∨ account.memory.revision < after.memory.revision
  | .reload =>
      account.interrupted = false →
        keys account.repository.reload.memory.pending = keys account.memory.pending ∧
          account.repository.reload.memory.revision = account.memory.revision

def Saved (account : Account) (document : Json) : Prop :=
  ∃ inbox : MutableInbox, document = inbox.toJson ∧ inbox.Valid ∧ inbox.Storable ∧
    inbox.pending.length ≤ account.repository.capacity

structure Settled (account : Account) : Prop where
  conserved : account.admitted.Perm account.held
  numbered : (account.admitted.map Prod.snd).Nodup
  used : ∀ key ∈ account.admitted, key.2 < account.memory.nextSequence
  agrees : account.repository.Agrees

structure Kept (account : Account) : Prop where
  valid : account.memory.Valid
  storable : account.memory.Storable
  bounded : account.memory.pending.length ≤ account.repository.capacity
  saved : ∀ document, account.repository.disk = some document → account.Saved document
  settled : account.interrupted = false → account.Settled

theorem kept_opened (capacity : Nat) (sessionId : String) : (opened capacity sessionId).Kept where
  valid := valid_start sessionId
  storable := fun _ member => absurd member List.not_mem_nil
  bounded := Nat.zero_le _
  saved := nofun
  settled _ := ⟨List.Perm.nil, List.nodup_nil, nofun, Or.inr ⟨rfl, rfl⟩⟩

theorem Kept.sound {account : Account} (kept : account.Kept) : account.Sound where
  valid := kept.valid
  bounded := kept.bounded
  balanced whole := by
    have settled := kept.settled whole
    refine ⟨settled.conserved, ?_⟩
    rw [← settled.conserved.nodup_iff]
    exact List.Nodup.of_map _ settled.numbered

/-! ### One operation -/

variable {account : Account} {operation : Operation}

private theorem perform_of_result {written : Bool} {reply : Reply} {repository : Repository}
    (result : account.repository.perform operation written = (.ok reply, repository)) :
    account.perform operation written =
      { account with
        repository := repository
        admitted := account.admitted ++ account.memory.entering operation reply
        claimed := account.claimed ++ claimedBy operation reply
        removed := account.removed ++ removedBy operation reply } := by
  unfold perform
  rw [result]
  rfl

private theorem perform_of_error {written : Bool} {error : RepositoryError}
    {repository : Repository}
    (result : account.repository.perform operation written = (.error error, repository)) :
    account.perform operation written =
      { account with
        repository := repository
        interrupted := account.interrupted ||
          account.memory.alters account.repository.capacity operation } := by
  unfold perform
  rw [result]
  rfl

private theorem settled_of_commit {account : Account} {after : MutableInbox}
    {operation : Operation} {reply : Reply} (settled : account.Settled)
    (altered : Altered account.repository.capacity account.memory after
      (account.memory.entering operation reply) (leaving operation reply)) :
    Settled
      { account with
        repository := { account.repository with memory := after, disk := some after.toJson }
        admitted := account.admitted ++ account.memory.entering operation reply
        claimed := account.claimed ++ claimedBy operation reply
        removed := account.removed ++ removedBy operation reply } where
  conserved := by
    rw [List.perm_iff_count]
    intro key
    have before := settled.conserved.count_eq key
    have moved := altered.balance.count_eq key
    unfold held memory at *
    unfold leaving at moved
    simp only [keys_append, List.count_append] at before moved ⊢
    omega
  numbered := by
    rw [List.map_append, List.nodup_append]
    refine ⟨settled.numbered, altered.unrepeated, ?_⟩
    intro old oldMember new newMember same
    obtain ⟨oldKey, oldListed, oldSequence⟩ := List.mem_map.mp oldMember
    obtain ⟨newKey, newListed, newSequence⟩ := List.mem_map.mp newMember
    have before := settled.used oldKey oldListed
    have later := (altered.numbered newKey newListed).1
    omega
  used := by
    intro key member
    change key.2 < after.nextSequence
    rcases List.mem_append.mp member with old | new
    · have before := settled.used key old
      have later := altered.later
      omega
    · exact (altered.numbered key new).2
  agrees := Or.inl rfl

theorem Kept.perform (kept : account.Kept) (operation : Operation) (written : Bool) :
    (account.perform operation written).Kept := by
  rcases Repository.performed kept.valid kept.storable operation written with
    ⟨idle, reply, silent, result⟩ | ⟨idle, error, result⟩ |
      ⟨alters, durable, after, reply, altered, result⟩ |
      ⟨alters, lost, after, reply, altered, error, result⟩
  · have same : account.perform operation written = account := by
      obtain ⟨entered, left⟩ := silent
      obtain ⟨noClaim, noRemoval⟩ := List.append_eq_nil_iff.mp left
      rw [perform_of_result result, memory, entered, noClaim, noRemoval, List.append_nil,
        List.append_nil, List.append_nil]
    rw [same]
    exact kept
  · have same : account.perform operation written = account := by
      rw [perform_of_error result, memory, idle, Bool.or_false]
    rw [same]
    exact kept
  · rw [perform_of_result result]
    refine ⟨altered.valid, altered.storable, altered.bounded kept.bounded, ?_, ?_⟩
    · intro document same
      rw [← Option.some.inj same]
      exact ⟨after, rfl, altered.valid, altered.storable, altered.bounded kept.bounded⟩
    · intro whole
      exact settled_of_commit (kept.settled whole) altered
  · rw [perform_of_error result, memory, alters, Bool.or_true]
    exact ⟨altered.valid, altered.storable, altered.bounded kept.bounded, kept.saved, nofun⟩

/-! ### Reloads -/

private theorem length_of_keys {left right : List QueueItem} (same : keys left = keys right) :
    left.length = right.length := by
  have lengths := congrArg List.length same
  unfold keys at lengths
  rw [List.length_map, List.length_map] at lengths
  exact lengths

private theorem reload_of_saved {inbox : MutableInbox}
    (disk : account.repository.disk = some inbox.toJson) (valid : inbox.Valid)
    (storable : inbox.Storable) :
    ∃ read : MutableInbox, account.repository.reload =
        { account.repository with memory := read } ∧
      read.toJson = inbox.toJson ∧ read.Valid ∧ read.Storable ∧
      keys read.pending = keys inbox.pending ∧ read.revision = inbox.revision ∧
      read.nextSequence = inbox.nextSequence := by
  obtain ⟨read, accepted, sameDocument, readValid, readStorable, sameKeys, sameRevision,
    sameNext, _⟩ := fromJson_toJson valid storable
  refine ⟨read, ?_, sameDocument, readValid, readStorable, sameKeys, sameRevision, sameNext⟩
  unfold Repository.reload
  rw [disk]
  dsimp only
  rw [accepted]
  dsimp only
  rw [Repository.migrates_toJson, if_neg Bool.false_ne_true, disk]

private theorem reload_of_absent (disk : account.repository.disk = none) :
    account.repository.reload =
      { account.repository with memory := .start account.memory.sessionId } := by
  rcases account with ⟨⟨capacity, memory, file⟩, admitted, claimed, removed, interrupted⟩
  change file = none at disk
  subst disk
  rfl

theorem Kept.reload_settled (kept : account.Kept) (whole : account.interrupted = false) :
    account.repository.reload.Agrees ∧
      keys account.repository.reload.memory.pending = keys account.memory.pending ∧
      account.repository.reload.memory.revision = account.memory.revision ∧
      account.repository.reload.memory.nextSequence = account.memory.nextSequence := by
  rcases (kept.settled whole).agrees with written | ⟨disk, blank⟩
  · obtain ⟨read, reloaded, sameDocument, _, _, sameKeys, sameRevision, sameNext⟩ :=
      reload_of_saved written kept.valid kept.storable
    rw [reloaded]
    refine ⟨Or.inl ?_, sameKeys, sameRevision, sameNext⟩
    change account.repository.disk = some read.toJson
    rw [written, sameDocument]
  · have same : MutableInbox.start account.memory.sessionId = account.memory := blank.symm
    rw [reload_of_absent disk, same]
    exact ⟨Or.inr ⟨disk, blank⟩, rfl, rfl, rfl⟩

theorem Kept.reload (kept : account.Kept) :
    Kept { account with repository := account.repository.reload } := by
  have settles : account.interrupted = false →
      Settled { account with repository := account.repository.reload } := by
    intro whole
    have settled := kept.settled whole
    obtain ⟨agrees, sameKeys, _, sameNext⟩ := kept.reload_settled whole
    refine ⟨?_, settled.numbered, ?_, agrees⟩
    · unfold held memory
      dsimp only
      rw [sameKeys]
      exact settled.conserved
    · intro key member
      change key.2 < account.repository.reload.memory.nextSequence
      rw [sameNext]
      exact settled.used key member
  cases disk : account.repository.disk with
  | none =>
      have reloaded := reload_of_absent disk
      rw [reloaded] at settles ⊢
      exact ⟨valid_start _, fun _ member => absurd member List.not_mem_nil, Nat.zero_le _,
        kept.saved, settles⟩
  | some document =>
      obtain ⟨inbox, saved, valid, storable, bounded⟩ := kept.saved document disk
      rw [saved] at disk
      obtain ⟨read, reloaded, _, readValid, readStorable, sameKeys, _⟩ :=
        reload_of_saved disk valid storable
      rw [reloaded] at settles ⊢
      refine ⟨readValid, readStorable, ?_, kept.saved, settles⟩
      have size := length_of_keys sameKeys
      change read.pending.length ≤ account.repository.capacity
      omega

theorem Kept.progresses (kept : account.Kept) (action : Action) : account.Progresses action := by
  cases action with
  | perform operation written =>
      intro reply after performed
      rcases Repository.performed kept.valid kept.storable operation written with
        ⟨_, _, _, result⟩ | ⟨_, _, result⟩ | ⟨_, _, next, _, altered, result⟩ |
          ⟨_, _, _, _, _, _, result⟩
      · rw [performed] at result
        have same := congrArg Prod.snd result
        exact Or.inl (congrArg Repository.memory same)
      · rw [performed] at result
        cases congrArg Prod.fst result
      · rw [performed] at result
        have same := congrArg Prod.snd result
        have revision := altered.revision
        right
        change after = _ at same
        rw [same]
        change account.memory.revision < next.revision
        unfold memory
        omega
      · rw [performed] at result
        cases congrArg Prod.fst result
  | reload =>
      intro whole
      obtain ⟨_, sameKeys, sameRevision, _⟩ := kept.reload_settled whole
      exact ⟨sameKeys, sameRevision⟩

theorem Kept.step {account after : Account} (kept : account.Kept) {action : Action}
    (stepped : account.step action = some after) : after.Kept := by
  cases action with
  | perform operation written =>
      rw [← Option.some.inj stepped]
      exact kept.perform operation written
  | reload =>
      rw [← Option.some.inj stepped]
      exact kept.reload

/-- In every state of every sequence of operations and reloads the queues are
sound, and every operation that changes them raises the revision. -/
theorem queues_sound (capacity : Nat) (sessionId : String) (actions : List Action) :
    system.Always Sound (opened capacity sessionId) actions ∧
      system.EachStep Progresses (opened capacity sessionId) actions := by
  have sound : ∀ account : Account, account.Kept → system.Always Sound account actions ∧
      system.EachStep Progresses account actions := by
    induction actions with
    | nil => exact fun _ kept => ⟨kept.sound, trivial⟩
    | cons action rest ih =>
        intro account kept
        refine ⟨⟨kept.sound, ?_⟩, ?_⟩
        · intro next stepped
          exact (ih next (kept.step stepped)).1
        · intro next stepped
          exact ⟨kept.progresses action, (ih next (kept.step stepped)).2⟩
  exact sound _ (kept_opened capacity sessionId)

end Ftre.Inbox.Account
