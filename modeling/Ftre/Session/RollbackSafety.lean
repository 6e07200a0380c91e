import Ftre.Session.Checkpoints

/-!
Rollbacks among checkpoints and appends.
-/

namespace Ftre.Session

open Lib Message

namespace Recorder

/-- What a rollback owes to the messages it removed, to the events that came
meanwhile and to the numbers the clients have seen. -/
structure RollbackSafe (recorder : Recorder) : Prop where
  gone : recorder.ledger.revived = []
  found : ∀ event ∈ recorder.ledger.awaited,
    (∃ live, recorder.service.live = some live ∧ event ∈ live.log.events) ∨
      event ∈ recorder.ledger.durable
  numbered : (recorder.ledger.broadcast.map Event.seq).Nodup

/-- A rollback commits with every waiting checkpoint older than the stored
session and, if it resets the log, with no event since it was called. -/
def RollbackUndisturbed (recorder : Recorder) : Action → Prop
  | .commit call => ∀ truncation called,
      recorder.calls call = .writes (.rollback truncation called) →
        (∀ other capture, recorder.calls other = .captured capture →
          capture.checkpoint.seq < recorder.service.stored.seq) ∧
        (truncation.attached = true → called = recorder.ledger.broadcast.length)
  | _ => True

structure Truncating (service : ServiceState) (ledger : Ledger) (truncation : Truncation)
    (called : Nat) : Prop where
  seq : truncation.seq = service.stored.seq
  bound : called ≤ ledger.broadcast.length
  live : ∃ live, service.live = some live ∧
    (truncation.attached = true → called = ledger.broadcast.length →
      live.log.seq = service.stored.seq) ∧
    (truncation.attached = false → ∀ event ∈ ledger.broadcast, event ∈ live.log.events)

def Standing (service : ServiceState) (ledger : Ledger) : Call → Prop
  | .captured capture =>
      (∃ live, service.live = some live ∧ capture.checkpoint.seq ≤ live.log.seq) ∧
        capture.epoch ≤ ledger.removals.length ∧
        (capture.epoch < ledger.removals.length → capture.checkpoint.seq < service.stored.seq)
  | .writes (.snapshot capture) =>
      (∃ live, service.live = some live ∧ capture.checkpoint.seq ≤ live.log.seq) ∧
        service.stored.seq ≤ capture.checkpoint.seq ∧ capture.epoch = ledger.removals.length
  | .writes (.rollback truncation called) => Truncating service ledger truncation called
  | .rollbackFlushes _ called => called ≤ ledger.broadcast.length
  | .rollbackWaits _ called => called ≤ ledger.broadcast.length
  | _ => True

structure Intact (recorder : Recorder) : Prop where
  bounded : ∀ live, recorder.service.live = some live →
    recorder.service.stored.seq ≤ live.log.seq ∧
      ∀ event ∈ recorder.ledger.broadcast, event.seq ≤ live.log.seq
  unloaded : recorder.service.live = none → recorder.ledger.broadcast = []
  locked : ∀ call write, recorder.calls call = .writes write → recorder.lock = some call
  stands : ∀ call, Standing recorder.service recorder.ledger (recorder.calls call)
  safe : recorder.RollbackSafe

variable {recorder : Recorder}

/-! ### Loads and appends -/

theorem Intact.liveSession (intact : Intact recorder) :
    recorder.service.stored.seq ≤ recorder.service.liveSession.log.seq ∧
      ∀ event ∈ recorder.ledger.broadcast,
        event.seq ≤ recorder.service.liveSession.log.seq := by
  cases loaded : recorder.service.live with
  | some live =>
      rw [ServiceState.liveSession_of_live loaded]
      exact intact.bounded live loaded
  | none =>
      rw [intact.unloaded loaded]
      refine ⟨?_, fun event member => absurd member List.not_mem_nil⟩
      unfold ServiceState.liveSession
      rw [loaded]
      change recorder.service.stored.seq ≤ max 0 (recorder.service.stored.seq + 1) - 1
      omega

variable {service : ServiceState} {ledger : Ledger} {call : Nat}

theorem load_live {live : LiveSession} (loaded : service.live = some live) :
    service.load.live = some live := by
  change some service.liveSession = some live
  rw [ServiceState.liveSession_of_live loaded]

theorem Standing.load {call : Call} (stands : Standing service ledger call) :
    Standing service.load ledger call := by
  cases call with
  | captured capture =>
      obtain ⟨⟨live, loaded, below⟩, rest⟩ := stands
      exact ⟨⟨live, load_live loaded, below⟩, rest⟩
  | writes write =>
      cases write with
      | snapshot capture =>
          obtain ⟨⟨live, loaded, below⟩, rest⟩ := stands
          exact ⟨⟨live, load_live loaded, below⟩, rest⟩
      | update => trivial
      | rollback truncation called =>
          obtain ⟨seq, bound, live, loaded, rest⟩ := stands
          exact ⟨seq, bound, live, load_live loaded, rest⟩
  | _ => exact stands

theorem Intact.load (intact : Intact recorder) :
    Intact { recorder with service := recorder.service.load } where
  bounded := by
    intro live loaded
    cases loaded
    exact intact.liveSession
  unloaded := fun impossible => by cases impossible
  locked := intact.locked
  stands := fun call => (intact.stands call).load
  safe := by
    refine ⟨intact.safe.gone, ?_, intact.safe.numbered⟩
    intro event member
    rcases intact.safe.found event member with ⟨live, loaded, listed⟩ | durable
    · exact Or.inl ⟨live, load_live loaded, listed⟩
    · exact Or.inr durable

theorem withLog_live (service : ServiceState) {live : LiveSession} (log : SessionLog)
    (loaded : service.live = some live) :
    (service.withLog log).live = some { live with log := log } := by
  change some { service.liveSession with log := log } = _
  rw [ServiceState.liveSession_of_live loaded]

theorem Standing.publish {call : Call} (stands : Standing service ledger call) (event : Event) :
    Standing (service.withLog (service.liveSession.log.push event))
      { ledger with broadcast := ledger.broadcast ++ [event] } call := by
  have longer : (ledger.broadcast ++ [event]).length = ledger.broadcast.length + 1 := by
    rw [List.length_append, List.length_singleton]
  have live_eq : ∀ live, service.live = some live →
      (service.withLog (service.liveSession.log.push event)).live =
        some { live with log := live.log.push event } := by
    intro live loaded
    rw [withLog_live service _ loaded, ServiceState.liveSession_of_live loaded]
  cases call with
  | captured capture =>
      obtain ⟨⟨live, loaded, below⟩, rest⟩ := stands
      refine ⟨⟨_, live_eq live loaded, ?_⟩, rest⟩
      rw [SessionLog.push_seq]
      omega
  | writes write =>
      cases write with
      | snapshot capture =>
          obtain ⟨⟨live, loaded, below⟩, rest⟩ := stands
          refine ⟨⟨_, live_eq live loaded, ?_⟩, rest⟩
          rw [SessionLog.push_seq]
          omega
      | update => trivial
      | rollback truncation called =>
          obtain ⟨seq, bound, live, loaded, attached, detached⟩ := stands
          refine ⟨seq, ?_, _, live_eq live loaded, ?_, ?_⟩
          · change called ≤ (ledger.broadcast ++ [event]).length
            omega
          · intro _ same
            change called = (ledger.broadcast ++ [event]).length at same
            omega
          · intro free other member
            rw [SessionLog.push_events]
            rcases List.mem_append.mp member with earlier | latest
            · exact List.mem_append_left _ (detached free other earlier)
            · exact List.mem_append_right _ latest
  | rollbackFlushes throughMessageId called =>
      change called ≤ (ledger.broadcast ++ [event]).length
      change called ≤ ledger.broadcast.length at stands
      omega
  | rollbackWaits throughMessageId called =>
      change called ≤ (ledger.broadcast ++ [event]).length
      change called ≤ ledger.broadcast.length at stands
      omega
  | _ => trivial

theorem Intact.publish (intact : Intact recorder) {event : Event}
    (number : event.seq = recorder.service.liveSession.log.nextSeq) :
    Intact (recorder.publish
      (recorder.service.withLog (recorder.service.liveSession.log.push event)) event) := by
  have above : event.seq = recorder.service.liveSession.log.seq + 1 := by
    rw [number]
    unfold SessionLog.seq
    omega
  constructor
  · intro live loaded
    cases loaded
    rw [SessionLog.push_seq]
    constructor
    · exact intact.liveSession.1.trans (by omega)
    · intro other member
      rcases List.mem_append.mp member with earlier | latest
      · have below := intact.liveSession.2 other earlier
        omega
      · rw [List.mem_singleton.mp latest, above]
  · intro impossible
    cases impossible
  · exact intact.locked
  · exact fun call => (intact.stands call).publish event
  · refine ⟨intact.safe.gone, ?_, ?_⟩
    · intro other member
      rcases intact.safe.found other member with ⟨live, loaded, listed⟩ | durable
      · refine Or.inl ⟨_, withLog_live recorder.service _ loaded, ?_⟩
        rw [ServiceState.liveSession_of_live loaded, SessionLog.push_events]
        exact List.mem_append_left _ listed
      · exact Or.inr durable
    · change ((recorder.ledger.broadcast ++ [event]).map Event.seq).Nodup
      rw [List.map_append, List.map_singleton, List.nodup_append]
      refine ⟨intact.safe.numbered, List.nodup_singleton _, ?_⟩
      intro seq member latest only same
      obtain ⟨other, earlier, numbered⟩ := List.mem_map.mp member
      have below := intact.liveSession.2 other earlier
      rw [List.mem_singleton] at only
      omega

/-! ### The coordinator and the stages of calls -/

theorem Intact.settle (intact : Intact recorder) {coordinator : SnapshotCoordinator}
    {lock : Option Nat} {calls : Nat → Call}
    (stages : ∀ call, calls call = recorder.calls call ∨
      Standing recorder.service recorder.ledger (calls call))
    (locked : ∀ call write, calls call = .writes write → lock = some call) :
    Intact { recorder with coordinator := coordinator, lock := lock, calls := calls } where
  bounded := intact.bounded
  unloaded := intact.unloaded
  locked := locked
  stands := by
    intro call
    rcases stages call with same | stands
    · change Standing recorder.service recorder.ledger (calls call)
      rw [same]
      exact intact.stands call
    · exact stands
  safe := ⟨intact.safe.gone, intact.safe.found, intact.safe.numbered⟩

theorem Intact.coordinator (intact : Intact recorder) (coordinator : SnapshotCoordinator) :
    Intact { recorder with coordinator := coordinator } :=
  intact.settle (fun _ => Or.inl rfl) intact.locked

theorem Intact.assign (intact : Intact recorder) {call : Nat} {stage : Call}
    (stands : Standing recorder.service recorder.ledger stage) {lock : Option Nat}
    (mine : ∀ write, stage = .writes write → lock = some call)
    (kept : ∀ other write, other ≠ call → recorder.calls other = .writes write →
      lock = some other) :
    Intact ({ recorder with lock := lock }.setCall call stage) := by
  refine intact.settle ?_ ?_
  · intro other
    by_cases same : other = call
    · right
      rw [if_pos same]
      exact stands
    · left
      rw [if_neg same]
  · intro other write writes
    by_cases same : other = call
    · rw [if_pos same] at writes
      rw [same]
      exact mine write writes
    · rw [if_neg same] at writes
      exact kept other write same writes

theorem Intact.setCall (intact : Intact recorder) {stage : Call}
    (stands : Standing recorder.service recorder.ledger stage)
    (idle : ∀ write, stage ≠ .writes write) : Intact (recorder.setCall call stage) :=
  intact.assign stands (fun write same => absurd same (idle write))
    fun other write _ writes => intact.locked other write writes

theorem Intact.release (intact : Intact recorder) {held : Write}
    (holds : recorder.calls call = .writes held) {stage : Call}
    (stands : Standing recorder.service recorder.ledger stage)
    (idle : ∀ write, stage ≠ .writes write) :
    Intact ({ recorder with lock := none }.setCall call stage) := by
  apply intact.assign stands (fun write same => absurd same (idle write))
  intro other write different writes
  have mine := intact.locked call held holds
  rw [intact.locked other write writes] at mine
  exact absurd (Option.some.inj mine) different

theorem Intact.takeLock (intact : Intact recorder) {write : Write} (free : recorder.lock = none)
    (stands : Standing recorder.service recorder.ledger (.writes write)) :
    Intact ({ recorder with lock := some call }.setCall call (.writes write)) := by
  apply intact.assign stands (fun _ _ => rfl)
  intro other held different writes
  have locked := intact.locked other held writes
  rw [free] at locked
  cases locked

theorem Standing.answer {call : Call} (stands : Standing service ledger call) :
    Standing service ledger call.answer := by
  cases call with
  | flushes seq mark => trivial
  | _ => exact stands

theorem Standing.reject {call : Call} (stands : Standing service ledger call) (sessionId : String) :
    Standing service ledger (call.reject sessionId) := by
  cases call with
  | flushes seq mark => trivial
  | rollbackFlushes throughMessageId called => trivial
  | _ => exact stands

theorem Intact.writerReturned (intact : Intact recorder) (writer : Nat) :
    Intact (recorder.writerReturned writer) := by
  unfold Recorder.writerReturned
  split
  · split
    · refine intact.settle ?_ ?_
      · intro call
        rw [answerAll_calls]
        split
        · exact Or.inr (intact.stands call).answer
        · exact Or.inl rfl
      · intro call write writes
        rw [answerAll_calls] at writes
        apply intact.locked call write
        split at writes
        · cases stage : recorder.calls call <;> rw [stage] at writes <;>
            first | exact writes | cases writes
        · exact writes
    · exact intact
  · exact intact

theorem Intact.writerRaised (intact : Intact recorder) (writer : Nat) :
    Intact (recorder.writerRaised writer) := by
  unfold Recorder.writerRaised
  split
  · split
    · refine intact.settle ?_ ?_
      · intro call
        rw [rejectAll_calls]
        split
        · exact Or.inr ((intact.stands call).reject _)
        · exact Or.inl rfl
      · intro call write writes
        rw [rejectAll_calls] at writes
        apply intact.locked call write
        split at writes
        · cases stage : recorder.calls call <;> rw [stage] at writes <;>
            first | exact writes | cases writes
        · exact writes
    · exact intact
  · exact intact

theorem Intact.joinFlush (intact : Intact recorder) (call : Nat) {waits done : Call}
    (waiting : Standing recorder.service recorder.ledger waits)
    (returned : Standing recorder.service recorder.ledger done)
    (idle : ∀ write, waits ≠ .writes write ∧ done ≠ .writes write) :
    Intact (recorder.joinFlush call waits done) := by
  unfold Recorder.joinFlush
  generalize (if recorder.service.live.isSome then recorder.coordinator.markDirty true
    else recorder.coordinator) = coordinator
  dsimp only
  by_cases dirty : coordinator.dirty
  · rw [if_pos dirty]
    exact (intact.coordinator _).setCall waiting fun write => (idle write).1
  · rw [if_neg dirty]
    exact (intact.coordinator _).setCall returned fun write => (idle write).2

/-! ### Checkpoints -/

theorem Intact.capture (intact : Intact recorder) (writer : Nat) :
    Intact (recorder.capture writer) := by
  unfold Recorder.capture
  split
  · rename_i live loaded
    apply intact.setCall _ (fun write same => by cases same)
    exact ⟨⟨live, loaded, le_refl _⟩, le_refl _, fun before => absurd before (lt_irrefl _)⟩
  · have finished : Standing recorder.service recorder.ledger .finished := trivial
    exact (intact.setCall finished (fun write same => by cases same)).writerReturned writer

theorem Intact.beginCheckpoint (intact : Intact recorder) (generation writer : Nat) :
    Intact (recorder.beginCheckpoint generation writer) :=
  (intact.coordinator (recorder.coordinator.beginWrite generation writer)).capture writer

theorem Intact.enterLoop (intact : Intact recorder) (writer : Nat) :
    Intact (recorder.enterLoop writer) := by
  unfold Recorder.enterLoop
  split
  · exact intact.coordinator _
  · split
    · exact intact.coordinator _
    · exact intact.beginCheckpoint _ writer

theorem Intact.lockSnapshot (intact : Intact recorder) {capture : Capture}
    (free : recorder.lock = none) (waits : recorder.calls call = .captured capture) :
    Intact (recorder.lockSnapshot call capture) := by
  have stands := intact.stands call
  rw [waits] at stands
  obtain ⟨live, known, older⟩ := stands
  unfold Recorder.lockSnapshot
  split
  · have finished : Standing recorder.service recorder.ledger .finished := trivial
    exact (intact.setCall finished (fun write same => by cases same)).writerReturned call
  · rename_i latest
    apply intact.takeLock free
    refine ⟨live, by omega, ?_⟩
    by_contra different
    have stale := older (by omega)
    omega

theorem removedSince_latest {capture : Capture} (latest : capture.epoch = ledger.removals.length) :
    removedSince ledger capture = [] := by
  unfold removedSince
  rw [latest, List.drop_length]
  exact List.filter_false _

theorem Intact.unlocked (intact : Intact recorder) (free : recorder.lock = none) (call : Nat)
    (write : Write) : recorder.calls call ≠ .writes write := by
  intro writes
  have locked := intact.locked call write writes
  rw [free] at locked
  cases locked

theorem Intact.advance (intact : Intact recorder) (free : recorder.lock = none)
    {next : SessionMeta} (ordered : recorder.service.stored.seq ≤ next.seq)
    (below : ∀ live, recorder.service.live = some live → next.seq ≤ live.log.seq)
    (commits : List SessionMeta) (events : List Event) :
    Intact { recorder with
      service := { recorder.service with stored := next }
      ledger := { recorder.ledger with
        commits := commits, durable := recorder.ledger.durable ++ events } } where
  bounded := fun live loaded => ⟨below live loaded, (intact.bounded live loaded).2⟩
  unloaded := intact.unloaded
  locked := intact.locked
  stands := by
    intro call
    change Standing _ _ (recorder.calls call)
    have stands := intact.stands call
    cases stage : recorder.calls call with
    | captured capture =>
        rw [stage] at stands
        obtain ⟨live, known, older⟩ := stands
        exact ⟨live, known, fun before => (older before).trans_le ordered⟩
    | writes write => exact absurd stage (intact.unlocked free call write)
    | _ =>
        rw [stage] at stands
        exact stands
  safe := by
    refine ⟨intact.safe.gone, ?_, intact.safe.numbered⟩
    intro event member
    exact (intact.safe.found event member).imp id (List.mem_append_left events)

theorem Intact.commitSnapshot (intact : Intact recorder) {capture : Capture}
    (holds : recorder.calls call = .writes (.snapshot capture)) :
    Intact (recorder.commitSnapshot call capture) := by
  have stands := intact.stands call
  rw [holds] at stands
  obtain ⟨⟨live, loaded, below⟩, ordered, latest⟩ := stands
  have seq_eq : (capture.checkpoint.commit recorder.service.stored).seq =
      capture.checkpoint.seq := by
    unfold Checkpoint.commit
    rw [if_neg (by omega)]
  have finished : Standing recorder.service recorder.ledger .finished := trivial
  have released := intact.release holds finished (fun write same => by cases same)
  unfold Recorder.commitSnapshot
  dsimp only
  rw [removedSince_latest latest, List.append_nil]
  refine (released.advance rfl (by rw [seq_eq]; exact ordered) ?_ _ _).writerReturned call
  intro found same
  rw [show recorder.service.live = some found from same] at loaded
  cases loaded
  rw [seq_eq]
  exact below

/-! ### Rollbacks -/

theorem Intact.callRollback (intact : Intact recorder) (call : Nat) (throughMessageId : String) :
    Intact (recorder.callRollback call throughMessageId) := by
  unfold Recorder.callRollback
  split
  · have refused : Standing recorder.service recorder.ledger
        (.refused (.target "rollback 必须提供 through_message_id")) := trivial
    exact intact.setCall refused (fun write same => by cases same)
  · have bound : recorder.ledger.broadcast.length ≤ recorder.ledger.broadcast.length := le_refl _
    exact intact.joinFlush call bound bound
      (fun write => ⟨(fun same => by cases same), (fun same => by cases same)⟩)

theorem Intact.lockRollback (intact : Intact recorder) {throughMessageId : String} {called : Nat}
    (free : recorder.lock = none)
    (waits : recorder.calls call = .rollbackWaits throughMessageId called) :
    Intact (recorder.lockRollback call throughMessageId called) := by
  have bound := intact.stands call
  rw [waits] at bound
  unfold Recorder.lockRollback
  split
  · rename_i error _
    have refused : Standing recorder.service.load recorder.ledger (.refused error) := trivial
    exact intact.load.setCall refused (fun write same => by cases same)
  · rename_i truncation accepted
    obtain ⟨settled, attached, seq⟩ := ServiceState.planRollback_accepted accepted
    refine intact.load.takeLock free ⟨seq, bound, recorder.service.liveSession, rfl, ?_, ?_⟩
    · intro isAttached _
      rw [attached] at isAttached
      obtain ⟨live, loaded⟩ := Option.isSome_iff_exists.mp isAttached
      unfold ServiceState.uncheckpointed at settled
      rw [loaded] at settled
      have above := (intact.bounded live loaded).1
      have reached : ¬ recorder.service.stored.seq < live.log.seq := of_decide_eq_false settled
      rw [ServiceState.liveSession_of_live loaded]
      change live.log.seq = recorder.service.stored.seq
      omega
    · intro detached event member
      rw [attached] at detached
      rw [intact.unloaded (Option.not_isSome_iff_eq_none.mp (by simp [detached]))] at member
      exact absurd member List.not_mem_nil

theorem Intact.commitRollback (intact : Intact recorder) {call : Nat} {truncation : Truncation}
    {called : Nat} (holds : recorder.calls call = .writes (.rollback truncation called))
    (older : ∀ other capture, recorder.calls other = .captured capture →
      capture.checkpoint.seq < recorder.service.stored.seq)
    (quiet : truncation.attached = true → called = recorder.ledger.broadcast.length) :
    Intact (recorder.commitRollback call truncation called) := by
  have stands := intact.stands call
  rw [holds] at stands
  obtain ⟨seq, bound, live, loaded, atMark, listed⟩ := stands
  have rolledBack : Standing recorder.service recorder.ledger (.rolledBack truncation) := trivial
  have released := intact.release holds rolledBack (fun write same => by cases same)
  have live_eq : recorder.service.liveSession = live := ServiceState.liveSession_of_live loaded
  -- The log the rollback leaves stands where it stood, and keeps a tail it did not know.
  obtain ⟨log, log_eq, reaches, tail⟩ : ∃ log,
      (recorder.service.truncated truncation).live =
        some { live with baseline := truncation.kept, log := log } ∧
      live.log.seq ≤ log.seq ∧
      (truncation.attached = false → log = live.log) := by
    unfold ServiceState.truncated
    dsimp only
    rw [live_eq]
    by_cases attached : truncation.attached = true
    · refine ⟨_, rfl, ?_, fun detached => by rw [attached] at detached; cases detached⟩
      rw [if_pos attached]
      change live.log.seq ≤ max 0 (truncation.seq + 1) - 1
      rw [atMark attached (quiet attached), seq]
      omega
    · refine ⟨_, rfl, ?_, fun _ => if_neg attached⟩
      rw [if_neg attached]
  constructor
  · intro later now
    rw [show (recorder.service.truncated truncation).live = some later from now] at log_eq
    cases log_eq
    have bounds := intact.bounded live loaded
    constructor
    · change truncation.seq ≤ log.seq
      rw [seq]
      exact bounds.1.trans reaches
    · exact fun event member => (bounds.2 event member).trans reaches
  · intro impossible
    rw [show (recorder.service.truncated truncation).live = none from impossible] at log_eq
    cases log_eq
  · exact released.locked
  · intro other
    have stands := released.stands other
    change Standing (recorder.service.truncated truncation) _
      (({ recorder with lock := none }.setCall call (.rolledBack truncation)).calls other)
    cases stage : ({ recorder with lock := none }.setCall call
      (.rolledBack truncation)).calls other with
    | captured capture =>
        rw [stage] at stands
        obtain ⟨⟨found, same, below⟩, known, _⟩ := stands
        rw [show recorder.service.live = some found from same] at loaded
        cases loaded
        refine ⟨⟨_, log_eq, below.trans reaches⟩, ?_, fun _ => ?_⟩
        · change capture.epoch ≤ (recorder.ledger.removals ++ [truncation.removedMessageIds]).length
          change capture.epoch ≤ recorder.ledger.removals.length at known
          rw [List.length_append]
          omega
        · change capture.checkpoint.seq < truncation.seq
          rw [seq]
          apply older other capture
          by_cases same : other = call
          · subst same
            rw [setCall_self] at stage
            cases stage
          · rwa [setCall_other _ _ same] at stage
    | writes write => exact absurd stage (released.unlocked rfl other write)
    | _ =>
        rw [stage] at stands
        exact stands
  · refine ⟨intact.safe.gone, ?_, intact.safe.numbered⟩
    intro event member
    change event ∈ recorder.ledger.broadcast.drop called at member
    by_cases attached : truncation.attached = true
    · rw [quiet attached, List.drop_length] at member
      exact absurd member List.not_mem_nil
    · left
      refine ⟨_, log_eq, ?_⟩
      have detached : truncation.attached = false := by simpa using attached
      rw [tail detached]
      exact listed detached event (List.mem_of_mem_drop member)

/-! ### Runs -/

theorem Intact.commit (intact : Intact recorder) {write : Write}
    (holds : recorder.calls call = .writes write)
    (undisturbed : recorder.RollbackUndisturbed (.commit call)) :
    Intact (recorder.commit call write) := by
  cases write with
  | snapshot capture => exact intact.commitSnapshot holds
  | update =>
      have finished : Standing recorder.service recorder.ledger .finished := trivial
      exact intact.release holds finished (fun write same => by cases same)
  | rollback truncation called =>
      obtain ⟨older, quiet⟩ := undisturbed truncation called holds
      exact intact.commitRollback holds older quiet

theorem Intact.failWrite (intact : Intact recorder) {write : Write}
    (holds : recorder.calls call = .writes write) : Intact (recorder.failWrite call write) := by
  have failed : Standing recorder.service recorder.ledger .failed := trivial
  have released := intact.release holds failed (fun write same => by cases same)
  cases write with
  | snapshot capture => exact released.writerRaised call
  | update => exact released
  | rollback truncation called => exact released

theorem Intact.step (intact : Intact recorder) {action : Action} {next : Recorder}
    (undisturbed : recorder.RollbackUndisturbed action)
    (stepped : recorder.step action = some next) : Intact next := by
  cases action with
  | load =>
      cases stepped
      exact intact.load
  | append time data messageId =>
      cases stepped
      rcases recorder.appendEvent_cases time data messageId with same | ⟨event, number, same⟩
      · rw [same]
        exact intact.load
      · rw [same]
        exact intact.publish number
  | appendUser time generated requestId content metadata =>
      cases stepped
      rcases recorder.appendUser_cases time generated requestId content metadata with
        same | same | ⟨event, number, same⟩
      · rw [same]
        exact intact
      · rw [same]
        exact intact.load
      · rw [same]
        exact intact.publish number
  | markDirty immediate =>
      cases stepped
      exact intact.coordinator _
  | enterLoop writer =>
      dsimp only [Recorder.step] at stepped
      split at stepped
      · cases stepped
        exact intact.enterLoop writer
      · cases stepped
  | tick writer =>
      dsimp only [Recorder.step] at stepped
      split at stepped
      · cases stepped
        exact intact.beginCheckpoint _ writer
      · cases stepped
  | writeSnapshot writer =>
      dsimp only [Recorder.step] at stepped
      split at stepped
      · cases stepped
        exact intact.capture writer
      · cases stepped
  | update call =>
      dsimp only [Recorder.step] at stepped
      split at stepped
      · rename_i free _
        cases stepped
        have updates : Standing recorder.service recorder.ledger (.writes .update) := trivial
        exact intact.takeLock free updates
      · cases stepped
  | lock call =>
      dsimp only [Recorder.step] at stepped
      split at stepped
      · rename_i free waits
        cases stepped
        exact intact.lockSnapshot free waits
      · rename_i free waits
        cases stepped
        exact intact.lockRollback free waits
      · cases stepped
  | commit call =>
      dsimp only [Recorder.step] at stepped
      split at stepped
      · rename_i holds
        cases stepped
        exact intact.commit holds undisturbed
      · cases stepped
  | writeFails call =>
      dsimp only [Recorder.step] at stepped
      split at stepped
      · rename_i holds
        cases stepped
        exact intact.failWrite holds
      · cases stepped
  | flushLog call =>
      dsimp only [Recorder.step] at stepped
      split at stepped
      · cases stepped
        unfold Recorder.flushLog
        exact intact.joinFlush call (by exact trivial) (by exact trivial)
          (fun write => ⟨(fun same => by cases same), (fun same => by cases same)⟩)
      · cases stepped
  | flushCancelled call =>
      dsimp only [Recorder.step] at stepped
      split at stepped
      · cases stepped
        have failed : Standing recorder.service recorder.ledger .failed := trivial
        exact intact.setCall failed (fun write same => by cases same)
      · cases stepped
  | rollback call throughMessageId =>
      dsimp only [Recorder.step] at stepped
      split at stepped
      · cases stepped
        exact intact.callRollback call throughMessageId
      · cases stepped

theorem intact_opened (sessionId : String) (stored : SessionMeta) :
    Intact (opened sessionId stored) where
  bounded := fun live loaded => by cases loaded
  unloaded := fun _ => rfl
  locked := fun call write writes => by cases writes
  stands := fun _ => trivial
  safe := ⟨rfl, fun event member => absurd member List.not_mem_nil, List.nodup_nil⟩

/-- In every run whose rollbacks commit undisturbed, no checkpoint brings a
removed message back, no event that came meanwhile is lost, and no number is
given out twice. -/
theorem undisturbed_rollbacks_safe (sessionId : String) (stored : SessionMeta) {final : Recorder}
    (reached : system.Reaches RollbackUndisturbed (opened sessionId stored) final) :
    RollbackSafe final := by
  have intact : Intact final := by
    apply reached.invariant (intact_opened sessionId stored)
    intro before action after intact undisturbed stepped
    exact intact.step undisturbed stepped
  exact intact.safe

/-! ### Closed runs -/

private def greeted : SessionMeta where
  seq := 0
  messages := KeyedList.empty.put (Msg.plain "user-1" .user
    [.text ⟨"hello", "text-1", "2026-01-01T00:00:00+00:00", none⟩] "2026-01-01T00:00:00+00:00")
  requests := .empty

private def status (name : String) : EventData := .sessionStatus name ""

/-- A rollback that nothing disturbs removes its message. -/
theorem quiet_rollback_is_safe :
    ∃ final, system.Reaches RollbackUndisturbed (opened "session-1" greeted) final ∧
      final.ledger.removals = [["user-1"]] ∧ final.service.stored.messages.keys = [] ∧
      RollbackSafe final := by
  have reached : ∃ final,
      system.Reaches RollbackUndisturbed (opened "session-1" greeted) final ∧
        final.ledger.removals = [["user-1"]] ∧ final.service.stored.messages.keys = [] := by
    refine ⟨?final, ?run, ?removed, ?gone⟩
    case run =>
      refine .head .load trivial rfl ?_
      refine .head (.rollback 0 "user-1") trivial rfl ?_
      refine .head (.enterLoop 1) trivial rfl ?_
      refine .head (.lock 1) trivial rfl ?_
      refine .head (.commit 1) ?checkpoint rfl ?later
      case checkpoint =>
        intro truncation called writes
        cases writes
      case later =>
        refine .head (.lock 0) trivial rfl ?_
        refine .head (.commit 0) ?undisturbed rfl ?done
        case undisturbed =>
          intro truncation called writes
          cases writes
          refine ⟨?_, fun _ => rfl⟩
          intro other capture waits
          rcases other with _ | _ | other <;> cases waits
        case done => exact Relation.ReflTransGen.refl
    case removed => rfl
    case gone => rfl
  obtain ⟨final, run, removed, gone⟩ := reached
  exact ⟨final, run, removed, gone, undisturbed_rollbacks_safe "session-1" greeted run⟩

/-- A checkpoint captured while the rollback writes commits the removed message again; an event
appended meanwhile is lost, and the next event gets its number. -/
theorem disturbed_rollback_unsafe :
    (∃ final, system.Reaches StepSystem.anyStep (opened "session-1" greeted) final ∧
      final.ledger.revived = ["user-1"] ∧ final.service.stored.messages.keys = ["user-1"] ∧
      ¬ RollbackSafe final) ∧
    (∃ final, system.Reaches StepSystem.anyStep (opened "session-1" greeted) final ∧
      final.ledger.awaited.map Event.data = [status "running"] ∧
      final.service.liveSession.log.events.map Event.data = [status "idle"] ∧
      final.ledger.durable = [] ∧ final.ledger.broadcast.map Event.seq = [1, 1] ∧
      ¬ RollbackSafe final) := by
  have revived : ∃ final, system.Reaches StepSystem.anyStep (opened "session-1" greeted) final ∧
      final.ledger.revived = ["user-1"] ∧ final.service.stored.messages.keys = ["user-1"] := by
    refine ⟨?final, ?run, ?revived, ?back⟩
    case run =>
      refine .head .load trivial rfl ?_
      refine .head (.rollback 0 "user-1") trivial rfl ?_
      refine .head (.enterLoop 1) trivial rfl ?_
      refine .head (.lock 1) trivial rfl ?_
      refine .head (.commit 1) trivial rfl ?_
      refine .head (.lock 0) trivial rfl ?_
      refine .head (.flushLog 2) trivial rfl ?_
      refine .head (.enterLoop 3) trivial rfl ?_
      refine .head (.commit 0) trivial rfl ?_
      refine .head (.lock 3) trivial rfl ?_
      refine .head (.commit 3) trivial rfl ?_
      exact Relation.ReflTransGen.refl
    case revived => rfl
    case back => rfl
  have dropped : ∃ final, system.Reaches StepSystem.anyStep (opened "session-1" greeted) final ∧
      final.ledger.awaited.map Event.data = [status "running"] ∧
      final.service.liveSession.log.events.map Event.data = [status "idle"] ∧
      final.ledger.durable = [] ∧ final.ledger.broadcast.map Event.seq = [1, 1] := by
    refine ⟨?dropped, ?drops, ?awaited, ?log, ?durable, ?numbers⟩
    case drops =>
      refine .head .load trivial rfl ?_
      refine .head (.rollback 0 "user-1") trivial rfl ?_
      refine .head (.enterLoop 1) trivial rfl ?_
      refine .head (.lock 1) trivial rfl ?_
      refine .head (.commit 1) trivial rfl ?_
      refine .head (.lock 0) trivial rfl ?_
      refine .head (.append 0 (status "running") none) trivial rfl ?_
      refine .head (.commit 0) trivial rfl ?_
      refine .head (.append 0 (status "idle") none) trivial rfl ?_
      exact Relation.ReflTransGen.refl
    case awaited => rfl
    case log => rfl
    case durable => rfl
    case numbers => rfl
  constructor
  · obtain ⟨final, run, again, back⟩ := revived
    refine ⟨final, run, again, back, fun safe => ?_⟩
    rw [safe.gone] at again
    cases again
  · obtain ⟨final, run, awaited, log, durable, numbers⟩ := dropped
    refine ⟨final, run, awaited, log, durable, numbers, fun safe => ?_⟩
    have distinct := safe.numbered
    rw [numbers] at distinct
    exact absurd distinct (by decide)

end Recorder

end Ftre.Session
