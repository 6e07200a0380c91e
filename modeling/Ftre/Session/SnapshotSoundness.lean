import Ftre.Session.Checkpoints

/-!
What checkpoints commit while nothing is rolled back: the baseline with exactly
the events up to their mark, at marks that never fall, and past the mark of
every flush that has returned.
-/

namespace Ftre.Session

open Lib Message

namespace Recorder

/-- No rollback is called. -/
def noRollback : Recorder → Action → Prop
  | _, .rollback _ _ => False
  | _, _ => True

/-- The messages of the baseline and the events up to `seq`. -/
def foldUpTo (live : LiveSession) (seq : Int) : MessageTable :=
  mergeMessages live.baseline
    (deriveMessages (live.log.events.filter fun event => decide (event.seq ≤ seq)))

/-- The promise of checkpoints to a session opened from `start`. -/
structure SnapshotSound (start : SessionMeta) (recorder : Recorder) : Prop where
  folds : ∀ committed ∈ recorder.ledger.commits, ∃ live, recorder.service.live = some live ∧
    committed.messages = foldUpTo live committed.seq
  rising : (start.seq :: recorder.ledger.commits.map SessionMeta.seq).Pairwise (· ≤ ·)
  flushed : ∀ call seq, recorder.calls call = .flushed seq → seq ≤ recorder.service.stored.seq

def Carries (recorder : Recorder) (call : Nat) (capture : Capture) : Prop :=
  recorder.calls call = .captured capture ∨ recorder.calls call = .writes (.snapshot capture)

structure Captured (live : LiveSession) (checkpoint : Checkpoint) : Prop where
  baseline : checkpoint.baseline = live.baseline
  events : checkpoint.events = live.log.events.filter fun event =>
    decide (event.seq ≤ checkpoint.seq)
  seq : checkpoint.seq ≤ live.log.seq

def rollingBack : Call → Bool
  | .rollbackFlushes .. => true
  | .rollbackWaits .. => true
  | .writes (.rollback ..) => true
  | _ => false

structure Tracks (start : SessionMeta) (recorder : Recorder) : Prop where
  quiet : ∀ call, rollingBack (recorder.calls call) = false
  numbered : ∀ live, recorder.service.live = some live →
    ∀ event ∈ live.log.events, event.seq ≤ live.log.seq
  captured : ∀ call capture, recorder.Carries call capture →
    ∃ live, recorder.service.live = some live ∧ Captured live capture.checkpoint
  locked : ∀ call write, recorder.calls call = .writes write → recorder.lock = some call
  ordered : ∀ call capture, recorder.calls call = .writes (.snapshot capture) →
    recorder.service.stored.seq ≤ capture.checkpoint.seq
  behind : ∀ live, recorder.service.live = some live →
    recorder.service.stored.seq ≤ live.log.seq
  commits : ∀ committed ∈ recorder.ledger.commits, committed.seq ≤ recorder.service.stored.seq
  started : start.seq ≤ recorder.service.stored.seq
  flushing : ∀ call seq mark, recorder.calls call = .flushes seq mark →
    seq ≤ recorder.service.stored.seq ∨ mark ≤ recorder.coordinator.generation ∧
      ∃ live, recorder.service.live = some live ∧ seq ≤ live.log.seq
  current : ∀ generation, recorder.coordinator.task.taken? = some generation →
    generation ≤ recorder.coordinator.generation
  covered : ∀ generation writer capture,
    recorder.coordinator.task = .writing generation writer → recorder.Carries writer capture →
      ∀ call seq mark, recorder.calls call = .flushes seq mark → mark ≤ generation →
        seq ≤ recorder.service.stored.seq ∨ seq ≤ capture.checkpoint.seq
  sound : SnapshotSound start recorder

theorem Captured.messages {live : LiveSession} {checkpoint : Checkpoint}
    (captured : Captured live checkpoint) :
    checkpoint.messages = foldUpTo live checkpoint.seq := by
  unfold Checkpoint.messages foldUpTo
  rw [captured.baseline, captured.events]

structure Grows (live later : LiveSession) : Prop where
  baseline : later.baseline = live.baseline
  seq : live.log.seq ≤ later.log.seq
  events : ∀ mark ≤ live.log.seq,
    (later.log.events.filter fun event => decide (event.seq ≤ mark)) =
      live.log.events.filter fun event => decide (event.seq ≤ mark)

theorem Grows.refl (live : LiveSession) : Grows live live := ⟨rfl, le_refl _, fun _ _ => rfl⟩

theorem Grows.push (live : LiveSession) {event : Event} (number : event.seq = live.log.nextSeq) :
    Grows live { live with log := live.log.push event } where
  baseline := rfl
  seq := by
    rw [SessionLog.push_seq]
    omega
  events := by
    intro mark below
    have above : ¬ event.seq ≤ mark := by
      unfold SessionLog.seq at below
      omega
    simp only [SessionLog.push_events, List.filter_append, List.filter_cons, List.filter_nil,
      above, decide_false, Bool.false_eq_true, if_false, List.append_nil]

theorem Grows.foldUpTo {live later : LiveSession} (grows : Grows live later) {mark : Int}
    (below : mark ≤ live.log.seq) : foldUpTo later mark = foldUpTo live mark := by
  unfold Recorder.foldUpTo
  rw [grows.baseline, grows.events mark below]

theorem Captured.grow {live later : LiveSession} {checkpoint : Checkpoint}
    (captured : Captured live checkpoint) (grows : Grows live later) :
    Captured later checkpoint where
  baseline := captured.baseline.trans grows.baseline.symm
  events := captured.events.trans (grows.events checkpoint.seq captured.seq).symm
  seq := captured.seq.trans grows.seq

theorem captured_now {live : LiveSession}
    (numbered : ∀ event ∈ live.log.events, event.seq ≤ live.log.seq) :
    Captured live ⟨live.log.events, live.log.seq, live.baseline⟩ where
  baseline := rfl
  events := (List.filter_eq_self.mpr fun event member => by simpa using numbered event member).symm
  seq := le_refl _

/-! ### Steps that commit nothing -/

def Inert (stored : SessionMeta) : Call → Prop
  | .flushed seq => seq ≤ stored.seq
  | .absent => True
  | .refused _ => True
  | .finished => True
  | .failed => True
  | _ => False

structure Frame (before after : Recorder) : Prop where
  stored : after.service.stored = before.service.stored
  commits : after.ledger.commits = before.ledger.commits
  live : ∀ live, before.service.live = some live →
    ∃ later, after.service.live = some later ∧ Grows live later
  numbered : ∀ live, after.service.live = some live →
    ∀ event ∈ live.log.events, event.seq ≤ live.log.seq
  behind : ∀ live, after.service.live = some live → before.service.stored.seq ≤ live.log.seq
  calls : ∀ call, after.calls call = before.calls call ∨
    Inert before.service.stored (after.calls call)
  locked : ∀ call write, after.calls call = .writes write → after.lock = some call
  generation : before.coordinator.generation ≤ after.coordinator.generation
  current : ∀ generation, after.coordinator.task.taken? = some generation →
    generation ≤ after.coordinator.generation
  task : ∀ generation writer, after.coordinator.task = .writing generation writer →
    before.coordinator.task = .writing generation writer

variable {start : SessionMeta} {recorder after : Recorder}

variable {call : Nat}

theorem Frame.same_call (frame : Frame recorder after) {stage : Call}
    (now : after.calls call = stage) (active : ¬ Inert recorder.service.stored stage) :
    recorder.calls call = stage := by
  rcases frame.calls call with same | inert
  · rw [← same, now]
  · rw [now] at inert
    exact absurd inert active

theorem Frame.carries (frame : Frame recorder after) {capture : Capture}
    (carries : after.Carries call capture) : recorder.Carries call capture := by
  rcases carries with waits | writes
  · exact Or.inl (frame.same_call waits (by simp [Inert]))
  · exact Or.inr (frame.same_call writes (by simp [Inert]))

theorem Frame.keeps (frame : Frame recorder after) (tracks : Tracks start recorder) :
    Tracks start after where
  quiet := by
    intro call
    rcases frame.calls call with same | inert
    · rw [same]
      exact tracks.quiet call
    · cases stage : after.calls call <;> rw [stage] at inert <;> first | rfl | cases inert
  numbered := frame.numbered
  captured := by
    intro call capture carries
    obtain ⟨live, loaded, captured⟩ := tracks.captured call capture (frame.carries carries)
    obtain ⟨later, nowLoaded, grows⟩ := frame.live live loaded
    exact ⟨later, nowLoaded, captured.grow grows⟩
  locked := frame.locked
  ordered := by
    intro call capture writes
    rw [frame.stored]
    exact tracks.ordered call capture (frame.same_call writes (by simp [Inert]))
  behind := by
    rw [frame.stored]
    exact frame.behind
  commits := by
    rw [frame.stored, frame.commits]
    exact tracks.commits
  started := by
    rw [frame.stored]
    exact tracks.started
  flushing := by
    intro call seq mark waits
    rw [frame.stored]
    rcases tracks.flushing call seq mark (frame.same_call waits (by simp [Inert])) with
      stored | ⟨marked, live, loaded, below⟩
    · exact Or.inl stored
    · obtain ⟨later, nowLoaded, grows⟩ := frame.live live loaded
      exact Or.inr ⟨marked.trans frame.generation, later, nowLoaded, below.trans grows.seq⟩
  current := frame.current
  covered := by
    intro generation writer capture task carries call seq mark waits reached
    rw [frame.stored]
    exact tracks.covered generation writer capture (frame.task generation writer task)
      (frame.carries carries) call seq mark (frame.same_call waits (by simp [Inert])) reached
  sound := by
    constructor
    · intro committed member
      rw [frame.commits] at member
      obtain ⟨live, loaded, folds⟩ := tracks.sound.folds committed member
      obtain ⟨later, nowLoaded, grows⟩ := frame.live live loaded
      refine ⟨later, nowLoaded, folds.trans (grows.foldUpTo ?_).symm⟩
      exact (tracks.commits committed member).trans (tracks.behind live loaded)
    · rw [frame.commits]
      exact tracks.sound.rising
    · intro call seq done
      rw [frame.stored]
      rcases frame.calls call with same | inert
      · exact tracks.sound.flushed call seq (same ▸ done)
      · rw [done] at inert
        exact inert

theorem Tracks.liveSession (tracks : Tracks start recorder) :
    (∀ event ∈ recorder.service.liveSession.log.events,
      event.seq ≤ recorder.service.liveSession.log.seq) ∧
      recorder.service.stored.seq ≤ recorder.service.liveSession.log.seq := by
  cases loaded : recorder.service.live with
  | some live =>
      rw [ServiceState.liveSession_of_live loaded]
      exact ⟨tracks.numbered live loaded, tracks.behind live loaded⟩
  | none =>
      unfold ServiceState.liveSession
      rw [loaded]
      refine ⟨fun event member => absurd member List.not_mem_nil, ?_⟩
      change recorder.service.stored.seq ≤ max 0 (recorder.service.stored.seq + 1) - 1
      omega

theorem Tracks.load (tracks : Tracks start recorder) :
    Tracks start { recorder with service := recorder.service.load } := by
  refine Frame.keeps (?_ : Frame recorder _) tracks
  constructor
  · rfl
  · rfl
  · intro live loaded
    refine ⟨live, ?_, Grows.refl live⟩
    change some recorder.service.liveSession = some live
    rw [ServiceState.liveSession_of_live loaded]
  · intro live loaded
    cases loaded
    exact tracks.liveSession.1
  · intro live loaded
    cases loaded
    exact tracks.liveSession.2
  · exact fun call => Or.inl rfl
  · exact tracks.locked
  · exact le_refl _
  · exact tracks.current
  · exact fun generation writer task => task

theorem Tracks.markDirty_current (tracks : Tracks start recorder) (immediate : Bool) :
    ∀ generation, (recorder.coordinator.markDirty immediate).task.taken? = some generation →
      generation ≤ (recorder.coordinator.markDirty immediate).generation := by
  intro generation taken
  rw [SnapshotCoordinator.markDirty_taken?] at taken
  rw [SnapshotCoordinator.markDirty_generation]
  exact (tracks.current generation taken).trans (Nat.le_succ _)

theorem Tracks.publish (tracks : Tracks start recorder) {event : Event}
    (number : event.seq = recorder.service.liveSession.log.nextSeq) :
    Tracks start (recorder.publish
      (recorder.service.withLog (recorder.service.liveSession.log.push event)) event) := by
  refine Frame.keeps (?_ : Frame recorder _) tracks
  have grows := Grows.push recorder.service.liveSession number
  constructor
  · rfl
  · rfl
  · intro live loaded
    rw [ServiceState.liveSession_of_live loaded] at grows
    refine ⟨_, ?_, grows⟩
    change some { recorder.service.liveSession with
      log := recorder.service.liveSession.log.push event } = _
    rw [ServiceState.liveSession_of_live loaded]
  · intro live loaded other member
    cases loaded
    rw [SessionLog.push_events, List.mem_append, List.mem_singleton] at member
    rw [SessionLog.push_seq]
    rcases member with earlier | same
    · have bounded := tracks.liveSession.1 other earlier
      omega
    · subst same
      rw [number]
      unfold SessionLog.seq
      omega
  · intro live loaded
    cases loaded
    exact tracks.liveSession.2.trans grows.seq
  · exact fun call => Or.inl rfl
  · exact tracks.locked
  · change _ ≤ (recorder.coordinator.markDirty event.data.immediate).generation
    rw [SnapshotCoordinator.markDirty_generation]
    omega
  · exact (tracks.markDirty_current _)
  · exact fun generation writer => (recorder.coordinator.markDirty_writing _ _ _).mp

/-! ### The coordinator and the end of calls -/

theorem Tracks.settle (tracks : Tracks start recorder) {coordinator : SnapshotCoordinator}
    {lock : Option Nat} {calls : Nat → Call}
    (ended : ∀ call, calls call = recorder.calls call ∨
      Inert recorder.service.stored (calls call))
    (locked : ∀ call write, calls call = .writes write → lock = some call)
    (generation : recorder.coordinator.generation ≤ coordinator.generation)
    (current : ∀ generation, coordinator.task.taken? = some generation →
      generation ≤ coordinator.generation)
    (task : ∀ generation writer, coordinator.task = .writing generation writer →
      recorder.coordinator.task = .writing generation writer) :
    Tracks start
      { recorder with coordinator := coordinator, lock := lock, calls := calls } := by
  refine Frame.keeps (?_ : Frame recorder _) tracks
  constructor
  · rfl
  · rfl
  · exact fun live loaded => ⟨live, loaded, Grows.refl live⟩
  · exact tracks.numbered
  · exact tracks.behind
  · exact ended
  · exact locked
  · exact generation
  · exact current
  · exact task

theorem Tracks.markDirty (tracks : Tracks start recorder) (immediate : Bool) :
    Tracks start
      { recorder with coordinator := recorder.coordinator.markDirty immediate } := by
  apply tracks.settle (fun call => Or.inl rfl) tracks.locked
  · rw [SnapshotCoordinator.markDirty_generation]
    omega
  · exact tracks.markDirty_current immediate
  · exact fun generation writer => (recorder.coordinator.markDirty_writing _ _ _).mp

theorem Tracks.endCall (tracks : Tracks start recorder) (call : Nat) {stage : Call}
    (inert : Inert recorder.service.stored stage) {lock : Option Nat}
    (kept : ∀ other write, other ≠ call → recorder.calls other = .writes write →
      lock = some other) :
    Tracks start ({ recorder with lock := lock }.setCall call stage) := by
  refine tracks.settle ?_ ?_ (le_refl _) tracks.current
    (fun generation writer task => task)
  · intro other
    by_cases same : other = call
    · right
      rw [if_pos same]
      exact inert
    · left
      rw [if_neg same]
  · intro other write writes
    by_cases same : other = call
    · rw [if_pos same] at writes
      rw [writes] at inert
      cases inert
    · rw [if_neg same] at writes
      exact kept other write same writes

theorem Tracks.other_free (tracks : Tracks start recorder) {held : Write}
    (holds : recorder.calls call = .writes held) (lock : Option Nat) :
    ∀ other write, other ≠ call → recorder.calls other = .writes write → lock = some other := by
  intro other write different writes
  have mine := tracks.locked call held holds
  rw [tracks.locked other write writes] at mine
  exact absurd (Option.some.inj mine) different

theorem Tracks.writerReturned (tracks : Tracks start recorder) {writer : Nat}
    (reached : ∀ generation, recorder.coordinator.task = .writing generation writer →
      ∀ call seq mark, recorder.calls call = .flushes seq mark → mark ≤ generation →
        seq ≤ recorder.service.stored.seq) :
    Tracks start (recorder.writerReturned writer) := by
  unfold Recorder.writerReturned
  split
  · rename_i generation current task
    by_cases same : current = writer
    · rw [if_pos same]
      subst same
      refine tracks.settle ?_ ?_ ?_ ?_ ?_
      · intro call
        by_cases waiting : call ∈ recorder.coordinator.answered generation
        · by_cases latest : recorder.coordinator.generation = generation
          · rw [answerAll_calls, if_pos waiting]
            cases stage : recorder.calls call with
            | flushes seq mark =>
                right
                change seq ≤ recorder.service.stored.seq
                rcases tracks.flushing call seq mark stage with below | ⟨marked, _⟩
                · exact below
                · exact reached generation task call seq mark stage (latest ▸ marked)
            | rollbackFlushes throughMessageId called =>
                have quiet := tracks.quiet call
                rw [stage] at quiet
                cases quiet
            | _ => exact Or.inl rfl
          · unfold SnapshotCoordinator.answered at waiting
            rw [if_neg latest] at waiting
            exact absurd waiting List.not_mem_nil
        · left
          rw [answerAll_calls, if_neg waiting]
      · intro call write writes
        apply tracks.locked call write
        rw [answerAll_calls] at writes
        by_cases waiting : call ∈ recorder.coordinator.answered generation
        · rw [if_pos waiting] at writes
          cases stage : recorder.calls call <;> rw [stage] at writes <;>
            first | exact writes | cases writes
        · rwa [if_neg waiting] at writes
      · unfold SnapshotCoordinator.writeSucceeded
        split <;> exact le_refl _
      · unfold SnapshotCoordinator.writeSucceeded
        split <;> intro taken impossible <;> cases impossible
      · intro other otherWriter nowTask
        unfold SnapshotCoordinator.writeSucceeded at nowTask
        split at nowTask <;> cases nowTask
    · rw [if_neg same]
      exact tracks
  · exact tracks

theorem Tracks.writerRaised (tracks : Tracks start recorder) (writer : Nat) :
    Tracks start (recorder.writerRaised writer) := by
  unfold Recorder.writerRaised
  split
  · rename_i generation current task
    by_cases same : current = writer
    · rw [if_pos same]
      refine tracks.settle ?_ ?_ (le_refl _) (fun taken impossible => by cases impossible) ?_
      · intro call
        by_cases waiting : call ∈ recorder.coordinator.waiters
        · rw [rejectAll_calls, if_pos waiting]
          cases stage : recorder.calls call with
          | flushes seq mark => exact Or.inr trivial
          | rollbackFlushes throughMessageId called => exact Or.inr trivial
          | _ => exact Or.inl rfl
        · left
          rw [rejectAll_calls, if_neg waiting]
      · intro call write writes
        apply tracks.locked call write
        rw [rejectAll_calls] at writes
        by_cases waiting : call ∈ recorder.coordinator.waiters
        · rw [if_pos waiting] at writes
          cases stage : recorder.calls call <;> rw [stage] at writes <;>
            first | exact writes | cases writes
        · rwa [if_neg waiting] at writes
      · intro other otherWriter nowTask
        cases nowTask
    · rw [if_neg same]
      exact tracks
  · exact tracks

/-! ### Captures -/

theorem carries_absent {capture : Capture} (absent : recorder.calls call = .absent) :
    ¬ recorder.Carries call capture := by
  unfold Carries
  rw [absent]
  rintro (impossible | impossible) <;> cases impossible

theorem Tracks.beginWrite (tracks : Tracks start recorder) {generation writer : Nat}
    (fresh : recorder.calls writer = .absent)
    (current : generation ≤ recorder.coordinator.generation) :
    Tracks start
      { recorder with coordinator := recorder.coordinator.beginWrite generation writer } where
  quiet := tracks.quiet
  numbered := tracks.numbered
  captured := tracks.captured
  locked := tracks.locked
  ordered := tracks.ordered
  behind := tracks.behind
  commits := tracks.commits
  started := tracks.started
  flushing := tracks.flushing
  current := by
    intro other taken
    cases taken
    exact current
  covered := by
    intro other otherWriter capture task carries
    cases task
    exact absurd carries (carries_absent fresh)
  sound := ⟨tracks.sound.folds, tracks.sound.rising, tracks.sound.flushed⟩

theorem Tracks.captureLive (tracks : Tracks start recorder) {writer : Nat}
    (fresh : recorder.calls writer = .absent) {live : LiveSession}
    (loaded : recorder.service.live = some live) (epoch : Nat) :
    Tracks start (recorder.setCall writer
      (.captured ⟨⟨live.log.events, live.log.seq, live.baseline⟩, epoch⟩)) := by
  generalize taken : (⟨⟨live.log.events, live.log.seq, live.baseline⟩, epoch⟩ : Capture) = capture
  have stages : ∀ call stage, (recorder.setCall writer (.captured capture)).calls call = stage →
      recorder.calls call = stage ∨ call = writer ∧ stage = .captured capture := by
    intro call stage now
    by_cases same : call = writer
    · subst same
      rw [setCall_self] at now
      exact Or.inr ⟨rfl, now.symm⟩
    · rw [setCall_other _ _ same] at now
      exact Or.inl now
  have carried : ∀ call other, (recorder.setCall writer (.captured capture)).Carries call other →
      recorder.Carries call other ∨ call = writer ∧ other = capture := by
    rintro call other (waits | writes)
    · rcases stages call _ waits with before | ⟨same, stage⟩
      · exact Or.inl (Or.inl before)
      · exact Or.inr ⟨same, Call.captured.inj stage⟩
    · rcases stages call _ writes with before | ⟨_, stage⟩
      · exact Or.inl (Or.inr before)
      · cases stage
  have waiting : ∀ call seq mark,
      (recorder.setCall writer (.captured capture)).calls call = .flushes seq mark →
        recorder.calls call = .flushes seq mark := by
    intro call seq mark waits
    rcases stages call _ waits with before | ⟨_, stage⟩
    · exact before
    · cases stage
  constructor
  · intro call
    rcases stages call _ rfl with before | ⟨_, stage⟩
    · rw [← before]
      exact tracks.quiet call
    · rw [stage]
      rfl
  · exact tracks.numbered
  · intro call other carries
    rcases carried call other carries with before | ⟨_, same⟩
    · exact tracks.captured call other before
    · subst same taken
      exact ⟨live, loaded, captured_now (tracks.numbered live loaded)⟩
  · intro call write writes
    rcases stages call _ writes with before | ⟨_, stage⟩
    · exact tracks.locked call write before
    · cases stage
  · intro call other writes
    rcases stages call _ writes with before | ⟨_, stage⟩
    · exact tracks.ordered call other before
    · cases stage
  · exact tracks.behind
  · exact tracks.commits
  · exact tracks.started
  · intro call seq mark waits
    exact tracks.flushing call seq mark (waiting call seq mark waits)
  · exact tracks.current
  · intro current other held now carries call seq mark waits reached
    have pending := waiting call seq mark waits
    rcases carried other held carries with before | ⟨_, same⟩
    · exact tracks.covered current other held now before call seq mark pending reached
    · subst same taken
      rcases tracks.flushing call seq mark pending with below | ⟨_, found, same, below⟩
      · exact Or.inl below
      · rw [loaded] at same
        cases same
        exact Or.inr below
  · constructor
    · exact tracks.sound.folds
    · exact tracks.sound.rising
    · intro call seq done
      rcases stages call _ done with before | ⟨_, stage⟩
      · exact tracks.sound.flushed call seq before
      · cases stage

theorem Tracks.flushing_unloaded (tracks : Tracks start recorder)
    (unloaded : recorder.service.live = none) {seq : Int} {mark : Nat}
    (waits : recorder.calls call = .flushes seq mark) : seq ≤ recorder.service.stored.seq := by
  rcases tracks.flushing call seq mark waits with below | ⟨_, live, loaded, _⟩
  · exact below
  · rw [unloaded] at loaded
    cases loaded

theorem finish_waiting {call other : Nat} {seq : Int} {mark : Nat}
    (waits : (recorder.setCall call .finished).calls other = .flushes seq mark) :
    recorder.calls other = .flushes seq mark := by
  by_cases same : other = call
  · subst same
    rw [setCall_self] at waits
    cases waits
  · rwa [setCall_other _ _ same] at waits

theorem Tracks.finish (tracks : Tracks start recorder) (call : Nat) :
    Tracks start (recorder.setCall call .finished) := by
  have inert : Inert recorder.service.stored .finished := trivial
  exact tracks.endCall call inert (fun other write _ writes => tracks.locked other write writes)

theorem Tracks.capture (tracks : Tracks start recorder) {writer : Nat}
    (fresh : recorder.calls writer = .absent) : Tracks start (recorder.capture writer) := by
  unfold Recorder.capture
  split
  · rename_i live loaded
    exact tracks.captureLive fresh loaded _
  · rename_i unloaded
    apply (tracks.finish writer).writerReturned
    intro generation task call seq mark waits reached
    exact tracks.flushing_unloaded unloaded (finish_waiting waits)

theorem Tracks.beginCheckpoint (tracks : Tracks start recorder) {generation writer : Nat}
    (fresh : recorder.calls writer = .absent)
    (current : generation ≤ recorder.coordinator.generation) :
    Tracks start (recorder.beginCheckpoint generation writer) :=
  (tracks.beginWrite fresh current).capture fresh

theorem Tracks.enterLoop (tracks : Tracks start recorder) {writer : Nat}
    (fresh : recorder.calls writer = .absent) : Tracks start (recorder.enterLoop writer) := by
  unfold Recorder.enterLoop
  split
  · exact tracks.settle (fun call => Or.inl rfl) tracks.locked (le_refl _)
      (fun taken impossible => by cases impossible) (fun generation other task => by cases task)
  · split
    · exact tracks.settle (fun call => Or.inl rfl) tracks.locked (le_refl _)
        (fun taken same => by cases same; exact le_refl _)
        (fun generation other task => by cases task)
    · exact tracks.beginCheckpoint fresh (le_refl _)

/-! ### The session lock -/

theorem Tracks.takeLock (tracks : Tracks start recorder) {call : Nat} {write : Write}
    (free : recorder.lock = none) (quiet : rollingBack (.writes write) = false)
    (carried : ∀ capture, write = .snapshot capture → recorder.calls call = .captured capture ∧
      recorder.service.stored.seq ≤ capture.checkpoint.seq) :
    Tracks start ({ recorder with lock := some call }.setCall call (.writes write)) := by
  have alone : ∀ other held, recorder.calls other ≠ .writes held := by
    intro other held writes
    have locked := tracks.locked other held writes
    rw [free] at locked
    cases locked
  have carries : ∀ other capture,
      ({ recorder with lock := some call }.setCall call (.writes write)).Carries other capture →
        recorder.Carries other capture := by
    intro other capture carries
    by_cases same : other = call
    · subst same
      unfold Carries at carries
      rw [setCall_self] at carries
      rcases carries with impossible | holds
      · cases impossible
      · exact Or.inl (carried capture (Call.writes.inj holds)).1
    · unfold Carries at carries
      rw [setCall_other _ _ same] at carries
      exact carries
  have waiting : ∀ other stage, (∀ held, stage ≠ .writes held) →
      ({ recorder with lock := some call }.setCall call (.writes write)).calls other = stage →
        recorder.calls other = stage := by
    intro other stage idle now
    by_cases same : other = call
    · subst same
      rw [setCall_self] at now
      exact absurd now.symm (idle write)
    · rwa [setCall_other _ _ same] at now
  constructor
  · intro other
    by_cases same : other = call
    · subst same
      rw [setCall_self]
      exact quiet
    · rw [setCall_other _ _ same]
      exact tracks.quiet other
  · exact tracks.numbered
  · exact fun other capture held => tracks.captured other capture (carries other capture held)
  · intro other held writes
    by_cases same : other = call
    · exact congrArg some same.symm
    · rw [setCall_other _ _ same] at writes
      exact absurd writes (alone other held)
  · intro other capture writes
    by_cases same : other = call
    · subst same
      rw [setCall_self] at writes
      exact (carried capture (Call.writes.inj writes)).2
    · rw [setCall_other _ _ same] at writes
      exact absurd writes (alone other _)
  · exact tracks.behind
  · exact tracks.commits
  · exact tracks.started
  · intro other seq mark waits
    exact tracks.flushing other seq mark (waiting other _ (fun _ same => by cases same) waits)
  · exact tracks.current
  · intro generation writer capture task held other seq mark waits
    exact tracks.covered generation writer capture task (carries writer capture held) other seq
      mark (waiting other _ (fun _ same => by cases same) waits)
  · refine ⟨tracks.sound.folds, tracks.sound.rising, ?_⟩
    intro other seq done
    exact tracks.sound.flushed other seq (waiting other _ (fun _ same => by cases same) done)

theorem Tracks.lockSnapshot (tracks : Tracks start recorder) {capture : Capture}
    (free : recorder.lock = none) (waits : recorder.calls call = .captured capture) :
    Tracks start (recorder.lockSnapshot call capture) := by
  unfold Recorder.lockSnapshot
  split
  · rename_i newer
    apply (tracks.finish call).writerReturned
    intro generation task other seq mark flushes reached
    have covered := tracks.covered generation call capture task (Or.inl waits) other seq mark
      (finish_waiting flushes) reached
    change seq ≤ recorder.service.stored.seq
    omega
  · rename_i latest
    apply tracks.takeLock free rfl
    intro other same
    cases same
    exact ⟨waits, by omega⟩

theorem commit_of_ordered {checkpoint : Checkpoint} {stored : SessionMeta}
    (ordered : stored.seq ≤ checkpoint.seq) :
    (checkpoint.commit stored).seq = checkpoint.seq ∧
      (checkpoint.commit stored).messages = checkpoint.messages := by
  unfold Checkpoint.commit
  rw [if_neg (by omega)]
  exact ⟨rfl, rfl⟩

theorem Tracks.advance (tracks : Tracks start recorder) {next : SessionMeta} {live : LiveSession}
    (loaded : recorder.service.live = some live)
    (unlocked : ∀ call write, recorder.calls call ≠ .writes write)
    (ordered : recorder.service.stored.seq ≤ next.seq) (below : next.seq ≤ live.log.seq)
    (folds : next.messages = foldUpTo live next.seq) (ledger : Ledger)
    (commits : ledger.commits = recorder.ledger.commits ++ [next]) :
    Tracks start { recorder with
      service := { recorder.service with stored := next }
      ledger := ledger } where
  quiet := tracks.quiet
  numbered := tracks.numbered
  captured := tracks.captured
  locked := tracks.locked
  ordered := fun call capture writes => absurd writes (unlocked call _)
  behind := by
    intro later now
    rw [show recorder.service.live = some later from now] at loaded
    cases loaded
    exact below
  commits := by
    intro committed member
    rw [commits, List.mem_append, List.mem_singleton] at member
    rcases member with before | same
    · exact (tracks.commits committed before).trans ordered
    · exact le_of_eq (congrArg SessionMeta.seq same)
  started := tracks.started.trans ordered
  flushing := by
    intro call seq mark waits
    exact (tracks.flushing call seq mark waits).imp (fun stored => stored.trans ordered) id
  current := tracks.current
  covered := by
    intro generation writer capture task carries call seq mark waits reached
    exact (tracks.covered generation writer capture task carries call seq mark waits reached).imp
      (fun stored => stored.trans ordered) id
  sound := by
    constructor
    · intro committed member
      rw [commits, List.mem_append, List.mem_singleton] at member
      rcases member with before | same
      · exact tracks.sound.folds committed before
      · subst same
        exact ⟨live, loaded, folds⟩
    · rw [commits, List.map_append, ← List.cons_append, List.pairwise_append]
      refine ⟨tracks.sound.rising, List.pairwise_singleton _ _, ?_⟩
      intro earlier member latest only
      rw [List.map_singleton, List.mem_singleton] at only
      subst only
      refine le_trans ?_ ordered
      rcases List.mem_cons.mp member with same | later
      · rw [same]
        exact tracks.started
      · obtain ⟨committed, before, same⟩ := List.mem_map.mp later
        rw [← same]
        exact tracks.commits committed before
    · exact fun call seq done => (tracks.sound.flushed call seq done).trans ordered

theorem Tracks.releaseLock (tracks : Tracks start recorder) {held : Write}
    (holds : recorder.calls call = .writes held) {stage : Call}
    (inert : Inert recorder.service.stored stage) :
    Tracks start ({ recorder with lock := none }.setCall call stage) ∧
      ∀ other write, ({ recorder with lock := none }.setCall call stage).calls other ≠
        .writes write := by
  refine ⟨tracks.endCall call inert (tracks.other_free holds none), ?_⟩
  intro other write writes
  by_cases same : other = call
  · subst same
    rw [setCall_self] at writes
    rw [writes] at inert
    cases inert
  · rw [setCall_other _ _ same] at writes
    have mine := tracks.locked call held holds
    rw [tracks.locked other write writes] at mine
    exact same (Option.some.inj mine)

theorem Tracks.commitSnapshot (tracks : Tracks start recorder) {capture : Capture}
    (holds : recorder.calls call = .writes (.snapshot capture)) :
    Tracks start (recorder.commitSnapshot call capture) := by
  obtain ⟨live, loaded, captured⟩ := tracks.captured call capture (Or.inr holds)
  obtain ⟨seq_eq, messages_eq⟩ := commit_of_ordered (tracks.ordered call capture holds)
  have inert : Inert recorder.service.stored .finished := trivial
  obtain ⟨released, unlocked⟩ := tracks.releaseLock holds inert
  have ordered : recorder.service.stored.seq ≤
      (capture.checkpoint.commit recorder.service.stored).seq := by
    rw [seq_eq]
    exact tracks.ordered call capture holds
  have advanced := released.advance loaded unlocked ordered
    (by rw [seq_eq]; exact captured.seq) (by rw [messages_eq, seq_eq]; exact captured.messages)
    { recorder.ledger with
      commits := recorder.ledger.commits ++ [capture.checkpoint.commit recorder.service.stored]
      revived := recorder.ledger.revived ++ removedSince recorder.ledger capture
      durable := recorder.ledger.durable ++ capture.checkpoint.events } rfl
  refine advanced.writerReturned ?_
  intro generation task other seq mark flushes reached
  change seq ≤ (capture.checkpoint.commit recorder.service.stored).seq
  rcases tracks.covered generation call capture task (Or.inr holds) other seq mark
    (finish_waiting flushes) reached with below | below
  · exact below.trans ordered
  · rw [seq_eq]
    exact below

/-! ### Flushes -/

theorem Tracks.wait (tracks : Tracks start recorder) {call : Nat} {seq : Int} {mark : Nat}
    (pending : seq ≤ recorder.service.stored.seq ∨ mark ≤ recorder.coordinator.generation ∧
      ∃ live, recorder.service.live = some live ∧ seq ≤ live.log.seq)
    (later : seq ≤ recorder.service.stored.seq ∨ ∀ generation writer,
      recorder.coordinator.task = .writing generation writer → generation < mark) :
    Tracks start (recorder.setCall call (.flushes seq mark)) := by
  have stages : ∀ other stage, (recorder.setCall call (.flushes seq mark)).calls other = stage →
      recorder.calls other = stage ∨ stage = .flushes seq mark := by
    intro other stage now
    by_cases same : other = call
    · subst same
      rw [setCall_self] at now
      exact Or.inr now.symm
    · rw [setCall_other _ _ same] at now
      exact Or.inl now
  have carries : ∀ other capture,
      (recorder.setCall call (.flushes seq mark)).Carries other capture →
        recorder.Carries other capture := by
    rintro other capture (waits | writes)
    · exact Or.inl ((stages other _ waits).resolve_right (fun same => by cases same))
    · exact Or.inr ((stages other _ writes).resolve_right (fun same => by cases same))
  constructor
  · intro other
    rcases stages other _ rfl with before | stage
    · rw [← before]
      exact tracks.quiet other
    · rw [stage]
      rfl
  · exact tracks.numbered
  · exact fun other capture held => tracks.captured other capture (carries other capture held)
  · intro other write writes
    exact tracks.locked other write
      ((stages other _ writes).resolve_right (fun same => by cases same))
  · intro other capture writes
    exact tracks.ordered other capture
      ((stages other _ writes).resolve_right (fun same => by cases same))
  · exact tracks.behind
  · exact tracks.commits
  · exact tracks.started
  · intro other otherSeq otherMark waits
    rcases stages other _ waits with before | stage
    · exact tracks.flushing other otherSeq otherMark before
    · cases stage
      exact pending
  · exact tracks.current
  · intro generation writer capture task held other otherSeq otherMark waits reached
    rcases stages other _ waits with before | stage
    · exact tracks.covered generation writer capture task (carries writer capture held) other
        otherSeq otherMark before reached
    · cases stage
      rcases later with below | above
      · exact Or.inl below
      · have strict := above generation writer task
        omega
  · refine ⟨tracks.sound.folds, tracks.sound.rising, ?_⟩
    intro other otherSeq done
    exact tracks.sound.flushed other otherSeq
      ((stages other _ done).resolve_right (fun same => by cases same))

theorem Tracks.addWaiter (tracks : Tracks start recorder) (call : Nat) :
    Tracks start
      { recorder with coordinator := recorder.coordinator.addWaiter call } := by
  apply tracks.settle (fun other => Or.inl rfl) tracks.locked
  · rw [SnapshotCoordinator.addWaiter_generation]
  · intro generation taken
    rw [SnapshotCoordinator.addWaiter_taken?] at taken
    rw [SnapshotCoordinator.addWaiter_generation]
    exact tracks.current generation taken
  · exact fun generation writer => (recorder.coordinator.addWaiter_writing _ _ _).mp

theorem Tracks.flushLog (tracks : Tracks start recorder) :
    Tracks start (recorder.flushLog call) := by
  unfold Recorder.flushLog Recorder.joinFlush
  cases loaded : recorder.service.live with
  | some live =>
      simp only [Option.isSome_some, if_true, SnapshotCoordinator.markDirty_dirty]
      refine ((tracks.markDirty true).addWaiter call).wait (Or.inr ⟨?_, live, loaded, le_refl _⟩)
        (Or.inr ?_)
      · simp only [SnapshotCoordinator.addWaiter_generation,
          SnapshotCoordinator.markDirty_generation, le_refl]
      · intro generation writer task
        rw [SnapshotCoordinator.addWaiter_writing, SnapshotCoordinator.markDirty_writing] at task
        have reached := tracks.current generation (by rw [task]; rfl)
        omega
  | none =>
      simp only [Option.isSome_none, Bool.false_eq_true, if_false]
      split
      · exact (tracks.addWaiter call).wait (Or.inl (le_refl _)) (Or.inl (le_refl _))
      · have inert : Inert recorder.service.stored (.flushed recorder.service.stored.seq) :=
          le_refl recorder.service.stored.seq
        exact tracks.endCall call inert (fun other write _ writes => tracks.locked other write writes)

/-! ### Runs -/

theorem Tracks.failWrite (tracks : Tracks start recorder) {write : Write}
    (holds : recorder.calls call = .writes write) :
    Tracks start (recorder.failWrite call write) := by
  have inert : Inert recorder.service.stored .failed := trivial
  have released := (tracks.releaseLock holds inert).1
  cases write with
  | snapshot capture => exact released.writerRaised call
  | update => exact released
  | rollback truncation called => exact released

theorem Tracks.commit (tracks : Tracks start recorder) {write : Write}
    (holds : recorder.calls call = .writes write) : Tracks start (recorder.commit call write) := by
  cases write with
  | snapshot capture => exact tracks.commitSnapshot holds
  | update =>
      have inert : Inert recorder.service.stored .finished := trivial
      exact (tracks.releaseLock holds inert).1
  | rollback truncation called =>
      have quiet := tracks.quiet call
      rw [holds] at quiet
      cases quiet

theorem Tracks.step (tracks : Tracks start recorder) {action : Action} {next : Recorder}
    (calm : noRollback recorder action) (stepped : recorder.step action = some next) :
    Tracks start next := by
  cases action with
  | load =>
      cases stepped
      exact tracks.load
  | append time data messageId =>
      cases stepped
      rcases recorder.appendEvent_cases time data messageId with same | ⟨event, number, same⟩
      · rw [same]
        exact tracks.load
      · rw [same]
        exact tracks.publish number
  | appendUser time generated requestId content metadata =>
      cases stepped
      rcases recorder.appendUser_cases time generated requestId content metadata with
        same | same | ⟨event, number, same⟩
      · rw [same]
        exact tracks
      · rw [same]
        exact tracks.load
      · rw [same]
        exact tracks.publish number
  | markDirty immediate =>
      cases stepped
      exact tracks.markDirty immediate
  | enterLoop writer =>
      dsimp only [Recorder.step] at stepped
      split at stepped
      · rename_i fresh
        cases stepped
        exact tracks.enterLoop fresh
      · cases stepped
  | tick writer =>
      dsimp only [Recorder.step] at stepped
      split at stepped
      · rename_i generation waiting fresh
        cases stepped
        exact tracks.beginCheckpoint fresh (tracks.current generation (by rw [waiting]; rfl))
      · cases stepped
  | writeSnapshot writer =>
      dsimp only [Recorder.step] at stepped
      split at stepped
      · rename_i fresh
        cases stepped
        exact tracks.capture fresh
      · cases stepped
  | update call =>
      dsimp only [Recorder.step] at stepped
      split at stepped
      · rename_i free fresh
        cases stepped
        exact tracks.takeLock free rfl (fun capture same => by cases same)
      · cases stepped
  | lock call =>
      dsimp only [Recorder.step] at stepped
      split at stepped
      · rename_i capture free waits
        cases stepped
        exact tracks.lockSnapshot free waits
      · rename_i throughMessageId called _ waits
        have quiet := tracks.quiet call
        rw [waits] at quiet
        cases quiet
      · cases stepped
  | commit call =>
      dsimp only [Recorder.step] at stepped
      split at stepped
      · rename_i write holds
        cases stepped
        exact tracks.commit holds
      · cases stepped
  | writeFails call =>
      dsimp only [Recorder.step] at stepped
      split at stepped
      · rename_i write holds
        cases stepped
        exact tracks.failWrite holds
      · cases stepped
  | flushLog call =>
      dsimp only [Recorder.step] at stepped
      split at stepped
      · cases stepped
        exact tracks.flushLog
      · cases stepped
  | flushCancelled call =>
      dsimp only [Recorder.step] at stepped
      split at stepped
      · cases stepped
        have inert : Inert recorder.service.stored .failed := trivial
        exact tracks.endCall call inert
          (fun other write _ writes => tracks.locked other write writes)
      · cases stepped
  | rollback call throughMessageId => exact absurd calm id

theorem tracks_opened (sessionId : String) (stored : SessionMeta) :
    Tracks stored (opened sessionId stored) where
  quiet := fun _ => rfl
  numbered := fun live loaded => by cases loaded
  captured := fun call capture carries => absurd carries (carries_absent rfl)
  locked := fun call write writes => by cases writes
  ordered := fun call capture writes => by cases writes
  behind := fun live loaded => by cases loaded
  commits := fun committed member => absurd member List.not_mem_nil
  started := le_refl _
  flushing := fun call seq mark waits => by cases waits
  current := fun generation taken => by cases taken
  covered := fun generation writer capture task => by cases task
  sound := by
    refine ⟨fun committed member => absurd member List.not_mem_nil,
      List.pairwise_singleton _ _, ?_⟩
    intro call seq done
    cases done

/-- Without a rollback every committed state folds exactly the events up to its number into the
baseline, the numbers never fall, and a flush that returned is covered. -/
theorem snapshots_sound (sessionId : String) (stored : SessionMeta) {final : Recorder}
    (reached : system.Reaches noRollback (opened sessionId stored) final) :
    SnapshotSound stored final := by
  have tracks : Tracks stored final := by
    apply reached.invariant (tracks_opened sessionId stored)
    intro before action after tracks calm stepped
    exact tracks.step calm stepped
  exact tracks.sound

private def chunk (text : String) : EventData := .assistantChunk "text" text (some "text-1") none

/-- A flush whose first checkpoint an event overtakes returns after the second. -/
theorem overtaken_flush_is_covered :
    ∃ final, system.Reaches noRollback (opened "session-1" ⟨-1, .empty, .empty⟩) final ∧
      final.calls 0 = .flushed 0 ∧ final.ledger.commits.map SessionMeta.seq = [0, 1] ∧
      SnapshotSound ⟨-1, .empty, .empty⟩ final := by
  have reached : ∃ final,
      system.Reaches noRollback (opened "session-1" ⟨-1, .empty, .empty⟩) final ∧
        final.calls 0 = .flushed 0 ∧ final.ledger.commits.map SessionMeta.seq = [0, 1] := by
    refine ⟨?final, ?run, ?flushed, ?commits⟩
    case run =>
      refine .head (.append 0 (chunk "a") (some "reply-1")) trivial rfl ?_
      refine .head (.flushLog 0) trivial rfl ?_
      refine .head (.enterLoop 1) trivial rfl ?_
      refine .head (.append 0 (chunk "b") (some "reply-1")) trivial rfl ?_
      refine .head (.lock 1) trivial rfl ?_
      refine .head (.commit 1) trivial rfl ?_
      refine .head (.enterLoop 2) trivial rfl ?_
      refine .head (.lock 2) trivial rfl ?_
      refine .head (.commit 2) trivial rfl ?_
      exact Relation.ReflTransGen.refl
    case flushed => rfl
    case commits => rfl
  obtain ⟨final, run, flushed, commits⟩ := reached
  exact ⟨final, run, flushed, commits, snapshots_sound "session-1" ⟨-1, .empty, .empty⟩ run⟩

end Recorder

end Ftre.Session
