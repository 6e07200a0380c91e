import Ftre.Session.Repository

/-!
Operations of the repository in any interleaving.
-/

namespace Ftre.Session

open Lib Message

def Hold.excludes : Hold → Hold → Bool
  | .global, .global => true
  | .global, .both => true
  | .session, .session => true
  | .session, .both => true
  | .both, .global => true
  | .both, .session => true
  | .both, .both => true
  | _, _ => false

def Hold.takesGlobal : Hold → Bool
  | .global => true
  | .both => true
  | _ => false

def Hold.takesSession : Hold → Bool
  | .session => true
  | .both => true
  | _ => false

namespace Stage

/-- The session a call works on between its read and its end, and its locks. -/
def works? : Stage → Option (Hold × String)
  | .imports sessionId _ _ => some (.unlocked, sessionId)
  | .writes hold sessionId _ _ _ => some (hold, sessionId)
  | .landed hold sessionId _ _ _ => some (hold, sessionId)
  | .removes sessionId => some (.both, sessionId)
  | .removed sessionId => some (.both, sessionId)
  | _ => none

def read? : Stage → Option (String × Nat)
  | .imports sessionId version _ => some (sessionId, version)
  | .writes _ sessionId version _ _ => some (sessionId, version)
  | .landed _ sessionId version _ _ => some (sessionId, version)
  | _ => none

def ahead? : Stage → Option String
  | .landed _ sessionId _ _ _ => some sessionId
  | .removes sessionId => some sessionId
  | _ => none

end Stage

namespace SessionRepository

def target (repository : SessionRepository) : Operation → String
  | .getOrCreateExternal channelId externalKey _ _ _ drawn _ =>
      match repository.boundSession (channelId, externalKey) with
      | some (sessionId, _) => sessionId
      | none => makeSessionId channelId drawn
  | operation => operation.sessionId

/-- An operation reads only while every operation at work on its session holds a
lock that it takes too; a commit brings no binding of another session; the
removal of a directory does not fail. -/
def Separated (repository : SessionRepository) : RepositoryAction → Prop
  | .acquire call => ∀ operation, repository.calls call = .waits operation →
      ∀ other hold, (repository.calls other).works? = some (hold, repository.target operation) →
        hold.excludes operation.hold = true
  | .resume call => ∀ hold sessionId version next reply,
      repository.calls call = .landed hold sessionId version next reply →
        ∀ key owner, externalOf next = some key → repository.external.find? key = some owner →
          owner = sessionId
  | .writeFails call => ∀ sessionId, repository.calls call ≠ .removes sessionId
  | _ => True

/-- No two sessions are bound to one external conversation. -/
def DistinctBindings (states : KeyedTable String SessionMetaFile) : Prop :=
  ∀ first second left right key, states.find? first = some left →
    states.find? second = some right → externalOf left = some key →
      externalOf right = some key → first = second

structure Indexed (states : KeyedTable String SessionMetaFile)
    (external : KeyedTable ExternalKey String) : Prop where
  carried : ∀ key sessionId, external.find? key = some sessionId →
    ∃ state, states.find? sessionId = some state ∧ externalOf state = some key
  found : ∀ sessionId state key, states.find? sessionId = some state →
    externalOf state = some key → external.find? key = some sessionId

/-- No update is overwritten unread, memory and files agree but for a call on
its way between them, a failed write changes nothing, and the index is exact. -/
structure Serial (repository : SessionRepository) : Prop where
  current : repository.overwrites = []
  agree : ∀ sessionId, (∀ call, (repository.calls call).ahead? ≠ some sessionId) →
    repository.states.find? sessionId = repository.files.find? sessionId
  failed : ∀ call hold sessionId version next reply after,
    repository.calls call = .writes hold sessionId version next reply →
      repository.step (.writeFails call) = some after →
        after.states = repository.states ∧ after.files = repository.files ∧
          after.external = repository.external
  indexed : Indexed repository.states repository.external

structure Orderly (repository : SessionRepository) : Prop where
  alone : ∀ first second left right sessionId,
    (repository.calls first).works? = some (left, sessionId) →
      (repository.calls second).works? = some (right, sessionId) → first = second
  global : ∀ call hold sessionId, (repository.calls call).works? = some (hold, sessionId) →
    hold.takesGlobal = true → repository.globalLock = some call
  session : ∀ call hold sessionId, (repository.calls call).works? = some (hold, sessionId) →
    hold.takesSession = true → repository.locks sessionId = some call
  read : ∀ call sessionId version, (repository.calls call).read? = some (sessionId, version) →
    repository.versions sessionId = version
  agree : ∀ sessionId, (∀ call, (repository.calls call).ahead? ≠ some sessionId) →
    repository.states.find? sessionId = repository.files.find? sessionId
  landed : ∀ call hold sessionId version next reply,
    repository.calls call = .landed hold sessionId version next reply →
      repository.files.find? sessionId = some next
  removes : ∀ call sessionId, repository.calls call = .removes sessionId →
    repository.states.find? sessionId = none
  indexed : Indexed repository.states repository.external
  current : repository.overwrites = []

variable {repository : SessionRepository}

/-! ### The index -/

theorem unindexed_find? (external : KeyedTable ExternalKey String) (sessionId : String)
    (key : ExternalKey) (owner : String) :
    (unindexed external sessionId).find? key = some owner ↔
      external.find? key = some owner ∧ owner ≠ sessionId := by
  unfold unindexed
  rw [KeyedTable.find?_filter, decide_eq_true_iff]

theorem store_states (repository : SessionRepository) (sessionId : String)
    (next : SessionMetaFile) (other : String) :
    (repository.store sessionId next).states.find? other =
      if sessionId = other then some next else repository.states.find? other :=
  KeyedTable.find?_set repository.states sessionId other next

variable {sessionId : String} {next : SessionMetaFile} {stage : Stage} {call : Nat}
  {operation : Operation} {reply : SessionReply}

theorem Indexed.store (indexed : Indexed repository.states repository.external)
    {sessionId : String} {next : SessionMetaFile}
    (own : ∀ key owner, externalOf next = some key →
      repository.external.find? key = some owner → owner = sessionId) :
    Indexed (repository.store sessionId next).states
      (repository.store sessionId next).external := by
  have cleared : ∀ key owner,
      (unindexed repository.external sessionId).find? key = some owner →
        ∃ state, (repository.store sessionId next).states.find? owner = some state ∧
          externalOf state = some key := by
    intro key owner listed
    obtain ⟨listed, different⟩ := (unindexed_find? _ _ _ _).mp listed
    obtain ⟨state, present, carries⟩ := indexed.carried key owner listed
    refine ⟨state, ?_, carries⟩
    rw [store_states, if_neg (fun same => different same.symm)]
    exact present
  have others : ∀ other state key, other ≠ sessionId → repository.states.find? other = some state →
      externalOf state = some key →
        (unindexed repository.external sessionId).find? key = some other :=
    fun other state key different present carries =>
      (unindexed_find? _ _ _ _).mpr ⟨indexed.found other state key present carries, different⟩
  cases binding : externalOf next with
  | none =>
      have external : (repository.store sessionId next).external =
          unindexed repository.external sessionId := by
        unfold SessionRepository.store
        simp only [binding]
      constructor
      · rw [external]
        exact cleared
      · intro other state key present carries
        rw [external]
        rw [store_states] at present
        by_cases same : sessionId = other
        · rw [if_pos same] at present
          cases present
          rw [binding] at carries
          cases carries
        · rw [if_neg same] at present
          exact others other state key (fun equal => same equal.symm) present carries
  | some key =>
      have external : (repository.store sessionId next).external =
          (unindexed repository.external sessionId).set key sessionId := by
        unfold SessionRepository.store
        simp only [binding]
      constructor
      · intro other owner listed
        rw [external, KeyedTable.find?_set] at listed
        by_cases same : key = other
        · rw [if_pos same] at listed
          cases listed
          refine ⟨next, ?_, same ▸ binding⟩
          rw [store_states, if_pos rfl]
        · rw [if_neg same] at listed
          exact cleared other owner listed
      · intro other state otherKey present carries
        rw [external, KeyedTable.find?_set]
        rw [store_states] at present
        by_cases same : sessionId = other
        · rw [if_pos same] at present
          cases present
          rw [binding] at carries
          cases carries
          rw [if_pos rfl, same]
        · rw [if_neg same] at present
          have listed := others other state otherKey (fun equal => same equal.symm) present carries
          by_cases taken : key = otherKey
          · subst taken
            exact absurd (own key other binding ((unindexed_find? _ _ _ _).mp listed).1).symm same
          · rw [if_neg taken]
            exact listed

theorem forget_states (repository : SessionRepository) (sessionId other : String) :
    (repository.forget sessionId).states.find? other =
      if other = sessionId then none else repository.states.find? other := by
  unfold forget
  split
  · exact KeyedTable.find?_erase repository.states sessionId other
  · rename_i missing
    by_cases same : other = sessionId
    · rw [if_pos same, same]
      exact missing
    · rw [if_neg same]

theorem Indexed.forget (indexed : Indexed repository.states repository.external)
    (sessionId : String) :
    Indexed (repository.forget sessionId).states (repository.forget sessionId).external := by
  cases present : repository.states.find? sessionId with
  | none =>
      have same : repository.forget sessionId = repository := by
        unfold SessionRepository.forget
        simp only [present]
      rw [same]
      exact indexed
  | some dropped =>
      have external : (repository.forget sessionId).external =
          unindexed repository.external sessionId := by
        unfold SessionRepository.forget
        simp only [present]
      constructor
      · intro key owner listed
        rw [external] at listed
        obtain ⟨listed, different⟩ := (unindexed_find? _ _ _ _).mp listed
        obtain ⟨state, found, carries⟩ := indexed.carried key owner listed
        refine ⟨state, ?_, carries⟩
        rw [forget_states, if_neg different]
        exact found
      · intro other state key found carries
        rw [forget_states] at found
        by_cases same : other = sessionId
        · rw [if_pos same] at found
          cases found
        · rw [if_neg same] at found
          rw [external, unindexed_find?]
          exact ⟨indexed.found other state key found carries, same⟩

/-! ### Stages and locks -/

theorem works?_of_read? {version : Nat} (reads : stage.read? = some (sessionId, version)) :
    ∃ hold, stage.works? = some (hold, sessionId) := by
  cases stage <;> cases reads <;> exact ⟨_, rfl⟩

theorem works?_of_ahead? (ahead : stage.ahead? = some sessionId) :
    ∃ hold, stage.works? = some (hold, sessionId) := by
  cases stage <;> cases ahead <;> exact ⟨_, rfl⟩

theorem withLocks_global (repository : SessionRepository) (sessionId : String)
    (owner : Option Nat) (hold : Hold) :
    (repository.withLocks sessionId owner hold).globalLock =
      if hold.takesGlobal then owner else repository.globalLock := by
  cases hold <;> rfl

theorem withLocks_session (repository : SessionRepository) (sessionId : String)
    (owner : Option Nat) (hold : Hold) (other : String) :
    (repository.withLocks sessionId owner hold).locks other =
      if hold.takesSession = true ∧ other = sessionId then owner else repository.locks other := by
  cases hold <;> simp [withLocks, Hold.takesSession]

theorem withLocks_rest (repository : SessionRepository) (sessionId : String)
    (owner : Option Nat) (hold : Hold) :
    (repository.withLocks sessionId owner hold).states = repository.states ∧
      (repository.withLocks sessionId owner hold).external = repository.external ∧
      (repository.withLocks sessionId owner hold).files = repository.files ∧
      (repository.withLocks sessionId owner hold).calls = repository.calls ∧
      (repository.withLocks sessionId owner hold).versions = repository.versions ∧
      (repository.withLocks sessionId owner hold).overwrites = repository.overwrites := by
  cases hold <;> exact ⟨rfl, rfl, rfl, rfl, rfl, rfl⟩

theorem Orderly.excluded (orderly : Orderly repository) {mine theirs : Hold}
    (free : repository.free sessionId mine = true)
    (works : (repository.calls call).works? = some (theirs, sessionId)) :
    theirs.excludes mine = false := by
  by_contra shared
  have globally := orderly.global call theirs sessionId works
  have locally := orderly.session call theirs sessionId works
  unfold SessionRepository.free at free
  cases theirs <;> cases mine <;>
    simp_all [Hold.excludes, Hold.takesGlobal, Hold.takesSession]

theorem free_target (free : repository.free operation.sessionId operation.hold = true) :
    repository.free (repository.target operation) operation.hold = true := by
  cases operation <;> exact free

theorem Orderly.unattended (orderly : Orderly repository)
    (separated : repository.Separated (.acquire call))
    (waits : repository.calls call = .waits operation)
    (free : repository.free operation.sessionId operation.hold = true) (other : Nat) (hold : Hold) :
    (repository.calls other).works? ≠ some (hold, repository.target operation) := by
  intro works
  have shared := separated operation waits other hold works
  rw [orderly.excluded (free_target free) works] at shared
  cases shared

theorem Orderly.kept (orderly : Orderly repository) {call : Nat} {hold : Hold} {sessionId : String}
    (owner : Option Nat)
    (holds : repository.free sessionId hold = true ∨
      (repository.calls call).works? = some (hold, sessionId))
    {other : Nat} (different : other ≠ call) {theirs : Hold} {worked : String}
    (works : (repository.calls other).works? = some (theirs, worked)) :
    (theirs.takesGlobal = true →
      (repository.withLocks sessionId owner hold).globalLock = some other) ∧
    (theirs.takesSession = true →
      (repository.withLocks sessionId owner hold).locks worked = some other) := by
  constructor
  · intro takes
    have mine := orderly.global other theirs worked works takes
    rw [withLocks_global]
    split
    · rename_i taken
      rcases holds with free | held
      · unfold SessionRepository.free at free
        cases hold <;> simp_all [Hold.takesGlobal]
      · rw [orderly.global call hold sessionId held taken] at mine
        exact absurd (Option.some.inj mine).symm different
    · exact mine
  · intro takes
    have mine := orderly.session other theirs worked works takes
    rw [withLocks_session]
    split
    · rename_i taken
      obtain ⟨taken, same⟩ := taken
      subst same
      rcases holds with free | held
      · unfold SessionRepository.free at free
        cases hold <;> simp_all [Hold.takesSession]
      · rw [orderly.session call hold worked held taken] at mine
        exact absurd (Option.some.inj mine).symm different
    · exact mine

theorem stages_setCall (repository : SessionRepository) (call : Nat) (stage : Stage) (other : Nat) :
    other = call ∧ (repository.setCall call stage).calls other = stage ∨
      other ≠ call ∧ (repository.setCall call stage).calls other = repository.calls other := by
  by_cases mine : other = call
  · subst mine
    exact Or.inl ⟨rfl, setCall_self _ _ _⟩
  · exact Or.inr ⟨mine, setCall_other _ _ mine⟩

theorem Orderly.leave (orderly : Orderly repository) (call : Nat) (hold : Hold)
    (sessionId : String) {stage : Stage} (idle : stage.works? = none)
    (holds : repository.free sessionId hold = true ∨
      (repository.calls call).works? = some (hold, sessionId))
    (settled : ∀ ahead, (repository.calls call).ahead? = some ahead →
      repository.states.find? ahead = repository.files.find? ahead) :
    Orderly ((repository.withLocks sessionId none hold).setCall call stage) := by
  obtain ⟨states, external, files, calls, versions, overwrites⟩ :=
    withLocks_rest repository sessionId none hold
  have works : ∀ other theirs worked,
      (((repository.withLocks sessionId none hold).setCall call stage).calls other).works? =
        some (theirs, worked) →
      other ≠ call ∧ (repository.calls other).works? = some (theirs, worked) := by
    intro other theirs worked now
    by_cases same : other = call
    · subst same
      rw [setCall_self, idle] at now
      cases now
    · rw [setCall_other _ _ same, calls] at now
      exact ⟨same, now⟩
  have stages : ∀ other kept, kept.works? ≠ none →
      ((repository.withLocks sessionId none hold).setCall call stage).calls other = kept →
        repository.calls other = kept := by
    intro other kept working now
    by_cases same : other = call
    · subst same
      rw [setCall_self] at now
      rw [← now] at working
      exact absurd idle working
    · rwa [setCall_other _ _ same, calls] at now
  constructor
  · intro first second left right worked firstWorks secondWorks
    exact orderly.alone first second left right worked (works _ _ _ firstWorks).2
      (works _ _ _ secondWorks).2
  · intro other theirs worked now takes
    obtain ⟨different, before⟩ := works other theirs worked now
    exact (orderly.kept none holds different before).1 takes
  · intro other theirs worked now takes
    obtain ⟨different, before⟩ := works other theirs worked now
    exact (orderly.kept none holds different before).2 takes
  · intro other worked version now
    obtain ⟨theirs, working⟩ := works?_of_read? now
    obtain ⟨different, _⟩ := works other theirs worked working
    rw [setCall_other _ _ different, calls] at now
    change (repository.withLocks sessionId none hold).versions worked = version
    rw [versions]
    exact orderly.read other worked version now
  · intro worked quiet
    change (repository.withLocks sessionId none hold).states.find? worked =
      (repository.withLocks sessionId none hold).files.find? worked
    rw [states, files]
    by_cases ahead : (repository.calls call).ahead? = some worked
    · exact settled worked ahead
    · apply orderly.agree worked
      intro other now
      by_cases same : other = call
      · exact ahead (same ▸ now)
      · apply quiet other
        rw [setCall_other _ _ same, calls]
        exact now
  · intro other theirs worked version next reply now
    change (repository.withLocks sessionId none hold).files.find? worked = some next
    rw [files]
    exact orderly.landed other theirs worked version next reply (stages other _ nofun now)
  · intro other worked now
    change (repository.withLocks sessionId none hold).states.find? worked = none
    rw [states]
    exact orderly.removes other worked (stages other _ nofun now)
  · change Indexed (repository.withLocks sessionId none hold).states
      (repository.withLocks sessionId none hold).external
    rw [states, external]
    exact orderly.indexed
  · change (repository.withLocks sessionId none hold).overwrites = []
    rw [overwrites]
    exact orderly.current

theorem Orderly.enter (orderly : Orderly repository) (call : Nat) (hold : Hold)
    (locked : String) {sessionId : String} {stage : Stage} (works : stage.works? = some (hold, sessionId))
    (same : hold.takesSession = true → locked = sessionId)
    (idle : (repository.calls call).works? = none)
    (reads : ∀ worked version, stage.read? = some (worked, version) →
      repository.versions worked = version)
    (level : stage.ahead? = none) (free : repository.free locked hold = true)
    (unattended : ∀ other theirs, (repository.calls other).works? ≠ some (theirs, sessionId)) :
    Orderly ((repository.withLocks locked (some call) hold).setCall call stage) := by
  obtain ⟨states, external, files, calls, versions, overwrites⟩ :=
    withLocks_rest repository locked (some call) hold
  have stages := stages_setCall (repository.withLocks locked (some call) hold) call stage
  rw [calls] at stages
  constructor
  · intro first second left right worked firstWorks secondWorks
    rcases stages first with ⟨firstMine, firstStage⟩ | ⟨_, firstStage⟩ <;>
      rcases stages second with ⟨secondMine, secondStage⟩ | ⟨_, secondStage⟩ <;>
      rw [firstStage] at firstWorks <;> rw [secondStage] at secondWorks
    · rw [firstMine, secondMine]
    · rw [works] at firstWorks
      cases firstWorks
      exact absurd secondWorks (unattended second right)
    · rw [works] at secondWorks
      cases secondWorks
      exact absurd firstWorks (unattended first left)
    · exact orderly.alone first second left right worked firstWorks secondWorks
  · intro other theirs worked now takes
    rcases stages other with ⟨mine, now_eq⟩ | ⟨different, now_eq⟩ <;> rw [now_eq] at now
    · rw [works] at now
      cases now
      change (repository.withLocks locked (some call) hold).globalLock = some other
      rw [withLocks_global, if_pos takes, mine]
    · exact (orderly.kept (some call) (Or.inl free) different now).1 takes
  · intro other theirs worked now takes
    rcases stages other with ⟨mine, now_eq⟩ | ⟨different, now_eq⟩ <;> rw [now_eq] at now
    · rw [works] at now
      cases now
      change (repository.withLocks locked (some call) hold).locks sessionId = some other
      rw [withLocks_session, if_pos ⟨takes, (same takes).symm⟩, mine]
    · exact (orderly.kept (some call) (Or.inl free) different now).2 takes
  · intro other worked version now
    change (repository.withLocks locked (some call) hold).versions worked = version
    rw [versions]
    rcases stages other with ⟨_, now_eq⟩ | ⟨_, now_eq⟩ <;> rw [now_eq] at now
    · exact reads worked version now
    · exact orderly.read other worked version now
  · intro worked quiet
    change (repository.withLocks locked (some call) hold).states.find? worked =
      (repository.withLocks locked (some call) hold).files.find? worked
    rw [states, files]
    apply orderly.agree worked
    intro other now
    rcases stages other with ⟨mine, _⟩ | ⟨_, now_eq⟩
    · obtain ⟨theirs, working⟩ := works?_of_ahead? now
      rw [mine, idle] at working
      cases working
    · exact quiet other (now_eq ▸ now)
  · intro other theirs worked version next reply now
    change (repository.withLocks locked (some call) hold).files.find? worked = some next
    rw [files]
    rcases stages other with ⟨_, now_eq⟩ | ⟨_, now_eq⟩ <;> rw [now_eq] at now
    · rw [now] at level
      cases level
    · exact orderly.landed other theirs worked version next reply now
  · intro other worked now
    change (repository.withLocks locked (some call) hold).states.find? worked = none
    rw [states]
    rcases stages other with ⟨_, now_eq⟩ | ⟨_, now_eq⟩ <;> rw [now_eq] at now
    · rw [now] at level
      cases level
    · exact orderly.removes other worked now
  · change Indexed (repository.withLocks locked (some call) hold).states
      (repository.withLocks locked (some call) hold).external
    rw [states, external]
    exact orderly.indexed
  · change (repository.withLocks locked (some call) hold).overwrites = []
    rw [overwrites]
    exact orderly.current

theorem Orderly.drop (orderly : Orderly repository) (idle : (repository.calls call).works? = none)
    (free : repository.free sessionId .both = true)
    (unattended : ∀ other theirs, (repository.calls other).works? ≠ some (theirs, sessionId)) :
    Orderly (((repository.forget sessionId).withLocks sessionId (some call) .both).setCall call
      (.removes sessionId)) := by
  have rest : (repository.forget sessionId).files = repository.files ∧
      (repository.forget sessionId).calls = repository.calls ∧
      (repository.forget sessionId).globalLock = repository.globalLock ∧
      (repository.forget sessionId).locks = repository.locks ∧
      (repository.forget sessionId).overwrites = repository.overwrites ∧
      ∀ other, other ≠ sessionId →
        (repository.forget sessionId).versions other = repository.versions other := by
    unfold forget
    split
    · exact ⟨rfl, rfl, rfl, rfl, rfl, fun other different => if_neg different⟩
    · exact ⟨rfl, rfl, rfl, rfl, rfl, fun other _ => rfl⟩
  obtain ⟨files, calls, global, locks, overwrites, versions⟩ := rest
  have states := forget_states repository sessionId
  have indexed := orderly.indexed.forget sessionId
  generalize repository.forget sessionId = dropped at *
  have stages : ∀ other,
      other = call ∧ ((dropped.withLocks sessionId (some call) .both).setCall call
          (.removes sessionId)).calls other = .removes sessionId ∨
        other ≠ call ∧ ((dropped.withLocks sessionId (some call) .both).setCall call
          (.removes sessionId)).calls other = repository.calls other := by
    rw [← calls]
    exact stages_setCall _ call _
  have kept : ∀ other theirs worked, other ≠ call →
      (repository.calls other).works? = some (theirs, worked) →
        theirs.takesGlobal = false ∧ worked ≠ sessionId := by
    intro other theirs worked _ working
    constructor
    · by_contra takes
      have mine := orderly.global other theirs worked working (by simpa using takes)
      unfold SessionRepository.free at free
      rw [mine] at free
      cases free
    · rintro rfl
      exact unattended other theirs working
  constructor
  · intro first second left right worked firstWorks secondWorks
    rcases stages first with ⟨firstMine, firstStage⟩ | ⟨firstOther, firstStage⟩ <;>
      rcases stages second with ⟨secondMine, secondStage⟩ | ⟨secondOther, secondStage⟩ <;>
      rw [firstStage] at firstWorks <;> rw [secondStage] at secondWorks
    · rw [firstMine, secondMine]
    · cases firstWorks
      exact absurd secondWorks (unattended second right)
    · cases secondWorks
      exact absurd firstWorks (unattended first left)
    · exact orderly.alone first second left right worked firstWorks secondWorks
  · intro other theirs worked now takes
    rcases stages other with ⟨mine, now_eq⟩ | ⟨different, now_eq⟩ <;> rw [now_eq] at now
    · exact congrArg some mine.symm
    · rw [(kept other theirs worked different now).1] at takes
      cases takes
  · intro other theirs worked now takes
    change (if worked = sessionId then some call else dropped.locks worked) = some other
    rcases stages other with ⟨mine, now_eq⟩ | ⟨different, now_eq⟩ <;> rw [now_eq] at now
    · cases now
      rw [if_pos rfl, mine]
    · rw [if_neg (kept other theirs worked different now).2, locks]
      exact orderly.session other theirs worked now takes
  · intro other worked version now
    rcases stages other with ⟨_, now_eq⟩ | ⟨different, now_eq⟩ <;> rw [now_eq] at now
    · cases now
    · obtain ⟨theirs, working⟩ := works?_of_read? now
      change dropped.versions worked = version
      rw [versions worked (kept other theirs worked different working).2]
      exact orderly.read other worked version now
  · intro worked quiet
    change dropped.states.find? worked = dropped.files.find? worked
    have different : worked ≠ sessionId := by
      rintro rfl
      apply quiet call
      rw [setCall_self]
      rfl
    rw [states, if_neg different, files]
    apply orderly.agree worked
    intro other now
    rcases stages other with ⟨mine, _⟩ | ⟨_, now_eq⟩
    · obtain ⟨theirs, working⟩ := works?_of_ahead? now
      rw [mine, idle] at working
      cases working
    · exact quiet other (now_eq ▸ now)
  · intro other theirs worked version next reply now
    change dropped.files.find? worked = some next
    rw [files]
    rcases stages other with ⟨_, now_eq⟩ | ⟨_, now_eq⟩ <;> rw [now_eq] at now
    · cases now
    · exact orderly.landed other theirs worked version next reply now
  · intro other worked now
    change dropped.states.find? worked = none
    rw [states]
    rcases stages other with ⟨_, now_eq⟩ | ⟨_, now_eq⟩ <;> rw [now_eq] at now
    · cases now
      rw [if_pos rfl]
    · split
      · rfl
      · exact orderly.removes other worked now
  · exact indexed
  · exact overwrites.trans orderly.current

theorem Orderly.progress (orderly : Orderly repository) {call : Nat} {hold : Hold}
    {sessionId : String} {stage : Stage} (files : KeyedTable String SessionMetaFile)
    (working : (repository.calls call).works? = some (hold, sessionId))
    (works : stage.works? = some (hold, sessionId))
    (reads : ∀ worked version, stage.read? = some (worked, version) →
      (repository.calls call).read? = some (worked, version))
    (others : ∀ other, other ≠ sessionId → files.find? other = repository.files.find? other)
    (level : stage.ahead? ≠ some sessionId →
      repository.states.find? sessionId = files.find? sessionId)
    (landed : ∀ theirs worked version next reply,
      stage = .landed theirs worked version next reply → files.find? worked = some next)
    (removes : ∀ worked, stage = .removes worked → repository.states.find? worked = none) :
    Orderly ({ repository with files := files }.setCall call stage) := by
  have stages := stages_setCall { repository with files := files } call stage
  have kept : ∀ other theirs worked,
      (({ repository with files := files }.setCall call stage).calls other).works? =
        some (theirs, worked) → (repository.calls other).works? = some (theirs, worked) := by
    intro other theirs worked now
    rcases stages other with ⟨mine, now_eq⟩ | ⟨_, now_eq⟩ <;> rw [now_eq] at now
    · rw [mine, working, ← works, now]
    · exact now
  constructor
  · intro first second left right worked firstWorks secondWorks
    exact orderly.alone first second left right worked (kept _ _ _ firstWorks)
      (kept _ _ _ secondWorks)
  · exact fun other theirs worked now => orderly.global other theirs worked (kept _ _ _ now)
  · exact fun other theirs worked now => orderly.session other theirs worked (kept _ _ _ now)
  · intro other worked version now
    rcases stages other with ⟨mine, now_eq⟩ | ⟨_, now_eq⟩ <;> rw [now_eq] at now
    · exact orderly.read call worked version (reads worked version now)
    · exact orderly.read other worked version now
  · intro worked quiet
    change repository.states.find? worked = files.find? worked
    by_cases same : worked = sessionId
    · subst same
      apply level
      intro ahead
      apply quiet call
      rw [setCall_self]
      exact ahead
    · rw [others worked same]
      apply orderly.agree worked
      intro other now
      rcases stages other with ⟨mine, _⟩ | ⟨_, now_eq⟩
      · obtain ⟨theirs, before⟩ := works?_of_ahead? now
        rw [mine, working] at before
        cases before
        exact same rfl
      · exact quiet other (now_eq ▸ now)
  · intro other theirs worked version next reply now
    change files.find? worked = some next
    rcases stages other with ⟨_, now_eq⟩ | ⟨different, now_eq⟩ <;> rw [now_eq] at now
    · exact landed theirs worked version next reply now
    · rw [others worked]
      · exact orderly.landed other theirs worked version next reply now
      · rintro rfl
        exact different (orderly.alone other call theirs hold worked (by rw [now]; rfl) working)
  · intro other worked now
    rcases stages other with ⟨_, now_eq⟩ | ⟨_, now_eq⟩ <;> rw [now_eq] at now
    · exact removes worked now
    · exact orderly.removes other worked now
  · exact orderly.indexed
  · exact orderly.current

theorem Orderly.install (orderly : Orderly repository) {call : Nat} {hold : Hold}
    {sessionId : String} {version : Nat} {next : SessionMetaFile} {reply : SessionReply}
    (landed : repository.calls call = .landed hold sessionId version next reply)
    (own : ∀ key owner, externalOf next = some key →
      repository.external.find? key = some owner → owner = sessionId) :
    Orderly ((repository.store sessionId next).setCall call
      (.landed hold sessionId (repository.versions sessionId + 1) next reply)) := by
  have working : (repository.calls call).works? = some (hold, sessionId) := by
    rw [landed]
    rfl
  have stages := stages_setCall (repository.store sessionId next) call
    (.landed hold sessionId (repository.versions sessionId + 1) next reply)
  have kept : ∀ other theirs worked, (((repository.store sessionId next).setCall call
      (.landed hold sessionId (repository.versions sessionId + 1) next reply)).calls other).works? =
        some (theirs, worked) → (repository.calls other).works? = some (theirs, worked) := by
    intro other theirs worked now
    rcases stages other with ⟨mine, now_eq⟩ | ⟨_, now_eq⟩ <;> rw [now_eq] at now
    · rw [mine, working]
      exact now
    · exact now
  have elsewhere : ∀ other theirs worked, other ≠ call →
      (repository.calls other).works? = some (theirs, worked) → worked ≠ sessionId := by
    rintro other theirs worked different works rfl
    exact different (orderly.alone other call theirs hold worked works working)
  constructor
  · intro first second left right worked firstWorks secondWorks
    exact orderly.alone first second left right worked (kept _ _ _ firstWorks)
      (kept _ _ _ secondWorks)
  · exact fun other theirs worked now => orderly.global other theirs worked (kept _ _ _ now)
  · exact fun other theirs worked now => orderly.session other theirs worked (kept _ _ _ now)
  · intro other worked read now
    change (if worked = sessionId then repository.versions worked + 1
      else repository.versions worked) = read
    rcases stages other with ⟨_, now_eq⟩ | ⟨different, now_eq⟩ <;> rw [now_eq] at now
    · cases now
      rw [if_pos rfl]
    · obtain ⟨theirs, works⟩ := works?_of_read? now
      rw [if_neg (elsewhere other theirs worked different works)]
      exact orderly.read other worked read now
  · intro worked quiet
    change (repository.store sessionId next).states.find? worked = repository.files.find? worked
    have different : sessionId ≠ worked := by
      rintro rfl
      apply quiet call
      rw [setCall_self]
      rfl
    rw [store_states, if_neg different]
    apply orderly.agree worked
    intro other now
    rcases stages other with ⟨mine, _⟩ | ⟨_, now_eq⟩
    · obtain ⟨theirs, works⟩ := works?_of_ahead? now
      rw [mine, working] at works
      cases works
      exact different rfl
    · exact quiet other (now_eq ▸ now)
  · intro other theirs worked read written answer now
    change repository.files.find? worked = some written
    rcases stages other with ⟨_, now_eq⟩ | ⟨_, now_eq⟩ <;> rw [now_eq] at now
    · cases now
      exact orderly.landed call hold sessionId version next reply landed
    · exact orderly.landed other theirs worked read written answer now
  · intro other worked now
    change (repository.store sessionId next).states.find? worked = none
    rcases stages other with ⟨_, now_eq⟩ | ⟨different, now_eq⟩ <;> rw [now_eq] at now
    · cases now
    · have other_session := elsewhere other .both worked different (congrArg Stage.works? now)
      rw [store_states, if_neg (fun same => other_session same.symm)]
      exact orderly.removes other worked now
  · exact orderly.indexed.store own
  · exact orderly.current

theorem setCall_setCall (call : Nat) (first second : Stage) :
    (repository.setCall call first).setCall call second = repository.setCall call second := by
  unfold SessionRepository.setCall
  congr 1
  funext other
  by_cases same : other = call
  · rw [if_pos same, if_pos same]
  · rw [if_neg same, if_neg same]
    exact if_neg same

theorem withLocks_setCall (sessionId : String) (owner : Option Nat) (hold : Hold) (call : Nat)
    (stage : Stage) :
    (repository.setCall call stage).withLocks sessionId owner hold =
      (repository.withLocks sessionId owner hold).setCall call stage := by
  cases hold <;> rfl

theorem Orderly.finish (orderly : Orderly repository) {call : Nat} {hold : Hold}
    {sessionId : String} {version : Nat} {next : SessionMetaFile} {reply : SessionReply}
    (landed : repository.calls call = .landed hold sessionId version next reply)
    (own : ∀ key owner, externalOf next = some key →
      repository.external.find? key = some owner → owner = sessionId) :
    Orderly (repository.finish call hold sessionId version next reply) := by
  have version_eq : repository.versions sessionId = version :=
    orderly.read call sessionId version (by rw [landed]; rfl)
  have idle : (Stage.returned reply).works? = none := rfl
  have installed := orderly.install landed own
  have left := installed.leave call hold sessionId idle
    (Or.inr (by rw [setCall_self]; rfl)) ?settled
  case settled =>
    intro ahead now
    rw [setCall_self] at now
    cases now
    change (repository.store sessionId next).states.find? sessionId =
      repository.files.find? sessionId
    rw [store_states, if_pos rfl, orderly.landed call hold sessionId version next reply landed]
  unfold SessionRepository.finish
  rw [if_pos version_eq]
  rwa [withLocks_setCall, setCall_setCall] at left

/-! ### Operations -/

theorem whenPresent_writes {sessionId target : String} {change : SessionMetaFile → Plan}
    (planned : repository.whenPresent sessionId change = .writes target next reply) :
    ∃ state, change state = .writes target next reply := by
  unfold whenPresent at planned
  split at planned
  · exact ⟨_, planned⟩
  · split at planned <;> cases planned

theorem whenRequired_writes {sessionId target : String} {change : SessionMetaFile → Plan}
    (planned : repository.whenRequired sessionId change = .writes target next reply) :
    ∃ state, change state = .writes target next reply := by
  unfold whenRequired at planned
  split at planned
  · exact ⟨_, planned⟩
  · cases planned

theorem creates_writes {created target : String} {state : SessionMetaFile}
    (planned : creates created state = .writes target next reply) : target = created := by
  unfold creates at planned
  split at planned <;> cases planned
  rfl

theorem plan_target (planned : repository.plan operation = .writes sessionId next reply) :
    sessionId = repository.target operation := by
  cases operation with
  | createSession channelId title workspace drawn now =>
      dsimp only [plan] at planned
      split at planned
      · cases planned
      · exact creates_writes planned
  | createSessionWithState state =>
      dsimp only [plan] at planned
      split at planned
      · cases planned
      · split at planned
        · cases planned
        · exact creates_writes planned
  | getOrCreateExternal channelId externalKey title workspace data drawn now =>
      dsimp only [plan] at planned
      dsimp only [target]
      split at planned
      · cases planned
      · split at planned
        · cases planned
        · cases existing : repository.boundSession (channelId, externalKey) with
          | some found =>
              simp only [existing] at planned ⊢
              split at planned <;> cases planned
              rfl
          | none =>
              simp only [existing] at planned ⊢
              exact creates_writes planned
  | updateSession sessionId title workspace now =>
      obtain ⟨state, changed⟩ := whenPresent_writes planned
      cases changed
      rfl
  | updateSessionMetadata sessionId key value now =>
      obtain ⟨state, changed⟩ := whenRequired_writes planned
      cases changed
      rfl
  | mutateSessionMetadata sessionId key updater now =>
      obtain ⟨state, changed⟩ := whenRequired_writes planned
      split at changed <;> cases changed
      rfl
  | setLastUserText sessionId text =>
      obtain ⟨state, changed⟩ := whenPresent_writes planned
      cases changed
      rfl
  | commitState sessionId change preview now =>
      obtain ⟨state, changed⟩ := whenPresent_writes planned
      split at changed <;> cases changed
      rfl
  | importLegacy sessionId snapshot preview =>
      obtain ⟨state, changed⟩ := whenRequired_writes planned
      cases changed
      rfl
  | deleteSession sessionId => cases planned

theorem target_of_session (takes : operation.hold.takesSession = true) :
    operation.sessionId = repository.target operation := by
  cases operation <;> first | rfl | cases takes

theorem Orderly.proceed (orderly : Orderly repository)
    (separated : repository.Separated (.acquire call))
    (waits : repository.calls call = .waits operation)
    (free : repository.free operation.sessionId operation.hold = true) :
    Orderly (repository.proceed call operation) := by
  have idle : (repository.calls call).works? = none := by
    rw [waits]
    rfl
  have unattended := orderly.unattended separated waits free
  have ends : ∀ stage : Stage, stage.works? = none → Orderly (repository.setCall call stage) := by
    intro stage ended
    refine orderly.leave call .unlocked "" ended (Or.inl rfl) ?_
    intro ahead now
    rw [waits] at now
    cases now
  unfold SessionRepository.proceed
  split
  · rename_i sessionId
    exact orderly.drop idle free unattended
  · split
    · exact ends _ rfl
    · exact ends _ rfl
    · rename_i sessionId next reply planned
      have same := plan_target planned
      subst same
      dsimp only
      have session : operation.hold.takesSession = true →
          operation.sessionId = repository.target operation := target_of_session
      generalize operation.sessionId = locked at *
      -- an unlocked operation imports an old log, any other one writes
      cases hold : operation.hold <;> rw [hold] at free session <;>
        refine orderly.enter call _ locked rfl session idle ?_ rfl free unattended <;>
        · intro worked version reads
          cases reads
          rfl

theorem Orderly.step (orderly : Orderly repository) {action : RepositoryAction}
    {after : SessionRepository} (separated : repository.Separated action)
    (stepped : repository.step action = some after) : Orderly after := by
  have starts : ∀ (before : SessionRepository) call operation, Orderly before →
      before.calls call = .absent → Orderly (before.setCall call (.waits operation)) := by
    intro before call operation ordered absent
    refine ordered.leave call .unlocked "" rfl (Or.inl rfl) ?_
    intro ahead now
    rw [absent] at now
    cases now
  cases action with
  | request call operation =>
      dsimp only [SessionRepository.step] at stepped
      split at stepped
      · rename_i absent
        split at stepped
        · split at stepped
          · cases stepped
          · cases stepped
            exact starts _ call operation
              ⟨orderly.alone, orderly.global, orderly.session, orderly.read, orderly.agree,
                orderly.landed, orderly.removes, orderly.indexed, orderly.current⟩ absent
        · cases stepped
          exact starts repository call operation orderly absent
      · cases stepped
  | acquire call =>
      dsimp only [SessionRepository.step] at stepped
      split at stepped
      · rename_i operation waits
        split at stepped
        · rename_i free
          cases stepped
          exact orderly.proceed separated waits free
        · cases stepped
      · cases stepped
  | imported call =>
      dsimp only [SessionRepository.step] at stepped
      split at stepped
      · rename_i sessionId version next imports
        cases stepped
        refine orderly.progress repository.files (by rw [imports]; rfl) rfl ?_ (fun _ _ => rfl) ?_
          nofun nofun
        · intro worked read now
          rw [imports]
          exact now
        · intro _
          apply orderly.agree sessionId
          intro other now
          obtain ⟨theirs, works⟩ := works?_of_ahead? now
          have mine := orderly.alone other call theirs .unlocked sessionId works
            (by rw [imports]; rfl)
          rw [mine, imports] at now
          cases now
      · cases stepped
  | lands call =>
      dsimp only [SessionRepository.step] at stepped
      split at stepped
      · rename_i hold sessionId version next reply writes
        cases stepped
        refine orderly.progress _ (by rw [writes]; rfl) rfl ?_ ?_ ?_ ?_ nofun
        · intro worked read now
          rw [writes]
          exact now
        · exact fun other different =>
            KeyedTable.find?_set_ne _ _ different.symm
        · exact fun impossible => absurd rfl impossible
        · intro theirs worked read written answer same
          cases same
          exact KeyedTable.find?_set_self _ _ _
      · rename_i sessionId removes
        cases stepped
        refine orderly.progress _ (by rw [removes]; rfl) rfl nofun ?_ ?_ nofun nofun
        · exact fun other different => KeyedTable.find?_erase_ne _ different
        · intro _
          rw [orderly.removes call sessionId removes]
          exact (KeyedTable.find?_erase_self _ _).symm
      · cases stepped
  | writeFails call =>
      dsimp only [SessionRepository.step] at stepped
      split at stepped
      · rename_i hold sessionId version next reply writes
        cases stepped
        refine orderly.leave call hold sessionId rfl (Or.inr (by rw [writes]; rfl)) ?_
        intro ahead now
        rw [writes] at now
        cases now
      · rename_i sessionId removes
        exact absurd removes (separated sessionId)
      · cases stepped
  | resume call =>
      dsimp only [SessionRepository.step] at stepped
      split at stepped
      · rename_i hold sessionId version next reply landed
        cases stepped
        exact orderly.finish landed (separated hold sessionId version next reply landed)
      · rename_i sessionId removed
        cases stepped
        refine orderly.leave call .both sessionId rfl (Or.inr (by rw [removed]; rfl)) ?_
        intro ahead now
        rw [removed] at now
        cases now
      · cases stepped

/-! ### Runs -/

theorem rebuild_carried (entries : List (String × SessionMetaFile))
    (index : KeyedTable ExternalKey String) {key : ExternalKey} {owner : String}
    (listed : (entries.foldl indexEntry index).find? key = some owner) :
    (∃ state, (owner, state) ∈ entries ∧ externalOf state = some key) ∨
      index.find? key = some owner := by
  induction entries generalizing index with
  | nil => exact Or.inr listed
  | cons entry rest ih =>
      rcases ih (indexEntry index entry) listed with ⟨state, member, carries⟩ | here
      · exact Or.inl ⟨state, List.mem_cons_of_mem _ member, carries⟩
      · unfold indexEntry at here
        split at here
        · rename_i bound carries
          rw [KeyedTable.find?_set] at here
          split at here
          · rename_i same
            cases here
            exact Or.inl ⟨entry.2, List.mem_cons_self, same ▸ carries⟩
          · exact Or.inr here
        · exact Or.inr here

theorem rebuild_lists (entries : List (String × SessionMetaFile))
    (index : KeyedTable ExternalKey String) {key : ExternalKey}
    (carried : (∃ entry ∈ entries, externalOf entry.2 = some key) ∨ (index.find? key).isSome) :
    ((entries.foldl indexEntry index).find? key).isSome := by
  induction entries generalizing index with
  | nil => exact carried.resolve_left (fun ⟨entry, member, _⟩ => absurd member List.not_mem_nil)
  | cons entry rest ih =>
      apply ih
      by_cases own : externalOf entry.2 = some key
      · right
        unfold indexEntry
        rw [own]
        exact (congrArg Option.isSome (KeyedTable.find?_set_self index key entry.1)).trans rfl
      · rcases carried with ⟨other, member, carries⟩ | listed
        · rcases List.mem_cons.mp member with same | later
          · exact absurd (same ▸ carries) own
          · exact Or.inl ⟨other, later, carries⟩
        · right
          unfold indexEntry
          split
          · rw [KeyedTable.find?_set]
            split
            · rfl
            · exact listed
          · exact listed

theorem indexed_rebuilt {states : KeyedTable String SessionMetaFile}
    (distinct : DistinctBindings states) : Indexed states (rebuildIndexes states) := by
  have carried : ∀ key owner, (rebuildIndexes states).find? key = some owner →
      ∃ state, states.find? owner = some state ∧ externalOf state = some key := by
    intro key owner listed
    rcases rebuild_carried states.entries .empty listed with ⟨state, member, carries⟩ | impossible
    · exact ⟨state, (states.find?_eq_some_iff owner state).mpr member, carries⟩
    · cases impossible
  refine ⟨carried, ?_⟩
  intro sessionId state key present carries
  have member := (states.find?_eq_some_iff sessionId state).mp present
  obtain ⟨owner, listed⟩ := Option.isSome_iff_exists.mp
    (rebuild_lists states.entries .empty (Or.inl ⟨(sessionId, state), member, carries⟩))
  obtain ⟨other, found, shared⟩ := carried key owner listed
  rw [distinct sessionId owner state other key present found carries shared]
  exact listed

theorem orderly_opened {states : KeyedTable String SessionMetaFile} (corrupt : List String)
    (distinct : DistinctBindings states) : Orderly (opened states corrupt) where
  alone := fun first second left right sessionId works => by cases works
  global := fun call hold sessionId works => by cases works
  session := fun call hold sessionId works => by cases works
  read := fun call sessionId version reads => by cases reads
  agree := fun sessionId _ => rfl
  landed := fun call hold sessionId version next reply now => by cases now
  removes := fun call sessionId now => by cases now
  indexed := indexed_rebuilt distinct
  current := rfl

theorem Orderly.serial (orderly : Orderly repository) : Serial repository where
  current := orderly.current
  agree := orderly.agree
  failed := by
    intro call hold sessionId version next reply after writes stepped
    dsimp only [SessionRepository.step] at stepped
    rw [writes] at stepped
    cases stepped
    obtain ⟨states, external, files, _⟩ := withLocks_rest repository sessionId none hold
    exact ⟨states, files, external⟩
  indexed := orderly.indexed

/-- In every run of separated operations no commit replaces a state it has not
read, memory is what was written, and the index is that of the states. -/
theorem separated_operations_serial (states : KeyedTable String SessionMetaFile)
    (corrupt : List String) (distinct : DistinctBindings states) {final : SessionRepository}
    (reached : system.Reaches Separated (opened states corrupt) final) : Serial final := by
  have orderly : Orderly final := by
    apply reached.invariant (orderly_opened corrupt distinct)
    intro before action after orderly separated stepped
    exact orderly.step separated stepped
  exact orderly.serial

/-! ### Closed runs -/

private def bridged : KeyedTable String SessionMetaFile :=
  KeyedTable.empty.set "ws_sess_1" (.bound "ws_sess_1" "ws" "chat-1" "old" "" "day 1" [])

private theorem bridged_distinct : DistinctBindings bridged := by
  have only : ∀ sessionId state, bridged.find? sessionId = some state → "ws_sess_1" = sessionId := by
    intro sessionId state present
    unfold bridged at present
    rw [KeyedTable.find?_set] at present
    by_contra different
    rw [if_neg different] at present
    cases present
  intro first second left right key firstFound secondFound _ _
  exact (only first left firstFound).symm.trans (only second right secondFound)

private def rename : Operation := .updateSession "ws_sess_1" (some "renamed") none "day 2"

private def rebind : Operation := .getOrCreateExternal "ws" "chat-1" "" "" [] "2" "day 2"

private def opening : Operation := .createSession "ws" "second" "" "2" "day 2"

private def pin : Operation := .updateSessionMetadata "ws_sess_1" "pinned" (some (.bool true)) "day 3"

/-- A title is changed and a session created at the same time, and a metadata change waits for the
first; all are kept. -/
theorem one_by_one_is_serial :
    ∃ final, system.Reaches Separated (opened bridged []) final ∧
      (final.states.find? "ws_sess_1").map (fun state =>
        (state.session.title, state.session.updatedAt, state.metadata.find? "pinned")) =
          some ("renamed", "day 3", some (.bool true)) ∧
      (final.states.find? "ws_sess_2").map (fun state => state.session.title) = some "second" ∧
      Serial final := by
  have reached : ∃ final, system.Reaches Separated (opened bridged []) final ∧
      (final.states.find? "ws_sess_1").map (fun state =>
        (state.session.title, state.session.updatedAt, state.metadata.find? "pinned")) =
          some ("renamed", "day 3", some (.bool true)) ∧
      (final.states.find? "ws_sess_2").map (fun state => state.session.title) = some "second" := by
    refine ⟨?final, ?run, ?kept, ?created⟩
    case run =>
      refine .head (.request 0 rename) trivial rfl ?_
      refine .head (.request 1 opening) trivial rfl ?_
      refine .head (.request 2 pin) trivial rfl ?_
      refine .head (.acquire 0) ?alone rfl ?titled
      case alone =>
        intro operation _ other hold works
        rcases other with _ | _ | _ | other <;> cases works
      case titled =>
        refine .head (.acquire 1) ?elsewhere rfl ?both
        case elsewhere =>
          intro operation waits other hold works
          cases waits
          rcases other with _ | _ | _ | other
          · have same : "ws_sess_1" = makeSessionId "ws" "2" :=
              congrArg Prod.snd (Option.some.inj works)
            exact absurd same (by decide)
          all_goals cases works
        case both =>
          refine .head (.lands 1) trivial rfl ?_
          refine .head (.lands 0) trivial rfl ?_
          refine .head (.resume 0) ?own rfl ?renamed
          case own =>
            intro hold sessionId version next reply landed key owner carries listed
            cases landed
            cases carries
            cases listed
            rfl
          case renamed =>
            refine .head (.acquire 2) ?free rfl ?pinning
            case free =>
              intro operation waits other hold works
              cases waits
              rcases other with _ | _ | _ | other
              · cases works
              · have same : makeSessionId "ws" "2" = "ws_sess_1" :=
                  congrArg Prod.snd (Option.some.inj works)
                exact absurd same (by decide)
              all_goals cases works
            case pinning =>
              refine .head (.resume 1) ?unbound rfl ?opened
              case unbound =>
                intro hold sessionId version next reply landed key owner carries listed
                cases landed
                cases carries
              case opened =>
                refine .head (.lands 2) trivial rfl ?_
                refine .head (.resume 2) ?still rfl ?done
                case still =>
                  intro hold sessionId version next reply landed key owner carries listed
                  cases landed
                  cases carries
                  cases listed
                  rfl
                case done => exact Relation.ReflTransGen.refl
    case kept => rfl
    case created => rfl
  obtain ⟨final, run, kept, created⟩ := reached
  exact ⟨final, run, kept, created, separated_operations_serial bridged [] bridged_distinct run⟩

/-- A binding refreshed under the global lock overwrites a title that was reported as changed; in
the other order the title stays in memory and the file has the old one. -/
theorem two_lock_families_lose_update :
    (∃ final, system.Reaches StepSystem.anyStep (opened bridged []) final ∧
      final.overwrites = [1] ∧
      (final.states.find? "ws_sess_1").map (fun state => state.session.title) = some "old" ∧
      ¬ Serial final) ∧
    (∃ final, system.Reaches StepSystem.anyStep (opened bridged []) final ∧
      (∀ call, (final.calls call).works? = none) ∧
      (final.states.find? "ws_sess_1").map (fun state => state.session.title) = some "renamed" ∧
      (final.files.find? "ws_sess_1").map (fun state => state.session.title) = some "old" ∧
      ¬ Serial final) := by
  have overwritten : ∃ final, system.Reaches StepSystem.anyStep (opened bridged []) final ∧
      final.overwrites = [1] ∧
      (final.states.find? "ws_sess_1").map (fun state => state.session.title) = some "old" := by
    refine ⟨?final, ?run, ?lost, ?title⟩
    case run =>
      refine .head (.request 0 rename) trivial rfl ?_
      refine .head (.request 1 rebind) trivial rfl ?_
      refine .head (.acquire 1) trivial rfl ?_
      refine .head (.acquire 0) trivial rfl ?_
      refine .head (.lands 0) trivial rfl ?_
      refine .head (.resume 0) trivial rfl ?_
      refine .head (.lands 1) trivial rfl ?_
      refine .head (.resume 1) trivial rfl ?_
      exact Relation.ReflTransGen.refl
    case lost => rfl
    case title => rfl
  have apart : ∃ final, system.Reaches StepSystem.anyStep (opened bridged []) final ∧
      (∀ call, (final.calls call).works? = none) ∧
      (final.states.find? "ws_sess_1").map (fun state => state.session.title) = some "renamed" ∧
      (final.files.find? "ws_sess_1").map (fun state => state.session.title) = some "old" := by
    refine ⟨?apart, ?interleaved, ?quiet, ?memory, ?file⟩
    case interleaved =>
      refine .head (.request 0 rename) trivial rfl ?_
      refine .head (.request 1 rebind) trivial rfl ?_
      refine .head (.acquire 1) trivial rfl ?_
      refine .head (.acquire 0) trivial rfl ?_
      refine .head (.lands 0) trivial rfl ?_
      refine .head (.lands 1) trivial rfl ?_
      refine .head (.resume 1) trivial rfl ?_
      refine .head (.resume 0) trivial rfl ?_
      exact Relation.ReflTransGen.refl
    case quiet =>
      intro call
      rcases call with _ | _ | call <;> rfl
    case memory => rfl
    case file => rfl
  constructor
  · obtain ⟨final, run, lost, title⟩ := overwritten
    refine ⟨final, run, lost, title, fun serial => ?_⟩
    rw [serial.current] at lost
    cases lost
  · obtain ⟨final, run, quiet, memory, file⟩ := apart
    refine ⟨final, run, quiet, memory, file, fun serial => ?_⟩
    have agree := serial.agree "ws_sess_1" (fun call ahead => by
      obtain ⟨hold, works⟩ := works?_of_ahead? ahead
      rw [quiet call] at works
      cases works)
    rw [agree, file] at memory
    exact absurd memory (by decide)

end SessionRepository

end Ftre.Session
