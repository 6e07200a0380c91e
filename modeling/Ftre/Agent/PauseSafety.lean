import Ftre.Agent.ServiceRuns

/-!
Which runs of the agent service keep its promises about paused agents and reservations.
-/

namespace Ftre.Agent

open Lib

/-! ### What the operations leave alone -/

structure SameAgents (before after : AgentService) : Prop where
  entries : after.entries = before.entries
  entryOf : after.entryOf = before.entryOf
  entriesMade : after.entriesMade = before.entriesMade
  inflightAdmissions : after.inflightAdmissions = before.inflightAdmissions

structure Writes (before after : AgentService) (entry : Nat) (state : AgentState) : Prop where
  entries : after.entries = before.entries
  entriesMade : after.entriesMade = before.entriesMade
  elsewhere : ∀ other, other ≠ entry → after.entryOf other = before.entryOf other
  sameAgent : (after.entryOf entry).agentId = (before.entryOf entry).agentId
  written : (after.entryOf entry).state = state

structure Starts (before after : AgentService) (entry : Nat) (agentId : String) : Prop where
  writes : Writes before after entry .running
  grounded : agentId ∉ before.inflightAdmissions
  inflight : ∀ other, other ∈ after.inflightAdmissions ↔
    other = agentId ∨ other ∈ before.inflightAdmissions

namespace AgentService

theorem setState_writes (service : AgentService) (entry : Nat) (state : AgentState) :
    Writes service (service.setState entry state) entry state where
  entries := rfl
  entriesMade := rfl
  elsewhere := fun _ different => service.setState_entryOf_ne state different
  sameAgent := by rw [setState_entryOf_self]
  written := by rw [setState_entryOf_self]

variable (service : AgentService)

theorem consumeReservation_same (agentId sessionId requestId : String) :
    SameAgents service (service.consumeReservation agentId sessionId requestId) := by
  unfold consumeReservation
  split <;> exact ⟨rfl, rfl, rfl, rfl⟩

theorem mem_enterFlight (agentId other : String) :
    other ∈ (service.enterFlight agentId).inflightAdmissions ↔
      other = agentId ∨ other ∈ service.inflightAdmissions := by
  unfold enterFlight
  split
  · rename_i member
    constructor
    · exact Or.inr
    · rintro (rfl | earlier)
      · exact member
      · exact earlier
  · exact List.mem_cons

theorem enterFlight_entries (agentId : String) :
    (service.enterFlight agentId).entries = service.entries ∧
      (service.enterFlight agentId).entryOf = service.entryOf ∧
      (service.enterFlight agentId).entriesMade = service.entriesMade := by
  unfold enterFlight
  split <;> exact ⟨rfl, rfl, rfl⟩

theorem starts_of_grounded {before service : AgentService} (same : SameAgents before service)
    {agentId : String} (grounded : agentId ∉ service.inflightAdmissions) (entry : Nat)
    (sessionId requestId : String) :
    Starts before (((service.startRun entry requestId).enterFlight agentId).consumeReservation
      agentId sessionId requestId) entry agentId := by
  have consumed := ((service.startRun entry requestId).enterFlight agentId).consumeReservation_same
    agentId sessionId requestId
  obtain ⟨entries, entryOf, made⟩ := (service.startRun entry requestId).enterFlight_entries agentId
  refine ⟨⟨?_, ?_, ?_, ?_, ?_⟩, ?_, ?_⟩
  · rw [consumed.entries, entries]
    exact same.entries
  · rw [consumed.entriesMade, made]
    exact same.entriesMade
  · intro other different
    rw [consumed.entryOf, entryOf, startRun_entryOf_ne _ _ different, same.entryOf]
  · rw [consumed.entryOf, entryOf, startRun_entryOf_self, same.entryOf]
  · rw [consumed.entryOf, entryOf, startRun_entryOf_self]
  · rw [← same.inflightAdmissions]
    exact grounded
  · intro other
    rw [consumed.inflightAdmissions, mem_enterFlight, ← same.inflightAdmissions]
    rfl

theorem busy_none {service : AgentService} {active : String → Bool} {agentId : String}
    {entry : Nat} (free : service.busy active agentId entry = none) :
    (service.entryOf entry).state ≠ .paused ∧ agentId ∉ service.inflightAdmissions := by
  unfold busy at free
  split at free
  · cases free
  · rename_i notPaused
    split at free
    · cases free
    · rename_i grounded
      exact ⟨notPaused, grounded⟩

theorem admitRun_effect (now : Nat) (active : String → Bool) (agentId : String)
    (request : AgentRunRequest) :
    (SameAgents service (service.admitRun now active agentId request).1 ∧
      ∀ entry, (service.admitRun now active agentId request).2 ≠ .admitted entry) ∨
    ∃ entry after, service.admitRun now active agentId request = (after, .admitted entry) ∧
      ReachesChecks service agentId request entry ∧ service.busy active agentId entry = none ∧
      Starts service after entry agentId := by
  rcases service.admitRun_cases now active agentId request with
    ⟨_, ⟨_, ran⟩ | ⟨_, _, ran⟩⟩ | ⟨entry, reaches, ⟨_, _, ran⟩ | ⟨free, ran⟩⟩
  · rw [ran]
    exact Or.inl ⟨⟨rfl, rfl, rfl, rfl⟩, fun _ never => by cases never⟩
  · rw [ran]
    exact Or.inl ⟨⟨rfl, rfl, rfl, rfl⟩, fun _ never => by cases never⟩
  · rw [ran]
    exact Or.inl ⟨⟨rfl, rfl, rfl, rfl⟩, fun _ never => by cases never⟩
  · have same : SameAgents service ((service.bindFingerprint request).expireReservations now) :=
      ⟨rfl, rfl, rfl, rfl⟩
    exact Or.inr ⟨entry, _, ran, reaches, free,
      starts_of_grounded same (busy_none free).2 entry _ _⟩

theorem admitStream_effect (now : Nat) (active : String → Bool) (agentId : String)
    (request : AgentRunRequest) :
    (SameAgents service (service.admitStream now active agentId request).1 ∧
      (∀ entry, (service.admitStream now active agentId request).2 ≠ .admitted entry) ∧
      ∀ entry, ¬ StreamsFreely service active agentId request entry) ∨
    ∃ entry after, service.admitStream now active agentId request = (after, .admitted entry) ∧
      StreamsFreely service active agentId request entry ∧ Starts service after entry agentId := by
  have refused : ∀ error entry, Admission.refused error ≠ .admitted entry :=
    fun _ _ never => by cases never
  unfold admitStream
  cases found : service.entries.find? agentId with
  | none =>
      refine Or.inl ⟨⟨rfl, rfl, rfl, rfl⟩, refused _, fun _ free => ?_⟩
      rw [free.found] at found
      cases found
  | some entry =>
      have only : ∀ other, StreamsFreely service active agentId request other → other = entry := by
        intro other free
        have same := free.found
        rw [found] at same
        exact (Option.some.inj same).symm
      by_cases flying : agentId ∈ (service.expireReservations now).inflightAdmissions
      · simp only [if_pos flying]
        exact Or.inl ⟨⟨rfl, rfl, rfl, rfl⟩, refused _, fun _ free => free.grounded flying⟩
      · simp only [if_neg flying]
        by_cases isActive : active (((service.expireReservations now).entryOf entry).session agentId) =
            true
        · simp only [if_pos isActive]
          refine Or.inl ⟨⟨rfl, rfl, rfl, rfl⟩, refused _, fun other free => ?_⟩
          have inactive := free.inactive
          rw [only other free, show service.entryOf = (service.expireReservations now).entryOf from rfl,
            isActive] at inactive
          cases inactive
        · simp only [if_neg isActive]
          by_cases foreign : request.sessionId ≠
              ((service.expireReservations now).entryOf entry).session agentId
          · simp only [if_pos foreign]
            refine Or.inl ⟨⟨rfl, rfl, rfl, rfl⟩, refused _, fun other free => ?_⟩
            have belongs := free.belongs
            rw [only other free] at belongs
            exact foreign belongs
          · simp only [if_neg foreign]
            have same : SameAgents service (service.expireReservations now) := ⟨rfl, rfl, rfl, rfl⟩
            exact Or.inr ⟨entry, _, rfl,
              ⟨found, flying, Bool.eq_false_of_not_eq_true isActive, not_not.mp foreign⟩,
              starts_of_grounded same flying entry _ _⟩

theorem leaveFlight_writes {before service : AgentService} {entry : Nat} {state : AgentState}
    (writes : Writes before service entry state) (agentId : String) :
    Writes before (service.leaveFlight agentId) entry state :=
  ⟨writes.entries, writes.entriesMade, writes.elsewhere, writes.sameAgent, writes.written⟩

theorem mem_leaveFlight (agentId other : String) :
    other ∈ (service.leaveFlight agentId).inflightAdmissions ↔
      other ∈ service.inflightAdmissions ∧ other ≠ agentId := by
  unfold leaveFlight
  simp [List.mem_filter]

theorem settleRun_writes (service : AgentService) (entry : Nat) (agentId : String)
    (request : AgentRunRequest) (reply : RunReply) :
    Writes service (service.settleRun entry agentId request reply) entry (reply.state request) where
  entries := rfl
  entriesMade := rfl
  elsewhere := fun _ different => setState_entryOf_ne _ _ different
  sameAgent := by rw [settleRun, leaveFlight, setState_entryOf_self]
  written := by rw [settleRun, leaveFlight, setState_entryOf_self]

theorem tryReserve_same {service after : AgentService} {now expiresAt : Nat}
    {active : String → Bool} {agentId sessionId requestId : String} {reservation : Option Nat}
    (tried : service.tryReserve now active agentId sessionId requestId expiresAt =
      .ok (after, reservation)) : SameAgents service after := by
  unfold tryReserve at tried
  split at tried
  · cases tried
  · split at tried
    · cases tried
    · split at tried
      · cases tried
      · simp only at tried
        split at tried
        · cases tried
          exact ⟨rfl, rfl, rfl, rfl⟩
        · split at tried
          · cases tried
            exact ⟨rfl, rfl, rfl, rfl⟩
          · split at tried
            · cases tried
              exact ⟨rfl, rfl, rfl, rfl⟩
            · cases tried
              exact ⟨rfl, rfl, rfl, rfl⟩

end AgentService

/-! ### The invariant -/

structure Ledger (runs : ServiceRuns) : Prop where
  paused : ∀ agentId entry, runs.service.entries.find? agentId = some entry →
    runs.awaiting entry = true → (runs.service.entryOf entry).state = .paused
  untouched : runs.overwritten = false
  single : ∀ left right leftFlight rightFlight, (runs.calls left).flight? = some leftFlight →
    (runs.calls right).flight? = some rightFlight → leftFlight.agentId = rightFlight.agentId →
    left = right
  reserved : ∀ call flight, (runs.calls call).flight? = some flight →
    ∀ reservation ∈ flight.reserved, reservation.requestKey = flight.request.requestKey
  flying : ∀ call flight, (runs.calls call).flight? = some flight →
    flight.agentId ∈ runs.service.inflightAdmissions
  named : ∀ agentId entry, runs.service.entries.find? agentId = some entry →
    (runs.service.entryOf entry).agentId = agentId ∧ entry < runs.service.entriesMade
  held : ∀ call flight, (runs.calls call).flight? = some flight →
    (runs.service.entryOf flight.entry).agentId = flight.agentId ∧
      flight.entry < runs.service.entriesMade ∧ runs.awaiting flight.entry = false
  unmade : ∀ entry, runs.service.entriesMade ≤ entry → runs.awaiting entry = false

namespace Ledger

variable {runs after : ServiceRuns}

theorem sound (ledger : Ledger runs) : runs.Sound where
  paused := ledger.paused
  refused := by
    intro agentId entry found waits active request admitted ran
    rcases runs.service.admitRun_effect runs.now active agentId request with
      ⟨_, never⟩ | ⟨other, _, effect, reaches, free, _⟩
    · exact never admitted ran
    · have same := reaches.found
      rw [found] at same
      cases same
      exact (AgentService.busy_none free).1 (ledger.paused agentId entry found waits)
  untouched := ledger.untouched
  single := ledger.single
  reserved := ledger.reserved

theorem fresh : Ledger .fresh where
  paused := fun _ _ found => by cases found
  untouched := rfl
  single := fun _ _ _ _ flight => by cases flight
  reserved := fun _ _ flight => by cases flight
  flying := fun _ _ flight => by cases flight
  named := fun _ _ found => by cases found
  held := fun _ _ flight => by cases flight
  unmade := fun _ _ => rfl

theorem quiet (ledger : Ledger runs) (same : SameAgents runs.service after.service)
    (awaiting : after.awaiting = runs.awaiting) (overwritten : after.overwritten = runs.overwritten)
    (flights : ∀ call flight, (after.calls call).flight? = some flight →
      (runs.calls call).flight? = some flight) : Ledger after where
  paused := by
    rw [same.entries, same.entryOf, awaiting]
    exact ledger.paused
  untouched := overwritten.trans ledger.untouched
  single := fun left right leftFlight rightFlight leftHolds rightHolds =>
    ledger.single left right leftFlight rightFlight (flights _ _ leftHolds) (flights _ _ rightHolds)
  reserved := fun call flight holds => ledger.reserved call flight (flights _ _ holds)
  flying := by
    rw [same.inflightAdmissions]
    exact fun call flight holds => ledger.flying call flight (flights _ _ holds)
  named := by
    rw [same.entries, same.entryOf, same.entriesMade]
    exact ledger.named
  held := by
    rw [same.entryOf, same.entriesMade, awaiting]
    exact fun call flight holds => ledger.held call flight (flights _ _ holds)
  unmade := by
    rw [same.entriesMade, awaiting]
    exact ledger.unmade

theorem write (ledger : Ledger runs) {entry : Nat} {state : AgentState}
    (writes : Writes runs.service after.service entry state)
    (awaiting : ∀ other, other ≠ entry → after.awaiting other = runs.awaiting other)
    (here : entry ∈ runs.service.entries.values → after.awaiting entry = true → state = .paused)
    (made : after.awaiting entry = true → entry < runs.service.entriesMade)
    (overwritten : after.overwritten = false)
    (flights : ∀ call flight, (after.calls call).flight? = some flight →
      (runs.calls call).flight? = some flight)
    (flying : ∀ call flight, (after.calls call).flight? = some flight →
      flight.agentId ∈ after.service.inflightAdmissions)
    (free : ∀ call flight, (after.calls call).flight? = some flight → flight.entry = entry →
      after.awaiting entry = false) : Ledger after where
  paused := by
    intro agentId other found waits
    rw [writes.entries] at found
    by_cases same : other = entry
    · subst other
      rw [writes.written]
      refine here ?_ waits
      exact List.mem_map_of_mem ((KeyedTable.find?_eq_some_iff _ _ _).mp found)
    · rw [writes.elsewhere other same]
      rw [awaiting other same] at waits
      exact ledger.paused agentId other found waits
  untouched := overwritten
  single := fun left right leftFlight rightFlight leftHolds rightHolds =>
    ledger.single left right leftFlight rightFlight (flights _ _ leftHolds) (flights _ _ rightHolds)
  reserved := fun call flight holds => ledger.reserved call flight (flights _ _ holds)
  flying := flying
  named := by
    intro agentId other found
    rw [writes.entries] at found
    obtain ⟨name, below⟩ := ledger.named agentId other found
    refine ⟨?_, by rw [writes.entriesMade]; exact below⟩
    by_cases same : other = entry
    · subst other
      exact writes.sameAgent.trans name
    · rw [writes.elsewhere other same]
      exact name
  held := by
    intro call flight holds
    obtain ⟨name, below, still⟩ := ledger.held call flight (flights _ _ holds)
    refine ⟨?_, by rw [writes.entriesMade]; exact below, ?_⟩
    · by_cases same : flight.entry = entry
      · rw [same] at name ⊢
        exact writes.sameAgent.trans name
      · rw [writes.elsewhere _ same]
        exact name
    · by_cases same : flight.entry = entry
      · rw [same]
        exact free call flight holds same
      · rw [awaiting _ same]
        exact still
  unmade := by
    intro other unmadeOther
    rw [writes.entriesMade] at unmadeOther
    by_cases same : other = entry
    · subst other
      by_contra waits
      exact absurd (made (Bool.eq_true_of_not_eq_false waits)) (Nat.not_lt.mpr unmadeOther)
    · rw [awaiting other same]
      exact ledger.unmade other unmadeOther

theorem start (ledger : Ledger runs) {call : Nat} {stage : Call} (flight : Flight)
    (starts : Starts runs.service after.service flight.entry flight.agentId)
    (found : runs.service.entries.find? flight.agentId = some flight.entry)
    (still : runs.awaiting flight.entry = false) (holds : stage.flight? = some flight)
    (respected : ∀ reservation ∈ flight.reserved,
      reservation.requestKey = flight.request.requestKey)
    (awaiting : after.awaiting = runs.awaiting) (overwritten : after.overwritten = runs.overwritten)
    (calls : after.calls = Function.update runs.calls call stage) : Ledger after := by
  have mine : (after.calls call).flight? = some flight := by
    rw [calls, Function.update_self]
    exact holds
  have others : ∀ other, other ≠ call → after.calls other = runs.calls other := by
    intro other different
    rw [calls, Function.update_of_ne different]
  -- The new flight's agent was in no flight before.
  have alone : ∀ other otherFlight, other ≠ call →
      (after.calls other).flight? = some otherFlight → otherFlight.agentId ≠ flight.agentId := by
    intro other otherFlight different otherHolds same
    rw [others other different] at otherHolds
    exact starts.grounded (same ▸ ledger.flying other otherFlight otherHolds)
  constructor
  · intro agentId entry present waits
    rw [starts.writes.entries] at present
    rw [awaiting] at waits
    by_cases same : entry = flight.entry
    · rw [same, still] at waits
      cases waits
    · rw [starts.writes.elsewhere entry same]
      exact ledger.paused agentId entry present waits
  · exact overwritten.trans ledger.untouched
  · intro left right leftFlight rightFlight leftHolds rightHolds sameAgent
    by_cases isLeft : left = call
    · by_cases isRight : right = call
      · rw [isLeft, isRight]
      · rw [isLeft, mine] at leftHolds
        cases leftHolds
        exact absurd sameAgent.symm (alone right rightFlight isRight rightHolds)
    · by_cases isRight : right = call
      · rw [isRight, mine] at rightHolds
        cases rightHolds
        exact absurd sameAgent (alone left leftFlight isLeft leftHolds)
      · rw [others left isLeft] at leftHolds
        rw [others right isRight] at rightHolds
        exact ledger.single left right leftFlight rightFlight leftHolds rightHolds sameAgent
  · intro other otherFlight otherHolds
    by_cases isCall : other = call
    · rw [isCall, mine] at otherHolds
      cases otherHolds
      exact respected
    · rw [others other isCall] at otherHolds
      exact ledger.reserved other otherFlight otherHolds
  · intro other otherFlight otherHolds
    rw [starts.inflight]
    by_cases isCall : other = call
    · rw [isCall, mine] at otherHolds
      cases otherHolds
      exact Or.inl rfl
    · rw [others other isCall] at otherHolds
      exact Or.inr (ledger.flying other otherFlight otherHolds)
  · intro agentId entry present
    rw [starts.writes.entries] at present
    obtain ⟨name, below⟩ := ledger.named agentId entry present
    refine ⟨?_, by rw [starts.writes.entriesMade]; exact below⟩
    by_cases same : entry = flight.entry
    · rw [same] at name ⊢
      exact starts.writes.sameAgent.trans name
    · rw [starts.writes.elsewhere entry same]
      exact name
  · have keptName : ∀ entry agentId, (runs.service.entryOf entry).agentId = agentId →
        (after.service.entryOf entry).agentId = agentId := by
      intro entry agentId name
      by_cases same : entry = flight.entry
      · rw [same] at name ⊢
        exact starts.writes.sameAgent.trans name
      · rw [starts.writes.elsewhere entry same]
        exact name
    intro other otherFlight otherHolds
    rw [starts.writes.entriesMade, awaiting]
    by_cases isCall : other = call
    · rw [isCall, mine] at otherHolds
      cases otherHolds
      obtain ⟨name, below⟩ := ledger.named _ _ found
      exact ⟨keptName _ _ name, below, still⟩
    · rw [others other isCall] at otherHolds
      obtain ⟨name, rest⟩ := ledger.held other otherFlight otherHolds
      exact ⟨keptName _ _ name, rest⟩
  · rw [starts.writes.entriesMade, awaiting]
    exact ledger.unmade

theorem create (ledger : Ledger runs) {agentId : String} {sessionId : Option String}
    {service : AgentService} (created : runs.service.create agentId sessionId = .ok service) :
    Ledger { runs with service := service } := by
  unfold AgentService.create at created
  split at created
  · cases created
  · split at created
    · cases created
    · cases created
      have older : ∀ entry, entry < runs.service.entriesMade →
          Function.update runs.service.entryOf runs.service.entriesMade
            ⟨agentId, sessionId, .idle, none⟩ entry = runs.service.entryOf entry :=
        fun entry below => Function.update_of_ne (Nat.ne_of_lt below) _ _
      constructor
      · intro name entry found waits
        have below : entry < runs.service.entriesMade := by
          by_contra unmade
          have still : runs.awaiting entry = false := ledger.unmade entry (Nat.not_lt.mp unmade)
          rw [show runs.awaiting entry = true from waits] at still
          cases still
        simp only [older entry below]
        rw [KeyedTable.find?_set] at found
        split at found
        · cases found
          exact absurd below (Nat.lt_irrefl _)
        · exact ledger.paused name entry found waits
      · exact ledger.untouched
      · exact ledger.single
      · exact ledger.reserved
      · exact ledger.flying
      · intro name entry found
        rw [KeyedTable.find?_set] at found
        split at found
        · rename_i same
          cases found
          exact ⟨by simp only [Function.update_self]; exact same, Nat.lt_succ_self _⟩
        · obtain ⟨named, below⟩ := ledger.named name entry found
          simp only [older entry below]
          exact ⟨named, Nat.lt_succ_of_lt below⟩
      · intro call flight holds
        obtain ⟨name, below, still⟩ := ledger.held call flight holds
        simp only [older flight.entry below]
        exact ⟨name, Nat.lt_succ_of_lt below, still⟩
      · exact fun entry made => ledger.unmade entry (Nat.le_of_succ_le made)

theorem dispose (ledger : Ledger runs) {agentId : String} {service : AgentService}
    (disposed : runs.service.dispose agentId = .ok service) :
    Ledger { runs with service := service } := by
  unfold AgentService.dispose at disposed
  split at disposed
  · cases disposed
  · cases disposed
    have kept : ∀ name entry, (runs.service.entries.erase agentId).find? name = some entry →
        runs.service.entries.find? name = some entry := by
      intro name entry found
      rw [KeyedTable.find?_erase] at found
      split at found
      · cases found
      · exact found
    exact
      { paused := fun name entry found => ledger.paused name entry (kept name entry found)
        untouched := ledger.untouched
        single := ledger.single
        reserved := ledger.reserved
        flying := ledger.flying
        named := fun name entry found => ledger.named name entry (kept name entry found)
        held := ledger.held
        unmade := ledger.unmade }

/-! ### One step -/

private theorem flights_setCall {calls : Nat → Call} {call : Nat} {stage : Call}
    (grounded : stage.flight? = none) (other : Nat) (flight : Flight)
    (holds : (Function.update calls call stage other).flight? = some flight) :
    other ≠ call ∧ (calls other).flight? = some flight := by
  by_cases same : other = call
  · rw [same, Function.update_self, grounded] at holds
    cases holds
  · rw [Function.update_of_ne same] at holds
    exact ⟨same, holds⟩

private theorem land (ledger : Ledger runs) {call : Nat} {flight : Flight}
    (holds : (runs.calls call).flight? = some flight) {service : AgentService} {state : AgentState}
    (writes : Writes runs.service service flight.entry state) {awaiting : Nat → Bool}
    (elsewhere : ∀ other, other ≠ flight.entry → awaiting other = runs.awaiting other)
    (here : awaiting flight.entry = true → state = .paused)
    (inflight : ∀ other, other ∈ runs.service.inflightAdmissions → other ≠ flight.agentId →
      other ∈ service.inflightAdmissions) :
    Ledger ({ runs with service := service, awaiting := awaiting }.setCall call .finished) := by
  obtain ⟨name, below, _⟩ := ledger.held call flight holds
  -- No other call holds the entry: its agent would be the same.
  have apart : ∀ other otherFlight, other ≠ call →
      (runs.calls other).flight? = some otherFlight → otherFlight.agentId ≠ flight.agentId :=
    fun other otherFlight different otherHolds same =>
      different (ledger.single other call otherFlight flight otherHolds holds same)
  refine ledger.write writes elsewhere (fun _ => here) (fun _ => below) ledger.untouched
    (fun other otherFlight otherHolds => (flights_setCall rfl other otherFlight otherHolds).2)
    ?_ ?_
  · intro other otherFlight otherHolds
    obtain ⟨different, before⟩ := flights_setCall rfl other otherFlight otherHolds
    exact inflight _ (ledger.flying other otherFlight before) (apart other otherFlight different before)
  · intro other otherFlight otherHolds same
    obtain ⟨different, before⟩ := flights_setCall rfl other otherFlight otherHolds
    refine absurd ?_ (apart other otherFlight different before)
    rw [← (ledger.held other otherFlight before).1, same]
    exact name

private theorem rewrite (ledger : Ledger runs) {call : Nat} {stage : Call}
    (grounded : stage.flight? = none) {entry : Nat} {state : AgentState} {awaiting : Nat → Bool}
    {overwritten : Bool}
    (elsewhere : ∀ other, other ≠ entry → awaiting other = runs.awaiting other)
    (fewer : awaiting entry = true → runs.awaiting entry = true)
    (here : entry ∈ runs.service.entries.values → awaiting entry = true → state = .paused)
    (untouched : overwritten = false) :
    Ledger ({ runs with
      service := runs.service.setState entry state
      awaiting := awaiting
      overwritten := overwritten }.setCall call stage) := by
  have flights : ∀ other flight, (Function.update runs.calls call stage other).flight? = some flight →
      other ≠ call ∧ (runs.calls other).flight? = some flight := flights_setCall grounded
  refine ledger.write (runs.service.setState_writes entry state) elsewhere here ?_ untouched
    (fun other flight holds => (flights other flight holds).2)
    (fun other flight holds => ledger.flying other flight (flights other flight holds).2) ?_
  · intro waits
    by_contra unmade
    have still := ledger.unmade entry (Nat.not_lt.mp unmade)
    rw [fewer waits] at still
    cases still
  · intro other flight holds same
    have still := (ledger.held other flight (flights other flight holds).2).2.2
    rw [same] at still
    by_contra waits
    rw [fewer (Bool.eq_true_of_not_eq_false waits)] at still
    cases still

theorem step (ledger : Ledger runs) (action : ServiceAction)
    (stepped : runs.step action = some after) (respects : runs.Respects action) : Ledger after := by
  have landed : ∀ {call : Nat} {stage : Call}, stage.flight? = none → ∀ other flight,
      ((runs.setCall call stage).calls other).flight? = some flight →
      (runs.calls other).flight? = some flight :=
    fun grounded other flight holds => (flights_setCall grounded other flight holds).2
  cases action with
  | create agentId sessionId =>
      simp only [ServiceRuns.step] at stepped
      split at stepped
      · rename_i created
        cases stepped
        exact ledger.create created
      · cases stepped
        exact ledger
  | dispose agentId =>
      simp only [ServiceRuns.step] at stepped
      split at stepped
      · rename_i disposed
        cases stepped
        exact ledger.dispose disposed
      · cases stepped
        exact ledger
  | runBegins call agentId request active =>
      simp only [ServiceRuns.step] at stepped
      split at stepped
      · rcases runs.service.admitRun_effect runs.now active agentId request with
          ⟨same, refused⟩ | ⟨entry, service, ran, reaches, free, starts⟩
        · split at stepped
          · rename_i ran
            exact absurd (congrArg Prod.snd ran) (refused _)
          · rename_i ran
            cases stepped
            rw [ran] at same
            exact ledger.quiet same rfl rfl (landed rfl)
        · rw [ran] at stepped
          cases stepped
          have still : runs.awaiting entry = false := by
            by_contra waits
            exact (AgentService.busy_none free).1 (ledger.paused agentId entry reaches.found
              (Bool.eq_true_of_not_eq_false waits))
          exact ledger.start ⟨entry, agentId, request, runs.reserved agentId⟩ starts reaches.found
            still rfl (respects entry reaches free) rfl rfl rfl
      · cases stepped
  | runEnds call reply =>
      simp only [ServiceRuns.step] at stepped
      split at stepped
      · rename_i flight stage
        cases stepped
        have holds : (runs.calls call).flight? = some flight := by rw [stage]; rfl
        have still := (ledger.held call flight holds).2.2
        refine ledger.land holds (AgentService.settleRun_writes ..) ?_ ?_ ?_
        · intro other different
          split
          · exact Function.update_of_ne different _ _
          · rfl
        · intro waits
          split at waits
          · rename_i isPaused
            rw [RunReply.state, AgentRunResult.state, if_pos isPaused]
          · rw [still] at waits
            cases waits
        · exact fun other member different =>
            (AgentService.mem_leaveFlight _ _ _).mpr ⟨member, different⟩
      · cases stepped
  | streamBegins call agentId request active =>
      simp only [ServiceRuns.step] at stepped
      split at stepped
      · rcases runs.service.admitStream_effect runs.now active agentId request with
          ⟨same, refused, _⟩ | ⟨entry, service, ran, free, starts⟩
        · split at stepped
          · rename_i ran
            exact absurd (congrArg Prod.snd ran) (refused _)
          · rename_i ran
            cases stepped
            rw [ran] at same
            exact ledger.quiet same rfl rfl (landed rfl)
        · rw [ran] at stepped
          cases stepped
          obtain ⟨still, respected⟩ := respects entry free
          exact ledger.start ⟨entry, agentId, request, runs.reserved agentId⟩ starts free.found
            still rfl respected rfl rfl rfl
      · cases stepped
  | streamEnds call readToEnd =>
      simp only [ServiceRuns.step] at stepped
      split at stepped
      · rename_i flight stage
        cases stepped
        have holds : (runs.calls call).flight? = some flight := by rw [stage]; rfl
        have still := (ledger.held call flight holds).2.2
        have never : runs.awaiting flight.entry = true → ∀ state : AgentState, state = .paused := by
          intro waits
          rw [still] at waits
          cases waits
        unfold AgentService.settleStream
        split
        · exact ledger.land holds (AgentService.leaveFlight_writes
            (runs.service.setState_writes flight.entry .idle) _) (fun _ _ => rfl)
            (fun waits => never waits _)
            (fun other member different =>
              (AgentService.mem_leaveFlight _ _ _).mpr ⟨member, different⟩)
        · exact ledger.land holds (AgentService.leaveFlight_writes
            ⟨rfl, rfl, fun _ _ => rfl, rfl, rfl⟩ _) (fun _ _ => rfl)
            (fun waits => never waits _)
            (fun other member different =>
              (AgentService.mem_leaveFlight _ _ _).mpr ⟨member, different⟩)
      · cases stepped
  | abandoned call =>
      simp only [ServiceRuns.step] at stepped
      split at stepped
      · cases stepped
        exact ledger.quiet ⟨rfl, rfl, rfl, rfl⟩ rfl rfl (landed rfl)
      · cases stepped
        exact ledger.quiet ⟨rfl, rfl, rfl, rfl⟩ rfl rfl (landed rfl)
      · cases stepped
  | cancelBegins call agentId =>
      simp only [ServiceRuns.step] at stepped
      split at stepped
      · split at stepped
        · rename_i entry found
          cases stepped
          have still := respects entry found
          refine ledger.rewrite rfl (fun _ _ => rfl) id (fun _ waits => ?_) ledger.untouched
          rw [still] at waits
          cases waits
        · cases stepped
          exact ledger.quiet ⟨rfl, rfl, rfl, rfl⟩ rfl rfl (landed rfl)
      · cases stepped
  | cancelEnds call found =>
      simp only [ServiceRuns.step] at stepped
      split at stepped
      · rename_i entry stage
        cases stepped
        simp only [ServiceRuns.Respects, stage] at respects
        refine ledger.rewrite rfl (fun _ _ => rfl) id (fun registered waits => ?_) ledger.untouched
        rw [respects registered] at waits
        cases waits
      · cases stepped
  | confirmBegins call sessionId =>
      simp only [ServiceRuns.step] at stepped
      split at stepped
      · cases stepped
        exact ledger.quiet ⟨rfl, rfl, rfl, rfl⟩ rfl rfl (landed rfl)
      · cases stepped
  | confirmEnds call reply =>
      simp only [ServiceRuns.step] at stepped
      split at stepped
      · split at stepped
        · cases stepped
          exact ledger.quiet ⟨rfl, rfl, rfl, rfl⟩ rfl rfl (landed rfl)
        · cases stepped
          exact ledger.quiet ⟨rfl, rfl, rfl, rfl⟩ rfl rfl (landed rfl)
      · cases stepped
  | confirmReports call =>
      simp only [ServiceRuns.step] at stepped
      split at stepped
      · rename_i entry left result executed stage
        cases stepped
        simp only [ServiceRuns.Respects, stage] at respects
        refine ledger.rewrite rfl ?_ ?_ ?_ ?_
        · intro other different
          split
          · exact Function.update_of_ne different _ _
          · rfl
        · intro waits
          split at waits
          · rw [Function.update_self] at waits
            cases waits
          · exact waits
        · intro registered waits
          split at waits
          · rw [Function.update_self] at waits
            cases waits
          · rename_i unresumed
            have reported := respects registered
            rw [if_pos waits] at reported
            rcases reported with executed | isPaused
            · rw [executed] at unresumed
              rw [AgentRunResult.state, if_pos (by simpa using unresumed)]
            · exact isPaused
        · rw [ledger.untouched, Bool.false_or]
          by_contra changed
          have changed := Bool.eq_true_of_not_eq_false changed
          simp only [Bool.and_eq_true, decide_eq_true_eq, Bool.not_eq_true'] at changed
          obtain ⟨⟨registered, still⟩, different⟩ := changed
          have reported := respects registered
          rw [still, if_neg Bool.false_ne_true] at reported
          exact different reported
      · cases stepped
        exact ledger.quiet ⟨rfl, rfl, rfl, rfl⟩ rfl rfl (landed rfl)
      · cases stepped
  | tryReserve agentId sessionId requestId expiresAt active =>
      simp only [ServiceRuns.step] at stepped
      split at stepped
      · rename_i tried
        cases stepped
        exact ledger.quiet (AgentService.tryReserve_same tried) rfl rfl fun _ _ holds => holds
      · cases stepped
        exact ledger
  | releaseReservation reservation =>
      cases stepped
      exact ledger.quiet ⟨rfl, rfl, rfl, rfl⟩ rfl rfl fun _ _ holds => holds
  | timePasses later =>
      cases stepped
      exact ledger.quiet ⟨rfl, rfl, rfl, rfl⟩ rfl rfl fun _ _ holds => holds

end Ledger

theorem respects_of_sound {runs after : ServiceRuns} (action : ServiceAction)
    (stepped : runs.step action = some after) (sound : after.Sound) : runs.Respects action := by
  cases action with
  | runBegins call agentId request active =>
      intro entry reaches free
      simp only [ServiceRuns.step] at stepped
      split at stepped
      · rcases runs.service.admitRun_cases runs.now active agentId request with
          ⟨stopped, _⟩ | ⟨other, otherReaches, ⟨_, blocked, _⟩ | ⟨_, ran⟩⟩
        · exact absurd reaches (stopped entry)
        · have same := otherReaches.found
          rw [reaches.found] at same
          cases same
          rw [free] at blocked
          cases blocked
        · rw [ran] at stepped
          cases stepped
          exact sound.reserved call ⟨other, agentId, request, runs.reserved agentId⟩ (by
            rw [ServiceRuns.setCall_calls_self]
            rfl)
      · cases stepped
  | streamBegins call agentId request active =>
      intro entry free
      simp only [ServiceRuns.step] at stepped
      split at stepped
      · rcases runs.service.admitStream_effect runs.now active agentId request with
          ⟨_, _, stopped⟩ | ⟨other, service, ran, otherFree, starts⟩
        · exact absurd free (stopped entry)
        · have same := otherFree.found
          rw [free.found] at same
          cases same
          rw [ran] at stepped
          cases stepped
          refine ⟨?_, sound.reserved call ⟨entry, agentId, request, runs.reserved agentId⟩ (by
            rw [ServiceRuns.setCall_calls_self]
            rfl)⟩
          by_contra waits
          have kept := sound.paused agentId entry (by
            rw [← free.found, ← starts.writes.entries]
            rfl) (Bool.eq_true_of_not_eq_false waits)
          rw [ServiceRuns.setCall_service, starts.writes.written] at kept
          cases kept
      · cases stepped
  | cancelBegins call agentId =>
      intro entry found
      simp only [ServiceRuns.step] at stepped
      split at stepped
      · rw [found] at stepped
        cases stepped
        by_contra waits
        have kept := sound.paused agentId entry found (Bool.eq_true_of_not_eq_false waits)
        rw [ServiceRuns.setCall_service, AgentService.setState_entryOf_self] at kept
        cases kept
      · cases stepped
  | cancelEnds call found =>
      simp only [ServiceRuns.step] at stepped
      split at stepped
      · rename_i entry stage
        cases stepped
        simp only [ServiceRuns.Respects, stage]
        intro registered
        obtain ⟨⟨agentId, _⟩, member, rfl⟩ := List.mem_map.mp registered
        have present := (KeyedTable.find?_eq_some_iff _ _ _).mpr member
        by_contra waits
        have kept := sound.paused agentId _ present (Bool.eq_true_of_not_eq_false waits)
        rw [ServiceRuns.setCall_service, AgentService.settleCancel,
          AgentService.setState_entryOf_self] at kept
        split at kept <;> cases kept
      · cases stepped
  | confirmReports call =>
      simp only [ServiceRuns.step] at stepped
      split at stepped
      · rename_i entry left result executed stage
        cases stepped
        simp only [ServiceRuns.Respects, stage]
        intro registered
        obtain ⟨⟨agentId, _⟩, member, rfl⟩ := List.mem_map.mp registered
        have present := (KeyedTable.find?_eq_some_iff _ _ _).mpr member
        cases waits : runs.awaiting _ with
        | true =>
            rw [if_pos rfl]
            by_contra unkept
            obtain ⟨notExecuted, notPaused⟩ := not_or.mp unkept
            have kept := sound.paused agentId _ present (by
              rw [ServiceRuns.setCall_awaiting, ServiceRuns.report,
                Bool.eq_false_of_not_eq_true notExecuted, Bool.false_and, if_neg Bool.false_ne_true]
              exact waits)
            rw [ServiceRuns.setCall_service, ServiceRuns.report,
              AgentService.setState_entryOf_self] at kept
            exact notPaused kept
        | false =>
            rw [if_neg Bool.false_ne_true]
            by_contra different
            have untouched := sound.untouched
            simp [ServiceRuns.report, registered, waits, different] at untouched
      · rename_i stage
        simp only [ServiceRuns.Respects, stage]
      · cases stepped
  | create _ _ => trivial
  | dispose _ => trivial
  | runEnds _ _ => trivial
  | streamEnds _ _ => trivial
  | abandoned _ => trivial
  | confirmBegins _ _ => trivial
  | confirmEnds _ _ => trivial
  | tryReserve _ _ _ _ _ => trivial
  | releaseReservation _ => trivial
  | timePasses _ => trivial

/-- The agent service is sound throughout a run exactly when every step of the
run respects its promises. -/
theorem sound_iff_respects (actions : List ServiceAction) :
    ServiceRuns.system.Always ServiceRuns.Sound ServiceRuns.fresh actions ↔
      ServiceRuns.system.EachStep ServiceRuns.Respects ServiceRuns.fresh actions :=
  StepSystem.always_iff_eachStep_of_invariant Ledger (fun _ ledger => ledger.sound)
    (fun _ action _ ledger stepped respects => ledger.step action stepped respects)
    (fun _ action _ _ stepped sound => respects_of_sound action stepped sound) Ledger.fresh actions

def idleCancel : List ServiceAction :=
  [.create "a" (some "s"), .runBegins 0 "a" secondRequest (fun _ => false),
    .runEnds 0 (.returned
      ⟨⟨"s", "turn_1", .completed, "", "", none, true⟩, "r2"⟩ true),
    .cancelBegins 1 "a", .cancelEnds 1 false]

/-- The agent is idle although nobody confirmed. -/
theorem idleCancel_not_sound :
    ¬ ServiceRuns.system.Always ServiceRuns.Sound ServiceRuns.fresh idleCancel := by
  intro always
  have created := always.2 _ rfl
  have started := created.2 _ rfl
  have paused := started.2 _ rfl
  have stopping := paused.2 _ rfl
  have idle : ServiceRuns.Sound _ := stopping.2 _ rfl
  have kept := idle.paused "a" 0 rfl rfl
  cases kept

end Ftre.Agent
