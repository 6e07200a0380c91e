import Ftre.Agent.Service

/-!
What a run that never executed leaves behind.
-/

namespace Ftre.Agent

open Lib

inductive RunOutcome where
  | refused (error : AgentServiceError)
  | cached (result : AgentRunResult)
  | ended (reply : RunReply)

namespace AgentService

/-- A whole call of `run`; `reply` is what the runtime answers if it is asked. -/
def run (service : AgentService) (now : Nat) (active : String → Bool) (agentId : String)
    (request : AgentRunRequest) (reply : RunReply) : AgentService × RunOutcome :=
  match service.admitRun now active agentId request with
  | (after, .refused error) => (after, .refused error)
  | (after, .cached result) => (after, .cached result)
  | (after, .admitted entry) => (after.settleRun entry agentId request reply, .ended reply)

end AgentService

def RunReply.turnedAway : RunReply → Bool
  | .returned result executed =>
      !executed && decide (result.status = .failed) &&
        result.error.any fun error => decide (error.code = "agent-busy") || error.retryable
  | _ => false

/-- The run ended without a turn and its caller is told to try again. -/
def RunOutcome.unexecuted : RunOutcome → Bool
  | .refused (.agentBusy _) => true
  | .ended reply => reply.turnedAway
  | _ => false

/-- The tables are as before, so every retry of the request is answered by them
as it would have been before. -/
structure LeavesNoTrace (request : AgentRunRequest) (before after : AgentService) : Prop where
  completedRuns : after.completedRuns = before.completedRuns
  requestFingerprints : after.requestFingerprints = before.requestFingerprints
  retried : ∀ retry : AgentRunRequest, retry.requestKey = request.requestKey →
    after.answered retry = before.answered retry

structure ReachesChecks (service : AgentService) (agentId : String) (request : AgentRunRequest)
    (entry : Nat) : Prop where
  found : service.entries.find? agentId = some entry
  belongs : request.sessionId = (service.entryOf entry).session agentId
  unanswered : (service.answered request).isNone

/-- Of a request that reaches the busy checks: when one of them stands in its
way, its fingerprint was bound before; when none does, the runtime does not turn
it away. -/
def Clean (service : AgentService) (active : String → Bool) (agentId : String)
    (request : AgentRunRequest) (reply : RunReply) : Prop :=
  ∀ entry, ReachesChecks service agentId request entry →
    if (service.busy active agentId entry).isSome then
      (service.requestFingerprints.find? request.requestKey).isSome
    else reply.turnedAway = false

/-! ### Tables under the steps of a run -/

namespace AgentService

theorem answered_congr {before after : AgentService}
    (completedRuns : after.completedRuns = before.completedRuns)
    (requestFingerprints : after.requestFingerprints = before.requestFingerprints)
    (request : AgentRunRequest) : after.answered request = before.answered request := by
  unfold answered
  rw [completedRuns, requestFingerprints]

variable {service : AgentService} {request : AgentRunRequest}

theorem busy_agentBusy {active : String → Bool} {agentId : String} {entry : Nat}
    {error : AgentServiceError} (busy : service.busy active agentId entry = some error) :
    ∃ message, error = .agentBusy message := by
  unfold AgentService.busy at busy
  split at busy
  · exact ⟨_, (Option.some.inj busy).symm⟩
  · split at busy
    · exact ⟨_, (Option.some.inj busy).symm⟩
    · split at busy
      · exact ⟨_, (Option.some.inj busy).symm⟩
      · cases busy

theorem bindFingerprint_unchanged_iff (service : AgentService) (request : AgentRunRequest) :
    (service.bindFingerprint request).requestFingerprints = service.requestFingerprints ↔
      (service.requestFingerprints.find? request.requestKey).isSome := by
  constructor
  · intro same
    rw [← same]
    unfold bindFingerprint
    rw [KeyedTable.find?_setDefault, if_pos rfl]
    rfl
  · intro bound
    unfold bindFingerprint KeyedTable.setDefault KeyedTable.contains
    rw [bound, if_pos rfl]

theorem not_completed_of_unanswered (unanswered : service.answered request = none) :
    service.completedRuns.find? request.requestKey = none := by
  unfold answered at unanswered
  split at unanswered
  · cases unanswered
  · exact Option.map_eq_none_iff.mp unanswered

theorem answered_refused {answer : Admission} (answered : service.answered request = some answer) :
    (∃ message, answer = .refused (.invalidRunRequest message)) ∨
      ∃ result, answer = .cached result := by
  unfold AgentService.answered at answered
  split at answered
  · exact Or.inl ⟨_, (Option.some.inj answered).symm⟩
  · obtain ⟨result, _, same⟩ := Option.map_eq_some_iff.mp answered
    exact Or.inr ⟨result, same.symm⟩

/-- What `run` finds before its first await: an answer that leaves the service as
it is, a busy check in the way, or the way free. -/
theorem admitRun_cases (service : AgentService) (now : Nat) (active : String → Bool)
    (agentId : String) (request : AgentRunRequest) :
    ((∀ entry, ¬ ReachesChecks service agentId request entry) ∧
      ((∃ result, service.admitRun now active agentId request = (service, .cached result)) ∨
        ∃ error, (∀ message, error ≠ .agentBusy message) ∧
          service.admitRun now active agentId request = (service, .refused error))) ∨
    ∃ entry, ReachesChecks service agentId request entry ∧
      ((∃ message, service.busy active agentId entry = some (.agentBusy message) ∧
          service.admitRun now active agentId request =
            ((service.bindFingerprint request).expireReservations now,
              .refused (.agentBusy message))) ∨
        service.busy active agentId entry = none ∧
          service.admitRun now active agentId request =
            (((((service.bindFingerprint request).expireReservations now).startRun entry
              request.requestId).enterFlight agentId).consumeReservation agentId request.sessionId
                request.requestId, .admitted entry)) := by
  unfold admitRun
  cases found : service.entries.find? agentId with
  | none =>
      refine Or.inl ⟨fun entry reaches => ?_, Or.inr ⟨_, fun _ same => ?_, rfl⟩⟩
      · rw [reaches.found] at found
        cases found
      · cases same
  | some entry =>
      by_cases foreign : request.sessionId ≠ (service.entryOf entry).session agentId
      · simp only [if_pos foreign]
        refine Or.inl ⟨fun other reaches => ?_, Or.inr ⟨_, fun _ same => ?_, rfl⟩⟩
        · have same := reaches.found
          rw [found] at same
          cases same
          exact foreign reaches.belongs
        · cases same
      · simp only [if_neg foreign]
        cases answering : service.answered request with
        | some answer =>
            refine Or.inl ⟨fun other reaches => ?_, ?_⟩
            · have unanswered := reaches.unanswered
              rw [answering] at unanswered
              cases unanswered
            · rcases answered_refused answering with ⟨message, rfl⟩ | ⟨result, rfl⟩
              · refine Or.inr ⟨_, fun _ same => ?_, rfl⟩
                cases same
              · exact Or.inl ⟨result, rfl⟩
        | none =>
            have reaches : ReachesChecks service agentId request entry :=
              ⟨found, not_not.mp foreign, by rw [answering]; rfl⟩
            have sameChecks : ((service.bindFingerprint request).expireReservations now).busy active
                agentId entry = service.busy active agentId entry := rfl
            simp only [sameChecks]
            cases blocked : service.busy active agentId entry with
            | some error =>
                obtain ⟨message, rfl⟩ := busy_agentBusy blocked
                exact Or.inr ⟨entry, reaches, Or.inl ⟨message, blocked, rfl⟩⟩
            | none => exact Or.inr ⟨entry, reaches, Or.inr ⟨blocked, rfl⟩⟩

end AgentService

theorem leavesNoTrace_of_tables {request : AgentRunRequest} {before after : AgentService}
    (completedRuns : after.completedRuns = before.completedRuns)
    (requestFingerprints : after.requestFingerprints = before.requestFingerprints) :
    LeavesNoTrace request before after where
  completedRuns := completedRuns
  requestFingerprints := requestFingerprints
  retried := fun retry _ => AgentService.answered_congr completedRuns requestFingerprints retry

theorem clean_iff_of_reaches {service : AgentService} {active : String → Bool} {agentId : String}
    {request : AgentRunRequest} {reply : RunReply} {entry : Nat}
    (reaches : ReachesChecks service agentId request entry) :
    Clean service active agentId request reply ↔
      if (service.busy active agentId entry).isSome = true then
        (service.requestFingerprints.find? request.requestKey).isSome = true
      else reply.turnedAway = false := by
  constructor
  · exact fun clean => clean entry reaches
  · intro clean other otherReaches
    have same := otherReaches.found
    rw [reaches.found] at same
    cases same
    exact clean

/-- A run that ended without a turn leaves no trace exactly when it is clean. -/
theorem unexecuted_leavesNoTrace_iff_clean (service : AgentService) (now : Nat)
    (active : String → Bool) (agentId : String) (request : AgentRunRequest) (reply : RunReply) :
    ((service.run now active agentId request reply).2.unexecuted = true →
      LeavesNoTrace request service (service.run now active agentId request reply).1) ↔
    Clean service active agentId request reply := by
  unfold AgentService.run
  rcases service.admitRun_cases now active agentId request with
    ⟨stopped, ⟨result, ran⟩ | ⟨error, notBusy, ran⟩⟩ |
      ⟨entry, reaches, ⟨message, blocked, ran⟩ | ⟨free, ran⟩⟩
  · rw [ran]
    refine iff_of_true (fun never => ?_) (fun entry reaches => absurd reaches (stopped entry))
    cases never
  · rw [ran]
    refine iff_of_true (fun never => ?_) (fun entry reaches => absurd reaches (stopped entry))
    cases error with
    | agentBusy message => exact absurd rfl (notBusy message)
    | agentNotFound _ => cases never
    | agentAlreadyExists _ => cases never
    | invalidRunRequest _ => cases never
  · rw [ran, clean_iff_of_reaches reaches, blocked, Option.isSome_some, if_pos rfl,
      ← AgentService.bindFingerprint_unchanged_iff]
    constructor
    · intro trace
      exact (trace rfl).requestFingerprints
    · intro same _
      exact leavesNoTrace_of_tables rfl same
  · rw [ran, clean_iff_of_reaches reaches, free, Option.isSome_none, if_neg Bool.false_ne_true]
    constructor
    · intro trace
      by_contra notExecuted
      have turnedAway : reply.turnedAway = true := Bool.eq_true_of_not_eq_false notExecuted
      have kept := (trace turnedAway).completedRuns
      -- The result of the run is cached although nothing was before.
      have cached := congrArg (·.find? request.requestKey) kept
      simp only [AgentService.settleRun, AgentService.leaveFlight, AgentService.setState,
        KeyedTable.find?_set_self, AgentService.not_completed_of_unanswered
          (Option.isNone_iff_eq_none.mp reaches.unanswered)] at cached
      cases cached
    · intro executed turnedAway
      rw [RunOutcome.unexecuted, executed] at turnedAway
      cases turnedAway

def secondRequest : AgentRunRequest where
  sessionId := "s"
  requestId := "r2"
  messages := []
  agentId := none
  channelId := ""
  source := "user"
  metadata := .empty

def awaitingAgent : AgentService :=
  { AgentService.fresh with
    entries := KeyedTable.empty.set "a" 0
    entryOf := fun _ => ⟨"a", some "s", .paused, some "r1"⟩
    entriesMade := 1 }

/-- The refused request stays bound to its first content. -/
theorem refused_run_binds_content :
    let after := awaitingAgent.run 0 (fun _ => false) "a" secondRequest .cancelled
    after.2.unexecuted = true ∧ ¬ LeavesNoTrace secondRequest awaitingAgent after.1 := by
  refine ⟨rfl, fun trace => ?_⟩
  have bound := congrArg (·.find? secondRequest.requestKey) trace.requestFingerprints
  cases bound

end Ftre.Agent
