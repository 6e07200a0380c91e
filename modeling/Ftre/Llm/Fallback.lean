import Mathlib.Data.List.Infix
import Mathlib.Data.List.TakeWhile
import Ftre.Llm.Events
import Ftre.Session.UserContent

/-!
One attempt of the primary model with one backup behind it.
-/

namespace Ftre.Llm

open Lib Session

/-- How a stream of chunks ends; what it raises is given as it is classified. -/
inductive StreamEnd where
  | exhausted
  | raised (error : LLMError)
  /-- `asyncio.CancelledError`. -/
  | cancelled
deriving DecidableEq

/-- What a model yields when its stream is read to the end. -/
structure ModelStream where
  chunks : List StreamChunk
  ending : StreamEnd
deriving DecidableEq

structure FallbackConfig where
  provider : String
  model : String
  errors : List String
  excludeErrors : List String

def FallbackConfig.enabled (config : FallbackConfig) : Bool :=
  decide (config.provider ≠ "") && decide (config.model ≠ "") && !config.errors.isEmpty

/-- What `_can_fallback` reads of the payload when the primary has failed. -/
structure LlmStreamPayload where
  attempt : Int
  maxAttempts : Int
  cancellation : Bool

/-- `str.lower` on the letters that error codes and markers are made of. -/
def lower (text : String) : String := text.map Char.toLower

def overflowMarkers : List String :=
  ["overflow", "context_length", "context length", "too_long", "too long"]

def occursIn (marker value : String) : Bool := decide (marker.toList <:+: value.toList)

def canFallback (payload : LlmStreamPayload) (config : FallbackConfig) (code message : String) :
    Bool :=
  if payload.attempt ≠ payload.maxAttempts ∨ payload.cancellation = true ∨
      config.enabled = false then false
  else
    let value := lower (strip (code ++ " " ++ message))
    if code = "" ∨ code ∈ config.excludeErrors ∨
        overflowMarkers.any (fun marker => occursIn marker value) = true then false
    else decide (code ∈ config.errors)

def commitsOutput : StreamChunk → Bool
  | .usage _ => false
  | .textDelta _ text => decide (text ≠ "")
  | .reasoningDelta _ text => decide (text ≠ "")
  | .toolCallDelta _ callId name argumentsDelta =>
      decide (callId ≠ "" ∨ name ≠ "" ∨ argumentsDelta ≠ "")
  | .blockStart _ _ => true
  | .blockEnd _ _ => true
  | .finish _ => false

def failureDetails (reason : FinishReason) : String × String :=
  match reason.failure with
  | some failure => (lower failure.code, failure.message)
  | none => ("", "")

/-- `_error_finish`. -/
def errorReason (error : LLMError) : FinishReason :=
  ⟨.error, some ⟨error.message, error.code⟩, "", .empty⟩

/-- What became of the primary. -/
inductive Verdict where
  | final (ending : StreamEnd)
  | failed (error : FinishReason)
deriving DecidableEq

def forward (eligible : String → String → Bool) (committed : Bool) :
    List StreamChunk → StreamEnd → List StreamChunk × Verdict
  | [], .exhausted => ([], .final .exhausted)
  | [], .cancelled => ([], .final .cancelled)
  | [], .raised error =>
      if committed = true ∨ eligible error.code error.message = false then
        ([], .final (.raised error))
      else ([], .failed (errorReason error))
  | .finish reason :: _, _ =>
      match reason.kind with
      | .error =>
          let (code, message) := failureDetails reason
          if committed = true ∨ eligible code message = false then
            ([.finish reason], .final .exhausted)
          else ([], .failed reason)
      | _ => ([.finish reason], .final .exhausted)
  | chunk :: rest, ending =>
      let (passed, verdict) := forward eligible (committed || commitsOutput chunk) rest ending
      (chunk :: passed, verdict)

/-- What resolving and preparing the backup gives. -/
inductive Preparation where
  | unavailable
  | cancelled
  | prepared (stream : ModelStream)

inductive BackupVerdict where
  | finished
  | failed
  | cancelled
deriving DecidableEq

def forwardBackup : List StreamChunk → StreamEnd → List StreamChunk × BackupVerdict
  | [], .exhausted => ([], .failed)
  | [], .raised _ => ([], .failed)
  | [], .cancelled => ([], .cancelled)
  | .finish reason :: rest, ending =>
      if reason.kind = .error ∨ reason.kind = .aborted then forwardBackup rest ending
      else ([.finish reason], .finished)
  | chunk :: rest, ending =>
      let (passed, verdict) := forwardBackup rest ending
      (chunk :: passed, verdict)

/-- The model a chunk is from. -/
inductive Origin where
  | primary
  | backup
deriving DecidableEq, Repr

structure SplicedStream where
  yielded : List (Origin × StreamChunk)
  ending : StreamEnd
deriving DecidableEq

def SplicedStream.chunks (spliced : SplicedStream) : List StreamChunk :=
  spliced.yielded.map Prod.snd

def streamWithFallback (payload : LlmStreamPayload) (config : FallbackConfig)
    (primary : ModelStream) (preparation : Preparation) : SplicedStream :=
  match forward (canFallback payload config) false primary.chunks primary.ending with
  | (passed, .final ending) => ⟨passed.map (.primary, ·), ending⟩
  | (passed, .failed error) =>
      let before := passed.map (Origin.primary, ·)
      let restored := (Origin.primary, StreamChunk.finish error)
      match preparation with
      | .unavailable => ⟨before ++ [restored], .exhausted⟩
      | .cancelled => ⟨before, .cancelled⟩
      | .prepared stream =>
          match forwardBackup stream.chunks stream.ending with
          | (taken, .finished) => ⟨before ++ taken.map (.backup, ·), .exhausted⟩
          | (taken, .failed) => ⟨before ++ taken.map (.backup, ·) ++ [restored], .exhausted⟩
          | (taken, .cancelled) => ⟨before ++ taken.map (.backup, ·), .cancelled⟩

namespace ModelStream

def outputs (stream : ModelStream) : List StreamChunk :=
  stream.chunks.takeWhile fun chunk => !chunk.isFinish

def failure? (stream : ModelStream) : Option (FinishReason × String × String) :=
  match stream.chunks.find? StreamChunk.isFinish, stream.ending with
  | some (.finish reason), _ =>
      if reason.kind = .error then some (reason, failureDetails reason) else none
  | _, .raised error => some (errorReason error, error.code, error.message)
  | _, _ => none

def Succeeds (stream : ModelStream) : Prop :=
  ∃ reason, .finish reason ∈ stream.chunks ∧ reason.kind ≠ .error ∧ reason.kind ≠ .aborted

end ModelStream

def ModelStream.GivesWay (stream : ModelStream) (eligible : String → String → Bool)
    (error : FinishReason) : Prop :=
  (∀ chunk ∈ stream.outputs, commitsOutput chunk = false) ∧
    ∃ code message, stream.failure? = some (error, code, message) ∧ eligible code message = true

def Switches (payload : LlmStreamPayload) (config : FallbackConfig) (primary : ModelStream)
    (error : FinishReason) : Prop :=
  primary.GivesWay (canFallback payload config) error

/-- The backup is not there, or comes to no successful finish. -/
def Preparation.Fails : Preparation → Prop
  | .unavailable => True
  | .cancelled => False
  | .prepared stream => ¬ stream.Succeeds ∧ stream.ending ≠ .cancelled

def FinishLast (chunks : List StreamChunk) : Prop :=
  ∀ before chunk after, chunks = before ++ chunk :: after → chunk.isFinish = true → after = []

/-- What a spliced stream keeps apart. -/
structure FallbackSafe (payload : LlmStreamPayload) (config : FallbackConfig)
    (primary : ModelStream) (preparation : Preparation) (spliced : SplicedStream) : Prop where
  oneModel : ∀ chunk other, (.backup, chunk) ∈ spliced.yielded → (.primary, other) ∈ spliced.yielded →
    commitsOutput other = false
  switches : ∀ chunk, (.backup, chunk) ∈ spliced.yielded →
    ∃ error, Switches payload config primary error
  finishLast : FinishLast spliced.chunks
  restored : ∀ error, Switches payload config primary error → preparation.Fails →
    spliced.yielded.getLast? = some (.primary, .finish error) ∧ spliced.ending = .exhausted

/-! ### The two loops -/

private theorem finishLast_single (reason : FinishReason) : FinishLast [.finish reason] := by
  intro before chunk after split _
  cases before with
  | nil => cases split; rfl
  | cons head rest =>
      have length := congrArg List.length split
      simp only [List.length_cons, List.length_nil, List.cons_append, List.length_append] at length
      omega

private theorem finishLast_cons {chunk : StreamChunk} {rest : List StreamChunk}
    (plain : chunk.isFinish = false) (last : FinishLast rest) : FinishLast (chunk :: rest) := by
  intro before other after split finish
  cases before with
  | nil =>
      cases split
      rw [plain] at finish
      cases finish
  | cons head later =>
      cases split
      exact last later other after rfl finish

private theorem finishLast_quiet {chunks : List StreamChunk}
    (quiet : ∀ chunk ∈ chunks, chunk.isFinish = false) : FinishLast chunks := by
  intro before chunk after split finish
  rw [quiet chunk (split ▸ List.mem_append_right before List.mem_cons_self)] at finish
  cases finish

private theorem finishLast_append {initial chunks : List StreamChunk}
    (quiet : ∀ chunk ∈ initial, chunk.isFinish = false) (last : FinishLast chunks) :
    FinishLast (initial ++ chunks) := by
  induction initial with
  | nil => exact last
  | cons head rest ih =>
      obtain ⟨plain, later⟩ := List.forall_mem_cons.mp quiet
      exact finishLast_cons plain (ih later)

namespace ModelStream

theorem outputs_cons {chunk : StreamChunk} (plain : chunk.isFinish = false)
    (rest : List StreamChunk) (ending : StreamEnd) :
    (ModelStream.mk (chunk :: rest) ending).outputs = chunk :: (ModelStream.mk rest ending).outputs := by
  unfold outputs
  rw [List.takeWhile_cons, plain]
  rfl

theorem failure?_cons {chunk : StreamChunk} (plain : chunk.isFinish = false)
    (rest : List StreamChunk) (ending : StreamEnd) :
    (ModelStream.mk (chunk :: rest) ending).failure? = (ModelStream.mk rest ending).failure? := by
  unfold failure?
  rw [List.find?_cons_of_neg]
  rw [plain]
  exact Bool.false_ne_true

theorem givesWay_cons {eligible : String → String → Bool} {chunk : StreamChunk}
    (plain : chunk.isFinish = false) (rest : List StreamChunk) (ending : StreamEnd)
    (error : FinishReason) :
    (ModelStream.mk (chunk :: rest) ending).GivesWay eligible error ↔
      commitsOutput chunk = false ∧ (ModelStream.mk rest ending).GivesWay eligible error := by
  unfold GivesWay
  rw [outputs_cons plain, failure?_cons plain, List.forall_mem_cons, and_assoc]

end ModelStream

private theorem forward_cons (eligible : String → String → Bool) (committed : Bool)
    {chunk : StreamChunk} (plain : chunk.isFinish = false) (rest : List StreamChunk)
    (ending : StreamEnd) :
    forward eligible committed (chunk :: rest) ending =
      (chunk :: (forward eligible (committed || commitsOutput chunk) rest ending).1,
        (forward eligible (committed || commitsOutput chunk) rest ending).2) := by
  cases chunk with
  | finish reason => cases plain
  | _ => rfl

private theorem forward_finish (eligible : String → String → Bool) (rest : List StreamChunk)
    (ending : StreamEnd) (committed : Bool) (reason : FinishReason) :
    (forward eligible committed (.finish reason :: rest) ending =
        ([.finish reason], .final .exhausted) ∧
      ∀ error, committed = false →
        ¬ (ModelStream.mk (.finish reason :: rest) ending).GivesWay eligible error) ∨
      forward eligible committed (.finish reason :: rest) ending = ([], .failed reason) ∧
        committed = false ∧
          (ModelStream.mk (.finish reason :: rest) ending).GivesWay eligible reason := by
  by_cases failing : reason.kind = .error
  · have failed : (ModelStream.mk (.finish reason :: rest) ending).failure? =
        some (reason, failureDetails reason) := if_pos failing
    have said : forward eligible committed (.finish reason :: rest) ending =
        if committed = true ∨ eligible (failureDetails reason).1 (failureDetails reason).2 = false
        then ([.finish reason], .final .exhausted) else ([], .failed reason) := by
      simp only [forward, failing]
    rw [said]
    by_cases kept : committed = true ∨
        eligible (failureDetails reason).1 (failureDetails reason).2 = false
    · rw [if_pos kept]
      refine Or.inl ⟨rfl, ?_⟩
      rintro error uncommitted ⟨_, code, message, same, able⟩
      rw [failed, Option.some.injEq, Prod.mk.injEq] at same
      rw [same.2, uncommitted] at kept
      rw [able] at kept
      rcases kept with never | never <;> cases never
    · rw [if_neg kept]
      rw [not_or, Bool.not_eq_true, Bool.not_eq_false] at kept
      exact Or.inr ⟨rfl, kept.1, List.forall_mem_nil _, _, _, failed, kept.2⟩
  · refine Or.inl ⟨?_, ?_⟩
    · unfold forward
      cases kind : reason.kind with
      | error => exact absurd kind failing
      | _ => rfl
    · rintro error _ ⟨_, code, message, failed, _⟩
      have none : (ModelStream.mk (.finish reason :: rest) ending).failure? = none :=
        if_neg failing
      rw [none] at failed
      cases failed

private theorem forward_spec (eligible : String → String → Bool) (chunks : List StreamChunk)
    (ending : StreamEnd) (committed : Bool) :
    (∃ passed final, forward eligible committed chunks ending = (passed, .final final) ∧
      FinishLast passed ∧
        ∀ error, committed = false → ¬ (ModelStream.mk chunks ending).GivesWay eligible error) ∨
      ∃ error, forward eligible committed chunks ending =
          ((ModelStream.mk chunks ending).outputs, .failed error) ∧
        committed = false ∧ (ModelStream.mk chunks ending).GivesWay eligible error := by
  induction chunks generalizing committed with
  | nil =>
      cases ending with
      | exhausted =>
          refine Or.inl ⟨[], .exhausted, rfl, finishLast_quiet (List.forall_mem_nil _), ?_⟩
          rintro error _ ⟨_, code, message, failed, _⟩
          cases failed
      | cancelled =>
          refine Or.inl ⟨[], .cancelled, rfl, finishLast_quiet (List.forall_mem_nil _), ?_⟩
          rintro error _ ⟨_, code, message, failed, _⟩
          cases failed
      | raised raised =>
          unfold forward
          split
          · rename_i kept
            refine Or.inl ⟨[], .raised raised, rfl, finishLast_quiet (List.forall_mem_nil _), ?_⟩
            rintro error uncommitted ⟨_, code, message, failed, able⟩
            cases failed
            rw [uncommitted, able] at kept
            rcases kept with never | never <;> cases never
          · rename_i taken
            rw [not_or, Bool.not_eq_true, Bool.not_eq_false] at taken
            exact Or.inr ⟨errorReason raised, rfl, taken.1, List.forall_mem_nil _, _, _, rfl,
              taken.2⟩
  | cons chunk rest ih =>
      cases plain : chunk.isFinish with
      | true =>
          cases chunk with
          | finish reason =>
              rcases forward_finish eligible rest ending committed reason with
                ⟨went, stays⟩ | ⟨went, uncommitted, gives⟩
              · exact Or.inl ⟨_, _, went, finishLast_single reason, stays⟩
              · exact Or.inr ⟨reason, went, uncommitted, gives⟩
          | _ => cases plain
      | false =>
          rw [forward_cons eligible committed plain, ModelStream.outputs_cons plain]
          simp only [ModelStream.givesWay_cons plain]
          rcases ih (committed || commitsOutput chunk) with
            ⟨passed, final, went, last, stays⟩ | ⟨error, went, uncommitted, gives⟩
          · rw [went]
            refine Or.inl ⟨_, final, rfl, finishLast_cons plain last, ?_⟩
            rintro error uncommitted ⟨quiet, gives⟩
            exact stays error (by rw [uncommitted, quiet]; rfl) gives
          · rw [went]
            rw [Bool.or_eq_false_iff] at uncommitted
            exact Or.inr ⟨error, rfl, uncommitted.1, uncommitted.2, gives⟩

private theorem forwardBackup_spec (chunks : List StreamChunk) (ending : StreamEnd) :
    FinishLast (forwardBackup chunks ending).1 ∧
      ((forwardBackup chunks ending).2 ≠ .finished →
        ∀ chunk ∈ (forwardBackup chunks ending).1, chunk.isFinish = false) ∧
      ((forwardBackup chunks ending).2 = .finished → (ModelStream.mk chunks ending).Succeeds) ∧
      ((forwardBackup chunks ending).2 = .cancelled → ending = .cancelled) := by
  induction chunks with
  | nil =>
      cases ending <;>
        exact ⟨finishLast_quiet (List.forall_mem_nil _), fun _ => List.forall_mem_nil _, nofun,
          fun same => by first | rfl | cases same⟩
  | cons chunk rest ih =>
      obtain ⟨last, quiet, succeeds, cancelled⟩ := ih
      have later : (ModelStream.mk rest ending).Succeeds →
          (ModelStream.mk (chunk :: rest) ending).Succeeds := by
        rintro ⟨reason, member, kinds⟩
        exact ⟨reason, List.mem_cons_of_mem _ member, kinds⟩
      cases plain : chunk.isFinish with
      | true =>
          cases chunk with
          | finish reason =>
              unfold forwardBackup
              split
              · exact ⟨last, quiet, fun done => later (succeeds done), cancelled⟩
              · rename_i successful
                rw [not_or] at successful
                exact ⟨finishLast_single reason, fun never => absurd rfl never,
                  fun _ => ⟨reason, List.mem_cons_self, successful⟩, nofun⟩
          | _ => cases plain
      | false =>
          have passed : forwardBackup (chunk :: rest) ending =
              (chunk :: (forwardBackup rest ending).1, (forwardBackup rest ending).2) := by
            cases chunk with
            | finish reason => cases plain
            | _ => rfl
          rw [passed]
          refine ⟨finishLast_cons plain last, fun unfinished => ?_,
            fun done => later (succeeds done), cancelled⟩
          exact List.forall_mem_cons.mpr ⟨plain, quiet unfinished⟩

/-! ### The spliced stream -/

theorem SplicedStream.chunks_mk (yielded : List (Origin × StreamChunk)) (ending : StreamEnd) :
    (SplicedStream.mk yielded ending).chunks = yielded.map Prod.snd := rfl

private theorem unmarked (origin : Origin) (chunks : List StreamChunk) :
    (chunks.map (origin, ·)).map Prod.snd = chunks := by
  rw [List.map_map]
  exact List.map_id chunks

private theorem origin_of_mem {origin other : Origin} {chunk : StreamChunk}
    {chunks : List StreamChunk} (member : (origin, chunk) ∈ chunks.map (other, ·)) :
    origin = other ∧ chunk ∈ chunks := by
  obtain ⟨_, listed, same⟩ := List.mem_map.mp member
  cases same
  exact ⟨rfl, listed⟩

theorem ModelStream.outputs_quiet (stream : ModelStream) :
    ∀ chunk ∈ stream.outputs, chunk.isFinish = false := by
  intro chunk member
  simpa using List.mem_takeWhile_imp member

private theorem safe_final {payload : LlmStreamPayload} {config : FallbackConfig}
    {primary : ModelStream} {preparation : Preparation} {passed : List StreamChunk}
    (ending : StreamEnd) (last : FinishLast passed)
    (stays : ∀ error, ¬ Switches payload config primary error) :
    FallbackSafe payload config primary preparation ⟨passed.map (.primary, ·), ending⟩ where
  oneModel chunk other member _ := by cases (origin_of_mem member).1
  switches chunk member := by cases (origin_of_mem member).1
  finishLast := by
    rw [SplicedStream.chunks_mk, unmarked]
    exact last
  restored error switched _ := absurd switched (stays error)

private theorem safe_switched {payload : LlmStreamPayload} {config : FallbackConfig}
    {primary : ModelStream} {preparation : Preparation} {error : FinishReason}
    (switched : Switches payload config primary error) (taken : List StreamChunk)
    (restored : List (Origin × StreamChunk)) (ending : StreamEnd)
    (mine : restored = [] ∨ restored = [(.primary, .finish error)])
    (last : FinishLast (taken ++ restored.map Prod.snd))
    (fails : preparation.Fails →
      restored = [(.primary, .finish error)] ∧ ending = .exhausted) :
    FallbackSafe payload config primary preparation
      ⟨primary.outputs.map (.primary, ·) ++ (taken.map (.backup, ·) ++ restored), ending⟩ where
  oneModel chunk other _ member := by
    rcases List.mem_append.mp member with passed | later
    · exact switched.1 other (origin_of_mem passed).2
    · rcases List.mem_append.mp later with given | own
      · cases (origin_of_mem given).1
      · rcases mine with none | only
        · rw [none] at own
          cases own
        · rw [only] at own
          cases List.mem_singleton.mp own
          rfl
  switches _ _ := ⟨error, switched⟩
  finishLast := by
    rw [SplicedStream.chunks_mk, List.map_append, List.map_append, unmarked, unmarked]
    exact finishLast_append primary.outputs_quiet last
  restored other again failed := by
    obtain ⟨only, exhausted⟩ := fails failed
    have same : other = error := by
      obtain ⟨_, code, message, found, _⟩ := switched
      obtain ⟨_, code', message', found', _⟩ := again
      rw [found] at found'
      cases found'
      rfl
    rw [same]
    refine ⟨?_, exhausted⟩
    rw [only, ← List.append_assoc]
    exact List.getLast?_concat

/-- Whatever both models do, the splice keeps them apart. -/
theorem streamWithFallback_safe (payload : LlmStreamPayload) (config : FallbackConfig)
    (primary : ModelStream) (preparation : Preparation) :
    FallbackSafe payload config primary preparation
      (streamWithFallback payload config primary preparation) := by
  unfold streamWithFallback
  rcases forward_spec (canFallback payload config) primary.chunks primary.ending false with
    ⟨passed, ending, went, last, stays⟩ | ⟨error, went, _, switched⟩
  · rw [went]
    exact safe_final ending last fun error => stays error rfl
  · rw [went]
    have alone : FinishLast ([] ++ [StreamChunk.finish error]) := finishLast_single error
    cases preparation with
    | unavailable =>
        exact safe_switched switched [] [(.primary, .finish error)] .exhausted (Or.inr rfl) alone
          fun _ => ⟨rfl, rfl⟩
    | cancelled =>
        have safe := @safe_switched _ _ _ .cancelled _ switched [] [] .cancelled (Or.inl rfl)
          (finishLast_quiet (List.forall_mem_nil _)) fun never => False.elim never
        rw [List.map_nil, List.append_nil, List.append_nil] at safe
        exact safe
    | prepared stream =>
        obtain ⟨last, quiet, succeeds, cancelled⟩ :=
          forwardBackup_spec stream.chunks stream.ending
        dsimp only
        rcases taken : forwardBackup stream.chunks stream.ending with ⟨chunks, verdict⟩
        rw [taken] at last quiet succeeds cancelled
        cases verdict with
        | finished =>
            have safe := @safe_switched _ _ _ (.prepared stream) _ switched chunks []
              .exhausted (Or.inl rfl) (by rw [List.map_nil, List.append_nil]; exact last)
              fun failed => absurd (succeeds rfl) failed.1
            rw [List.append_nil] at safe
            exact safe
        | failed =>
            have safe := @safe_switched _ _ _ (.prepared stream) _ switched chunks
              [(.primary, .finish error)] .exhausted (Or.inr rfl)
              (finishLast_append (quiet nofun) (finishLast_single error)) fun _ => ⟨rfl, rfl⟩
            rw [← List.append_assoc] at safe
            exact safe
        | cancelled =>
            have safe := @safe_switched _ _ _ (.prepared stream) _ switched chunks []
              .cancelled (Or.inl rfl) (by rw [List.map_nil, List.append_nil]; exact last)
              fun failed => absurd (cancelled rfl) failed.2
            rw [List.append_nil] at safe
            exact safe

private def timedOut : FinishReason := ⟨.error, some ⟨"failed", "timeout"⟩, "", .empty⟩

private def lastAttempt : LlmStreamPayload := ⟨2, 2, false⟩

private def forTimeouts : FallbackConfig := ⟨"p", "m", ["timeout"], []⟩

private def brokenBackup : Preparation :=
  .prepared ⟨[.textDelta 0 "Hel"], .raised ⟨"reset", "network"⟩⟩

/-- An empty delta of the primary does not keep the backup away, and a backup
that breaks off leaves its partial text before the error of the primary. -/
theorem broken_backup_is_exposed :
    brokenBackup.Fails ∧
      (streamWithFallback lastAttempt forTimeouts
          ⟨[.textDelta 0 "", .finish timedOut], .exhausted⟩ brokenBackup).yielded =
        [(.primary, .textDelta 0 ""), (.backup, .textDelta 0 "Hel"),
          (.primary, .finish timedOut)] := by
  refine ⟨⟨?_, nofun⟩, by decide +kernel⟩
  rintro ⟨reason, member, _⟩
  cases List.mem_singleton.mp member

end Ftre.Llm
