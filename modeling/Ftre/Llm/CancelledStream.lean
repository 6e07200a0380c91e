import Ftre.Lib.StepSystem
import Ftre.Llm.Responses

/-!
One adapter over its calls of `stream`, with the two fields that `cancel` writes.
-/

namespace Ftre.Llm

open Lib

structure ProviderLoop (event state : Type) where
  initial : state
  hear : state → event → Except (List StreamChunk) state
  emitted : state → List StreamChunk
  conclude : state → List StreamChunk
  silent : emitted initial = []

def completionsLoop : ProviderLoop ChatChunk StreamState where
  initial := .initial
  hear state chunk := .ok (state.onChunk chunk)
  emitted := StreamState.emitted
  conclude := StreamState.conclude
  silent := rfl

def responsesLoop : ProviderLoop Responses.ResponseEvent Responses.StreamState where
  initial := .initial
  hear state event :=
    match state.onEvent event with
    | .ok next => .ok next
    | .error stopped =>
        .error (stopped.emitted ++ [StreamState.errorFinish Responses.StreamState.missingText])
  emitted := Responses.StreamState.emitted
  conclude := Responses.StreamState.conclude
  silent := rfl

/-- A stream that yielded its last chunk. -/
structure StreamRecord (event : Type) where
  heard : List event
  observed : Bool
  failure : Option LlmFailure
  before : List StreamChunk
  yielded : List StreamChunk

inductive StreamStage (event state : Type) where
  | idle
  /-- The request is awaited. -/
  | creating
  | looping (heard : List event) (position : state)
  /-- Behind the loop, up to the end of the `finally`. -/
  | leaving (record : StreamRecord event)

/-- `OpenAIAdapterBase`, with the streams it has ended. -/
structure Adapter (event state : Type) where
  stage : StreamStage event state := .idle
  /-- `_active_stream` is set. -/
  active : Bool := false
  /-- `_cancelled`. -/
  cancelled : Bool := false
  ended : List (StreamRecord event) := []

inductive AdapterAction (event : Type) where
  | stream
  | created
  | creationFails (failure : LlmFailure)
  | arrives (chunk : event)
  | exhausts
  | raises (failure : LlmFailure)
  /-- The `finally` of the stream. -/
  | ends
  /-- The generator is closed or its task cancelled; the `finally` runs. -/
  | closed
  | cancel

namespace Adapter

variable {event state : Type}

/-- `cancel`: nothing happens while no stream is active. -/
def cancel (adapter : Adapter event state) : Adapter event state :=
  if adapter.active then { adapter with cancelled := true, active := false } else adapter

/-- The `finally` of `stream`. -/
def release (adapter : Adapter event state) : Adapter event state :=
  { adapter with stage := .idle, active := false, cancelled := false }

def step (loop : ProviderLoop event state) (adapter : Adapter event state) :
    AdapterAction event → Option (Adapter event state)
  | .stream =>
      match adapter.stage with
      | .idle => some { adapter with stage := .creating }
      | _ => none
  | .created =>
      match adapter.stage with
      | .creating => some { adapter with stage := .looping [] loop.initial, active := true }
      | _ => none
  | .creationFails failure =>
      match adapter.stage with
      | .creating =>
          some { adapter with
            stage := .leaving ⟨[], false, some failure, [], [StreamState.errorFinish failure]⟩ }
      | _ => none
  | .arrives chunk =>
      match adapter.stage with
      | .looping heard position =>
          if adapter.cancelled then
            some { adapter with
              stage := .leaving
                ⟨heard, true, none, loop.emitted position, loop.conclude position⟩ }
          else
            match loop.hear position chunk with
            | .ok next => some { adapter with stage := .looping (heard ++ [chunk]) next }
            | .error chunks =>
                some { adapter with
                  stage := .leaving ⟨heard ++ [chunk], false, none, chunks, chunks⟩ }
      | _ => none
  | .exhausts =>
      match adapter.stage with
      | .looping heard position =>
          some { adapter with
            stage := .leaving
              ⟨heard, false, none, loop.emitted position, loop.conclude position⟩ }
      | _ => none
  | .raises failure =>
      match adapter.stage with
      | .looping heard position =>
          some { adapter with
            stage := .leaving ⟨heard, false, some failure, loop.emitted position,
              loop.emitted position ++ [StreamState.errorFinish failure]⟩ }
      | _ => none
  | .ends =>
      match adapter.stage with
      | .leaving record => some { adapter.release with ended := adapter.ended ++ [record] }
      | _ => none
  | .closed =>
      match adapter.stage with
      | .idle => none
      | _ => some adapter.release
  | .cancel => some adapter.cancel

def system (loop : ProviderLoop event state) : StepSystem (Adapter event state)
    (AdapterAction event) := ⟨step loop⟩

end Adapter

/-- What a cancelled stream owes to its consumer: its one finish says aborted,
and the calls it cuts off are not closed. -/
structure Aborts {event : Type} (record : StreamRecord event) : Prop where
  finish : ∃ reason, record.yielded.filter StreamChunk.isFinish = [.finish reason] ∧
    reason.kind = .aborted
  truncated : ∀ index id name arguments,
    .blockEnd index (some (.toolCall id name arguments)) ∉
      record.yielded.drop record.before.length

def Quiet (chunks : List StreamChunk) : Prop := ∀ chunk ∈ chunks, chunk.isFinish = false

def Finishes (chunks : List StreamChunk) : Prop :=
  ∃ initial reason, chunks = initial ++ [.finish reason] ∧ Quiet initial ∧ reason.kind ≠ .aborted

variable {chunks : List StreamChunk}

theorem quiet_concat {chunk : StreamChunk} (quiet : Quiet chunks) (plain : chunk.isFinish = false) :
    Quiet (chunks ++ [chunk]) := by
  intro other member
  rcases List.mem_append.mp member with earlier | last
  · exact quiet other earlier
  · rw [List.mem_singleton.mp last]
    exact plain

theorem quiet_append {initial later : List StreamChunk} (quiet : Quiet initial)
    (plain : Quiet later) : Quiet (initial ++ later) := by
  intro chunk member
  rcases List.mem_append.mp member with earlier | last
  · exact quiet chunk earlier
  · exact plain chunk last

theorem finishes_error (quiet : Quiet chunks) (failure : LlmFailure) :
    Finishes (chunks ++ [StreamState.errorFinish failure]) :=
  ⟨chunks, _, rfl, quiet, nofun⟩

theorem Finishes.filter (finishes : Finishes chunks) :
    ∃ reason, chunks.filter StreamChunk.isFinish = [.finish reason] ∧ reason.kind ≠ .aborted := by
  obtain ⟨initial, reason, rfl, quiet, kind⟩ := finishes
  refine ⟨reason, ?_, kind⟩
  rw [List.filter_append, List.filter_eq_nil_iff.mpr fun chunk member => by
    rw [quiet chunk member]
    exact Bool.false_ne_true]
  rfl

structure ProviderLoop.Ends {event state : Type} (loop : ProviderLoop event state) : Prop where
  heard : ∀ position chunk next, Quiet (loop.emitted position) →
    loop.hear position chunk = .ok next → Quiet (loop.emitted next)
  raised : ∀ position chunk chunks, Quiet (loop.emitted position) →
    loop.hear position chunk = .error chunks → Finishes chunks
  concluded : ∀ position, Quiet (loop.emitted position) → Finishes (loop.conclude position)

/-! ### Chat completions -/

namespace StreamState

variable {state : StreamState}

private theorem quiet_openReasoning (quiet : Quiet state.emitted) :
    Quiet state.openReasoning.emitted := by
  unfold openReasoning
  split
  · exact quiet
  · exact quiet_concat quiet rfl

private theorem quiet_onReasoning (quiet : Quiet state.emitted) (reasoning : String) :
    Quiet (state.onReasoning reasoning).emitted := by
  unfold onReasoning
  split
  · exact quiet
  · exact quiet_concat (quiet_openReasoning quiet) rfl

private theorem quiet_openText (quiet : Quiet state.emitted) : Quiet state.openText.emitted := by
  unfold openText
  split
  · exact quiet
  · exact quiet_concat quiet rfl

private theorem quiet_onContent (quiet : Quiet state.emitted) (content : String) :
    Quiet (state.onContent content).emitted := by
  unfold onContent
  split
  · exact quiet
  · exact quiet_concat (quiet_openText quiet) rfl

private theorem quiet_openTool (quiet : Quiet state.emitted) (wireIndex : Int) :
    Quiet (state.openTool wireIndex).emitted := by
  unfold openTool
  split
  · exact quiet
  · exact quiet_concat quiet rfl

private theorem quiet_onToolCall (quiet : Quiet state.emitted) (delta : ToolCallDelta) :
    Quiet (state.onToolCall delta).emitted := by
  unfold onToolCall
  split
  · exact quiet
  · rename_i accumulator event _
    have opened := @quiet_openTool { state with accumulator := accumulator } quiet event.wireIndex
    exact quiet_concat opened rfl

private theorem quiet_toolCalls (deltas : List ToolCallDelta) (quiet : Quiet state.emitted) :
    Quiet (deltas.foldl onToolCall state).emitted := by
  induction deltas generalizing state with
  | nil => exact quiet
  | cons delta rest ih => exact ih (quiet_onToolCall quiet delta)

theorem quiet_onChunk (quiet : Quiet state.emitted) (chunk : ChatChunk) :
    Quiet (state.onChunk chunk).emitted := by
  have recorded : Quiet ((state.onMetadata chunk).onUsage chunk).emitted := by
    unfold onUsage
    split
    · exact quiet
    · split <;> exact quiet
  unfold onChunk
  dsimp only
  split
  · exact recorded
  · rename_i choice _ _
    have called := quiet_toolCalls ((choice.delta.map ChoiceDelta.toolCalls).getD [])
      (quiet_onContent (quiet_onReasoning recorded
        ((choice.delta.bind ChoiceDelta.reasoningContent).getD ""))
        ((choice.delta.bind ChoiceDelta.content).getD ""))
    unfold onChoice onFinishReason
    dsimp only
    split <;> exact called

private theorem quiet_close (quiet : Quiet state.emitted) :
    Quiet state.closeReasoning.closeText.emitted := by
  have reasoned : Quiet state.closeReasoning.emitted := by
    unfold closeReasoning
    split
    · exact quiet
    · exact quiet_concat quiet rfl
  unfold closeText
  split
  · exact reasoned
  · exact quiet_concat reasoned rfl

private theorem quiet_closeTools (entries : List (Int × ToolEntry)) (quiet : Quiet state.emitted) :
    (∃ key stopped, state.closeTools entries = .error (key, stopped) ∧ Quiet stopped.emitted) ∨
      ∃ closed, state.closeTools entries = .ok closed ∧ Quiet closed.emitted := by
  induction entries generalizing state with
  | nil => exact Or.inr ⟨state, rfl, quiet⟩
  | cons head rest ih =>
      unfold closeTools
      split
      · exact ih quiet
      · split
        · exact Or.inl ⟨_, state, rfl, quiet⟩
        · exact ih (quiet_concat quiet rfl)

private theorem finishChunk_kind (state : StreamState) :
    ∃ reason, state.finishChunk = .finish reason ∧ reason.kind ≠ .aborted := by
  unfold finishChunk finishKind
  split
  · rename_i kind named
    refine ⟨_, rfl, ?_⟩
    split at named <;> cases named <;> nofun
  · split
    · exact ⟨_, rfl, nofun⟩
    · exact ⟨_, rfl, nofun⟩

theorem finishes_conclude (quiet : Quiet state.emitted) : Finishes state.conclude := by
  unfold conclude closeAll
  rcases quiet_closeTools state.accumulator.entries (quiet_close quiet) with
    ⟨key, stopped, raised, still⟩ | ⟨closed, ended, still⟩
  · simp only [raised]
    exact finishes_error still _
  · simp only [ended]
    obtain ⟨reason, finish, kind⟩ := state.finishChunk_kind
    refine ⟨closed.yieldUsage.emitted, reason, by rw [finish], ?_, kind⟩
    unfold yieldUsage
    split
    · exact still
    · exact quiet_concat still rfl

end StreamState

theorem completions_ends : completionsLoop.Ends where
  heard position chunk next quiet heard := by
    cases heard
    exact StreamState.quiet_onChunk quiet chunk
  raised position chunk chunks quiet raised := by cases raised
  concluded position quiet := StreamState.finishes_conclude quiet

/-! ### Responses -/

namespace Responses.StreamState

variable {state : StreamState}

private theorem quiet_place (quiet : Quiet state.emitted) (entry : ItemEntry) :
    Quiet (state.place entry).1.emitted := by
  unfold place
  split <;> exact quiet

private theorem quiet_start (quiet : Quiet state.emitted) (itemId : Option String)
    (kind : BlockType) : Quiet (state.start itemId kind).1.emitted := by
  have placed := quiet_place quiet (state.entryAt itemId kind)
  unfold start
  dsimp only
  split
  · exact placed
  · exact quiet_concat placed rfl

private theorem quiet_onProseDelta (quiet : Quiet state.emitted) (prose : Prose)
    (itemId : Option String) (delta : String) :
    (∃ stopped, state.onProseDelta prose itemId delta = .error stopped ∧ Quiet stopped.emitted) ∨
      ∃ next, state.onProseDelta prose itemId delta = .ok next ∧ Quiet next.emitted := by
  have started := quiet_start quiet itemId prose.blockType
  unfold onProseDelta
  split
  · exact Or.inr ⟨state, rfl, quiet⟩
  · dsimp only
    split
    · exact Or.inl ⟨_, rfl, started⟩
    · refine Or.inr ⟨_, rfl, quiet_concat started ?_⟩
      cases prose <;> rfl

private theorem quiet_onArgumentsDelta (quiet : Quiet state.emitted) (itemId : Option String)
    (delta : String) : Quiet (state.onArgumentsDelta itemId delta).emitted := by
  unfold onArgumentsDelta
  split
  · exact quiet
  · exact quiet_concat (quiet_start quiet itemId .toolCall) rfl

private theorem quiet_onItemDone (quiet : Quiet state.emitted) (item : ResponseItem) :
    Quiet (state.onItemDone item).emitted := by
  have kept : Quiet (state.keepOutputItem item).emitted := by
    unfold keepOutputItem
    split <;> exact quiet
  unfold onItemDone
  dsimp only
  split
  · split <;> exact quiet_concat (quiet_start kept item.id .toolCall) rfl
  · exact kept

theorem quiet_onEvent (quiet : Quiet state.emitted) (event : ResponseEvent) :
    (∃ stopped, state.onEvent event = .error stopped ∧ Quiet stopped.emitted) ∨
      ∃ next, state.onEvent event = .ok next ∧ Quiet next.emitted := by
  cases event with
  | proseDelta prose itemId delta => exact quiet_onProseDelta quiet prose itemId _
  | argumentsDelta itemId delta => exact Or.inr ⟨_, rfl, quiet_onArgumentsDelta quiet itemId _⟩
  | itemAdded item =>
      refine Or.inr ⟨_, rfl, ?_⟩
      unfold onItemAdded
      split <;> exact quiet
  | itemDone item => exact Or.inr ⟨_, rfl, quiet_onItemDone quiet item⟩
  | completed response => exact Or.inr ⟨_, rfl, quiet⟩
  | unhandled => exact Or.inr ⟨_, rfl, quiet⟩

private theorem finishReason_kind (state : StreamState) : state.finishReason.kind ≠ .aborted := by
  unfold finishReason finishKind?
  split
  · rename_i kind named
    split at named <;> cases named <;> nofun
  · nofun

theorem finishes_conclude (quiet : Quiet state.emitted) : Finishes state.conclude := by
  refine ⟨state.emitted ++ (state.lateEnds.map endChunk ++ state.yieldUsage), state.finishReason,
    ?_, quiet_append quiet (quiet_append ?_ ?_), state.finishReason_kind⟩
  · unfold conclude
    rw [List.append_assoc, List.append_assoc]
  · intro chunk member
    obtain ⟨_, _, rfl⟩ := List.mem_map.mp member
    rfl
  · intro chunk member
    unfold yieldUsage at member
    split at member
    · cases member
    · rw [List.mem_singleton.mp member]
      rfl

end Responses.StreamState

theorem responses_ends : responsesLoop.Ends where
  heard position chunk next quiet heard := by
    rcases Responses.StreamState.quiet_onEvent quiet chunk with
      ⟨stopped, raised, _⟩ | ⟨after, moved, still⟩
    · simp only [responsesLoop, raised, reduceCtorEq] at heard
    · simp only [responsesLoop, moved, Except.ok.injEq] at heard
      rw [← heard]
      exact still
  raised position chunk chunks quiet raised := by
    rcases Responses.StreamState.quiet_onEvent quiet chunk with
      ⟨stopped, stops, still⟩ | ⟨after, moved, _⟩
    · simp only [responsesLoop, stops, Except.error.injEq] at raised
      rw [← raised]
      exact finishes_error still _
    · simp only [responsesLoop, moved, reduceCtorEq] at raised
  concluded position quiet := Responses.StreamState.finishes_conclude quiet

/-! ### Runs of an adapter -/

namespace ProviderLoop

variable {event state : Type}

def hearAll (loop : ProviderLoop event state) (position : state) :
    List event → Except (List StreamChunk) state
  | [] => .ok position
  | chunk :: rest =>
      match loop.hear position chunk with
      | .error chunks => .error chunks
      | .ok next => loop.hearAll next rest

def outcome (loop : ProviderLoop event state) (heard : List event) (observed : Bool)
    (failure : Option LlmFailure) : List StreamChunk :=
  match loop.hearAll loop.initial heard with
  | .error chunks => chunks
  | .ok position =>
      match failure with
      | some raised =>
          if observed then loop.conclude position
          else loop.emitted position ++ [StreamState.errorFinish raised]
      | none => loop.conclude position

variable {loop : ProviderLoop event state}

theorem hearAll_concat (heard : List event) (chunk : event) {start position : state}
    (reached : loop.hearAll start heard = .ok position) :
    loop.hearAll start (heard ++ [chunk]) = loop.hear position chunk := by
  induction heard generalizing start with
  | nil =>
      cases reached
      simp only [List.nil_append, hearAll]
      split <;> simp_all only
  | cons first rest ih =>
      simp only [List.cons_append, hearAll] at reached ⊢
      cases moved : loop.hear start first with
      | error chunks =>
          rw [moved] at reached
          cases reached
      | ok next =>
          rw [moved] at reached
          exact ih reached

private theorem hearAll_ends (ends : loop.Ends) (heard : List event) {start : state}
    (quiet : Quiet (loop.emitted start)) :
    (∃ chunks, loop.hearAll start heard = .error chunks ∧ Finishes chunks) ∨
      ∃ position, loop.hearAll start heard = .ok position ∧ Quiet (loop.emitted position) := by
  induction heard generalizing start with
  | nil => exact Or.inr ⟨start, rfl, quiet⟩
  | cons first rest ih =>
      cases moved : loop.hear start first with
      | error chunks =>
          exact Or.inl ⟨chunks, by rw [hearAll, moved], ends.raised start first chunks quiet moved⟩
      | ok next =>
          rw [hearAll, moved]
          exact ih (ends.heard start first next quiet moved)

theorem outcome_finishes (ends : loop.Ends) (heard : List event) (observed : Bool)
    (failure : Option LlmFailure) : Finishes (loop.outcome heard observed failure) := by
  unfold outcome
  have initially : Quiet (loop.emitted loop.initial) := by
    rw [loop.silent]
    exact List.forall_mem_nil _
  rcases hearAll_ends ends heard initially with ⟨chunks, raised, finishes⟩ | ⟨position, went, quiet⟩
  · rw [raised]
    exact finishes
  · rw [went]
    dsimp only
    split
    · split
      · exact ends.concluded position quiet
      · exact finishes_error quiet _
    · exact ends.concluded position quiet

end ProviderLoop

namespace Adapter

variable {event state : Type} {loop : ProviderLoop event state}

def Played (loop : ProviderLoop event state) (record : StreamRecord event) : Prop :=
  record.yielded = loop.outcome record.heard record.observed record.failure

structure Sound (loop : ProviderLoop event state) (adapter : Adapter event state) : Prop where
  ended : ∀ record ∈ adapter.ended, Played loop record
  looping : ∀ heard position, adapter.stage = .looping heard position →
    loop.hearAll loop.initial heard = .ok position
  leaving : ∀ record, adapter.stage = .leaving record → Played loop record
  lowered : (adapter.stage = .idle ∨ adapter.stage = .creating) →
    adapter.active = false ∧ adapter.cancelled = false

variable {adapter : Adapter event state}

theorem Sound.leave (sound : Sound loop adapter) {record : StreamRecord event}
    (played : Played loop record) : Sound loop { adapter with stage := .leaving record } := by
  refine ⟨sound.ended, nofun, ?_, nofun⟩
  intro other stands
  cases stands
  exact played

theorem Sound.cancel (sound : Sound loop adapter) : Sound loop adapter.cancel := by
  unfold Adapter.cancel
  split
  · rename_i active
    refine ⟨sound.ended, sound.looping, sound.leaving, fun outside => ?_⟩
    rw [(sound.lowered outside).1] at active
    cases active
  · exact sound

theorem Sound.arrives {before after : Adapter event state} {chunk : event}
    (sound : Sound loop before) (stepped : before.step loop (.arrives chunk) = some after) :
    Sound loop after := by
  simp only [Adapter.step] at stepped
  split at stepped
  · rename_i heard position stands
    have went := sound.looping heard position stands
    have next := ProviderLoop.hearAll_concat heard chunk went
    split at stepped
    · cases stepped
      refine sound.leave ?_
      unfold Played ProviderLoop.outcome
      rw [went]
    · split at stepped
      · rename_i position' moved
        cases stepped
        refine ⟨sound.ended, ?_, nofun, nofun⟩
        intro _ _ stays
        cases stays
        exact next.trans moved
      · rename_i chunks raised
        cases stepped
        refine sound.leave ?_
        unfold Played ProviderLoop.outcome
        rw [next, raised]
  · cases stepped

theorem Sound.step {before after : Adapter event state} {action : AdapterAction event}
    (sound : Sound loop before) (stepped : before.step loop action = some after) :
    Sound loop after := by
  cases action with
  | stream =>
      simp only [Adapter.step] at stepped
      split at stepped
      · rename_i idle
        cases stepped
        exact ⟨sound.ended, nofun, nofun, fun _ => sound.lowered (Or.inl idle)⟩
      · cases stepped
  | created =>
      simp only [Adapter.step] at stepped
      split at stepped
      · cases stepped
        refine ⟨sound.ended, ?_, nofun, nofun⟩
        intro heard position stands
        cases stands
        rfl
      · cases stepped
  | creationFails failure =>
      simp only [Adapter.step] at stepped
      split at stepped
      · cases stepped
        refine sound.leave ?_
        unfold Played ProviderLoop.outcome ProviderLoop.hearAll
        dsimp only
        rw [if_neg Bool.false_ne_true, loop.silent, List.nil_append]
      · cases stepped
  | arrives chunk => exact sound.arrives stepped
  | exhausts =>
      simp only [Adapter.step] at stepped
      split at stepped
      · rename_i heard position stands
        cases stepped
        refine sound.leave ?_
        unfold Played ProviderLoop.outcome
        rw [sound.looping heard position stands]
      · cases stepped
  | raises failure =>
      simp only [Adapter.step] at stepped
      split at stepped
      · rename_i heard position stands
        cases stepped
        refine sound.leave ?_
        unfold Played ProviderLoop.outcome
        rw [sound.looping heard position stands]
        rfl
      · cases stepped
  | ends =>
      simp only [Adapter.step] at stepped
      split at stepped
      · rename_i record stands
        cases stepped
        refine ⟨fun other member => ?_, nofun, nofun, fun _ => ⟨rfl, rfl⟩⟩
        rcases List.mem_append.mp member with earlier | last
        · exact sound.ended other earlier
        · rw [List.mem_singleton.mp last]
          exact sound.leaving record stands
      · cases stepped
  | closed =>
      simp only [Adapter.step] at stepped
      split at stepped
      · cases stepped
      · cases stepped
        exact ⟨sound.ended, nofun, nofun, fun _ => ⟨rfl, rfl⟩⟩
  | cancel =>
      cases stepped
      exact sound.cancel

theorem sound_reached (reached : (system loop).Reaches StepSystem.anyStep {} adapter) :
    Sound loop adapter := by
  have initially : Sound loop {} :=
    ⟨List.forall_mem_nil _, nofun, nofun, fun _ => ⟨rfl, rfl⟩⟩
  exact reached.invariant initially fun _ _ _ sound _ stepped => sound.step stepped

/-! ### Cancellations that are met -/

/-- `cancel` was called while the loop was at work and had taken these chunks; the run went on from
there. -/
def CancelledAt (loop : ProviderLoop event state) (heard : List event)
    (adapter : Adapter event state) : Prop :=
  ∃ past position, (system loop).Reaches StepSystem.anyStep {} past ∧
    past.stage = .looping heard position ∧ past.cancelled = false ∧ past.cancel.cancelled = true ∧
    (system loop).Reaches StepSystem.anyStep past.cancel adapter

theorem CancelledAt.step {heard : List event} {before after : Adapter event state}
    {action : AdapterAction event} (cancelled : CancelledAt loop heard before)
    (stepped : before.step loop action = some after) : CancelledAt loop heard after := by
  obtain ⟨past, position, reached, stands, lowered, raised, later⟩ := cancelled
  exact ⟨past, position, reached, stands, lowered, raised,
    later.tail ⟨action, trivial, stepped⟩⟩

/-- The flag is raised in the loop of a stream only by a call of `cancel` in this loop, behind the
chunks it has taken. -/
structure Met (loop : ProviderLoop event state) (adapter : Adapter event state) : Prop where
  ended : ∀ record ∈ adapter.ended, record.observed = true →
    CancelledAt loop record.heard adapter
  leaving : ∀ record, adapter.stage = .leaving record → record.observed = true →
    CancelledAt loop record.heard adapter
  looping : ∀ heard position, adapter.stage = .looping heard position →
    adapter.cancelled = true → CancelledAt loop heard adapter

theorem Met.leave {after : Adapter event state} {action : AdapterAction event}
    (met : Met loop adapter) (stepped : adapter.step loop action = some after)
    (ended : after.ended = adapter.ended) {record : StreamRecord event}
    (stands : after.stage = .leaving record)
    (own : record.observed = true → CancelledAt loop record.heard adapter) : Met loop after := by
  constructor
  · intro other member observed
    rw [ended] at member
    exact (met.ended other member observed).step stepped
  · intro other stays observed
    rw [stands] at stays
    cases stays
    exact (own observed).step stepped
  · intro heard position stays
    rw [stands] at stays
    cases stays

theorem Met.lower {after : Adapter event state} {action : AdapterAction event}
    (met : Met loop adapter) (stepped : adapter.step loop action = some after)
    (ended : ∀ record ∈ after.ended, record ∈ adapter.ended ∨ adapter.stage = .leaving record)
    (stays : ∀ record, after.stage ≠ .leaving record)
    (lowered : (∃ heard position, after.stage = .looping heard position) →
      after.cancelled = false) : Met loop after := by
  constructor
  · intro record member observed
    rcases ended record member with earlier | last
    · exact (met.ended record earlier observed).step stepped
    · exact (met.leaving record last observed).step stepped
  · exact fun record stands => absurd stands (stays record)
  · intro heard position stands raised
    rw [lowered ⟨heard, position, stands⟩] at raised
    cases raised

theorem Met.arrives {after : Adapter event state} {chunk : event} (met : Met loop adapter)
    (stepped : adapter.step loop (.arrives chunk) = some after) : Met loop after := by
  have moved := stepped
  simp only [Adapter.step] at moved
  split at moved
  · rename_i heard position stands
    split at moved
    · rename_i raised
      cases moved
      exact met.leave stepped rfl rfl fun _ => met.looping heard position stands raised
    · rename_i lowered
      split at moved
      · cases moved
        exact met.lower stepped (fun _ => Or.inl) nofun fun _ => Bool.not_eq_true _ ▸ lowered
      · cases moved
        exact met.leave stepped rfl rfl fun impossible => absurd impossible Bool.false_ne_true
  · cases moved

theorem Met.cancel (met : Met loop adapter)
    (reached : (system loop).Reaches StepSystem.anyStep {} adapter) :
    Met loop adapter.cancel := by
  have stepped : adapter.step loop .cancel = some adapter.cancel := rfl
  by_cases active : adapter.active = true
  · have same : adapter.cancel = { adapter with cancelled := true, active := false } :=
      if_pos active
    constructor
    · intro record member observed
      rw [same] at member
      exact (met.ended record member observed).step stepped
    · intro record stands observed
      rw [same] at stands
      exact (met.leaving record stands observed).step stepped
    · intro heard position stands raised
      rw [same] at stands
      cases earlier : adapter.cancelled with
      | true => exact (met.looping heard position stands earlier).step stepped
      | false =>
          exact ⟨adapter, position, reached, stands, earlier, raised, Relation.ReflTransGen.refl⟩
  · have same : adapter.cancel = adapter := if_neg active
    rw [same]
    exact met

theorem Met.step {after : Adapter event state} {action : AdapterAction event}
    (met : Met loop adapter) (sound : Sound loop adapter)
    (reached : (system loop).Reaches StepSystem.anyStep {} adapter)
    (stepped : adapter.step loop action = some after) : Met loop after := by
  have moved := stepped
  cases action with
  | arrives chunk => exact met.arrives stepped
  | cancel =>
      cases moved
      exact met.cancel reached
  | stream =>
      simp only [Adapter.step] at moved
      split at moved <;> cases moved
      exact met.lower stepped (fun _ => Or.inl) nofun nofun
  | created =>
      simp only [Adapter.step] at moved
      split at moved
      · rename_i creating
        cases moved
        exact met.lower stepped (fun _ => Or.inl) nofun fun _ =>
          (sound.lowered (Or.inr creating)).2
      · cases moved
  | creationFails failure | exhausts | raises failure =>
      simp only [Adapter.step] at moved
      split at moved <;> cases moved
      exact met.leave stepped rfl rfl fun impossible => absurd impossible Bool.false_ne_true
  | ends =>
      simp only [Adapter.step] at moved
      split at moved
      · rename_i record stands
        cases moved
        refine met.lower stepped (fun other member => ?_) nofun nofun
        rcases List.mem_append.mp member with earlier | last
        · exact Or.inl earlier
        · rw [List.mem_singleton.mp last]
          exact Or.inr stands
      · cases moved
  | closed =>
      simp only [Adapter.step] at moved
      split at moved
      · cases moved
      · cases moved
        exact met.lower stepped (fun _ => Or.inl) nofun nofun

theorem met_reached (reached : (system loop).Reaches StepSystem.anyStep {} adapter) :
    Met loop adapter := by
  induction reached with
  | refl => exact ⟨List.forall_mem_nil _, nofun, nofun⟩
  | tail before last ih =>
      obtain ⟨action, _, stepped⟩ := last
      exact ih.step (sound_reached before) before stepped

end Adapter

/-! ### The loops are the adapters -/

private theorem consume_uncancelled (heard : List ChatChunk) (rest : List Arrival)
    (state : StreamState) :
    state.consume (heard.map (⟨false, ·⟩) ++ rest) =
      (heard.foldl StreamState.onChunk state).consume rest := by
  induction heard generalizing state with
  | nil => rfl
  | cons chunk later ih => exact ih (state.onChunk chunk)

private theorem completions_hearAll (heard : List ChatChunk) (state : StreamState) :
    completionsLoop.hearAll state heard = .ok (heard.foldl StreamState.onChunk state) := by
  induction heard generalizing state with
  | nil => rfl
  | cons chunk later ih => exact ih (state.onChunk chunk)

private theorem uncancelled {event : Type} (heard : List event) (arrival : event → Arrival)
    (plain : ∀ chunk, (arrival chunk).cancelled = false) :
    (heard.map arrival).any Arrival.cancelled = false := by
  rw [List.any_eq_false]
  intro made member
  obtain ⟨chunk, _, rfl⟩ := List.mem_map.mp member
  rw [plain chunk]
  exact Bool.false_ne_true

theorem completions_outcome (heard : List ChatChunk) (failure : Option LlmFailure)
    (unheard : ChatChunk) :
    completionsLoop.outcome heard false failure = stream (heard.map (⟨false, ·⟩)) failure ∧
      completionsLoop.outcome heard true failure =
        stream (heard.map (⟨false, ·⟩) ++ [⟨true, unheard⟩]) failure := by
  have whole := consume_uncancelled heard [] .initial
  have cut := consume_uncancelled heard [⟨true, unheard⟩] .initial
  rw [List.append_nil] at whole
  unfold ProviderLoop.outcome stream
  constructor
  · rw [completions_hearAll, whole, uncancelled heard _ fun _ => rfl]
    cases failure <;> rfl
  · rw [completions_hearAll, cut, List.any_append, uncancelled heard _ fun _ => rfl]
    cases failure <;> rfl

private theorem responses_hearAll (heard : List Responses.ResponseEvent)
    (state : Responses.StreamState) :
    (∃ stopped, state.consume heard = .error stopped ∧ responsesLoop.hearAll state heard =
      .error (stopped.emitted ++ [StreamState.errorFinish Responses.StreamState.missingText])) ∨
      ∃ final, state.consume heard = .ok final ∧ responsesLoop.hearAll state heard = .ok final := by
  induction heard generalizing state with
  | nil => exact Or.inr ⟨state, rfl, rfl⟩
  | cons event later ih =>
      unfold ProviderLoop.hearAll Responses.StreamState.consume
      cases moved : state.onEvent event with
      | ok next =>
          have heard : responsesLoop.hear state event = .ok next := by
            simp only [responsesLoop, moved]
          rw [heard]
          exact ih next
      | error stopped =>
          have heard : responsesLoop.hear state event = .error (stopped.emitted ++
              [StreamState.errorFinish Responses.StreamState.missingText]) := by
            simp only [responsesLoop, moved]
          rw [heard]
          exact Or.inl ⟨stopped, rfl, rfl⟩

theorem responses_outcome (heard : List Responses.ResponseEvent) (failure : Option LlmFailure)
    (unheard : Responses.ResponseEvent) :
    responsesLoop.outcome heard false failure =
        Responses.stream (heard.map (⟨false, ·⟩)) failure ∧
      responsesLoop.outcome heard true failure =
        Responses.stream (heard.map (⟨false, ·⟩) ++ [⟨true, unheard⟩]) failure := by
  have plain : ∀ events : List Responses.ResponseEvent,
      Responses.heard (events.map (⟨false, ·⟩)) = events ∧
        Responses.heard (events.map (⟨false, ·⟩) ++ [⟨true, unheard⟩]) = events ∧
          (events.map (Responses.Arrival.mk false)).any Responses.Arrival.cancelled = false := by
    intro events
    induction events with
    | nil => exact ⟨rfl, rfl, rfl⟩
    | cons event later ih =>
        exact ⟨congrArg (event :: ·) ih.1, congrArg (event :: ·) ih.2.1, ih.2.2⟩
  obtain ⟨whole, cut, quiet⟩ := plain heard
  unfold ProviderLoop.outcome Responses.stream
  rw [show responsesLoop.initial = Responses.StreamState.initial from rfl]
  constructor
  · rw [whole]
    rcases responses_hearAll heard .initial with ⟨stopped, raised, same⟩ | ⟨final, went, same⟩
    · rw [raised, same]
    · rw [went, same]
      cases failure with
      | none => rfl
      | some raised =>
          dsimp only
          rw [quiet]
          rfl
  · rw [cut]
    rcases responses_hearAll heard .initial with ⟨stopped, raised, same⟩ | ⟨final, went, same⟩
    · rw [raised, same]
    · rw [went, same]
      cases failure with
      | none => rfl
      | some raised =>
          dsimp only
          rw [List.any_append, quiet]
          rfl

/-! ### Cancelled streams -/

theorem unaborted_of_played {event state : Type} {loop : ProviderLoop event state}
    (ends : loop.Ends) {record : StreamRecord event} (played : Adapter.Played loop record) :
    ¬ Aborts record := by
  intro aborts
  obtain ⟨said, only, aborted⟩ := aborts.finish
  have finishes := ProviderLoop.outcome_finishes ends record.heard record.observed record.failure
  rw [← played] at finishes
  obtain ⟨reason, unique, kind⟩ := finishes.filter
  rw [unique] at only
  cases only
  exact kind aborted

/-- A stream whose loop meets the cancellation never ends as aborted, in no run
of either adapter; the flag is down again when the next stream starts. -/
theorem cancelled_streams_never_abort
    {completions : Adapter ChatChunk StreamState}
    {responses : Adapter Responses.ResponseEvent Responses.StreamState}
    (ranCompletions : (Adapter.system completionsLoop).Reaches StepSystem.anyStep {} completions)
    (ranResponses : (Adapter.system responsesLoop).Reaches StepSystem.anyStep {} responses) :
    ((∀ record ∈ completions.ended, record.observed = true → ¬ Aborts record) ∧
        (completions.stage = .creating → completions.cancelled = false)) ∧
      (∀ record ∈ responses.ended, record.observed = true → ¬ Aborts record) ∧
        (responses.stage = .creating → responses.cancelled = false) := by
  have played := Adapter.sound_reached ranCompletions
  have told := Adapter.sound_reached ranResponses
  exact ⟨⟨fun record member _ => unaborted_of_played completions_ends (played.ended record member),
      fun creating => (played.lowered (Or.inr creating)).2⟩,
    fun record member _ => unaborted_of_played responses_ends (told.ended record member),
    fun creating => (told.lowered (Or.inr creating)).2⟩

private def fragment : ChatChunk where
  metadata := []
  usage := none
  choices := [⟨some ⟨none, none, [⟨some 0, some "call-1", some ⟨some "shell", some "[1"⟩⟩]⟩, none⟩]

private def cutOff : List (AdapterAction ChatChunk) :=
  [.stream, .created, .arrives fragment, .cancel, .arrives fragment, .ends]

/-- The call that the cancellation cuts off is closed with what came of its
arguments, and the stream stops as if it were complete. -/
theorem cancelled_call_is_closed :
    ∃ adapter, (Adapter.system completionsLoop).Reaches StepSystem.anyStep {} adapter ∧
      ∃ record ∈ adapter.ended, record.observed = true ∧
        record.yielded.drop record.before.length =
          [.blockEnd 0 (some (.toolCall "call-1" "shell" "[1")),
            .finish ⟨.stop, none, "unknown", .empty⟩] ∧ ¬ Aborts record := by
  have ran : ∃ adapter record, (Adapter.system completionsLoop).run {} cutOff = some adapter ∧
      adapter.ended = [record] ∧ record.observed = true ∧
        record.yielded.drop record.before.length =
          [.blockEnd 0 (some (.toolCall "call-1" "shell" "[1")),
            .finish ⟨.stop, none, "unknown", .empty⟩] := ⟨_, _, rfl, rfl, rfl, rfl⟩
  obtain ⟨adapter, record, ran, ended, observed, tail⟩ := ran
  refine ⟨adapter, StepSystem.reaches_of_run ran, record, ?_, observed, tail, fun aborts => ?_⟩
  · rw [ended]
    exact List.mem_singleton_self record
  · refine aborts.truncated 0 "call-1" "shell" "[1" ?_
    rw [tail]
    exact List.mem_cons_self

/-- The run of a cancelled stream of each adapter. -/
theorem cancelled_stream_says_stop :
    ∃ completions responses,
      (Adapter.system completionsLoop).Reaches StepSystem.anyStep {} completions ∧
      (Adapter.system responsesLoop).Reaches StepSystem.anyStep {} responses ∧
      (∃ record ∈ completions.ended, record.observed = true ∧ ¬ Aborts record) ∧
      ∃ record ∈ responses.ended, record.observed = true ∧ ¬ Aborts record := by
  have ranCompletions : ∃ adapter record, (Adapter.system completionsLoop).run {} cutOff =
      some adapter ∧ adapter.ended = [record] ∧ record.observed = true := ⟨_, _, rfl, rfl, rfl⟩
  have ranResponses : ∃ adapter record, (Adapter.system responsesLoop).run {}
      [.stream, .created, .arrives (.proseDelta .text none (some "Hel")), .cancel,
        .arrives .unhandled, .ends] = some adapter ∧
      adapter.ended = [record] ∧ record.observed = true := ⟨_, _, rfl, rfl, rfl⟩
  obtain ⟨completions, played, ranCompletions, endedPlayed, observedPlayed⟩ := ranCompletions
  obtain ⟨responses, told, ranResponses, endedTold, observedTold⟩ := ranResponses
  have reachedCompletions := StepSystem.reaches_of_run ranCompletions
  have reachedResponses := StepSystem.reaches_of_run ranResponses
  have memberPlayed : played ∈ completions.ended := by
    rw [endedPlayed]
    exact List.mem_singleton_self played
  have memberTold : told ∈ responses.ended := by
    rw [endedTold]
    exact List.mem_singleton_self told
  have never := cancelled_streams_never_abort reachedCompletions reachedResponses
  exact ⟨completions, responses, reachedCompletions, reachedResponses,
    ⟨played, memberPlayed, observedPlayed, never.1.1 played memberPlayed observedPlayed⟩,
    told, memberTold, observedTold, never.2.1 told memberTold observedTold⟩

/-- Each stream that ended is the stream of what it heard, with one more chunk where it met the
cancellation; it meets only a call of `cancel` made while its own loop had heard so much. -/
theorem ended_streams_replay {completions : Adapter ChatChunk StreamState}
    {responses : Adapter Responses.ResponseEvent Responses.StreamState}
    (ranCompletions : (Adapter.system completionsLoop).Reaches StepSystem.anyStep {} completions)
    (ranResponses : (Adapter.system responsesLoop).Reaches StepSystem.anyStep {} responses) :
    (∀ record ∈ completions.ended, ∀ unheard, record.yielded =
        stream (record.heard.map (⟨false, ·⟩) ++ if record.observed then [⟨true, unheard⟩] else [])
          record.failure) ∧
      (∀ record ∈ responses.ended, ∀ unheard, record.yielded =
        Responses.stream (record.heard.map (⟨false, ·⟩) ++
          if record.observed then [⟨true, unheard⟩] else []) record.failure) ∧
      (∀ record ∈ completions.ended, record.observed = true →
        Adapter.CancelledAt completionsLoop record.heard completions) ∧
      ∀ record ∈ responses.ended, record.observed = true →
        Adapter.CancelledAt responsesLoop record.heard responses := by
  refine ⟨?_, ?_, (Adapter.met_reached ranCompletions).ended,
    (Adapter.met_reached ranResponses).ended⟩
  · intro record member unheard
    have outcome := completions_outcome record.heard record.failure unheard
    rw [(Adapter.sound_reached ranCompletions).ended record member]
    cases record.observed with
    | false => simpa using outcome.1
    | true => exact outcome.2
  · intro record member unheard
    have outcome := responses_outcome record.heard record.failure unheard
    rw [(Adapter.sound_reached ranResponses).ended record member]
    cases record.observed with
    | false => simpa using outcome.1
    | true => exact outcome.2

/-- The stream that was cancelled behind its first chunk. -/
theorem cut_stream_replays :
    ∃ record : StreamRecord ChatChunk, record.observed = true ∧
      record.yielded = stream [⟨false, fragment⟩, ⟨true, fragment⟩] none := by
  have ran : (Adapter.system completionsLoop).run {} cutOff = some _ := rfl
  have replayed := ended_streams_replay (StepSystem.reaches_of_run ran) Relation.ReflTransGen.refl
  exact ⟨_, rfl, replayed.1 _ List.mem_cons_self fragment⟩

end Ftre.Llm
