import Ftre.Session.FoldFacts

/-!
Folding a tail on its own and merging it over the folded prefix, compared with folding the whole
sequence.
-/

namespace Ftre.Session

open Lib Message

namespace FoldState

def ownTarget (start live : FoldState) (event : Event) : Bool :=
  match event.target with
  | none => true
  | some id => (live.messages.find? id).isSome || (start.messages.find? id).isNone

def ownCall (start live : FoldState) (toolCallId : String) : Bool :=
  (live.toolCalls.find? toolCallId).isSome || (start.toolCalls.find? toolCallId).isNone

def settledCall (start live : FoldState) (toolCallId : String) : Bool :=
  match (start.toolCalls.find? toolCallId).bind (start.messages.merge live.messages).find? with
  | none => false
  | some message =>
      ((message.findToolResult toolCallId).bind ToolResultBlock.finishedAt).isSome

def ownBoundary (start live : FoldState) : Bool :=
  decide (sealTarget (start.messages.merge live.messages).items = sealTarget live.messages.items)

def ownTurn (start live : FoldState) (event : Event) : Bool :=
  match event.target with
  | none => true
  | some id =>
      (live.messages.find? id).isSome ||
        match start.messages.find? id with
        | none => true
        | some message => decide (message.role ≠ .assistant)

end FoldState

open FoldState

def detached (start live : FoldState) (event : Event) : Bool :=
  match event.data with
  | .userMessage _ _ _ => ownBoundary start live
  | .compactMessage _ => ownBoundary start live
  | .hintMessage _ _ => ownTarget start live event
  | .toolCallStart _ _ _ => ownTarget start live event
  | .toolResultStart toolCallId _ => decide (toolCallId = "") || ownCall start live toolCallId
  | .toolResult toolCallId _ _ _ _ => ownCall start live toolCallId
  | .assistantChunk kind _ _ toolCallId =>
      if kind = "text" ∨ kind = "thinking" then ownTarget start live event
      else if kind = "tool_result_text" then
        decide (toolCallId.getD "" = "") || ownCall start live (toolCallId.getD "") ||
          settledCall start live (toolCallId.getD "")
      else true
  | .turnEnd _ => ownTurn start live event
  | _ => true

/-- Every event of the tail is detached where it stands. -/
def detachedRun (start : FoldState) : FoldState → List Event → Bool
  | _, [] => true
  | live, event :: rest =>
      detached start live event && detachedRun start (applyEvent live event) rest

/-! ### The simulation -/

structure Resumes (start full live : FoldState) : Prop where
  messages : full.messages = start.messages.merge live.messages
  calls : ∀ id, full.toolCalls.find? id =
    (live.toolCalls.find? id).or (start.toolCalls.find? id)

namespace Resumes

variable {start full live : FoldState}

theorem refl (start : FoldState) : Resumes start start .empty where
  messages := rfl
  calls := fun _ => rfl

theorem find? (resumes : Resumes start full live) (id : String) :
    full.messages.find? id = (live.messages.find? id).or (start.messages.find? id) := by
  rw [resumes.messages, KeyedList.find?_merge]

theorem update (resumes : Resumes start full live) (message : Msg) :
    Resumes start (full.update message) (live.update message) where
  messages := by
    change full.messages.put message = start.messages.merge (live.messages.put message)
    rw [KeyedList.merge_put, resumes.messages]
  calls := resumes.calls

theorem insert (resumes : Resumes start full live) (message : Msg) :
    Resumes start (full.insert message) (live.insert message) where
  messages := by
    change full.messages.put message = start.messages.merge (live.messages.put message)
    rw [KeyedList.merge_put, resumes.messages]
  calls := by
    intro id
    rw [find?_insert, find?_insert]
    by_cases listed : id ∈ message.toolCallIds
    · rw [if_pos listed, if_pos listed]
      rfl
    · rw [if_neg listed, if_neg listed]
      exact resumes.calls id

theorem sealPrevious (resumes : Resumes start full live) (event : Event)
    (own : ownBoundary start live = true) :
    Resumes start (full.sealPreviousAssistant event) (live.sealPreviousAssistant event) := by
  have same : sealTarget full.messages.items = sealTarget live.messages.items := by
    rw [resumes.messages]
    exact of_decide_eq_true own
  unfold sealPreviousAssistant
  rw [same]
  cases sealTarget live.messages.items with
  | none => exact resumes
  | some message => exact resumes.update _

theorem ensureAssistant (resumes : Resumes start full live) (event : Event) {id : String}
    (own : (live.messages.find? id).isSome ∨ start.messages.find? id = none) :
    full.ensureAssistant id event = live.ensureAssistant id event := by
  unfold FoldState.ensureAssistant
  rw [resumes.find?]
  rcases own with present | absent
  · obtain ⟨message, found⟩ := Option.isSome_iff_exists.mp present
    rw [found, Option.some_or]
  · rw [absent, Option.or_none]

theorem toolOwner (resumes : Resumes start full live) (fullIndexed : Indexed full)
    (liveIndexed : Indexed live) {toolCallId : String} (own : ownCall start live toolCallId = true) :
    full.toolOwner toolCallId = live.toolOwner toolCallId := by
  rw [toolOwner_eq fullIndexed, toolOwner_eq liveIndexed, resumes.calls]
  unfold ownCall at own
  cases found : live.toolCalls.find? toolCallId with
  | some owner =>
      obtain ⟨message, held⟩ := Option.isSome_iff_exists.mp (liveIndexed.owned _ _ found)
      rw [Option.some_or, Option.bind_some, Option.bind_some, resumes.find?, held, Option.some_or]
  | none =>
      rw [found, Option.isSome_none, Bool.false_or, Option.isNone_iff_eq_none] at own
      rw [own]
      rfl

end Resumes

variable {event : Event} {start full live : FoldState}

private theorem ownTarget_cases {start live : FoldState} {id : String}
    (own : ownTarget start live event = true) (target : event.target = some id) :
    (live.messages.find? id).isSome ∨ start.messages.find? id = none := by
  unfold ownTarget at own
  rw [target] at own
  simpa using own

private theorem update_present {state : FoldState} {message : Msg}
    (present : state.messages.find? message.id = some message) : state.update message = state := by
  have same : state.messages.put message = state.messages := by
    apply KeyedList.ext_find?
    · rw [KeyedList.keys_put, if_pos]
      rw [← KeyedList.find?_isSome, present]
      rfl
    · intro wanted
      rw [KeyedList.find?_put]
      split
      · rename_i hit
        rw [← hit, present]
      · rfl
  unfold FoldState.update
  rw [same]

private theorem appendToolResultDelta_settled (event : Event) (toolCallId delta : String)
    (message : Msg)
    (settled : ((message.findToolResult toolCallId).bind ToolResultBlock.finishedAt).isSome) :
    appendToolResultDelta event toolCallId delta message = message := by
  obtain ⟨finishedAt, finished⟩ := Option.isSome_iff_exists.mp settled
  have ensured : ∀ name createdAt,
      ensureRunningToolResult toolCallId name createdAt message = message := by
    intro name createdAt
    unfold ensureRunningToolResult
    cases found : message.findToolResult toolCallId with
    | none => rw [found] at finished; cases finished
    | some _ => rfl
  unfold appendToolResultDelta
  simp only [ensured, finished]

private theorem resultChunk_resumes {start full live : FoldState}
    (resumes : Resumes start full live) (fullIndexed : Indexed full) (liveIndexed : Indexed live)
    (event : Event) (toolCallId delta : String)
    (own : (decide (toolCallId = "") || ownCall start live toolCallId ||
      settledCall start live toolCallId) = true) :
    Resumes start (full.appendToolResultChunk event toolCallId delta)
      (live.appendToolResultChunk event toolCallId delta) := by
  unfold appendToolResultChunk
  by_cases blank : toolCallId = ""
  · rw [if_pos blank, if_pos blank]
    exact resumes
  rw [if_neg blank, if_neg blank]
  cases owned : ownCall start live toolCallId with
  | true =>
      rw [resumes.toolOwner fullIndexed liveIndexed owned]
      cases live.toolOwner toolCallId with
      | none => exact resumes
      | some message => exact resumes.update _
  | false =>
      -- Only the prefix knows the call: the whole fold finds it finished, the tail finds nothing.
      have settled : settledCall start live toolCallId = true := by
        simpa [blank, owned] using own
      obtain ⟨liveNone, _⟩ : live.toolCalls.find? toolCallId = none ∧
          (start.toolCalls.find? toolCallId).isSome := by
        simpa [ownCall, Option.isSome_iff_ne_none] using owned
      have nobody : live.toolOwner toolCallId = none := by
        rw [toolOwner_eq liveIndexed, liveNone]
        rfl
      have fullOwner : full.toolOwner toolCallId =
          (start.toolCalls.find? toolCallId).bind
            (start.messages.merge live.messages).find? := by
        rw [toolOwner_eq fullIndexed, resumes.calls, liveNone, Option.none_or, resumes.messages]
      rw [nobody, fullOwner]
      unfold settledCall at settled
      cases held : (start.toolCalls.find? toolCallId).bind
          (start.messages.merge live.messages).find? with
      | none => exact resumes
      | some message =>
          rw [held] at settled
          simp only [appendToolResultDelta_settled event toolCallId delta message settled]
          have present : full.messages.find? message.id = some message := by
            obtain ⟨owner, _, found⟩ := Option.bind_eq_some_iff.mp held
            rw [resumes.messages, (KeyedList.find?_mem found).2]
            exact found
          rw [update_present present]
          exact resumes

private theorem toolCall_resumes (resumes : Resumes start full live) (event : Event)
    (toolCallId name : String) (arguments : KeyedTable String Json)
    (own : ownTarget start live event = true) :
    Resumes start (full.startToolCall event toolCallId name arguments)
      (live.startToolCall event toolCallId name arguments) := by
  unfold startToolCall
  cases target : event.target with
  | none => exact resumes
  | some id =>
      simp only [resumes.ensureAssistant event (ownTarget_cases own target)]
      cases (live.ensureAssistant id event).findToolCall toolCallId with
      | some _ => exact resumes.update _
      | none =>
          constructor
          · change full.messages.put _ = start.messages.merge (live.messages.put _)
            rw [KeyedList.merge_put, resumes.messages]
          · intro call
            change (full.toolCalls.set toolCallId id).find? call =
              ((live.toolCalls.set toolCallId id).find? call).or _
            rw [KeyedTable.find?_set, KeyedTable.find?_set]
            split
            · rfl
            · exact resumes.calls call

private theorem turnEnd_resumes (resumes : Resumes start full live) (event : Event)
    (data : TurnEndData) (own : ownTurn start live event = true) :
    Resumes start (full.finishTurn event data) (live.finishTurn event data) := by
  unfold finishTurn
  cases target : event.target with
  | none => exact resumes
  | some id =>
      simp only [ownTurn, target] at own
      simp only [Option.bind_some, resumes.find?]
      cases found : live.messages.find? id with
      | some message =>
          rw [Option.some_or]
          by_cases assistant : message.role = .assistant
          · simp only [if_pos assistant]
            exact resumes.update _
          · simp only [if_neg assistant]
            exact resumes
      | none =>
          rw [found] at own
          rw [Option.none_or]
          cases older : start.messages.find? id with
          | none => exact resumes
          | some message =>
              have other : message.role ≠ .assistant := by
                simpa [older] using own
              simp only [if_neg other]
              exact resumes

theorem applyEvent_resumes (resumes : Resumes start full live) (fullIndexed : Indexed full)
    (liveIndexed : Indexed live) (event : Event) (own : detached start live event = true) :
    Resumes start (applyEvent full event) (applyEvent live event) := by
  unfold detached at own
  unfold applyEvent
  cases data : event.data with
  | userMessage content metadata _ =>
      simp only [data] at own
      exact (resumes.sealPrevious event own).insert _
  | compactMessage compact =>
      simp only [data] at own
      exact (resumes.sealPrevious event own).insert _
  | assistantMessage payload => exact resumes.insert _
  | hintMessage hint source =>
      simp only [data] at own
      simp only [appendHint]
      cases target : event.target with
      | none => exact resumes
      | some id =>
          simp only [resumes.ensureAssistant event (ownTarget_cases own target)]
          exact resumes.update _
  | toolCallStart toolCallId name arguments =>
      simp only [data] at own
      exact toolCall_resumes resumes event toolCallId name arguments own
  | toolResultStart toolCallId name =>
      simp only [data] at own
      simp only [startToolResult]
      by_cases blank : toolCallId = ""
      · rw [if_pos blank, if_pos blank]
        exact resumes
      · rw [if_neg blank, if_neg blank,
          resumes.toolOwner fullIndexed liveIndexed (by simpa [blank] using own)]
        cases live.toolOwner toolCallId with
        | none => exact resumes
        | some message => exact resumes.update _
  | toolResult toolCallId name output resultState metadata =>
      simp only [data] at own
      have sameOwner : full.toolOwner toolCallId = live.toolOwner toolCallId :=
        resumes.toolOwner fullIndexed liveIndexed own
      simp only [finishToolResult, finalResult, sameOwner]
      cases live.toolOwner toolCallId with
      | none => exact resumes
      | some message => exact resumes.update _
  | assistantChunk kind delta blockId toolCallId =>
      simp only [data] at own
      by_cases spoken : kind = "text" ∨ kind = "thinking"
      · rw [if_pos spoken] at own
        simp only [if_pos spoken, appendAssistantChunk]
        cases target : event.target with
        | none => exact resumes
        | some id =>
            simp only [resumes.ensureAssistant event (ownTarget_cases own target)]
            exact resumes.update _
      · rw [if_neg spoken] at own
        simp only [if_neg spoken]
        by_cases streamed : kind = "tool_result_text"
        · rw [if_pos streamed] at own
          simp only [if_pos streamed]
          exact resultChunk_resumes resumes fullIndexed liveIndexed event _ delta own
        · simp only [if_neg streamed]
          exact resumes
  | turnEnd turn =>
      simp only [data] at own
      exact turnEnd_resumes resumes event turn own
  | approvalAsked _ _ _ _ _ => exact resumes
  | turnStart _ => exact resumes
  | turnRetry _ _ _ _ _ => exact resumes
  | sessionStatus _ _ => exact resumes

private theorem foldEvents_resumes (tail : List Event) (resumes : Resumes start full live)
    (fullIndexed : Indexed full) (liveIndexed : Indexed live)
    (own : detachedRun start live tail = true) :
    Resumes start (foldEvents full tail) (foldEvents live tail) := by
  induction tail generalizing full live with
  | nil => exact resumes
  | cons event rest ih =>
      obtain ⟨here, later⟩ := Bool.and_eq_true_iff.mp own
      exact ih (applyEvent_resumes resumes fullIndexed liveIndexed event here)
        (fullIndexed.applyEvent event) (liveIndexed.applyEvent event) later

private theorem foldEvents_append (state : FoldState) (saved tail : List Event) :
    foldEvents state (saved ++ tail) = foldEvents (foldEvents state saved) tail :=
  List.foldl_append

theorem mergeMessages_of_detached (saved tail : List Event)
    (own : detachedRun (foldEvents .empty saved) .empty tail = true) :
    mergeMessages (deriveMessages saved) (deriveMessages tail) = deriveMessages (saved ++ tail) := by
  have resumes := foldEvents_resumes tail (Resumes.refl (foldEvents .empty saved))
    (indexed_fold saved indexed_empty) indexed_empty own
  unfold mergeMessages deriveMessages
  rw [foldEvents_append]
  exact resumes.messages.symm

/-! ### Events that are not detached -/

structure Fresh (start full : FoldState) (event : Event) : Prop where
  newer : ∀ message ∈ full.messages.items, message.seq < event.seq
  unusedUser : ∀ content metadata requestId, event.data = .userMessage content metadata requestId →
    full.messages.find? (userMessageOf event content metadata).id = none
  unusedCompact : ∀ data, event.data = .compactMessage data →
    full.messages.find? (compactMessageOf event data).id = none
  later : ∀ id message, event.target = some id → start.messages.find? id = some message →
    message.createdAt ≠ isoFromMs event.time

private theorem appendToolResultDelta_seq (event : Event) (toolCallId delta : String)
    (message : Msg)
    (unsettled : ((message.findToolResult toolCallId).bind ToolResultBlock.finishedAt).isSome = false)
    (newer : message.seq < event.seq) :
    (appendToolResultDelta event toolCallId delta message).seq = event.seq := by
  have ensuredSeq : ∀ name createdAt,
      (ensureRunningToolResult toolCallId name createdAt message).seq = message.seq := by
    intro name createdAt
    unfold ensureRunningToolResult
    split <;> rfl
  have ensuredOpen : ∀ name createdAt,
      ((ensureRunningToolResult toolCallId name createdAt message).findToolResult toolCallId).bind
        ToolResultBlock.finishedAt = none := by
    intro name createdAt
    unfold ensureRunningToolResult
    cases found : message.findToolResult toolCallId with
    | some result =>
        rw [found] at unsettled
        simp only [found]
        exact Option.not_isSome_iff_eq_none.mp (by rw [unsettled]; exact Bool.false_ne_true)
    | none =>
        have appended : (appendBlock (.toolResult (runningResult toolCallId name createdAt))
            message).findToolResult toolCallId = some (runningResult toolCallId name createdAt) := by
          unfold Msg.findToolResult appendBlock
          rw [List.findSome?_append, show message.content.findSome? _ = none from found]
          simp [ContentBlock.asToolResult?, runningResult]
        simp only [appended]
        rfl
  unfold appendToolResultDelta
  simp only [ensuredOpen]
  change max _ event.seq = event.seq
  rw [ensuredSeq]
  exact max_eq_right (le_of_lt newer)

def Disagree (start full live : FoldState) : Prop :=
  ∃ id, full.messages.find? id ≠ (start.messages.merge live.messages).find? id

private theorem seq_touch (event : Event) {message : Msg} (newer : message.seq < event.seq) :
    (touch event message).seq = event.seq := max_eq_right (le_of_lt newer)

private theorem touch_seq_ne (event : Event) {message changed : Msg}
    (sameSeq : changed.seq = message.seq) (newer : message.seq < event.seq) :
    (touch event changed).seq ≠ message.seq := by
  rw [seq_touch event (by rw [sameSeq]; exact newer)]
  exact ne_of_gt newer

private theorem disagree_of_update (resumes : Resumes start full live) {message changed : Msg}
    (present : full.messages.find? message.id = some message) (sameId : changed.id = message.id)
    (raised : changed.seq ≠ message.seq) : Disagree start (full.update changed) live := by
  refine ⟨message.id, ?_⟩
  rw [← resumes.messages, present]
  change (full.messages.put changed).find? message.id ≠ _
  rw [← sameId, KeyedList.find?_put_self]
  intro same
  exact raised (congrArg Msg.seq (Option.some.inj same))

private theorem owner_of_foreign (resumes : Resumes start full live) (fullIndexed : Indexed full)
    (liveIndexed : Indexed live) {toolCallId : String}
    (foreign : ownCall start live toolCallId = false) :
    live.toolOwner toolCallId = none ∧ ∃ message, full.toolOwner toolCallId = some message ∧
      full.messages.find? message.id = some message ∧
      (start.toolCalls.find? toolCallId).bind
        (start.messages.merge live.messages).find? = some message := by
  obtain ⟨liveNone, startSome⟩ : live.toolCalls.find? toolCallId = none ∧
      (start.toolCalls.find? toolCallId).isSome := by
    simpa [ownCall, Option.isSome_iff_ne_none] using foreign
  obtain ⟨owner, indexed⟩ := Option.isSome_iff_exists.mp startSome
  have fullCalls : full.toolCalls.find? toolCallId = some owner := by
    rw [resumes.calls, liveNone, Option.none_or, indexed]
  obtain ⟨message, held⟩ := Option.isSome_iff_exists.mp (fullIndexed.owned _ _ fullCalls)
  refine ⟨?_, message, ?_, ?_, ?_⟩
  · rw [toolOwner_eq liveIndexed, liveNone]
    rfl
  · rw [toolOwner_eq fullIndexed, fullCalls]
    exact held
  · rw [(KeyedList.find?_mem held).2]
    exact held
  · rw [indexed, Option.bind_some, ← resumes.messages]
    exact held

private theorem foreign_target {start live : FoldState}
    (foreign : ownTarget start live event = false) :
    ∃ id message, event.target = some id ∧ live.messages.find? id = none ∧
      start.messages.find? id = some message := by
  unfold ownTarget at foreign
  cases target : event.target with
  | none => rw [target] at foreign; cases foreign
  | some id =>
      rw [target] at foreign
      obtain ⟨liveNone, startSome⟩ : live.messages.find? id = none ∧
          (start.messages.find? id).isSome := by
        simpa [Option.isSome_iff_ne_none] using foreign
      obtain ⟨message, found⟩ := Option.isSome_iff_exists.mp startSome
      exact ⟨id, message, rfl, liveNone, found⟩

private theorem disagree_of_target {start full live full' live' : FoldState} {id : String}
    {message extended blank : Msg} (fresh : Fresh start full event)
    (target : event.target = some id) (present : start.messages.find? id = some message)
    (fullPut : full'.messages = full.messages.put extended)
    (livePut : live'.messages = live.messages.put blank) (extendedId : extended.id = id)
    (blankId : blank.id = id) (extendedAt : extended.createdAt = message.createdAt)
    (blankAt : blank.createdAt = isoFromMs event.time) : Disagree start full' live' := by
  refine ⟨id, ?_⟩
  rw [fullPut, livePut, KeyedList.find?_merge, KeyedList.find?_put, KeyedList.find?_put,
    if_pos extendedId, if_pos blankId, Option.some_or]
  intro same
  have created := congrArg Msg.createdAt (Option.some.inj same)
  rw [extendedAt, blankAt] at created
  exact fresh.later id message target present created

private theorem disagree_of_boundary {message : Msg} (resumes : Resumes start full live)
    (unused : full.messages.find? message.id = none) (foreign : ownBoundary start live = false) :
    Disagree start ((full.sealPreviousAssistant event).insert message)
      ((live.sealPreviousAssistant event).insert message) := by
  have differ : sealTarget full.messages.items ≠ sealTarget live.messages.items := by
    rw [resumes.messages]
    exact of_decide_eq_false foreign
  have unfinished : ∀ {items : List Msg} {target : Msg}, sealTarget items = some target →
      target.finishedAt = none := by
    intro items target found
    unfold sealTarget at found
    split at found
    · split at found
      · rename_i open'
        cases found
        exact open'.2
      · cases found
    · cases found
  have liveIsFull : ∀ {other : Msg}, other ∈ live.messages.items →
      full.messages.find? other.id = some other := by
    intro other member
    rw [resumes.find?, KeyedList.find?_of_mem member, Option.some_or]
  have notNew : ∀ {other : Msg}, full.messages.find? other.id = some other →
      message.id ≠ other.id := by
    intro other found same
    rw [same, found] at unused
    cases unused
  have inserted : ∀ (state : FoldState) {other : Msg}, message.id ≠ other.id →
      (state.insert message).messages.find? other.id = state.messages.find? other.id := by
    intro state other different
    change (state.messages.put message).find? other.id = _
    rw [KeyedList.find?_put, if_neg different]
  have keepsOthers : ∀ (state : FoldState) {target other : Msg},
      target.id ≠ other.id →
      (state.update (sealed event target)).messages.find? other.id =
        state.messages.find? other.id := by
    intro state target other different
    have unaffected : ¬ (sealed event target).id = other.id := different
    change (state.messages.put (sealed event target)).find? other.id = _
    rw [KeyedList.find?_put, if_neg unaffected]
  have sealsItself : ∀ (state : FoldState) (target : Msg),
      (state.update (sealed event target)).messages.find? target.id =
        some (sealed event target) := fun state target =>
    KeyedList.find?_put_self state.messages (sealed event target)
  cases fullTarget : sealTarget full.messages.items with
  | some target =>
      have present : full.messages.find? target.id = some target :=
        KeyedList.find?_of_mem (sealTarget_mem fullTarget)
      refine ⟨target.id, ?_⟩
      have unsealed : (live.sealPreviousAssistant event).messages.find? target.id =
          live.messages.find? target.id := by
        unfold sealPreviousAssistant
        cases liveTarget : sealTarget live.messages.items with
        | none => rfl
        | some other =>
            refine keepsOthers live fun same => ?_
            have again := liveIsFull (sealTarget_mem liveTarget)
            rw [same, present] at again
            cases again
            exact differ (fullTarget.trans liveTarget.symm)
      rw [KeyedList.find?_merge, inserted _ (notNew present), inserted _ (notNew present), unsealed,
        ← resumes.find?, present]
      unfold sealPreviousAssistant
      simp only [fullTarget, sealsItself]
      intro same
      have finished := congrArg Msg.finishedAt (Option.some.inj same)
      rw [unfinished fullTarget] at finished
      cases finished
  | none =>
      cases liveTarget : sealTarget live.messages.items with
      | none => exact absurd (fullTarget.trans liveTarget.symm) differ
      | some target =>
          have present := liveIsFull (sealTarget_mem liveTarget)
          refine ⟨target.id, ?_⟩
          rw [KeyedList.find?_merge, inserted _ (notNew present), inserted _ (notNew present)]
          unfold sealPreviousAssistant
          simp only [fullTarget, liveTarget, sealsItself, present, Option.some_or]
          intro same
          have finished := congrArg Msg.finishedAt (Option.some.inj same)
          rw [unfinished liveTarget] at finished
          cases finished

theorem disagree_of_not_detached (resumes : Resumes start full live) (fullIndexed : Indexed full)
    (liveIndexed : Indexed live) (fresh : Fresh start full event)
    (foreign : detached start live event = false) :
    Disagree start (applyEvent full event) (applyEvent live event) := by
  have newerOf : ∀ {message : Msg}, full.messages.find? message.id = some message →
      message.seq < event.seq := fun present => fresh.newer _ (KeyedList.find?_mem present).1
  have targeted : ownTarget start live event = false →
      ∃ id message, event.target = some id ∧ start.messages.find? id = some message ∧
        full.ensureAssistant id event = touch event message ∧
        live.ensureAssistant id event = freshAssistant id event := by
    intro outside
    obtain ⟨id, message, target, liveNone, startSome⟩ := foreign_target outside
    have present : full.messages.find? id = some message := by
      rw [resumes.find?, liveNone, Option.none_or, startSome]
    refine ⟨id, message, target, startSome, ?_, ?_⟩
    · rw [ensureAssistant, present]
    · rw [ensureAssistant, liveNone]
  unfold detached at foreign
  unfold applyEvent
  cases data : event.data with
  | userMessage content metadata requestId =>
      simp only [data] at foreign
      exact disagree_of_boundary resumes (fresh.unusedUser content metadata requestId data) foreign
  | compactMessage compact =>
      simp only [data] at foreign
      exact disagree_of_boundary resumes (fresh.unusedCompact compact data) foreign
  | assistantMessage payload => simp only [data] at foreign; cases foreign
  | approvalAsked _ _ _ _ _ => simp only [data] at foreign; cases foreign
  | turnStart _ => simp only [data] at foreign; cases foreign
  | turnRetry _ _ _ _ _ => simp only [data] at foreign; cases foreign
  | sessionStatus _ _ => simp only [data] at foreign; cases foreign
  | hintMessage hint source =>
      simp only [data] at foreign
      obtain ⟨id, message, target, present, fullBase, liveBase⟩ := targeted foreign
      simp only [appendHint, target, fullBase, liveBase]
      exact disagree_of_target fresh target present rfl rfl (KeyedList.find?_mem present).2 rfl rfl rfl
  | toolCallStart toolCallId name arguments =>
      simp only [data] at foreign
      obtain ⟨id, message, target, present, fullBase, liveBase⟩ := targeted foreign
      have sameId := (KeyedList.find?_mem present).2
      simp only [startToolCall, target, fullBase, liveBase]
      have blank : (freshAssistant id event).findToolCall toolCallId = none := rfl
      simp only [blank]
      cases (touch event message).findToolCall toolCallId with
      | none => exact disagree_of_target fresh target present rfl rfl sameId rfl rfl rfl
      | some _ => exact disagree_of_target fresh target present rfl rfl sameId rfl rfl rfl
  | toolResultStart toolCallId name =>
      simp only [data] at foreign
      obtain ⟨named, outside⟩ := Bool.or_eq_false_iff.mp foreign
      obtain ⟨nobody, message, owner, present, _⟩ :=
        owner_of_foreign resumes fullIndexed liveIndexed outside
      simp only [startToolResult, if_neg (of_decide_eq_false named), nobody, owner]
      have sameSeq : (ensureRunningToolResult toolCallId name (isoFromMs event.time) message).seq =
          message.seq := by
        unfold ensureRunningToolResult
        split <;> rfl
      refine disagree_of_update resumes present (ensureRunningToolResult_id ..) ?_
      exact touch_seq_ne event sameSeq (newerOf present)
  | toolResult toolCallId name output resultState metadata =>
      simp only [data] at foreign
      obtain ⟨nobody, message, owner, present, _⟩ :=
        owner_of_foreign resumes fullIndexed liveIndexed foreign
      simp only [finishToolResult, finalResult, nobody, owner]
      refine disagree_of_update resumes present rfl ?_
      exact touch_seq_ne event rfl (newerOf present)
  | assistantChunk kind delta blockId toolCallId =>
      simp only [data] at foreign
      by_cases spoken : kind = "text" ∨ kind = "thinking"
      · rw [if_pos spoken] at foreign
        obtain ⟨id, message, target, present, fullBase, liveBase⟩ := targeted foreign
        have sameId := (KeyedList.find?_mem present).2
        have keepsCreated : ∀ (base : Msg) (block : String),
            (appendAssistantDelta kind block delta (isoFromMs event.time) base).createdAt =
              base.createdAt := by
          intro base block
          unfold appendAssistantDelta
          dsimp only
          split <;> rfl
        simp only [if_pos spoken, appendAssistantChunk, target, fullBase, liveBase]
        refine disagree_of_target fresh target present rfl rfl ?_ ?_ ?_ ?_
        · rw [appendAssistantDelta_id]
          exact sameId
        · rw [appendAssistantDelta_id]
          rfl
        · rw [keepsCreated]
          rfl
        · rw [keepsCreated]
          rfl
      · rw [if_neg spoken] at foreign
        by_cases streamed : kind = "tool_result_text"
        · rw [if_pos streamed] at foreign
          obtain ⟨unsettledOutside, unsettled⟩ := Bool.or_eq_false_iff.mp foreign
          obtain ⟨named, outside⟩ := Bool.or_eq_false_iff.mp unsettledOutside
          obtain ⟨nobody, message, owner, present, held⟩ :=
            owner_of_foreign resumes fullIndexed liveIndexed outside
          simp only [if_neg spoken, if_pos streamed, appendToolResultChunk,
            if_neg (of_decide_eq_false named), nobody, owner]
          refine disagree_of_update resumes present (appendToolResultDelta_id ..) ?_
          simp only [settledCall, held] at unsettled
          rw [appendToolResultDelta_seq event _ delta message unsettled (newerOf present)]
          exact ne_of_gt (newerOf present)
        · rw [if_neg streamed] at foreign
          cases foreign
  | turnEnd turn =>
      simp only [data] at foreign
      cases target : event.target with
      | none => simp only [ownTurn, target] at foreign; cases foreign
      | some id =>
          simp only [ownTurn, target] at foreign
          obtain ⟨liveNone, assistantSome⟩ := Bool.or_eq_false_iff.mp foreign
          cases older : start.messages.find? id with
          | none => rw [older] at assistantSome; cases assistantSome
          | some message =>
              rw [older] at assistantSome
              have assistant : message.role = .assistant := by
                simpa using assistantSome
              have absent : live.messages.find? id = none := by
                simpa [Option.isSome_iff_ne_none] using liveNone
              have held : full.messages.find? id = some message := by
                rw [resumes.find?, absent, Option.none_or, older]
              have present : full.messages.find? message.id = some message := by
                rw [(KeyedList.find?_mem held).2, held]
              simp only [finishTurn, target, Option.bind_some, held, absent, if_pos assistant]
              refine disagree_of_update resumes present rfl ?_
              exact touch_seq_ne event rfl (newerOf present)

/-! ### Whole tails -/

/-- Every event of the tail is fresh where it stands. -/
def FreshRun (start : FoldState) : FoldState → List Event → Prop
  | _, [] => True
  | full, event :: rest => Fresh start full event ∧ FreshRun start (applyEvent full event) rest

/-- However much of the tail has been appended, the snapshot merged with the
fold of the tail is the fold of everything. -/
def RestartTransparent (saved tail : List Event) : Prop :=
  ∀ seen rest, tail = seen ++ rest →
    mergeMessages (deriveMessages saved) (deriveMessages seen) = deriveMessages (saved ++ seen)

private theorem detachedRun_append {start live : FoldState} {seen rest : List Event}
    (own : detachedRun start live (seen ++ rest) = true) : detachedRun start live seen = true := by
  induction seen generalizing live with
  | nil => rfl
  | cons event seen ih =>
      obtain ⟨here, later⟩ := Bool.and_eq_true_iff.mp own
      exact Bool.and_eq_true_iff.mpr ⟨here, ih later⟩

private theorem detachedRun_of_agree (tail : List Event) {start full live : FoldState}
    (resumes : Resumes start full live) (fullIndexed : Indexed full) (liveIndexed : Indexed live)
    (fresh : FreshRun start full tail)
    (agree : ∀ seen rest, tail = seen ++ rest →
      start.messages.merge (foldEvents live seen).messages = (foldEvents full seen).messages) :
    detachedRun start live tail = true := by
  induction tail generalizing full live with
  | nil => rfl
  | cons event rest ih =>
      have here : detached start live event = true := by
        cases own : detached start live event with
        | true => rfl
        | false =>
            obtain ⟨id, differ⟩ :=
              disagree_of_not_detached resumes fullIndexed liveIndexed fresh.1 own
            have same := agree [event] rest rfl
            exact absurd (congrArg (fun messages => messages.find? id) same.symm) differ
      have next := applyEvent_resumes resumes fullIndexed liveIndexed event here
      refine Bool.and_eq_true_iff.mpr ⟨here, ?_⟩
      apply ih next (fullIndexed.applyEvent event) (liveIndexed.applyEvent event) fresh.2
      intro seen remaining split
      exact agree (event :: seen) remaining (by rw [split]; rfl)

/-- A detached tail is restart transparent, and no other fresh tail is. -/
theorem restart_transparent_iff_detached (saved tail : List Event) :
    (detachedRun (foldEvents .empty saved) .empty tail = true → RestartTransparent saved tail) ∧
      (FreshRun (foldEvents .empty saved) (foldEvents .empty saved) tail →
        RestartTransparent saved tail →
        detachedRun (foldEvents .empty saved) .empty tail = true) := by
  constructor
  · intro own seen rest split
    rw [split] at own
    exact mergeMessages_of_detached saved seen (detachedRun_append own)
  · intro fresh transparent
    apply detachedRun_of_agree tail (Resumes.refl (foldEvents .empty saved))
      (indexed_fold saved indexed_empty) indexed_empty fresh
    intro seen rest split
    have agree := transparent seen rest split
    unfold mergeMessages deriveMessages at agree
    rw [foldEvents_append] at agree
    exact agree

def pausedTurn : List Event :=
  [⟨1, 1000, some "user_1",
      .userMessage [.object [("type", .str "text"), ("text", .str "list")]] .empty "request-1"⟩,
    ⟨2, 2000, some "turn_1", .assistantMessage
      (Msg.plain "turn_1" .assistant [.toolCall ⟨"call_1", "bash", .empty, .asking, "", none⟩] "")⟩,
    ⟨3, 3000, some "turn_1", .turnEnd ⟨"turn_1", "request-1", "paused", "paused", none, none, 1,
      .empty⟩⟩]

def confirmedCall : List Event :=
  [⟨4, 4000, some "turn_1", .turnStart ⟨"turn_1", "request-1", "confirmation", "", "", ""⟩⟩,
    ⟨5, 5000, some "turn_1", .toolResult "call_1" "bash" [] "success" .empty⟩]

def nextTurn : List Event :=
  [⟨4, 4000, some "user_4",
      .userMessage [.object [("type", .str "text"), ("text", .str "more")]] .empty "request-2"⟩,
    ⟨5, 5000, some "turn_2", .assistantChunk "text" "done" none none⟩]

theorem restart_loses_confirmed_result :
    mergeMessages (deriveMessages pausedTurn) (deriveMessages confirmedCall) ≠
      deriveMessages (pausedTurn ++ confirmedCall) := by
  decide

private theorem nextTurn_detached :
    detachedRun (foldEvents .empty pausedTurn) .empty nextTurn = true := by
  decide

private theorem nextTurn_fresh :
    FreshRun (foldEvents .empty pausedTurn) (foldEvents .empty pausedTurn) nextTurn := by
  have unaddressed : ∀ {event : Event} (id : String), event.target = some id →
      (foldEvents .empty pausedTurn).messages.find? id = none →
      ∀ other message, event.target = some other →
        (foldEvents .empty pausedTurn).messages.find? other = some message →
        message.createdAt ≠ isoFromMs event.time := by
    intro event id target absent other message again found
    rw [target] at again
    cases again
    rw [absent] at found
    cases found
  refine ⟨⟨by decide, ?_, nofun, unaddressed "user_4" rfl (by decide)⟩,
    ⟨by decide, nofun, nofun, unaddressed "turn_2" rfl (by decide)⟩, trivial⟩
  intro content metadata requestId data
  change (foldEvents .empty pausedTurn).messages.find? "user_4" = none
  decide

theorem restart_transparent_nextTurn :
    RestartTransparent pausedTurn nextTurn ∧
      detachedRun (foldEvents .empty pausedTurn) .empty nextTurn = true := by
  have exact' := restart_transparent_iff_detached pausedTurn nextTurn
  have transparent : RestartTransparent pausedTurn nextTurn := exact'.1 nextTurn_detached
  exact ⟨transparent, exact'.2 nextTurn_fresh transparent⟩

end Ftre.Session
