import Ftre.Runtime.ApprovalBatches

/-!
The executor of a running turn.
-/

namespace Ftre.Runtime

open Lib Message Session

namespace Reply

open MessageContext

def Executes (outcome : ToolCall → ToolOutcome) (stopped : List ToolCall → Bool) (reply : Reply)
    (action : Action) : Prop :=
  action = .yields .next ∨
    ∃ calls, reply.phase = .waiting calls ∧
      action = .toolsDone (calls.map outcome) (stopped calls)

def relogged (reply : Reply) (fold : FoldState) (nextSeq : Int) (last : Option String) : Reply :=
  { reply with fold := fold, nextSeq := nextSeq, lastMessageId := last }

variable (reply : Reply) (results : List (ToolCall × ToolOutcome)) (permissions : ToolPermissions)

def withContext (context : List Msg) : Reply := { reply with context := context }

theorem told_relogged (entry : Appended) :
    ∃ fold nextSeq last, (reply.noted entry).push entry = reply.relogged fold nextSeq last := by
  rw [noted_eq]
  exact ⟨_, _, _, rfl⟩

variable {outcome : ToolCall → ToolOutcome} {stopped : List ToolCall → Bool}

/-- A run leads to a state, up to its log. -/
def Leads (outcome : ToolCall → ToolOutcome) (stopped : List ToolCall → Bool)
    (start final : Reply) : Prop :=
  ∃ fold nextSeq last,
    system.Reaches (Executes outcome stopped) start (final.relogged fold nextSeq last)

theorem Leads.refl : Leads outcome stopped reply reply :=
  ⟨reply.fold, reply.nextSeq, reply.lastMessageId, Relation.ReflTransGen.refl⟩

theorem Leads.yield {reply final : Reply} {entry : Appended} (next : Reply)
    (advanced : reply.advance .next = some (next, entry))
    (rest : ∀ fold nextSeq last, Leads outcome stopped (next.relogged fold nextSeq last) final) :
    Leads outcome stopped reply final := by
  obtain ⟨fold, nextSeq, last, told⟩ := told_relogged next entry
  obtain ⟨fold', nextSeq', last', reached⟩ := rest fold nextSeq last
  refine ⟨fold', nextSeq', last', Relation.ReflTransGen.head ⟨.yields .next, Or.inl rfl, ?_⟩ reached⟩
  change (reply.advance .next).map _ = _
  rw [advanced, ← told]
  rfl

theorem Leads.of_relogged {start final : Reply} (fold : FoldState) (nextSeq : Int)
    (last : Option String) (leads : Leads outcome stopped start (final.relogged fold nextSeq last)) :
    Leads outcome stopped start final := leads

theorem Leads.trans {first second third : Reply} (left : Leads outcome stopped first second)
    (right : ∀ fold nextSeq last, Leads outcome stopped (second.relogged fold nextSeq last) third) :
    Leads outcome stopped first third := by
  obtain ⟨fold, nextSeq, last, reached⟩ := left
  obtain ⟨fold', nextSeq', last', later⟩ := right fold nextSeq last
  exact ⟨fold', nextSeq', last', reached.trans later⟩

theorem deny_relogged (calls : List ToolCall) (fold : FoldState) (nextSeq : Int)
    (last : Option String) :
    (reply.deny calls).relogged fold nextSeq last =
      (reply.relogged fold nextSeq last).deny calls := by
  cases calls <;> rfl

theorem afterBatch_relogged (cancelled : Bool) (fold : FoldState) (nextSeq : Int)
    (last : Option String) :
    (reply.afterBatch cancelled).relogged fold nextSeq last =
      (reply.relogged fold nextSeq last).afterBatch cancelled := by
  have kept : (reply.relogged fold nextSeq last).prologue = reply.prologue := rfl
  unfold afterBatch
  rw [kept]
  cases held : reply.prologue with
  | none => cases cancelled <;> rfl
  | some denied =>
      cases cancelled with
      | false => exact deny_relogged reply denied fold nextSeq last
      | true => rfl

theorem record_relogged (calls : List (ToolCall × ToolOutcome))
    (saying : Option (ToolCall × ToolOutcome)) (hints : List String) (cancelled : Bool)
    (fold : FoldState) (nextSeq : Int) (last : Option String) :
    (reply.record calls saying hints cancelled).relogged fold nextSeq last =
      (reply.relogged fold nextSeq last).record calls saying hints cancelled := by
  cases calls with
  | cons result rest => rfl
  | nil =>
      cases saying with
      | some result => rfl
      | none =>
          cases hints with
          | cons hint rest => rfl
          | nil => exact afterBatch_relogged reply cancelled fold nextSeq last

theorem deny_rephased (phase : RunPhase) (calls : List ToolCall) :
    { reply with phase := phase }.deny calls = reply.deny calls := by
  cases calls <;> rfl

theorem afterBatch_rephased (phase : RunPhase) (cancelled : Bool) :
    { reply with phase := phase }.afterBatch cancelled = reply.afterBatch cancelled := by
  unfold afterBatch
  dsimp only
  split
  · cases cancelled <;> rfl
  · cases cancelled with
    | false => exact deny_rephased reply phase _
    | true => rfl

theorem advance_saying (rest : List (ToolCall × ToolOutcome)) (call : ToolCall)
    (answer : ToolOutcome) (hints : List String) (cancelled : Bool) :
    (reply.record rest (some (call, answer)) hints cancelled).advance .next =
      some (reply.record rest none (hints ++ answer.hint.toList) cancelled,
        ⟨some reply.target, resultOf call answer⟩) := by
  cases rest with
  | cons result rest => rfl
  | nil =>
      change some (({ reply with phase := _ } : Reply).record [] none _ cancelled, _) = _
      cases more : hints ++ answer.hint.toList with
      | nil =>
          change some (({ reply with phase := _ } : Reply).afterBatch cancelled, _) = _
          rw [afterBatch_rephased]
          rfl
      | cons hint later => rfl

theorem hints_lead (hints : List String) (reply : Reply) (cancelled : Bool) :
    Leads outcome stopped (reply.record [] none hints cancelled)
      ((reply.withContext (hints.foldl (toolHint reply.target reply.now) reply.context)).afterBatch
        cancelled) := by
  induction hints generalizing reply with
  | nil => exact Leads.refl _
  | cons hint rest ih =>
      refine Leads.yield ((reply.addHint hint "tool").record [] none rest cancelled) rfl ?_
      intro fold nextSeq last
      refine Leads.of_relogged fold nextSeq last ?_
      rw [record_relogged, afterBatch_relogged]
      exact ih ((reply.addHint hint "tool").relogged fold nextSeq last)

theorem results_lead (reply : Reply) (hints : List String) (cancelled : Bool) :
    Leads outcome stopped (reply.record results none hints cancelled)
      ((reply.withContext ((hints ++ results.filterMap fun (_, outcome) => outcome.hint).foldl
        (toolHint reply.target reply.now)
        (results.foldl (recordCall reply.target reply.now) reply.context))).afterBatch
          cancelled) := by
  induction results generalizing reply hints with
  | nil =>
      rw [List.filterMap_nil, List.append_nil]
      exact hints_lead hints reply cancelled
  | cons result rest ih =>
      obtain ⟨call, answer⟩ := result
      have more : hints ++ ((call, answer) :: rest).filterMap (fun (_, outcome) => outcome.hint) =
          (hints ++ answer.hint.toList) ++ rest.filterMap fun (_, outcome) => outcome.hint := by
        cases said : answer.hint with
        | none => simp [said]
        | some hint => simp [said]
      rw [more]
      by_cases silent : answer.result = ""
      · refine Leads.yield ((reply.recordResult call answer).record rest none
          (hints ++ answer.hint.toList) cancelled) (if_pos silent) fun fold nextSeq last => ?_
        refine Leads.of_relogged fold nextSeq last ?_
        rw [record_relogged, afterBatch_relogged]
        exact ih ((reply.recordResult call answer).relogged fold nextSeq last) _
      · refine Leads.yield ((reply.recordResult call answer).record rest (some (call, answer)) hints
          cancelled) (if_neg silent) fun fold nextSeq last => ?_
        rw [record_relogged]
        refine Leads.yield (((reply.recordResult call answer).relogged fold nextSeq last).record
          rest none (hints ++ answer.hint.toList) cancelled) (advance_saying ..)
          fun fold nextSeq last => ?_
        refine Leads.of_relogged fold nextSeq last ?_
        rw [record_relogged, afterBatch_relogged]
        exact ih ((reply.recordResult call answer).relogged fold nextSeq last) _

def afterAsking (reply : Reply) : Reply :=
  match reply.prologue with
  | none => { reply with paused := true, phase := .exited }
  | some denied => reply.deny denied

theorem afterAsking_relogged (fold : FoldState) (nextSeq : Int) (last : Option String) :
    reply.afterAsking.relogged fold nextSeq last =
      (reply.relogged fold nextSeq last).afterAsking := by
  have kept : (reply.relogged fold nextSeq last).prologue = reply.prologue := rfl
  unfold afterAsking
  rw [kept]
  cases held : reply.prologue with
  | none => rfl
  | some denied => exact deny_relogged reply denied fold nextSeq last

theorem asking_leads (ask : ToolCall × String × Option String)
    (asks : List (ToolCall × String × Option String)) (reply : Reply) :
    Leads outcome stopped { reply with phase := .asking (ask :: asks) }
      (reply.withContext (((ask :: asks).map Prod.fst).foldl askCall reply.context)).afterAsking := by
  induction asks generalizing reply ask with
  | nil =>
      refine Leads.yield (reply.withContext (askCall reply.context ask.1)).afterAsking rfl ?_
      intro fold nextSeq last
      exact Leads.of_relogged fold nextSeq last (Leads.refl _)
  | cons other rest ih =>
      refine Leads.yield { reply.withContext (askCall reply.context ask.1) with
        phase := .asking (other :: rest) } rfl ?_
      intro fold nextSeq last
      refine Leads.of_relogged fold nextSeq last ?_
      rw [afterAsking_relogged]
      exact ih other ((reply.withContext (askCall reply.context ask.1)).relogged fold nextSeq last)

theorem deny_leads (calls : List ToolCall) (reply : Reply) :
    Leads outcome stopped (reply.deny calls)
      ((reply.withContext
        (calls.foldl (MessageContext.denyCall reply.target reply.now) reply.context)).deny []) := by
  induction calls generalizing reply with
  | nil => exact Leads.refl _
  | cons call rest ih =>
      let started := { reply with prologue := none, phase := .denyingStarted (call :: rest) }
      refine Leads.yield started rfl fun fold nextSeq last => ?_
      refine Leads.yield { (started.relogged fold nextSeq last).denyCall call with
        phase := .denyingSaid call rest } rfl fun fold nextSeq last => ?_
      refine Leads.yield (((started.denyCall call).relogged fold nextSeq last).deny rest) rfl
        fun fold nextSeq last => ?_
      refine Leads.of_relogged fold nextSeq last ?_
      rw [deny_relogged, deny_relogged]
      exact ih ((started.denyCall call).relogged fold nextSeq last)

/-! ### Batches -/

def afterCalls (reply : Reply) (results : List (ToolCall × ToolOutcome)) (cancelled : Bool) :
    Reply :=
  if askedCalls results = [] then reply.afterBatch cancelled else reply.afterAsking

theorem afterCalls_relogged (results : List (ToolCall × ToolOutcome)) (cancelled : Bool)
    (fold : FoldState) (nextSeq : Int) (last : Option String) :
    (reply.afterCalls results cancelled).relogged fold nextSeq last =
      (reply.relogged fold nextSeq last).afterCalls results cancelled := by
  unfold afterCalls
  split
  · exact afterBatch_relogged reply cancelled fold nextSeq last
  · exact afterAsking_relogged reply fold nextSeq last

theorem afterCalls_rephased (phase : RunPhase) (results : List (ToolCall × ToolOutcome))
    (cancelled : Bool) :
    { reply with phase := phase }.afterCalls results cancelled =
      reply.afterCalls results cancelled := by
  unfold afterCalls
  split
  · exact afterBatch_rephased reply phase cancelled
  · unfold afterAsking
    dsimp only
    split
    · rfl
    · exact deny_rephased reply phase _

private theorem asks_fst :
    (results.filterMap fun (call, outcome) =>
      outcome.approval.map fun asked => (call, asked)).map Prod.fst = askedCalls results := by
  unfold askedCalls
  induction results with
  | nil => rfl
  | cons result rest ih =>
      obtain ⟨call, answer⟩ := result
      cases asked : answer.approval with
      | none => simp [asked, ih]
      | some ask => simp [asked, ih]

theorem gather_leads (reply : Reply) (cancelled : Bool) :
    Leads outcome stopped (reply.gather results cancelled)
      ((reply.withContext (executeCalls reply.target reply.now reply.context results)).afterCalls
        results cancelled) := by
  have named := asks_fst results
  unfold gather afterCalls executeCalls
  cases asks : results.filterMap fun (call, outcome) =>
      outcome.approval.map fun asked => (call, asked) with
  | nil =>
      rw [asks] at named
      rw [← named]
      exact results_lead results reply [] cancelled
  | cons ask rest =>
      rw [asks] at named
      rw [← named]
      exact asking_leads ask rest reply

theorem starting_leads (calls : List ToolCall) (call : ToolCall) (unsent : List ToolCall)
    (reply : Reply) :
    Leads outcome stopped { reply with phase := .starting calls (call :: unsent) }
      { reply with phase := .waiting calls } := by
  induction unsent generalizing call reply with
  | nil =>
      refine Leads.yield { reply with phase := .waiting calls } rfl fun fold nextSeq last => ?_
      exact Leads.of_relogged fold nextSeq last (Leads.refl _)
  | cons next rest ih =>
      refine Leads.yield { reply with phase := .starting calls (next :: rest) } rfl
        fun fold nextSeq last => ?_
      exact Leads.of_relogged fold nextSeq last (ih next (reply.relogged fold nextSeq last))

private theorem zip_outcomes (outcome : ToolCall → ToolOutcome) (calls : List ToolCall) :
    calls.zip (calls.map outcome) = calls.map fun call => (call, outcome call) := by
  induction calls with
  | nil => rfl
  | cons call rest ih => rw [List.map_cons, List.zip_cons_cons, ih, List.map_cons]

theorem Leads.tools {reply final : Reply} {calls : List ToolCall}
    (waiting : reply.phase = .waiting calls)
    (rest : Leads outcome stopped
      (reply.gather (calls.map fun call => (call, outcome call)) (stopped calls)) final) :
    Leads outcome stopped reply final := by
  obtain ⟨fold, nextSeq, last, reached⟩ := rest
  refine ⟨fold, nextSeq, last, Relation.ReflTransGen.head
    ⟨.toolsDone (calls.map outcome) (stopped calls), Or.inr ⟨calls, waiting, rfl⟩, ?_⟩ reached⟩
  simp only [system, step, waiting]
  rw [if_pos (List.length_map outcome), zip_outcomes]

theorem calls_lead (outcome : ToolCall → ToolOutcome) (stopped : List ToolCall → Bool)
    {calls : List ToolCall} (filled : calls ≠ []) (reply : Reply) :
    Leads outcome stopped { reply with phase := .starting calls calls }
      ((reply.withContext (executeCalls reply.target reply.now reply.context
        (calls.map fun call => (call, outcome call)))).afterCalls
          (calls.map fun call => (call, outcome call)) (stopped calls)) := by
  have started : Leads outcome stopped { reply with phase := .starting calls calls }
      { reply with phase := .waiting calls } := by
    cases calls with
    | nil => exact absurd rfl filled
    | cons call rest => exact starting_leads (call :: rest) call rest reply
  refine started.trans fun fold nextSeq last => ?_
  refine Leads.tools rfl ?_
  refine Leads.of_relogged fold nextSeq last ?_
  rw [← afterCalls_rephased _ (.waiting calls), afterCalls_relogged]
  exact gather_leads _ ({ reply with phase := .waiting calls }.relogged fold nextSeq last) _

/-! ### A response and a confirmation -/

private theorem changeFirst_twice {α : Type} {first second both : α → Option α}
    (composed : ∀ item changed, first item = some changed →
      ∃ again, second changed = some again ∧ both item = some again)
    (unchanged : ∀ item, first item = none → second item = none ∧ both item = none)
    {items changed : List α} (done : changeFirst first items = some changed) :
    ∃ again, changeFirst second changed = some again ∧ changeFirst both items = some again := by
  induction items generalizing changed with
  | nil => cases done
  | cons item rest ih =>
      unfold changeFirst at done
      cases here : first item with
      | some replaced =>
          rw [here] at done
          cases done
          obtain ⟨again, later, once⟩ := composed item replaced here
          refine ⟨again :: rest, ?_, ?_⟩
          · unfold changeFirst
            rw [later]
          · unfold changeFirst
            rw [once]
      | none =>
          rw [here] at done
          obtain ⟨inner, found, rfl⟩ := Option.map_eq_some_iff.mp done
          obtain ⟨later, once⟩ := unchanged item here
          obtain ⟨again, first, second⟩ := ih found
          refine ⟨item :: again, ?_, ?_⟩
          · unfold changeFirst
            rw [later, first]
            rfl
          · unfold changeFirst
            rw [once, second]
            rfl

private theorem changeFirst_twice_none {α : Type} {first both : α → Option α}
    (unchanged : ∀ item, first item = none → both item = none) {items : List α}
    (missed : changeFirst first items = none) : changeFirst both items = none := by
  induction items with
  | nil => rfl
  | cons item rest ih =>
      unfold changeFirst at missed ⊢
      cases here : first item with
      | some replaced => rw [here] at missed; cases missed
      | none =>
          rw [here] at missed
          rw [unchanged item here, ih (Option.map_eq_none_iff.mp missed)]
          rfl

theorem appendReplyBlocks_append (context : List Msg) (messageId now : String)
    (first second : List ContentBlock) :
    appendReplyBlocks (appendReplyBlocks context messageId first now) messageId second now =
      appendReplyBlocks context messageId (first ++ second) now := by
  by_cases noFirst : first = []
  · rw [noFirst, List.nil_append]
    exact congrArg (appendReplyBlocks · messageId second now) (if_pos rfl)
  by_cases noSecond : second = []
  · rw [noSecond, List.append_nil]
    exact if_pos rfl
  have filled : first ++ second ≠ [] := fun none => noFirst (List.append_eq_nil_iff.mp none).1
  have unchanged : ∀ message : Msg, extendReply messageId first message = none →
      extendReply messageId second message = none ∧
        extendReply messageId (first ++ second) message = none := by
    intro message missed
    unfold extendReply at missed ⊢
    by_cases here : message.role = .assistant ∧ message.id = messageId
    · rw [if_pos here] at missed
      cases missed
    · exact ⟨if_neg here, if_neg here⟩
  have composed : ∀ message changed : Msg, extendReply messageId first message = some changed →
      ∃ again, extendReply messageId second changed = some again ∧
        extendReply messageId (first ++ second) message = some again := by
    intro message changed done
    unfold extendReply at done ⊢
    obtain ⟨here, same⟩ := Option.ite_none_right_eq_some.mp done
    cases same
    refine ⟨_, if_pos here, (if_pos here).trans ?_⟩
    dsimp only
    rw [List.append_assoc]
  unfold appendReplyBlocks
  rw [if_neg noFirst, if_neg noSecond, if_neg filled]
  cases done : changeFirst (extendReply messageId first) context.reverse with
  | some extended =>
      obtain ⟨again, later, once⟩ := changeFirst_twice composed unchanged done
      dsimp only
      rw [List.reverse_reverse, later, once]
  | none =>
      have missed := changeFirst_twice_none (fun item none => (unchanged item none).2) done
      dsimp only
      rw [missed, List.reverse_append, List.reverse_singleton, List.singleton_append]
      have here : changeFirst (extendReply messageId second)
          (Msg.plain messageId .assistant first now :: context.reverse) =
            some (Msg.plain messageId .assistant (first ++ second) now :: context.reverse) := by
        unfold changeFirst extendReply
        rw [if_pos ⟨rfl, rfl⟩]
        rfl
      rw [here]
      dsimp only
      rw [List.reverse_cons, List.reverse_reverse]

/-- What the permissions make of each call. -/
def outcomeOf (permissions : ToolPermissions) (facts : ToolCall → ToolFacts) (call : ToolCall) :
    ToolOutcome :=
  (permissions.execute call (facts call)).1

private theorem outcomes_eq (facts : ToolCall → ToolFacts) (calls : List ToolCall) :
    Approvals.outcomes permissions facts calls =
      calls.map fun call => (call, outcomeOf permissions facts call) := by
  unfold Approvals.outcomes Approvals.executed
  rw [List.map_map]
  rfl

private theorem afterCalls_context (results : List (ToolCall × ToolOutcome)) (cancelled : Bool) :
    (reply.afterCalls results cancelled).context = reply.context := by
  unfold afterCalls afterBatch afterAsking
  cases reply.prologue with
  | none => split <;> cases cancelled <;> rfl
  | some denied => split <;> cases cancelled <;> cases denied <;> rfl

private theorem partialBlocks_plain (response : Response) :
    Approvals.hasToolBlock (reply.partialBlocks response) = false := by
  unfold Approvals.hasToolBlock partialBlocks
  split <;> split <;> rfl

/-- A complete response with calls is said, and its calls are a batch. -/
theorem batch_of_response (facts : ToolCall → ToolFacts) (interrupted : Bool) (reply : Reply)
    (response : Response) (reason : String) (usage : Option TokenUsage) (state : Approvals)
    (same : reply.context = state.context) (called : keptCalls response reason ≠ []) :
    ∃ said ended after,
      Approvals.step permissions state
        (.said reply.target reply.now (reply.partialBlocks response)) = some said ∧
      Approvals.step permissions said
        (.batch reply.target reply.now (keptCalls response reason) facts) = some ended ∧
      Leads (outcomeOf permissions facts) (Approvals.cancelledBy permissions facts interrupted)
        ((reply.complete response reason usage).decideNext
          (some ⟨response.text, keptCalls response reason, false⟩)) after ∧
      after.context = ended.context := by
  have enters : (reply.complete response reason usage).context =
      enterCalls reply.target reply.now
        (appendReplyBlocks state.context reply.target (reply.partialBlocks response) reply.now)
        (keptCalls response reason) := by
    unfold enterCalls
    rw [appendReplyBlocks_append, ← same]
    rfl
  have started : (reply.complete response reason usage).decideNext
      (some ⟨response.text, keptCalls response reason, false⟩) =
        { reply.complete response reason usage with
          phase := .starting (keptCalls response reason) (keptCalls response reason) } := by
    unfold decideNext
    dsimp only
    rw [if_neg Bool.false_ne_true, if_pos called]
  rw [started]
  refine ⟨_, _, _, if_neg (Bool.eq_false_iff.mp (partialBlocks_plain reply response)), rfl,
    calls_lead _ _ called _, ?_⟩
  rw [afterCalls_context, ← outcomes_eq]
  change executeCalls reply.target reply.now (reply.complete response reason usage).context _ = _
  rw [enters]
  rfl

private def unguarded : ToolPermissions := ⟨fun _ _ => false, none, false⟩

private def works (_ : ToolCall) : ToolFacts where
  before := .proceed
  approval := ⟨.unavailable, ""⟩
  cancelled := false
  outcome := ⟨"done", none, .empty, none, none⟩

private def listing : Response :=
  ⟨"", "", none, none, [], [⟨"call_1", "bash", .empty⟩, ⟨"call_2", "read", .empty⟩]⟩

/-- The calls of a first response go on as their batch, and both are answered. -/
theorem first_calls_lead :
    ∃ after, Leads (outcomeOf unguarded works) (Approvals.cancelledBy unguarded works false)
      (((fresh 0).complete listing "" none).decideNext (some ⟨"", listing.calls, false⟩)) after ∧
      resultIds after.context = ["call_1", "call_2"] := by
  obtain ⟨_, _, after, said, batched, leads, same⟩ := batch_of_response unguarded works false
    (fresh 0) listing "" none { context := [] } rfl (List.cons_ne_nil _ _)
  cases said
  cases batched
  exact ⟨after, leads, congrArg resultIds same⟩

theorem Leads.denies {start reply : Reply} {calls : List ToolCall}
    (leads : Leads outcome stopped start (reply.deny calls)) :
    Leads outcome stopped start ((reply.withContext
      (calls.foldl (MessageContext.denyCall reply.target reply.now) reply.context)).deny []) := by
  refine leads.trans fun fold nextSeq last => ?_
  refine Leads.of_relogged fold nextSeq last ?_
  rw [deny_relogged, deny_relogged]
  exact deny_leads calls (reply.relogged fold nextSeq last)

theorem afterCalls_resumed {reply : Reply} {denied : List ToolCall}
    (resumed : reply.prologue = some denied) (results : List (ToolCall × ToolOutcome))
    (cancelled : Bool) :
    reply.afterCalls results cancelled =
      if (askedCalls results).isEmpty && cancelled then reply.finalize .error
      else reply.deny denied := by
  unfold afterCalls afterBatch afterAsking
  rw [resumed]
  cases askedCalls results with
  | nil => cases cancelled <;> rfl
  | cons call rest => rfl

theorem resumeExecute_leads (facts : ToolCall → ToolFacts) (interrupted : Bool) (reply : Reply)
    (state : Approvals) (same : reply.context = state.context) :
    ∃ after,
      Leads (outcomeOf permissions facts) (Approvals.cancelledBy permissions facts interrupted)
        reply.resumeExecute after ∧
      after.context =
        (state.resume permissions reply.target reply.now facts interrupted).context := by
  by_cases nothing : allowedCalls state.context = []
  · have denies : reply.resumeExecute = reply.deny (refusedCalls state.context) := by
      unfold allowedCalls at nothing
      unfold resumeExecute refusedCalls
      rw [same]
      dsimp only
      rw [nothing]
    rw [denies]
    refine ⟨_, deny_leads _ _, ?_⟩
    unfold Approvals.resume
    dsimp only
    rw [if_pos nothing, ← same]
    rfl
  · have starts : reply.resumeExecute =
        { reply with
          prologue := some (refusedCalls state.context)
          phase := .starting (allowedCalls state.context) (allowedCalls state.context) } := by
      unfold allowedCalls at nothing ⊢
      unfold resumeExecute refusedCalls
      rw [same]
      dsimp only
      split
      · rename_i none
        exact absurd none nothing
      · rfl
    rw [starts]
    have runs := calls_lead (outcomeOf permissions facts)
      (Approvals.cancelledBy permissions facts interrupted) nothing
      { reply with prologue := some (refusedCalls state.context) }
    rw [afterCalls_resumed rfl, ← outcomes_eq] at runs
    have left : (state.execute permissions reply.target reply.now (allowedCalls state.context)
        facts).context = executeCalls reply.target reply.now reply.context
          (Approvals.outcomes permissions facts (allowedCalls state.context)) := by
      rw [same]
      rfl
    unfold Approvals.resume
    dsimp only
    rw [if_neg nothing]
    cases raised : Approvals.raises permissions facts interrupted (allowedCalls state.context) with
    | true =>
        unfold Approvals.raises at raised
        rw [if_pos raised] at runs
        exact ⟨_, runs, left.symm⟩
    | false =>
        unfold Approvals.raises at raised
        rw [if_neg (Bool.eq_false_iff.mp raised)] at runs
        refine ⟨_, runs.denies, ?_⟩
        rw [if_neg Bool.false_ne_true]
        dsimp only
        rw [left]
        rfl

/-- A confirmation goes on as the resume of the batch. -/
theorem resume_of_confirm (facts : ToolCall → ToolFacts) (interrupted : Bool) (reply : Reply)
    (event : ConfirmEvent) (state : Approvals) (same : reply.context = state.context)
    (unnamed : reply.replyId = "") (unplaced : reply.messageId = "") :
    ∃ ended after,
      Approvals.step permissions state (.confirm event reply.now facts interrupted) = some ended ∧
      Leads (outcomeOf permissions facts) (Approvals.cancelledBy permissions facts interrupted)
        (reply.enterConfirm event.toolCallId event.approved event.replyId) after ∧
      after.context = ended.context := by
  cases accepted : acceptConfirmation state.context event.toolCallId event.approved with
  | none =>
      refine ⟨state, reply.enterConfirm event.toolCallId event.approved event.replyId, ?_,
        Leads.refl _, ?_⟩
      · simp only [Approvals.step, Approvals.confirmed, accepted]
      · unfold enterConfirm
        rw [same, accepted]
        rfl
  | some context =>
      let decided : Approvals := { state with
        context := context
        denials := if event.approved then state.denials else event.toolCallId :: state.denials }
      let going : Reply := { reply with
        context := context
        baseline := captureBaseline state.context
        replyId := if event.replyId = "" then "" else event.replyId
        messageId := (ownerOf state.context event.toolCallId).getD ""
        holdsTask := true }
      have placed : going.target = resumeTarget state.context event := by
        have named : (if event.replyId = "" then "" else event.replyId) = event.replyId := by
          by_cases empty : event.replyId = ""
          · rw [if_pos empty, empty]
          · exact if_neg empty
        unfold target resumeTarget
        dsimp only [going]
        rw [named]
      by_cases settled : (toolCallsInState context .asking).isEmpty = true
      · obtain ⟨after, leads, left⟩ := resumeExecute_leads permissions facts interrupted going decided
          rfl
        refine ⟨decided.resume permissions (resumeTarget state.context event) reply.now facts
          interrupted, after, ?_, ?_, placed ▸ left⟩
        · simp only [Approvals.step, Approvals.confirmed, accepted]
          rw [if_pos settled]
        · unfold enterConfirm
          rw [same, accepted, unnamed, unplaced]
          dsimp only
          rw [if_pos settled]
          exact leads
      · refine ⟨decided, { going with holdsTask := reply.holdsTask, paused := true, phase := .exited },
          ?_, ?_, rfl⟩
        · simp only [Approvals.step, Approvals.confirmed, accepted]
          rw [if_neg settled]
        · unfold enterConfirm
          rw [same, accepted, unnamed, unplaced]
          dsimp only
          rw [if_neg settled]
          exact Leads.refl _

private def askingContext : List Msg :=
  [Msg.plain "turn_0" .assistant [.toolCall ⟨"call_1", "bash", .empty, .asking, "t", none⟩,
    .toolCall ⟨"call_2", "read", .empty, .finished, "t", none⟩] "t"]

/-- A call is approved beside a refused one, and both are answered. -/
theorem approved_call_leads :
    ∃ after,
      Leads (outcomeOf unguarded works) (Approvals.cancelledBy unguarded works false)
        (((fresh 0).withContext askingContext).enterConfirm "call_1" true "") after ∧
      resultIds after.context = ["call_1", "call_2"] := by
  obtain ⟨_, after, confirmed, leads, same⟩ := resume_of_confirm unguarded works false
    ((fresh 0).withContext askingContext) ⟨"", "call_1", true⟩ { context := askingContext } rfl rfl
    rfl
  cases confirmed
  exact ⟨after, leads, congrArg resultIds same⟩

end Reply

end Ftre.Runtime
