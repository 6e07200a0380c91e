import Ftre.Runtime.ToolPermission

/-!
Pausing for approval. A run is watched for the approvals it asks for, the calls of the model
behind them and the tools it runs.
-/

namespace Ftre.Runtime

open Lib Message Session

/-- A session's runner with what one run of it has shown. -/
structure PauseRun where
  reply : Reply
  asked : Bool := false
  /-- The calls of the model since an approval was asked for. -/
  callsAfter : Nat := 0
  reasked : List String := []
  /-- The calls the run was resumed to execute. -/
  approved : List ToolCall := []
  ran : List ToolCall := []

inductive PauseAction where
  | toolsDone (facts : List ToolFacts) (cancelled : Bool)
  | runner (action : Reply.Action)

namespace PauseRun

open Reply

def batchCalls : RunPhase → Option (List ToolCall)
  | .starting calls _ => some calls
  | .waiting calls => some calls
  | _ => none

def resuming (reply : Reply) : Bool := (batchCalls reply.phase).isSome && reply.prologue.isSome

def resumedCalls (reply : Reply) : List ToolCall :=
  if resuming reply then (batchCalls reply.phase).getD [] else []

def called (run : PauseRun) : PauseRun :=
  { run with callsAfter := run.callsAfter + if run.asked then 1 else 0 }

def saw (run : PauseRun) (entry : Appended) : PauseRun :=
  match entry.data with
  | .approvalAsked toolCallId _ _ _ _ =>
      { run with
        asked := true
        reasked := if run.reply.prologue.isSome then run.reasked ++ [toolCallId] else run.reasked }
  | .turnRetry _ _ _ _ _ => run.called
  | _ => run

def sawItem (run : PauseRun) (item : Yield) : PauseRun :=
  match run.reply.advance item with
  | some (_, entry) => run.saw entry
  | none => run

def observe (run : PauseRun) (action : Reply.Action) (reply : Reply) : PauseRun :=
  match action with
  | .begin _ _ _ _ => { reply := reply }
  | .enter _ _ => { reply := reply, approved := resumedCalls reply }
  | .yields item => { run.sawItem item with reply := reply }
  | .cut item => { run.sawItem item with reply := reply }
  | .viewBuilt => { run.called with reply := reply }
  | _ => { run with reply := reply }

def executed (permissions : ToolPermissions) (calls : List ToolCall) (facts : List ToolFacts) :
    List (ToolCall × ToolOutcome × Bool) :=
  (calls.zip facts).map fun (call, facts) => (call, permissions.execute call facts)

def step (permissions : ToolPermissions) (run : PauseRun) : PauseAction → Option PauseRun
  | .toolsDone facts cancelled =>
      match run.reply.phase with
      | .waiting calls =>
          -- a resumed call is rebuilt from its block, which has arguments
          if resuming run.reply && facts.any ToolFacts.parseFailed then none
          else
            let results := executed permissions calls facts
            (run.reply.step (.toolsDone (results.map fun (_, outcome, _) => outcome) cancelled)).map
              fun reply =>
                { run with
                  reply := reply
                  ran := run.ran ++
                    (results.filter fun (_, _, ran) => ran).map fun (call, _, _) => call }
      | _ => none
  | .runner (.toolsDone _ _) => none
  | .runner action => (run.reply.step action).map (run.observe action)

def system (permissions : ToolPermissions) : StepSystem PauseRun PauseAction :=
  ⟨step permissions⟩

def Served (run : PauseRun) : Prop := ∀ call ∈ run.approved, call ∈ run.ran

def left : RunPhase → Bool
  | .exited => true
  | .closing _ _ => true
  | .idle => true
  | _ => false

def isAsking : RunPhase → Bool
  | .asking _ => true
  | _ => false

structure PauseLaw (run : PauseRun) : Prop where
  pauses : run.asked = true → isAsking run.reply.phase = true ∨
    left run.reply.phase = true ∧ run.reply.paused = true
  silent : run.callsAfter = 0
  once : run.reasked = []
  serves : resuming run.reply = true ∨ run.Served

end PauseRun

namespace ToolPermissions

/-- Nothing stands between an execution and its tool: no hook refuses it, the
rules allow it or the approval service does, it is not cancelled, and the
outcome does not ask. -/
structure Lets (permissions : ToolPermissions) (call : ToolCall) (facts : ToolFacts) : Prop where
  undenied : ∀ reason, facts.before ≠ .deny reason
  allowed : ∀ decision, permissions.permissionDecision call.name (givenArguments call facts) =
    some decision → decision.behavior = .allow ∨
      decision.behavior = .ask ∧ permissions.Approves facts
  running : facts.cancelled = false
  unasked : facts.outcome.approval = none

theorem execute_of_lets {permissions : ToolPermissions} {call : ToolCall} {facts : ToolFacts}
    (lets : permissions.Lets call facts) (parsed : facts.parseFailed = false) :
    permissions.execute call facts = (facts.outcome, true) := by
  have passes : permissions.gate call facts = .passes := by
    have opens : permissions.gateOf facts
        (permissions.permissionDecision call.name (givenArguments call facts)) = .passes := by
      cases decided : permissions.permissionDecision call.name (givenArguments call facts) with
      | none => rfl
      | some decision =>
          rcases lets.allowed decision decided with allows | ⟨asks, approves⟩
          · unfold gateOf
            dsimp only
            rw [allows]
          · exact (gateOf_ask asks).mpr approves
    unfold gate
    rw [if_neg (Bool.eq_false_iff.mp parsed)]
    cases before : facts.before with
    | deny reason => exact absurd before (lets.undenied reason)
    | proceed => exact opens
    | arguments given => exact opens
  unfold execute
  rw [passes, lets.running]
  rfl

end ToolPermissions

namespace PauseRun

open Reply

/-- A resumed batch is executed to its end with nothing in the way of its
calls, and no event that asks is lost. -/
def Undisturbed (permissions : ToolPermissions) (run : PauseRun) : PauseAction → Prop
  | .toolsDone facts _ =>
      resuming run.reply = true → ∀ calls, run.reply.phase = .waiting calls →
        ∀ pair ∈ calls.zip facts, permissions.Lets pair.1 pair.2
  | .runner (.cut _) => isAsking run.reply.phase = false ∧ resuming run.reply = false
  | .runner .interrupted => resuming run.reply = false
  | .runner .raised => resuming run.reply = false
  | _ => True

/-! ### What a step keeps -/

def outside : RunPhase → Bool
  | .recording _ _ _ _ => true
  | .building => true
  | .entering _ => true
  | .retrying _ => true
  | phase => left phase

def loose (phase : RunPhase) : Bool := !outside phase && (batchCalls phase).isNone

structure Good (run : PauseRun) : Prop where
  pauses : run.asked = true → isAsking run.reply.phase = true ∨
    left run.reply.phase = true ∧ run.reply.paused = true
  silent : run.callsAfter = 0
  once : run.reasked = []
  serves : resuming run.reply = true ∧ batchCalls run.reply.phase = some run.approved ∨ run.Served
  unresumed : loose run.reply.phase = true → run.reply.prologue = none

variable {run : PauseRun} {reply : Reply} {entry : Appended} {permissions : ToolPermissions}

theorem Good.law (good : run.Good) : run.PauseLaw where
  pauses := good.pauses
  silent := good.silent
  once := good.once
  serves := good.serves.imp_left And.left

structure Clear (run : PauseRun) : Prop where
  unasked : run.asked = false
  silent : run.callsAfter = 0
  once : run.reasked = []
  served : run.Served

theorem Good.clear {run : PauseRun} (good : run.Good) (running : left run.reply.phase = false)
    (quiet : isAsking run.reply.phase = false) (unresumed : resuming run.reply = false) :
    run.Clear where
  silent := good.silent
  once := good.once
  unasked := by
    rw [Bool.eq_false_iff]
    intro asked
    rcases good.pauses asked with asking | ⟨gone, _⟩
    · rw [quiet] at asking
      cases asking
    · rw [running] at gone
      cases gone
  served := by
    rcases good.serves with ⟨resumed, _⟩ | served
    · rw [unresumed] at resumed
      cases resumed
    · exact served

theorem Clear.good (clear : run.Clear) (free : outside reply.phase = true ∨ reply.prologue = none) :
    Good { run with reply := reply } where
  silent := clear.silent
  once := clear.once
  pauses asked := by
    rw [clear.unasked] at asked
    cases asked
  serves := Or.inr clear.served
  unresumed loosely := by
    rcases free with closed | none
    · unfold loose at loosely
      rw [closed] at loosely
      cases loosely
    · exact none

theorem Good.congr (good : run.Good) (phase : reply.phase = run.reply.phase)
    (prologue : reply.prologue = run.reply.prologue) (paused : reply.paused = run.reply.paused) :
    Good { run with reply := reply } where
  silent := good.silent
  once := good.once
  pauses asked := by
    rw [phase, paused]
    exact good.pauses asked
  serves := by
    unfold resuming
    rw [phase, prologue]
    exact good.serves
  unresumed loosely := by
    rw [phase] at loosely
    rw [prologue]
    exact good.unresumed loosely

theorem called_unasked (unasked : run.asked = false) : run.called = run := by
  cases run
  cases unasked
  rfl

def isAsk : EventData → Bool
  | .approvalAsked _ _ _ _ _ => true
  | _ => false

theorem saw_quiet (unasked : run.asked = false) (quiet : isAsk entry.data = false) :
    run.saw entry = run := by
  unfold saw
  cases shape : entry.data with
  | approvalAsked _ _ _ _ _ =>
      rw [shape] at quiet
      cases quiet
  | turnRetry _ _ _ _ _ => exact called_unasked unasked
  | _ => rfl

private theorem deny_prologue (reply : Reply) (calls : List ToolCall) :
    (reply.deny calls).prologue = none := by
  unfold deny
  split <;> rfl

private theorem outside_afterBatch (reply : Reply) (cancelled : Bool) :
    outside (reply.afterBatch cancelled).phase = true ∨
      (reply.afterBatch cancelled).prologue = none := by
  unfold afterBatch
  cases prologue : reply.prologue with
  | none =>
      cases cancelled with
      | true => exact Or.inl rfl
      | false => exact Or.inr rfl
  | some denied =>
      cases cancelled with
      | true => exact Or.inl rfl
      | false => exact Or.inr (deny_prologue reply denied)

private theorem outside_record (reply : Reply) (calls : List (ToolCall × ToolOutcome))
    (saying : Option (ToolCall × ToolOutcome)) (hints : List String) (cancelled : Bool) :
    outside (reply.record calls saying hints cancelled).phase = true ∨
      (reply.record calls saying hints cancelled).prologue = none := by
  unfold record
  split
  · exact outside_afterBatch reply cancelled
  · exact Or.inl rfl

private theorem advance_keeps {reply next : Reply} {item : Yield}
    (quiet : isAsking reply.phase = false)
    (unresumed : loose reply.phase = true → reply.prologue = none)
    (advanced : reply.advance item = some (next, entry)) :
    isAsk entry.data = false ∧ left reply.phase = false ∧
      ((batchCalls next.phase = batchCalls reply.phase ∧ (batchCalls reply.phase).isSome = true ∧
          next.prologue = reply.prologue) ∨
        (batchCalls reply.phase).isSome = false ∧
          (outside next.phase = true ∨ next.prologue = none)) := by
  unfold advance at advanced
  split at advanced
  case h_15 => cases advanced
  all_goals rename_i shape
  all_goals rw [shape] at unresumed quiet ⊢
  case h_1 =>
    cases advanced
    exact ⟨rfl, rfl, Or.inr ⟨rfl, Or.inr (unresumed rfl)⟩⟩
  case h_2 =>
    cases advanced
    exact ⟨rfl, rfl, Or.inr ⟨rfl, Or.inr (unresumed rfl)⟩⟩
  case h_3 =>
    split at advanced
    · cases advanced
    · cases advanced
      exact ⟨rfl, rfl, Or.inr ⟨rfl, Or.inr (unresumed rfl)⟩⟩
  case h_4 =>
    cases advanced
    exact ⟨rfl, rfl, Or.inr ⟨rfl, Or.inr (unresumed rfl)⟩⟩
  case h_5 =>
    cases advanced
    exact ⟨rfl, rfl, Or.inr ⟨rfl, Or.inr (unresumed rfl)⟩⟩
  case h_6 =>
    rename_i calls call rest
    cases advanced
    cases rest with
    | nil => exact ⟨rfl, rfl, Or.inl ⟨rfl, rfl, rfl⟩⟩
    | cons _ _ => exact ⟨rfl, rfl, Or.inl ⟨rfl, rfl, rfl⟩⟩
  case h_7 => cases quiet
  case h_8 =>
    split at advanced
    · cases advanced
      exact ⟨rfl, rfl, Or.inr ⟨rfl, outside_record ..⟩⟩
    · cases advanced
      exact ⟨rfl, rfl, Or.inr ⟨rfl, outside_record ..⟩⟩
  case h_9 =>
    cases advanced
    exact ⟨rfl, rfl, Or.inr ⟨rfl, outside_record ..⟩⟩
  case h_10 =>
    cases advanced
    exact ⟨rfl, rfl, Or.inr ⟨rfl, outside_record ..⟩⟩
  case h_11 =>
    cases advanced
    exact ⟨rfl, rfl, Or.inr ⟨rfl, Or.inr (unresumed rfl)⟩⟩
  case h_12 =>
    cases advanced
    exact ⟨rfl, rfl, Or.inr ⟨rfl, Or.inr (unresumed rfl)⟩⟩
  case h_13 =>
    cases advanced
    exact ⟨rfl, rfl, Or.inr ⟨rfl, Or.inr (deny_prologue ..)⟩⟩
  case h_14 =>
    split at advanced
    · cases advanced
      exact ⟨rfl, rfl, Or.inr ⟨rfl, Or.inr (unresumed rfl)⟩⟩
    · cases advanced

private theorem good_ask (good : run.Good) {next : Reply} {item : Yield}
    (asking : isAsking run.reply.phase = true)
    (advanced : run.reply.advance item = some (next, entry)) :
    Good { run.saw entry with reply := next } := by
  have served : run.Served := by
    rcases good.serves with ⟨resumed, _⟩ | served
    · unfold resuming at resumed
      cases phase : run.reply.phase with
      | asking _ =>
          rw [phase] at resumed
          cases resumed
      | _ =>
          rw [phase] at asking
          cases asking
    · exact served
  cases phase : run.reply.phase with
  | asking asks =>
      have unresumed : run.reply.prologue = none :=
        good.unresumed (by rw [phase]; rfl)
      unfold advance at advanced
      rw [phase] at advanced
      cases asks with
      | nil => cases item <;> cases advanced
      | cons ask rest =>
          obtain ⟨call, reason, rule⟩ := ask
          cases item with
          | next =>
              dsimp only at advanced
              rw [unresumed] at advanced
              cases advanced
              unfold saw
              dsimp only
              rw [unresumed]
              cases rest with
              | nil =>
                  exact
                    { silent := good.silent
                      once := good.once
                      pauses := fun _ => Or.inr ⟨rfl, rfl⟩
                      serves := Or.inr served
                      unresumed := nofun }
              | cons _ _ =>
                  exact
                    { silent := good.silent
                      once := good.once
                      pauses := fun _ => Or.inl rfl
                      serves := Or.inr served
                      unresumed := fun _ => rfl }
          | _ => cases advanced
  | _ =>
      rw [phase] at asking
      cases asking

private theorem good_yields (good : run.Good) {next : Reply} {item : Yield}
    (advanced : run.reply.advance item = some (next, entry)) :
    Good { run.saw entry with reply := next } := by
  cases quiet : isAsking run.reply.phase with
  | true => exact good_ask good quiet advanced
  | false =>
      obtain ⟨noAsk, running, batch⟩ := advance_keeps quiet good.unresumed advanced
      have unasked : run.asked = false := by
        rw [Bool.eq_false_iff]
        intro asked
        rcases good.pauses asked with asking | ⟨gone, _⟩
        · rw [quiet] at asking
          cases asking
        · rw [running] at gone
          cases gone
      rw [saw_quiet unasked noAsk]
      rcases batch with ⟨same, open_, prologue⟩ | ⟨closed, free⟩
      · exact
          { silent := good.silent
            once := good.once
            pauses := fun asked => by
              rw [unasked] at asked
              cases asked
            serves := by
              unfold resuming
              rw [same, prologue]
              exact good.serves
            unresumed := by
              intro loosely
              unfold loose at loosely
              rw [same, Option.isNone_eq_false_iff.mpr open_, Bool.and_false] at loosely
              cases loosely }
      · have unresumed : resuming run.reply = false := by
          unfold resuming
          rw [closed, Bool.false_and]
        exact (good.clear running quiet unresumed).good free

private theorem enter_unresumed (reply : Reply) (input : Entering) (replyId messageId : String)
    (loosely : loose (reply.enter input replyId messageId).phase = true) :
    (reply.enter input replyId messageId).prologue = none := by
  cases input with
  | messages inputs =>
      unfold enter enterMessages at loosely ⊢
      dsimp only at loosely ⊢
      split
      · rename_i refused
        rw [refused] at loosely
        cases loosely
      · rfl
  | confirm toolCallId approved confirmed =>
      unfold enter enterConfirm at loosely ⊢
      dsimp only at loosely ⊢
      split
      · rename_i refused
        rw [refused] at loosely
        cases loosely
      · rename_i context accepted
        rw [accepted] at loosely
        dsimp only at loosely ⊢
        by_cases settled : (MessageContext.toolCallsInState context .asking).isEmpty = true
        · rw [if_pos settled] at loosely ⊢
          unfold resumeExecute at loosely ⊢
          dsimp only at loosely ⊢
          split
          · exact deny_prologue ..
          · rename_i some
            split at loosely
            · contradiction
            · cases loosely
        · rw [if_neg settled] at loosely
          cases loosely

private theorem good_enter (reply : Reply) (input : Entering) (replyId messageId : String) :
    Good { reply := reply.enter input replyId messageId
           approved := resumedCalls (reply.enter input replyId messageId) } where
  pauses asked := by cases asked
  silent := rfl
  once := rfl
  unresumed := enter_unresumed reply input replyId messageId
  serves := by
    cases resumed : resuming (reply.enter input replyId messageId) with
    | true =>
        refine Or.inl ⟨rfl, ?_⟩
        unfold resumedCalls
        rw [if_pos resumed]
        unfold resuming at resumed
        obtain ⟨calls, batch⟩ := Option.isSome_iff_exists.mp (Bool.and_eq_true_iff.mp resumed).1
        dsimp only
        rw [batch, Option.getD_some]
    | false =>
        refine Or.inr fun call member => ?_
        unfold resumedCalls at member
        rw [resumed] at member
        cases member

private theorem executed_lets {calls : List ToolCall} {facts : List ToolFacts}
    (lets : ∀ pair ∈ calls.zip facts, permissions.Lets pair.1 pair.2)
    (parsed : ∀ fact ∈ facts, fact.parseFailed = false) :
    executed permissions calls facts =
      (calls.zip facts).map fun (call, facts) => (call, facts.outcome, true) := by
  unfold executed
  apply List.map_congr_left
  intro pair member
  change (pair.1, permissions.execute pair.1 pair.2) = _
  rw [ToolPermissions.execute_of_lets (lets pair member) (parsed _ (List.of_mem_zip member).2)]

private theorem gather_unasked {results : List (ToolCall × ToolOutcome)}
    (unasked : ∀ result ∈ results, result.2.approval = none) (cancelled : Bool) :
    reply.gather results cancelled = reply.record results none [] cancelled := by
  unfold gather
  rw [List.filterMap_eq_nil_iff.mpr]
  intro result member
  change result.2.approval.map _ = _
  rw [unasked result member]
  rfl

private theorem outside_gather (reply : Reply) (results : List (ToolCall × ToolOutcome))
    (cancelled : Bool) (unresumed : reply.prologue = none) :
    outside (reply.gather results cancelled).phase = true ∨
      (reply.gather results cancelled).prologue = none := by
  unfold gather
  split
  · exact outside_record ..
  · exact Or.inr unresumed

private theorem good_toolsDone (good : run.Good) {calls : List ToolCall} {facts : List ToolFacts}
    {cancelled : Bool} (waiting : run.reply.phase = .waiting calls)
    (complete : calls.length ≤ facts.length)
    (lets : resuming run.reply = true → ∀ pair ∈ calls.zip facts, permissions.Lets pair.1 pair.2)
    (parsed : resuming run.reply = true → ∀ fact ∈ facts, fact.parseFailed = false) :
    Good
      { run with
        reply := run.reply.gather
          (calls.zip ((executed permissions calls facts).map fun (_, outcome, _) => outcome))
          cancelled
        ran := run.ran ++ ((executed permissions calls facts).filter fun (_, _, ran) => ran).map
          fun (call, _, _) => call } := by
  have unasked : run.asked = false := by
    rw [Bool.eq_false_iff]
    intro asked
    have pauses := good.pauses asked
    rw [waiting] at pauses
    rcases pauses with asking | ⟨gone, _⟩
    · cases asking
    · cases gone
  cases resumed : resuming run.reply with
  | true =>
      have passed := lets resumed
      have read := parsed resumed
      have served : ∀ call ∈ run.approved, call ∈ run.ran ++
          ((executed permissions calls facts).filter fun (_, _, ran) => ran).map
            fun (call, _, _) => call := by
        intro call member
        rw [List.mem_append]
        rcases good.serves with ⟨_, batch⟩ | served
        · rw [waiting] at batch
          cases batch
          right
          obtain ⟨index, bound, rfl⟩ := List.getElem_of_mem member
          rw [executed_lets passed read, List.mem_map]
          refine ⟨(run.approved[index], facts[index].outcome, true), ?_, rfl⟩
          rw [List.mem_filter]
          refine ⟨List.mem_map.mpr ⟨(run.approved[index], facts[index]), ?_, rfl⟩, rfl⟩
          rw [List.mem_iff_getElem]
          refine ⟨index, ?_, List.getElem_zip⟩
          rw [List.length_zip]
          omega
        · exact Or.inl (served call member)
      have quiet : ∀ result ∈ calls.zip
          ((executed permissions calls facts).map fun (_, outcome, _) => outcome),
          result.2.approval = none := by
        intro result member
        have outcome := (List.of_mem_zip member).2
        rw [executed_lets passed read, List.map_map] at outcome
        obtain ⟨pair, paired, same⟩ := List.mem_map.mp outcome
        rw [← same]
        exact (passed pair paired).unasked
      rw [gather_unasked quiet]
      have clear : Clear { run with
          ran := run.ran ++ ((executed permissions calls facts).filter fun (_, _, ran) => ran).map
            fun (call, _, _) => call } :=
        ⟨unasked, good.silent, good.once, served⟩
      exact clear.good (outside_record ..)
  | false =>
      have unresumed : run.reply.prologue = none := by
        unfold resuming at resumed
        rw [waiting] at resumed
        exact Option.isSome_eq_false_iff.mp resumed |> Option.isNone_iff_eq_none.mp
      have served : run.Served := by
        rcases good.serves with ⟨open_, _⟩ | served
        · rw [resumed] at open_
          cases open_
        · exact served
      have clear : Clear { run with
          ran := run.ran ++ ((executed permissions calls facts).filter fun (_, _, ran) => ran).map
            fun (call, _, _) => call } :=
        ⟨unasked, good.silent, good.once,
          fun call member => List.mem_append_left _ (served call member)⟩
      exact clear.good (outside_gather _ _ _ unresumed)

private theorem Good.between (good : run.Good) {phase : RunPhase} (shape : run.reply.phase = phase)
    (running : left phase = false) (quiet : isAsking phase = false)
    (batch : (batchCalls phase).isSome = false) : run.Clear := by
  subst shape
  refine good.clear running quiet ?_
  unfold resuming
  rw [batch, Bool.false_and]

private theorem Good.unasked_of_unpaused (good : run.Good) (exited : run.reply.phase = .exited)
    (unpaused : run.reply.paused = false) : run.Clear where
  silent := good.silent
  once := good.once
  unasked := by
    rw [Bool.eq_false_iff]
    intro asked
    have pauses := good.pauses asked
    rw [exited, unpaused] at pauses
    rcases pauses with asking | ⟨_, paused⟩
    · cases asking
    · cases paused
  served := by
    rcases good.serves with ⟨_, batch⟩ | served
    · rw [exited] at batch
      cases batch
    · exact served

private theorem Good.leaves (good : run.Good) (gone : left run.reply.phase = true)
    (phase : left reply.phase = true) (paused : reply.paused = run.reply.paused) :
    Good { run with reply := reply } where
  silent := good.silent
  once := good.once
  pauses asked := by
    rcases good.pauses asked with asking | ⟨_, held⟩
    · cases shape : run.reply.phase with
      | asking _ =>
          rw [shape] at gone
          cases gone
      | _ =>
          rw [shape] at asking
          cases asking
    · exact Or.inr ⟨phase, paused.trans held⟩
  serves := by
    rcases good.serves with ⟨_, batch⟩ | served
    · cases shape : run.reply.phase with
      | starting _ _ =>
          rw [shape] at gone
          cases gone
      | waiting _ =>
          rw [shape] at gone
          cases gone
      | _ =>
          rw [shape] at batch
          cases batch
    · exact Or.inr served
  unresumed loosely := by
    cases shape : reply.phase with
    | exited =>
        rw [shape] at loosely
        cases loosely
    | closing _ _ =>
        rw [shape] at loosely
        cases loosely
    | idle =>
        rw [shape] at loosely
        cases loosely
    | _ =>
        rw [shape] at phase
        cases phase

private theorem decideNext_prologue (reply : Reply) (prev : Option TurnResult) :
    (reply.decideNext prev).prologue = reply.prologue := by
  unfold decideNext
  repeat' split
  all_goals rfl

private theorem good_left (good : run.Good) {reason : ReplyFinishedReason}
    (waiting : awaits run.reply.phase = true) (unresumed : resuming run.reply = false) :
    Good { run with reply := run.reply.finalize reason } := by
  have clear : run.Clear := by
    cases shape : run.reply.phase with
    | reasoning _ => exact good.between shape rfl rfl rfl
    | viewing => exact good.between shape rfl rfl rfl
    | streaming _ => exact good.between shape rfl rfl rfl
    | exiting => exact good.between shape rfl rfl rfl
    | waiting _ => exact good.clear (by rw [shape]; rfl) (by rw [shape]; rfl) unresumed
    | _ =>
        rw [shape] at waiting
        cases waiting
  exact clear.good (Or.inl rfl)

private theorem good_runner (good : run.Good) {action : Reply.Action}
    (moved : run.reply.step action = some reply)
    (undisturbed : Undisturbed permissions run (.runner action))
    (alone : ∀ outcomes cancelled, action ≠ .toolsDone outcomes cancelled) :
    Good (run.observe action reply) := by
  have unresumed := good.unresumed
  cases action with
  | begin turnId model maxIterations maxContinuations =>
      dsimp only [Reply.step] at moved
      split at moved
      · cases moved
        have fresh : Clear { reply := run.reply } :=
          ⟨rfl, rfl, rfl, fun call never => (List.not_mem_nil never).elim⟩
        exact fresh.good (Or.inl rfl)
      · cases moved
  | built input context =>
      dsimp only [Reply.step] at moved
      split at moved
      · rename_i shape
        cases moved
        exact (good.between shape rfl rfl rfl).good (Or.inl rfl)
      · cases moved
  | buildFails =>
      dsimp only [Reply.step] at moved
      split at moved
      · rename_i shape
        cases moved
        exact (good.between shape rfl rfl rfl).good (Or.inl rfl)
      · cases moved
  | enter replyId messageId =>
      dsimp only [Reply.step] at moved
      split at moved
      · cases moved
        exact good_enter ..
      · cases moved
  | decides =>
      dsimp only [Reply.step] at moved
      split at moved
      · rename_i prev shape
        cases moved
        rw [shape] at unresumed
        exact (good.between shape rfl rfl rfl).good
          (Or.inr ((decideNext_prologue _ _).trans (unresumed rfl)))
      · cases moved
  | hookAnswers messages freshId =>
      dsimp only [Reply.step] at moved
      split at moved
      · rename_i hint shape
        cases moved
        rw [shape] at unresumed
        exact (good.between shape rfl rfl rfl).good (Or.inr (unresumed rfl))
      · cases moved
  | viewBuilt =>
      dsimp only [Reply.step] at moved
      split at moved
      · rename_i shape
        cases moved
        rw [shape] at unresumed
        have clear := good.between shape rfl rfl rfl
        unfold observe
        dsimp only
        rw [called_unasked clear.unasked]
        exact clear.good (Or.inr (unresumed rfl))
      · cases moved
  | yields item =>
      obtain ⟨⟨next, entry⟩, advanced, same⟩ := Option.map_eq_some_iff.mp moved
      cases same
      have yielded := good_yields good advanced
      unfold observe sawItem
      dsimp only
      rw [advanced, noted_eq]
      exact yielded.congr rfl rfl rfl
  | cut item =>
      obtain ⟨⟨next, entry⟩, advanced, same⟩ := Option.map_eq_some_iff.mp moved
      cases same
      obtain ⟨quiet, closed⟩ := undisturbed
      obtain ⟨noAsk, running, _⟩ := advance_keeps quiet good.unresumed advanced
      have clear := good.clear running quiet closed
      unfold observe sawItem
      dsimp only
      rw [advanced]
      dsimp only
      rw [saw_quiet clear.unasked noAsk]
      exact clear.good (Or.inl rfl)
  | textBlockEnds | thinkingBlockEnds | callRepeated =>
      obtain ⟨response, later, shape, rfl⟩ := step_stays moved rfl
      rw [shape] at unresumed
      exact (good.between shape rfl rfl rfl).good (Or.inr (unresumed rfl))
  | responseEnds reason usage =>
      dsimp only [Reply.step] at moved
      split at moved
      · rename_i response shape
        cases moved
        rw [shape] at unresumed
        exact (good.between shape rfl rfl rfl).good (Or.inr (unresumed rfl))
      · cases moved
  | responseFails =>
      dsimp only [Reply.step] at moved
      split at moved
      · rename_i response shape
        cases moved
        rw [shape] at unresumed
        exact (good.between shape rfl rfl rfl).good (Or.inr (unresumed rfl))
      · cases moved
  | responseCancelled =>
      dsimp only [Reply.step] at moved
      split at moved
      · rename_i response shape
        cases moved
        exact (good.between shape rfl rfl rfl).good (Or.inl rfl)
      · cases moved
  | toolsDone outcomes cancelled => exact absurd rfl (alone outcomes cancelled)
  | stops =>
      dsimp only [Reply.step] at moved
      split at moved
      · rename_i shape
        cases moved
        exact (good.between shape rfl rfl rfl).good (Or.inl rfl)
      · cases moved
  | interrupted =>
      dsimp only [Reply.step] at moved
      split at moved
      · rename_i waiting
        cases moved
        exact good_left good waiting undisturbed
      · cases moved
  | raised =>
      dsimp only [Reply.step] at moved
      split at moved
      · rename_i waiting
        cases moved
        exact good_left good waiting undisturbed
      · cases moved
  | recovers view input =>
      dsimp only [Reply.step] at moved
      split at moved
      · rename_i shape
        split at moved
        · rename_i may
          cases moved
          have unpaused : run.reply.paused = false := by
            unfold mayRecover at may
            exact Bool.not_eq_true' _ ▸ (Bool.and_eq_true_iff.mp may).1
          exact (good.unasked_of_unpaused shape unpaused).good (Or.inl rfl)
        · cases moved
      · cases moved
  | retryAppended code message attempt maxAttempts =>
      dsimp only [Reply.step] at moved
      split at moved
      · rename_i input shape
        cases moved
        exact (good.between shape rfl rfl rfl).good (Or.inl rfl)
      · cases moved
  | retryLost =>
      dsimp only [Reply.step] at moved
      split at moved
      · rename_i input shape
        cases moved
        exact (good.between shape rfl rfl rfl).good (Or.inl rfl)
      · cases moved
  | closes =>
      dsimp only [Reply.step] at moved
      split at moved
      · rename_i shape
        cases moved
        exact good.leaves (by rw [shape]; rfl) rfl rfl
      · cases moved
  | finalAppended =>
      dsimp only [Reply.step] at moved
      split at moved
      · rename_i payload rest emitted shape
        cases moved
        have gone : left run.reply.phase = true := by rw [shape]; rfl
        unfold closeNext
        dsimp only
        split
        · exact good.leaves gone rfl rfl
        · split
          · exact good.leaves gone rfl rfl
          · rw [noted_eq]
            exact good.leaves gone rfl rfl
      · cases moved
  | finalRaises =>
      dsimp only [Reply.step] at moved
      split at moved
      · rename_i payload rest emitted shape
        cases moved
        rw [noted_eq]
        exact good.leaves (by rw [shape]; rfl) rfl rfl
      · cases moved
  | turnEnds data =>
      dsimp only [Reply.step] at moved
      split at moved
      · rename_i emitted shape
        cases moved
        exact good.leaves (by rw [shape]; rfl) rfl rfl
      · cases moved
  | endLost =>
      dsimp only [Reply.step] at moved
      split at moved
      · rename_i shape
        cases moved
        exact good.leaves (by rw [shape]; rfl) rfl rfl
      · rename_i finals emitted shape
        cases moved
        exact good.leaves (by rw [shape]; rfl) rfl rfl
      · cases moved
  | appended entry =>
      dsimp only [Reply.step] at moved
      split at moved
      · cases moved
        exact good.congr rfl rfl rfl
      · cases moved
  | tick time =>
      cases moved
      exact good.congr rfl rfl rfl

theorem good_step {before after : PauseRun} {action : PauseAction} (good : before.Good)
    (undisturbed : Undisturbed permissions before action)
    (stepped : (system permissions).step before action = some after) : after.Good := by
  cases action with
  | toolsDone facts cancelled =>
      simp only [system, step] at stepped
      split at stepped
      · rename_i calls waiting
        obtain ⟨read, ran⟩ := Option.ite_none_left_eq_some.mp stepped
        obtain ⟨reply, moved, rfl⟩ := Option.map_eq_some_iff.mp ran
        have parsed : resuming before.reply = true → ∀ fact ∈ facts, fact.parseFailed = false := by
          intro resumed fact member
          rw [resumed, Bool.true_and, List.any_eq_true] at read
          exact Bool.eq_false_iff.mpr fun failed => read ⟨fact, member, failed⟩
        simp only [Reply.step, waiting] at moved
        split at moved
        · rename_i complete
          cases moved
          refine good_toolsDone good waiting ?_
            (fun resumed => undisturbed resumed calls waiting) parsed
          unfold executed at complete
          rw [List.length_map, List.length_map, List.length_zip] at complete
          omega
        · cases moved
      · cases stepped
  | runner action =>
      have moved : (∀ outcomes cancelled, action ≠ .toolsDone outcomes cancelled) ∧
          ∃ reply, before.reply.step action = some reply ∧ before.observe action reply = after := by
        cases action with
        | toolsDone outcomes cancelled => cases stepped
        | _ => exact ⟨nofun, Option.map_eq_some_iff.mp stepped⟩
      obtain ⟨alone, reply, ran, rfl⟩ := moved
      exact good_runner good ran undisturbed alone

/-- Where nothing stands in the way of the resumed batches, a run that asked ends paused without a
call of the model, and every call it was resumed for is run. -/
theorem pauseLaw_of_undisturbed {permissions : ToolPermissions} {reply : Reply} {run : PauseRun}
    (idle : reply.phase = .idle)
    (reached : (system permissions).Reaches (Undisturbed permissions) { reply := reply } run) :
    run.PauseLaw := by
  have initially : Good { reply := reply } := by
    have fresh : Clear { reply := reply } :=
      ⟨rfl, rfl, rfl, fun call never => (List.not_mem_nil never).elim⟩
    exact fresh.good (Or.inl (by rw [idle]; rfl))
  exact (reached.invariant initially fun _ _ _ good allowed stepped =>
    good_step good allowed stepped).law

private def shellCall : ContentBlock :=
  .toolCall ⟨"call", "shell", .empty, .asking, "", none⟩

private def waitingForOne : PauseRun where
  reply := { fresh 0 with
    fold := FoldState.empty.insert (Msg.plain "m" .assistant [shellCall] "") }

private def asksAlways (hasApproval : Bool) : ToolPermissions where
  fullmatch := fun _ _ => false
  context := some ⟨[⟨"rule", "*", .empty, .ask, 0, true⟩], .allow⟩
  hasApproval := hasApproval

private def unhindered : ToolFacts where
  before := .proceed
  approval := ⟨.allowed, ""⟩
  cancelled := false
  outcome := ⟨"done", none, .empty, none, none⟩

/-- The user allows the call, the rule asks for it again, and the model is
called with the approval open. -/
theorem allowed_call_asks_again :
    ∃ run, (system (asksAlways false)).Reaches StepSystem.anyStep waitingForOne run ∧
      run.reasked = ["call"] ∧ ¬ run.PauseLaw := by
  refine ⟨?final, ?run, ?again, ?fact⟩
  case run =>
    refine .head (.runner (.begin "confirm" "model" none 3)) trivial rfl ?_
    refine .head (.runner (.built (.confirm "call" true "m")
      waitingForOne.reply.fold.messages.items)) trivial rfl ?_
    refine .head (.runner (.enter "" "")) trivial rfl ?_
    refine .head (.runner (.yields .next)) trivial rfl ?_
    refine .head (.toolsDone [unhindered] false) trivial rfl ?_
    refine .head (.runner (.yields .next)) trivial rfl ?_
    refine .head (.runner .decides) trivial rfl ?_
    refine .head (.runner (.hookAnswers [] "")) trivial rfl ?_
    refine .head (.runner .viewBuilt) trivial rfl ?_
    exact Relation.ReflTransGen.refl
  case again => rfl
  case fact =>
    intro law
    cases law.silent

/-- With an approval service that allows the call it is run. -/
theorem allowed_call_runs :
    ∃ run, (system (asksAlways true)).Reaches (Undisturbed (asksAlways true)) waitingForOne run ∧
      run.approved = run.ran ∧ run.ran.length = 1 ∧ run.PauseLaw := by
  have lets : ∀ {calls : List ToolCall}, RunPhase.waiting [⟨"call", "shell", .empty⟩] =
      .waiting calls → ∀ {pair : ToolCall × ToolFacts}, pair ∈ calls.zip [unhindered] →
      (asksAlways true).Lets pair.1 pair.2 := by
    intro calls waiting pair member
    cases waiting
    cases List.mem_singleton.mp member
    exact
      { undenied := nofun
        allowed := fun decision decided => by
          cases decided
          exact Or.inr ⟨rfl, rfl, rfl⟩
        running := rfl
        unasked := rfl }
  refine ⟨?final, ?run, ?ran, ?one, pauseLaw_of_undisturbed rfl ?run⟩
  case run =>
    refine .head (.runner (.begin "confirm" "model" none 3)) trivial rfl ?_
    refine .head (.runner (.built (.confirm "call" true "m")
      waitingForOne.reply.fold.messages.items)) trivial rfl ?_
    refine .head (.runner (.enter "" "")) trivial rfl ?_
    refine .head (.runner (.yields .next)) trivial rfl ?_
    refine .head (.toolsDone [unhindered] false)
      (fun _ _ waiting _ member => lets waiting member) rfl ?_
    exact Relation.ReflTransGen.refl
  case ran => rfl
  case one => rfl

end PauseRun

end Ftre.Runtime
