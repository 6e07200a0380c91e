import Ftre.Lib.Potential
import Ftre.Runtime.ReactRunner

/-!
How long the loop of a run can go on.
-/

namespace Ftre.Runtime

open Lib Message Session

namespace Reply

/-- The loop has been left. -/
def hasExited (reply : Reply) : Bool :=
  match reply.phase with
  | .exited => true
  | _ => false

/-- The loop decides what it does next. -/
def passes : Reply → Action → Bool
  | _, .decides => true
  | _, _ => false

def isReasoning : RunPhase → Bool
  | .reasoning _ => true
  | _ => false

/-- The loop starts a reasoning. -/
def reasons (reply : Reply) : Action → Bool
  | .decides =>
      match reply.phase with
      | .deciding prev => isReasoning (reply.decideNext prev).phase
      | _ => false
  | _ => false

def TurnResult.isEmpty (result : TurnResult) : Bool :=
  !result.failed && result.toolCalls.isEmpty && decide (strip result.text = "")

/-- The loop meets an empty response. -/
def meetsEmpty (reply : Reply) : Action → Bool
  | .decides =>
      match reply.phase with
      | .deciding (some prev) => TurnResult.isEmpty prev
      | _ => false
  | _ => false

/-- The stop decision is to go on, and is followed. -/
def continues : Reply → Action → Bool
  | _, .yields (.goOn _) => true
  | _, _ => false

def passesAhead : RunPhase → Nat
  | .exited => 0
  | .deciding none => 1
  | .deciding (some _) => 2
  | .reasoning _ => 2
  | .hinting _ => 2
  | .viewing => 2
  | .streaming _ => 2
  | _ => 1

def attemptsLeft (reply : Reply) : Nat :=
  maxEmptyResponseRetries - reply.emptyRetries + (!reply.inFinalization).toNat

def reasoningsLeft (limit : Nat) (reply : Reply) : Nat :=
  limit - reply.iteration + reply.attemptsLeft

def passesLeft (limit : Nat) (reply : Reply) : Nat :=
  2 * reply.reasoningsLeft limit + passesAhead reply.phase

def emptiesLeft (reply : Reply) : Nat :=
  reply.attemptsLeft + (!reply.hasExited).toNat

def continuationsLeft (reply : Reply) : Nat :=
  (reply.maxContinuations - reply.continuationCount).toNat

/-! ### Steps -/

def insideRun : RunPhase → Bool
  | .idle => false
  | .building => false
  | .retrying _ => false
  | .entering _ => false
  | .closing _ _ => false
  | _ => true

structure Onwards (before after : Reply) : Prop where
  insideRun : insideRun after.phase = true
  maxIterations : after.maxIterations = before.maxIterations
  iteration : after.iteration = before.iteration
  emptyRetries : after.emptyRetries = before.emptyRetries
  inFinalization : after.inFinalization = before.inFinalization
  maxContinuations : after.maxContinuations = before.maxContinuations
  continuationCount : before.continuationCount ≤ after.continuationCount
  passesAhead : passesAhead after.phase ≤ passesAhead before.phase

theorem Onwards.trans {first second third : Reply} (left : Onwards first second)
    (right : Onwards second third) : Onwards first third where
  insideRun := right.insideRun
  maxIterations := right.maxIterations.trans left.maxIterations
  iteration := right.iteration.trans left.iteration
  emptyRetries := right.emptyRetries.trans left.emptyRetries
  inFinalization := right.inFinalization.trans left.inFinalization
  maxContinuations := right.maxContinuations.trans left.maxContinuations
  continuationCount := left.continuationCount.trans right.continuationCount
  passesAhead := right.passesAhead.trans left.passesAhead

theorem onwards_finalize (reply : Reply) (reason : ReplyFinishedReason) :
    Onwards reply (reply.finalize reason) :=
  ⟨rfl, rfl, rfl, rfl, rfl, rfl, Int.le_refl _, Nat.zero_le _⟩

variable {reply : Reply} {before after : Reply} {prev : Option TurnResult}

theorem onwards_deny (calls : List ToolCall) (ahead : 1 ≤ passesAhead reply.phase) :
    Onwards reply (reply.deny calls) := by
  unfold deny
  split
  · exact ⟨rfl, rfl, rfl, rfl, rfl, rfl, Int.le_refl _, ahead⟩
  · exact ⟨rfl, rfl, rfl, rfl, rfl, rfl, Int.le_refl _, ahead⟩

theorem onwards_afterBatch (cancelled : Bool) (ahead : 1 ≤ passesAhead reply.phase) :
    Onwards reply (reply.afterBatch cancelled) := by
  unfold afterBatch
  repeat' split
  · exact onwards_finalize reply _
  · exact ⟨rfl, rfl, rfl, rfl, rfl, rfl, Int.le_refl _, ahead⟩
  · exact onwards_finalize reply _
  · exact onwards_deny _ ahead

theorem onwards_record (calls : List (ToolCall × ToolOutcome))
    (saying : Option (ToolCall × ToolOutcome)) (hints : List String) (cancelled : Bool)
    (ahead : 1 ≤ passesAhead reply.phase) :
    Onwards reply (reply.record calls saying hints cancelled) := by
  unfold record
  split
  · exact onwards_afterBatch cancelled ahead
  · exact ⟨rfl, rfl, rfl, rfl, rfl, rfl, Int.le_refl _, ahead⟩

theorem onwards_gather (results : List (ToolCall × ToolOutcome)) (cancelled : Bool)
    (ahead : 1 ≤ passesAhead reply.phase) : Onwards reply (reply.gather results cancelled) := by
  unfold gather
  split
  · exact onwards_record results none [] cancelled ahead
  · exact ⟨rfl, rfl, rfl, rfl, rfl, rfl, Int.le_refl _, ahead⟩

theorem advance_onwards {reply next : Reply} {item : Yield} {entry : Appended}
    (advanced : reply.advance item = some (next, entry)) :
    Onwards reply next ∧ ∀ prompt, item = .goOn prompt →
      reply.continuationCount < reply.maxContinuations ∧
        next.continuationCount = reply.continuationCount + 1 := by
  unfold advance at advanced
  split at advanced
  case h_14 =>
    rename_i prompt shape
    split at advanced
    · rename_i allowed
      cases advanced
      have ahead := (congrArg passesAhead shape).ge
      exact ⟨⟨rfl, rfl, rfl, rfl, rfl, rfl, Int.le_add_one (Int.le_refl _), ahead⟩,
        fun _ _ => ⟨allowed, rfl⟩⟩
    · cases advanced
  case h_15 => cases advanced
  all_goals rename_i shape
  all_goals refine ⟨?_, fun prompt other => by cases other⟩
  all_goals have ahead := (congrArg passesAhead shape).ge
  case h_3 =>
    split at advanced
    · cases advanced
    · cases advanced
      exact ⟨rfl, rfl, rfl, rfl, rfl, rfl, Int.le_refl _, ahead⟩
  case h_6 =>
    rename_i calls call rest
    cases advanced
    cases rest with
    | nil => exact ⟨rfl, rfl, rfl, rfl, rfl, rfl, Int.le_refl _, ahead⟩
    | cons _ _ => exact ⟨rfl, rfl, rfl, rfl, rfl, rfl, Int.le_refl _, ahead⟩
  case h_7 =>
    rename_i call reason rule rest
    cases advanced
    have asked : Onwards reply
        { reply with context := MessageContext.setToolCallState reply.context call.id .asking } :=
      ⟨(congrArg Reply.insideRun shape).trans rfl, rfl, rfl, rfl, rfl, rfl, Int.le_refl _, Nat.le_refl _⟩
    dsimp only
    split
    · split
      · exact ⟨rfl, rfl, rfl, rfl, rfl, rfl, Int.le_refl _, Nat.zero_le _⟩
      · exact asked.trans (onwards_deny _ ahead)
    · exact ⟨rfl, rfl, rfl, rfl, rfl, rfl, Int.le_refl _, ahead⟩
  case h_8 =>
    rename_i call outcome rest hints cancelled
    have recorded : Onwards reply (reply.recordResult call outcome) :=
      ⟨(congrArg Reply.insideRun shape).trans rfl, rfl, rfl, rfl, rfl, rfl, Int.le_refl _, Nat.le_refl _⟩
    split at advanced
    · cases advanced
      exact recorded.trans (onwards_record _ _ _ _ ahead)
    · cases advanced
      exact recorded.trans (onwards_record _ _ _ _ ahead)
  case h_9 =>
    cases advanced
    exact onwards_record _ _ _ _ ahead
  case h_10 =>
    rename_i hint hints cancelled
    cases advanced
    have hinted : Onwards reply (reply.addHint hint "tool") :=
      ⟨(congrArg Reply.insideRun shape).trans rfl, rfl, rfl, rfl, rfl, rfl, Int.le_refl _, Nat.le_refl _⟩
    exact hinted.trans (onwards_record _ _ _ _ ahead)
  case h_13 =>
    cases advanced
    exact onwards_deny _ ahead
  all_goals
    cases advanced
    exact ⟨rfl, rfl, rfl, rfl, rfl, rfl, Int.le_refl _, ahead⟩

theorem Onwards.noted (onwards : Onwards before after) (entry : Appended) :
    Onwards before (after.noted entry) := by
  rw [noted_eq]
  exact ⟨onwards.1, onwards.2, onwards.3, onwards.4, onwards.5, onwards.6, onwards.7, onwards.8⟩

theorem Onwards.push (onwards : Onwards before after) (entry : Appended) :
    Onwards before (after.push entry) :=
  ⟨onwards.1, onwards.2, onwards.3, onwards.4, onwards.5, onwards.6, onwards.7, onwards.8⟩

theorem Onwards.exited (onwards : Onwards before after) (paused : Bool) :
    Onwards before { after with
      paused := paused
      phase := .exited } :=
  ⟨rfl, onwards.2, onwards.3, onwards.4, onwards.5, onwards.6, onwards.7, Nat.zero_le _⟩

inductive Decision (reply : Reply) (prev : Option TurnResult) : Reply → Prop where
  | ends (reason : ReplyFinishedReason) : Decision reply prev (reply.finalize reason)
  | acts (result : TurnResult) (phase : RunPhase) (given : prev = some result)
      (answered : TurnResult.isEmpty result = false)
      (acting : (∃ calls, phase = .starting calls calls) ∨ phase = .exiting) :
      Decision reply prev { reply with phase := phase }
  | retries (result : TurnResult) (given : prev = some result)
      (left : reply.emptyRetries < maxEmptyResponseRetries) :
      Decision reply prev
        ({ reply with emptyRetries := reply.emptyRetries + 1 }.reason none)
  | finalizes (result : TurnResult) (given : prev = some result)
      (first : reply.inFinalization = false) :
      Decision reply prev
        ({ reply with inFinalization := true }.reason (some finalizationRetryPrompt))
  | iterates (given : prev = none)
      (within : ∀ limit, reply.maxIterations = some limit → reply.iteration < limit) :
      Decision reply prev (reply.reason none)

theorem decideNext_decision (reply : Reply) (prev : Option TurnResult) :
    Decision reply prev (reply.decideNext prev) := by
  unfold decideNext
  cases prev with
  | some result =>
      dsimp only
      split
      · exact .ends _
      · rename_i unfailed
        split
        · rename_i calls
          refine .acts result _ rfl ?_ (Or.inl ⟨_, rfl⟩)
          unfold TurnResult.isEmpty
          rw [List.isEmpty_eq_false_iff.mpr calls, Bool.and_false, Bool.false_and]
        · split
          · rename_i spoken
            refine .acts result _ rfl ?_ (Or.inr rfl)
            unfold TurnResult.isEmpty
            rw [decide_eq_false spoken, Bool.and_false]
          · split
            · exact .ends _
            · rename_i first
              split
              · rename_i left
                exact .retries result rfl left
              · exact .finalizes result rfl (Bool.eq_false_iff.mpr first)
  | none =>
      dsimp only
      split
      · rename_i limit limited
        split
        · exact .ends _
        · rename_i within
          refine .iterates rfl fun other same => ?_
          cases limited.symm.trans same
          exact Nat.lt_of_not_le within
      · rename_i unlimited
        refine .iterates rfl fun limit same => ?_
        rw [unlimited] at same
        cases same

theorem passesAhead_hintOrView (hint : Option String) : passesAhead (hintOrView hint) = 2 := by
  unfold hintOrView
  repeat' split
  all_goals rfl

theorem insideRun_hintOrView (hint : Option String) : insideRun (hintOrView hint) = true := by
  unfold hintOrView
  repeat' split
  all_goals rfl

theorem onwards_other {action : Action} (within : insideRun before.phase = true)
    (running : before.hasExited = false) (moved : before.step action = some after)
    (undecided : action ≠ .decides) (silent : ∀ item, action ≠ .yields item) :
    Onwards before after := by
  cases action with
  | decides => exact absurd rfl undecided
  | yields item => exact absurd rfl (silent item)
  | cut item =>
      obtain ⟨⟨next, entry⟩, advanced, same⟩ := Option.map_eq_some_iff.mp moved
      cases same
      exact ((advance_onwards advanced).1.noted entry).exited _
  | hookAnswers messages freshId =>
      dsimp only [step] at moved
      split at moved
      · rename_i hint shape
        cases moved
        have ahead := (congrArg passesAhead shape).ge
        exact ⟨insideRun_hintOrView hint, rfl, rfl, rfl, rfl, rfl, Int.le_refl _,
          (passesAhead_hintOrView hint).le.trans ahead⟩
      · cases moved
  | viewBuilt =>
      dsimp only [step] at moved
      split at moved
      · rename_i shape
        cases moved
        exact ⟨rfl, rfl, rfl, rfl, rfl, rfl, Int.le_refl _, (congrArg passesAhead shape).ge⟩
      · cases moved
  | textBlockEnds | thinkingBlockEnds | callRepeated =>
      obtain ⟨response, later, shape, rfl⟩ := step_stays moved rfl
      exact ⟨rfl, rfl, rfl, rfl, rfl, rfl, Int.le_refl _, (congrArg passesAhead shape).ge⟩
  | responseEnds reason usage =>
      dsimp only [step] at moved
      split at moved
      · rename_i response shape
        cases moved
        exact ⟨rfl, rfl, rfl, rfl, rfl, rfl, Int.le_refl _, (congrArg passesAhead shape).ge⟩
      · cases moved
  | responseFails =>
      dsimp only [step] at moved
      split at moved
      · rename_i response shape
        cases moved
        exact ⟨rfl, rfl, rfl, rfl, rfl, rfl, Int.le_refl _, (congrArg passesAhead shape).ge⟩
      · cases moved
  | responseCancelled =>
      dsimp only [step] at moved
      split at moved
      · cases moved
        exact ⟨rfl, rfl, rfl, rfl, rfl, rfl, Int.le_refl _, Nat.zero_le _⟩
      · cases moved
  | toolsDone outcomes cancelled =>
      dsimp only [step] at moved
      split at moved
      · rename_i calls shape
        split at moved
        · cases moved
          exact onwards_gather _ cancelled (congrArg passesAhead shape).ge
        · cases moved
      · cases moved
  | stops =>
      dsimp only [step] at moved
      split at moved
      · cases moved
        exact onwards_finalize before _
      · cases moved
  | interrupted =>
      dsimp only [step] at moved
      split at moved
      · cases moved
        exact onwards_finalize before _
      · cases moved
  | raised =>
      dsimp only [step] at moved
      split at moved
      · cases moved
        exact onwards_finalize before _
      · cases moved
  | appended entry =>
      dsimp only [step] at moved
      split at moved
      · cases moved
        exact ⟨within, rfl, rfl, rfl, rfl, rfl, Int.le_refl _, Nat.le_refl _⟩
      · cases moved
  | tick time =>
      cases moved
      exact ⟨within, rfl, rfl, rfl, rfl, rfl, Int.le_refl _, Nat.le_refl _⟩
  | endLost =>
      dsimp only [step] at moved
      split at moved
      · rename_i shape
        unfold hasExited at running
        rw [shape] at running
        exact (Bool.false_ne_true running.symm).elim
      · rename_i finals emitted shape
        rw [shape] at within
        exact (Bool.false_ne_true within).elim
      · cases moved
  | _ =>
      -- The other actions need a phase outside of the loop.
      dsimp only [step] at moved
      split at moved
      · rename_i shape
        unfold hasExited at running
        rw [shape] at within running
        first
        | exact (Bool.false_ne_true within).elim
        | exact (Bool.false_ne_true running.symm).elim
      · cases moved

theorem step_cases {action : Action} (within : insideRun before.phase = true)
    (running : before.hasExited = false) (moved : before.step action = some after) :
    (action = .decides ∧ ∃ prev, before.phase = .deciding prev ∧
        after = before.decideNext prev) ∨
      Onwards before after ∧ action ≠ .decides ∧
        (before.continues action = true →
          before.continuationCount < before.maxContinuations ∧
            after.continuationCount = before.continuationCount + 1) := by
  by_cases decided : action = .decides
  · subst decided
    dsimp only [step] at moved
    split at moved
    · rename_i prev shape
      cases moved
      exact Or.inl ⟨rfl, prev, shape, rfl⟩
    · cases moved
  · refine Or.inr ?_
    by_cases yielding : ∃ item, action = .yields item
    · obtain ⟨item, same⟩ := yielding
      subst same
      obtain ⟨⟨next, entry⟩, advanced, same⟩ := Option.map_eq_some_iff.mp moved
      cases same
      obtain ⟨onwards, counted⟩ := advance_onwards advanced
      refine ⟨(onwards.noted entry).push entry, decided, fun going => ?_⟩
      cases item with
      | goOn prompt =>
          have continued := counted prompt rfl
          dsimp only
          rw [noted_eq]
          exact continued
      | _ => cases going
    · have silent : ∀ item, action ≠ .yields item := fun item same => yielding ⟨item, same⟩
      refine ⟨onwards_other within running moved decided silent, decided, fun going => ?_⟩
      cases action with
      | yields item => exact absurd rfl (silent item)
      | _ => cases going

/-! ### Budgets -/

theorem Onwards.attemptsLeft (onwards : Onwards before after) :
    after.attemptsLeft = before.attemptsLeft := by
  unfold Reply.attemptsLeft
  rw [onwards.emptyRetries, onwards.inFinalization]

theorem Onwards.reasoningsLeft (onwards : Onwards before after) (limit : Nat) :
    after.reasoningsLeft limit = before.reasoningsLeft limit := by
  unfold Reply.reasoningsLeft
  rw [onwards.iteration, onwards.attemptsLeft]

theorem attemptsLeft_retry (left : reply.emptyRetries < maxEmptyResponseRetries)
    (hint : Option String) :
    ({ reply with emptyRetries := reply.emptyRetries + 1 }.reason hint).attemptsLeft + 1 =
      reply.attemptsLeft := by
  change maxEmptyResponseRetries - (reply.emptyRetries + 1) + (!reply.inFinalization).toNat + 1 =
    maxEmptyResponseRetries - reply.emptyRetries + (!reply.inFinalization).toNat
  omega

theorem attemptsLeft_finalization (first : reply.inFinalization = false) (hint : Option String) :
    ({ reply with inFinalization := true }.reason hint).attemptsLeft + 1 =
      reply.attemptsLeft := by
  unfold attemptsLeft
  rw [first]
  rfl

theorem attemptsLeft_le (reply : Reply) : reply.attemptsLeft ≤ maxEmptyResponseRetries + 1 := by
  unfold attemptsLeft
  have flag := Bool.toNat_le (!reply.inFinalization)
  omega

variable {reply after : Reply}

theorem reasoningsLeft_decision (decision : Decision reply prev after) {limit : Nat}
    (limited : reply.maxIterations = some limit) :
    after.reasoningsLeft limit + (isReasoning after.phase).toNat ≤ reply.reasoningsLeft limit := by
  cases decision with
  | ends reason => exact Nat.le_refl _
  | acts result phase given answered acting =>
      rcases acting with ⟨calls, acting⟩ | acting
      · subst acting
        exact Nat.le_refl _
      · subst acting
        exact Nat.le_refl _
  | retries result given left =>
      have paid := attemptsLeft_retry left none
      change limit - (reply.iteration + 1) + _ + 1 ≤ limit - reply.iteration + reply.attemptsLeft
      omega
  | finalizes result given first =>
      have paid := attemptsLeft_finalization first (some finalizationRetryPrompt)
      change limit - (reply.iteration + 1) + _ + 1 ≤ limit - reply.iteration + reply.attemptsLeft
      omega
  | iterates given within =>
      have below := within limit limited
      change limit - (reply.iteration + 1) + reply.attemptsLeft + 1 ≤
        limit - reply.iteration + reply.attemptsLeft
      omega

theorem passesLeft_decision (decision : Decision reply prev after)
    (shape : reply.phase = .deciding prev) {limit : Nat}
    (limited : reply.maxIterations = some limit) :
    after.passesLeft limit + 1 ≤ reply.passesLeft limit := by
  have paid := reasoningsLeft_decision decision limited
  unfold passesLeft
  rw [shape]
  cases decision with
  | ends reason =>
      have ahead : 1 ≤ passesAhead (.deciding prev) := by
        cases prev with
        | none => exact Nat.le_refl _
        | some _ => exact Nat.le_succ _
      change 2 * reply.reasoningsLeft limit + 0 + 1 ≤ _
      omega
  | acts result phase given answered acting =>
      subst given
      rcases acting with ⟨calls, acting⟩ | acting
      · subst acting
        exact Nat.le_refl _
      · subst acting
        exact Nat.le_refl _
  | retries result given left =>
      subst given
      change _ + 1 ≤ _ at paid
      change 2 * _ + 2 + 1 ≤ 2 * _ + 2
      omega
  | finalizes result given first =>
      subst given
      change _ + 1 ≤ _ at paid
      change 2 * _ + 2 + 1 ≤ 2 * _ + 2
      omega
  | iterates given within =>
      subst given
      change _ + 1 ≤ _ at paid
      change 2 * _ + 2 + 1 ≤ 2 * _ + 1
      omega

theorem emptiesLeft_decision (decision : Decision reply prev after)
    (running : reply.hasExited = false) :
    after.emptiesLeft + (prev.any TurnResult.isEmpty).toNat ≤ reply.emptiesLeft := by
  unfold emptiesLeft
  rw [running]
  cases decision with
  | ends reason =>
      have flag := Bool.toNat_le (prev.any TurnResult.isEmpty)
      change reply.attemptsLeft + 0 + _ ≤ reply.attemptsLeft + 1
      omega
  | acts result phase given answered acting =>
      subst given
      rw [Option.any_some, answered]
      rcases acting with ⟨calls, acting⟩ | acting
      · subst acting
        exact Nat.le_refl _
      · subst acting
        exact Nat.le_refl _
  | retries result given left =>
      have paid := attemptsLeft_retry left none
      have flag := Bool.toNat_le (prev.any TurnResult.isEmpty)
      change _ + 1 + _ ≤ reply.attemptsLeft + 1
      omega
  | finalizes result given first =>
      have paid := attemptsLeft_finalization first (some finalizationRetryPrompt)
      have flag := Bool.toNat_le (prev.any TurnResult.isEmpty)
      change _ + 1 + _ ≤ reply.attemptsLeft + 1
      omega
  | iterates given within =>
      subst given
      exact Nat.le_refl _

theorem insideRun_decision (decision : Decision reply prev after) :
    insideRun after.phase = true := by
  cases decision with
  | acts result phase given answered acting =>
      rcases acting with ⟨calls, acting⟩ | acting
      · subst acting
        rfl
      · subst acting
        rfl
  | _ => rfl

theorem maxIterations_decision (decision : Decision reply prev after) :
    after.maxIterations = reply.maxIterations := by
  cases decision with
  | _ => rfl

theorem continuationsLeft_decision (decision : Decision reply prev after) :
    after.continuationsLeft = reply.continuationsLeft := by
  cases decision with
  | _ => rfl

def Looping (limit : Option Nat) (reply : Reply) : Prop :=
  insideRun reply.phase = true ∧ reply.maxIterations = limit

theorem looping_step {limit : Option Nat} {action : Action} (looping : Looping limit before)
    (running : before.hasExited = false) (moved : before.step action = some after) :
    Looping limit after := by
  rcases step_cases looping.1 running moved with ⟨_, prev, _, decided⟩ | ⟨onwards, _, _⟩
  · have decision := decideNext_decision before prev
    rw [← decided] at decision
    exact ⟨insideRun_decision decision, (maxIterations_decision decision).trans looping.2⟩
  · exact ⟨onwards.insideRun, onwards.maxIterations.trans looping.2⟩

theorem reasonings_paid (limit : Nat) :
    system.Pays hasExited reasons (Looping (some limit)) (reasoningsLeft limit) where
  keeps _ _ _ looping running moved := looping_step looping running moved
  pays before action after looping running moved := by
    rcases step_cases looping.1 running moved with
      ⟨chosen, prev, shape, decided⟩ | ⟨onwards, undecided, _⟩
    · subst chosen decided
      have paid := reasoningsLeft_decision (decideNext_decision before prev) looping.2
      unfold reasons
      rw [shape]
      exact paid
    · have uncounted : before.reasons action = false := by
        unfold reasons
        split
        · exact absurd rfl undecided
        · rfl
      rw [uncounted, onwards.reasoningsLeft]
      exact Nat.le_refl _

theorem passes_paid (limit : Nat) :
    system.Pays hasExited passes (Looping (some limit)) (passesLeft limit) where
  keeps _ _ _ looping running moved := looping_step looping running moved
  pays before action after looping running moved := by
    rcases step_cases looping.1 running moved with
      ⟨chosen, prev, shape, decided⟩ | ⟨onwards, undecided, _⟩
    · subst chosen decided
      exact passesLeft_decision (decideNext_decision before prev) shape looping.2
    · have uncounted : before.passes action = false := by
        unfold passes
        split
        · exact absurd rfl undecided
        · rfl
      have ahead := onwards.passesAhead
      unfold passesLeft
      rw [uncounted, onwards.reasoningsLeft, Bool.toNat_false]
      omega

theorem empties_paid (limit : Option Nat) :
    system.Pays hasExited meetsEmpty (Looping limit) emptiesLeft where
  keeps _ _ _ looping running moved := looping_step looping running moved
  pays before action after looping running moved := by
    rcases step_cases looping.1 running moved with
      ⟨chosen, prev, shape, decided⟩ | ⟨onwards, undecided, _⟩
    · subst chosen decided
      have paid := emptiesLeft_decision (decideNext_decision before prev) running
      have same : before.meetsEmpty .decides = prev.any TurnResult.isEmpty := by
        unfold meetsEmpty
        rw [shape]
        cases prev with
        | none => rfl
        | some _ => rfl
      rw [same]
      exact paid
    · have uncounted : before.meetsEmpty action = false := by
        unfold meetsEmpty
        split
        · exact absurd rfl undecided
        · rfl
      have flag := Bool.toNat_le (!after.hasExited)
      unfold emptiesLeft
      rw [uncounted, onwards.attemptsLeft, running, Bool.toNat_false]
      change _ + _ + 0 ≤ before.attemptsLeft + 1
      omega

theorem continuations_paid (limit : Option Nat) :
    system.Pays hasExited continues (Looping limit) continuationsLeft where
  keeps _ _ _ looping running moved := looping_step looping running moved
  pays before action after looping running moved := by
    rcases step_cases looping.1 running moved with
      ⟨chosen, prev, shape, decided⟩ | ⟨onwards, undecided, counted⟩
    · subst chosen decided
      exact (continuationsLeft_decision (decideNext_decision before prev)).le
    · have kept := onwards.maxContinuations
      have grown := onwards.continuationCount
      unfold continuationsLeft
      cases going : before.continues action with
      | false =>
          rw [Bool.toNat_false]
          omega
      | true =>
          obtain ⟨allowed, spent⟩ := counted going
          rw [Bool.toNat_true]
          omega

/-! ### Runs -/

theorem looping_enter (reply : Reply) (input : Entering) (replyId messageId : String) :
    Looping reply.maxIterations (reply.enter input replyId messageId) := by
  cases input with
  | messages inputs =>
      unfold enter enterMessages
      dsimp only
      split
      · exact ⟨rfl, rfl⟩
      · exact ⟨rfl, rfl⟩
  | confirm toolCallId approved confirmed =>
      unfold enter enterConfirm
      dsimp only
      split
      · exact ⟨rfl, rfl⟩
      · split
        · unfold resumeExecute
          dsimp only
          split
          · unfold deny
            split
            · exact ⟨rfl, rfl⟩
            · exact ⟨rfl, rfl⟩
          · exact ⟨rfl, rfl⟩
        · exact ⟨rfl, rfl⟩

theorem continuationsLeft_enter (reply : Reply) (input : Entering) (replyId messageId : String) :
    (reply.enter input replyId messageId).continuationsLeft = reply.continuationsLeft := by
  cases input with
  | messages inputs =>
      unfold enter enterMessages
      dsimp only
      split
      · rfl
      · rfl
  | confirm toolCallId approved confirmed =>
      unfold enter enterConfirm
      dsimp only
      split
      · rfl
      · split
        · unfold resumeExecute
          dsimp only
          split
          · unfold deny
            split
            · rfl
            · rfl
          · rfl
        · rfl

/-- Under a limit the reasonings of a run are bounded and, where what it awaits comes back, it
leaves the loop; with or without one, so are its empty responses and continuations. -/
theorem loop_bounded (reply : Reply) (input : Entering) (replyId messageId : String) :
    let entered := reply.enter input replyId messageId
    (∀ limit, reply.maxIterations = some limit →
      (∀ actions, system.countUntil hasExited reasons entered actions ≤
        limit + maxEmptyResponseRetries + 1) ∧
      (∀ actions, system.countUntil hasExited passes entered actions ≤
        2 * (limit + maxEmptyResponseRetries + 1) + 2) ∧
      ∀ states moves, system.IsRun entered states moves →
        (∀ time, ∃ later, time ≤ later ∧
          ((states later).hasExited = true ∨ moves later = .decides)) →
        ∃ time, (states time).hasExited = true) ∧
    (∀ actions, system.countUntil hasExited meetsEmpty entered actions ≤
      maxEmptyResponseRetries + 2) ∧
    ∀ actions, system.countUntil hasExited continues entered actions ≤
      (reply.maxContinuations - reply.continuationCount).toNat := by
  have looping := looping_enter reply input replyId messageId
  have attempts := attemptsLeft_le (reply.enter input replyId messageId)
  refine ⟨fun limit limited => ?_, fun actions => ?_, fun actions => ?_⟩
  · rw [limited] at looping
    have reasonings : (reply.enter input replyId messageId).reasoningsLeft limit ≤
        limit + maxEmptyResponseRetries + 1 := by
      unfold reasoningsLeft
      omega
    refine ⟨fun actions => ?_, fun actions => ?_, fun states moves runs returns => ?_⟩
    · exact ((reasonings_paid limit).countUntil_le looping actions).trans reasonings
    · refine ((passes_paid limit).countUntil_le looping actions).trans ?_
      have ahead : ∀ phase, passesAhead phase ≤ 2 := by
        intro phase
        unfold passesAhead
        split <;> omega
      have last := ahead (reply.enter input replyId messageId).phase
      unfold passesLeft
      omega
    · refine (passes_paid limit).stops runs looping fun time => ?_
      obtain ⟨later, after, stop | decided⟩ := returns time
      · exact ⟨later, after, Or.inl stop⟩
      · refine ⟨later, after, Or.inr ?_⟩
        rw [decided]
        rfl
  · refine ((empties_paid _).countUntil_le looping actions).trans ?_
    have flag := Bool.toNat_le (!(reply.enter input replyId messageId).hasExited)
    unfold emptiesLeft
    omega
  · have bound := (continuations_paid _).countUntil_le looping actions
    rw [continuationsLeft_enter] at bound
    exact bound

end Reply

end Ftre.Runtime
