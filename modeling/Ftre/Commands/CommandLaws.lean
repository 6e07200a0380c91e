import Ftre.Commands.RegistryLaw

/-!
The laws of the command plane: disposers undo their own registration, tasks run the definition
that was parsed, requests succeed and are answered once, and every run event has its done event.
-/

namespace Ftre.Commands

open Lib

/-- The events of one command, in order: every run is followed by its done event. The flag says
that the last run has not had it yet. -/
inductive Paired : Bool → List Bool → Prop where
  | nothing : Paired false []
  | run {kinds : List Bool} (before : Paired false kinds) : Paired true (kinds ++ [true])
  | done {kinds : List Bool} (before : Paired true kinds) : Paired false (kinds ++ [false])

def CommandEvent.isRun : CommandEvent → Bool
  | .run _ _ _ => true
  | .done _ _ _ _ => false

def kindsOf (id : Text) (events : List CommandEvent) : List Bool :=
  (events.filter fun event => decide (event.commandId = id)).map CommandEvent.isRun

def Outcome.isSuccess : Outcome → Bool
  | .returned result => result.success
  | _ => false

def Phase.isOpen : Phase → Bool
  | .handling => true
  | .emittingDone _ => true
  | _ => false

namespace CommandPlane

def OpenUnder (plane : CommandPlane) (id : Text) : Prop :=
  ∃ (index : Nat) (task : Task), plane.tasks[index]? = some task ∧ task.phase.isOpen = true ∧
    task.commandId = id

structure Lawful (plane : CommandPlane) : Prop where
  registered : ∀ number, (∃ entry ∈ plane.registry.all, entry.number = number) ↔
    number ∈ plane.alive
  once : (plane.registry.all.map Registration.number).Nodup
  chosen : ∀ content found, plane.registry.parse content = some found →
    plane.registry.Chosen content found
  handlers : ∀ (index : Nat) (task : Task), plane.tasks[index]? = some task →
    task.called ≠ .mismatched ∧
      ∀ definition, task.called = .handlerOf definition → definition = task.definition
  successes : ∀ requestId, requestId ≠ [] → plane.successes.count requestId ≤ 1
  answered : ∀ (index : Nat) (task : Task), plane.tasks[index]? = some task →
    task.answers.length ≤ 1 ∧
      (task.phase = .done → task.cancelled = false → task.answers.length = 1)
  paired : ∀ id, ∃ isOpen, Paired isOpen (kindsOf id plane.events) ∧
    (isOpen = true ↔ plane.OpenUnder id)

def CarefulTask (plane : CommandPlane) (task : Task) : TaskAction → Prop
  | .begin => ∃ current, findMatch (plane.registry.table task.definition.system) task.raw =
      some current ∧ current.definition = task.definition
  | .runEmitted emission => ∀ text, emission ≠ .recordedRaising text
  | .doneEmitted emission => (∀ text, emission ≠ .refused text) ∧
      ∀ outcome, task.phase = .emittingDone outcome → emission ≠ .recorded →
        outcome.isSuccess = false
  | .interrupt recorded => (task.phase = .emittingRun → recorded = false) ∧
      ∀ outcome, task.phase = .emittingDone outcome →
        recorded = true ∧ outcome.isSuccess = false
  | _ => True

def Careful (plane : CommandPlane) : Action → Prop
  | .dispose number => ∀ definition, plane.issued[number]? = some definition →
      plane.registry.Clear number definition
  | .submit _ requestId => ∀ sequence, requestId ≠ generatedId sequence
  | .task index action => ∀ task, plane.tasks[index]? = some task → plane.CarefulTask task action
  | .closed _ => ∀ (index : Nat) (task : Task), plane.tasks[index]? = some task → task.phase = .done
  | _ => True

def running : Phase → Bool
  | .emittingRun => true
  | .handling => true
  | .emittingDone _ => true
  | _ => false

structure Sane (task : Task) : Prop where
  calls : task.called ≠ .mismatched ∧
    ∀ definition, task.called = .handlerOf definition → definition = task.definition
  few : task.answers.length ≤ 1
  before : task.phase = .created ∨ running task.phase = true → task.answers = []
  after : task.phase = .notifying → task.answers.length = 1
  ended : task.phase = .done → task.cancelled = false → task.answers.length = 1

structure Named (plane : CommandPlane) (task : Task) : Prop where
  given : ∀ sequence, task.requestId ≠ generatedId sequence
  request : running task.phase = true → task.requestId ≠ [] → task.commandId = task.requestId
  anonymous : running task.phase = true → task.requestId = [] →
    ∃ sequence ≤ plane.sequence, task.commandId = generatedId sequence
  unanswered : running task.phase = true → task.requestId ≠ [] →
    plane.requestResults.find? task.requestId = none

def Covered (plane : CommandPlane) (requestId : Text) : Prop :=
  (plane.requestResults.find? requestId).isSome = true ∨
    ∃ (index : Nat) (task : Task) (outcome : Outcome), plane.tasks[index]? = some task ∧
      task.requestId = requestId ∧
      task.phase = .emittingDone outcome ∧ outcome.isSuccess = true

structure Good (plane : CommandPlane) : Prop where
  registry : plane.registry.Sound plane.issued
  alive : plane.alive.Nodup
  registered : ∀ number, (∃ entry ∈ plane.registry.all, entry.number = number) ↔
    number ∈ plane.alive
  sane : ∀ (index : Nat) (task : Task), plane.tasks[index]? = some task → Sane task
  named : ∀ (index : Nat) (task : Task), plane.tasks[index]? = some task → plane.Named task
  own : ∀ (index : Nat) (task : Task), plane.tasks[index]? = some task → task.requestId ≠ [] →
    task.phase ≠ .done → plane.inflight.find? task.requestId = some index
  apart : ∀ (first second : Nat) (left right : Task), plane.tasks[first]? = some left →
    plane.tasks[second]? = some right → running left.phase = true → running right.phase = true →
    left.requestId = [] → right.requestId = [] → left.commandId = right.commandId →
    first = second
  paired : ∀ id, ∃ isOpen, Paired isOpen (kindsOf id plane.events) ∧
    (isOpen = true ↔ plane.OpenUnder id)
  single : ∀ requestId, requestId ≠ [] → plane.successes.count requestId ≤ 1
  covered : ∀ requestId, requestId ≠ [] → requestId ∈ plane.successes → plane.Covered requestId

variable {plane : CommandPlane} {task : Task}

theorem Good.lawful (good : plane.Good) : plane.Lawful where
  registered := good.registered
  once := good.registry.once
  chosen := fun _ _ parsed => good.registry.chosen parsed
  handlers := fun index task found => (good.sane index task found).calls
  successes := good.single
  answered := fun index task found =>
    ⟨(good.sane index task found).few, (good.sane index task found).ended⟩
  paired := good.paired

theorem good_fresh : fresh.Good where
  registry := Registry.sound_empty
  alive := List.nodup_nil
  registered := by
    intro number
    exact ⟨fun found => absurd found.choose_spec.1 List.not_mem_nil,
      fun member => absurd member List.not_mem_nil⟩
  sane := fun index task found => by cases found
  named := fun index task found => by cases found
  own := fun index task found => by cases found
  apart := fun first second left right found => by cases found
  paired := by
    intro id
    refine ⟨false, .nothing, ⟨fun impossible => absurd impossible Bool.false_ne_true, ?_⟩⟩
    rintro ⟨index, task, found, _⟩
    cases found
  single := fun _ _ => Nat.zero_le 1
  covered := fun _ _ member => absurd member List.not_mem_nil

theorem generatedId_injective {left right : Nat} (same : generatedId left = generatedId right) :
    left = right := by
  have digits := List.append_cancel_left same
  calc
    left = Nat.ofDigitChars 10 (Nat.toDigits 10 left) 0 := Nat.ofDigitChars_ten_toDigits.symm
    _ = Nat.ofDigitChars 10 (Nat.toDigits 10 right) 0 := by rw [digits]
    _ = right := Nat.ofDigitChars_ten_toDigits

theorem not_done_of_running {phase : Phase} (runs : running phase = true) : phase ≠ .done := by
  intro same
  rw [same] at runs
  exact Bool.false_ne_true runs

theorem running_of_open {phase : Phase} (opened : phase.isOpen = true) :
    running phase = true := by
  cases phase with
  | handling => rfl
  | emittingDone outcome => rfl
  | created => exact absurd opened Bool.false_ne_true
  | emittingRun => exact absurd opened Bool.false_ne_true
  | notifying => exact absurd opened Bool.false_ne_true
  | done => exact absurd opened Bool.false_ne_true

theorem Good.running_unique (good : plane.Good) {first second : Nat} {left right : Task}
    (foundLeft : plane.tasks[first]? = some left) (foundRight : plane.tasks[second]? = some right)
    (runsLeft : running left.phase = true) (runsRight : running right.phase = true)
    (same : left.commandId = right.commandId) : first = second := by
  have namedLeft := good.named first left foundLeft
  have namedRight := good.named second right foundRight
  by_cases anonymousLeft : left.requestId = []
  · by_cases anonymousRight : right.requestId = []
    · exact good.apart first second left right foundLeft foundRight runsLeft runsRight
        anonymousLeft anonymousRight same
    · obtain ⟨sequence, _, generated⟩ := namedLeft.anonymous runsLeft anonymousLeft
      have request := namedRight.request runsRight anonymousRight
      rw [← same, generated] at request
      exact absurd request.symm (namedRight.given sequence)
  · by_cases anonymousRight : right.requestId = []
    · obtain ⟨sequence, _, generated⟩ := namedRight.anonymous runsRight anonymousRight
      have request := namedLeft.request runsLeft anonymousLeft
      rw [same, generated] at request
      exact absurd request.symm (namedLeft.given sequence)
    · have requests : left.requestId = right.requestId := by
        rw [← namedLeft.request runsLeft anonymousLeft, same,
          namedRight.request runsRight anonymousRight]
      have ownLeft := good.own first left foundLeft anonymousLeft (not_done_of_running runsLeft)
      have ownRight := good.own second right foundRight anonymousRight
        (not_done_of_running runsRight)
      rw [requests, ownRight] at ownLeft
      exact (Option.some.inj ownLeft).symm

theorem kindsOf_append (id : Text) (events : List CommandEvent) (event : CommandEvent) :
    kindsOf id (events ++ [event]) =
      if event.commandId = id then kindsOf id events ++ [event.isRun] else kindsOf id events := by
  unfold kindsOf
  rw [List.filter_append, List.map_append]
  by_cases own : event.commandId = id
  · have kept : [event].filter (fun event => decide (event.commandId = id)) = [event] :=
      List.filter_cons_of_pos (p := fun event : CommandEvent => decide (event.commandId = id))
        (decide_eq_true own)
    rw [if_pos own, kept]
    rfl
  · have left : [event].filter (fun event => decide (event.commandId = id)) = [] :=
      List.filter_cons_of_neg (p := fun event : CommandEvent => decide (event.commandId = id))
        (by simpa using own)
    rw [if_neg own, left, List.map_nil, List.append_nil]

/-! ### Steps of a task -/

structure SameRequest (task after : Task) : Prop where
  definition : after.definition = task.definition
  requestId : after.requestId = task.requestId

structure Finishes (task after : Task) : Prop extends SameRequest task after where
  calls : after.called = task.called ∨ after.called = .cached ∨ after.called = .unrecorded
  answers : after.phase = .notifying ∧ (∃ result, after.answers = task.answers ++ [result]) ∨
    after.phase = .done ∧ after.cancelled = true ∧ after.answers = task.answers

inductive Kind (plane : CommandPlane) (task : Task) : Progress → Prop where
  | begun (waits : task.phase = .created)
      (unknown : task.requestId ≠ [] → plane.requestResults.find? task.requestId = none) :
      Kind plane task
        { plane.quietly
            { task with
              phase := .emittingRun
              commandId := if task.requestId = [] then generatedId (plane.sequence + 1)
                else task.requestId } with
          sequence := plane.sequence + 1 }
  | opened (emits : task.phase = .emittingRun) :
      Kind plane task
        { plane.quietly { task with phase := .handling, called := .handlerOf task.definition } with
          emitted := [runEvent task] }
  | returned (handles : task.phase = .handling) (outcome : Outcome) (called : Bool) :
      Kind plane task
        { plane.quietly
            { task with
              phase := .emittingDone outcome
              cancelling := called } with
          succeeded := outcome.isSuccess }
  | concluded (outcome : Outcome) (emits : task.phase = .emittingDone outcome) (after : Task)
      (finishes : Finishes task after) (recorded : Option CommandResult) (completes : Bool)
      (kept : outcome.isSuccess = true → recorded.isSome = true) :
      Kind plane task ⟨after, plane.sequence, [doneEvent task outcome], false, recorded, completes⟩
  | passed (unopened : task.phase = .created ∨ task.phase = .emittingRun) (after : Task)
      (finishes : Finishes task after) (completes : Bool) :
      Kind plane task ⟨after, plane.sequence, [], false, none, completes⟩
  | ended (notifies : task.phase = .notifying) (cancelled : Bool) :
      Kind plane task (plane.quietly
        { task with
          phase := .done
          cancelling := false
          cancelled := cancelled })

theorem finishes_answer (task : Task) (called : Called) (result : CommandResult)
    (calls : called = task.called ∨ called = .cached ∨ called = .unrecorded) :
    Finishes task ({ task with called := called }.answer result) where
  definition := rfl
  requestId := rfl
  calls := calls
  answers := Or.inl ⟨rfl, result, rfl⟩

theorem finishes_cancel (task : Task) : Finishes task task.cancel where
  definition := rfl
  requestId := rfl
  calls := Or.inl rfl
  answers := Or.inr ⟨rfl, rfl, rfl⟩

theorem kind_begin {plane : CommandPlane} {task : Task} (waits : task.phase = .created)
    (careful : plane.CarefulTask task .begin) : Kind plane task (plane.begin task) := by
  obtain ⟨current, found, same⟩ := careful
  unfold begin
  rw [found]
  dsimp only
  rw [if_neg (not_not.mpr same)]
  by_cases anonymous : task.requestId = []
  · rw [if_pos anonymous]
    dsimp only
    have kind : Kind plane task _ := .begun waits fun known => absurd anonymous known
    exact kind
  · rw [if_neg anonymous]
    cases known : plane.requestResults.find? task.requestId with
    | none =>
        dsimp only
        exact .begun waits fun _ => known
    | some result =>
        exact .passed (Or.inl waits) _ (finishes_answer task .cached result (Or.inr (Or.inl rfl)))
          result.success

theorem kind_runEmitted (emits : task.phase = .emittingRun) {emission : Emission}
    (careful : plane.CarefulTask task (.runEmitted emission)) :
    Kind plane task (plane.runEmitted task emission) := by
  cases emission with
  | recorded => exact .opened emits
  | refused text =>
      exact .passed (Or.inr emits) _
        (finishes_answer task .unrecorded (failure text) (Or.inr (Or.inr rfl))) false
  | recordedRaising text => exact absurd rfl (careful text)

theorem kind_handled (handles : task.phase = .handling) (ended : HandlerEnd) :
    Kind plane task (plane.handled task ended) := by
  unfold handled
  cases normalizeResult task.definition.command ended with
  | ok result => exact .returned handles (.returned result) false
  | error text => exact .returned handles (.raised text) false

theorem kind_doneEmitted {outcome : Outcome} (emits : task.phase = .emittingDone outcome)
    {emission : Emission} (careful : plane.CarefulTask task (.doneEmitted emission)) :
    Kind plane task (plane.doneEmitted task outcome emission) := by
  cases emission with
  | refused text => exact absurd rfl (careful.1 text)
  | recordedRaising text =>
      have failed := careful.2 outcome emits (by intro same; cases same)
      exact .concluded outcome emits _
        (finishes_answer task task.called (failure text) (Or.inl rfl)) none false
        fun success => absurd success (by rw [failed]; exact Bool.false_ne_true)
  | recorded =>
      cases outcome with
      | returned result =>
          apply Kind.concluded (.returned result) emits _
            (finishes_answer task task.called result (Or.inl rfl)) _ result.success
          intro success
          change result.success = true at success
          change (if result.success = true then some result else none).isSome = true
          rw [if_pos success]
          rfl
      | raised text =>
          exact .concluded _ emits _ (finishes_answer task task.called (failure text) (Or.inl rfl))
            none false fun success => absurd success Bool.false_ne_true
      | cancelled =>
          exact .concluded _ emits _ (finishes_cancel task) none false
            fun success => absurd success Bool.false_ne_true

theorem kind_interrupt {recorded : Bool} {progress : Progress}
    (careful : plane.CarefulTask task (.interrupt recorded))
    (thrown : plane.interrupt task recorded = some progress) : Kind plane task progress := by
  unfold interrupt at thrown
  cases phase : task.phase with
  | created =>
      rw [phase] at thrown
      cases thrown
      exact .passed (Or.inl phase) _ (finishes_cancel task) false
  | emittingRun =>
      rw [phase, careful.1 phase] at thrown
      cases thrown
      exact .passed (Or.inr phase) _ (finishes_cancel task) false
  | handling =>
      rw [phase] at thrown
      cases thrown
      exact .returned phase .cancelled false
  | emittingDone outcome =>
      obtain ⟨out, failed⟩ := careful.2 outcome phase
      rw [phase, out] at thrown
      cases thrown
      exact .concluded outcome phase _ (finishes_cancel task) none false
        fun success => absurd success (by rw [failed]; exact Bool.false_ne_true)
  | notifying =>
      rw [phase] at thrown
      cases thrown
      exact .ended phase true
  | done =>
      rw [phase] at thrown
      cases thrown

theorem advance_kind {plane : CommandPlane} {task : Task} {action : TaskAction}
    {progress : Progress} (careful : plane.CarefulTask task action)
    (advanced : plane.advance task action = some progress) : Kind plane task progress := by
  cases action with
  | begin =>
      obtain ⟨ready, same⟩ := Option.ite_none_right_eq_some.mp advanced
      cases same
      exact kind_begin ready.1 careful
  | runEmitted emission =>
      obtain ⟨ready, same⟩ := Option.ite_none_right_eq_some.mp advanced
      cases same
      exact kind_runEmitted ready.1 careful
  | handled ended =>
      obtain ⟨ready, same⟩ := Option.ite_none_right_eq_some.mp advanced
      cases same
      exact kind_handled ready ended
  | doneEmitted emission =>
      unfold advance at advanced
      dsimp only at advanced
      split at advanced
      · rename_i outcome phase
        obtain ⟨_, same⟩ := Option.ite_none_left_eq_some.mp advanced
        cases same
        exact kind_doneEmitted phase careful
      · cases advanced
  | notified =>
      obtain ⟨ready, same⟩ := Option.ite_none_right_eq_some.mp advanced
      cases same
      have calm : { task with phase := Phase.done } =
          { task with phase := .done, cancelling := false, cancelled := task.cancelled } := by
        rw [← ready.2]
      rw [calm]
      exact .ended ready.1 task.cancelled
  | interrupt recorded =>
      obtain ⟨_, thrown⟩ := Option.ite_none_right_eq_some.mp advanced
      exact kind_interrupt careful thrown

/-! ### What a step keeps -/

section

variable {plane : CommandPlane} {index : Nat} {task : Task} {progress : Progress}

theorem Kind.same (kind : Kind plane task progress) : SameRequest task progress.task := by
  cases kind with
  | begun waits unknown => exact ⟨rfl, rfl⟩
  | opened emits => exact ⟨rfl, rfl⟩
  | returned handles outcome called => exact ⟨rfl, rfl⟩
  | concluded outcome emits after finishes recorded completes kept =>
      exact finishes.toSameRequest
  | passed unopened after finishes completes => exact finishes.toSameRequest
  | ended notifies cancelled => exact ⟨rfl, rfl⟩

theorem Kind.live (kind : Kind plane task progress) : task.phase ≠ .done := by
  intro same
  cases kind with
  | begun waits unknown => rw [waits] at same; cases same
  | opened emits => rw [emits] at same; cases same
  | returned handles outcome called => rw [handles] at same; cases same
  | concluded outcome emits after finishes recorded completes kept =>
      rw [emits] at same; cases same
  | passed unopened after finishes completes =>
      rcases unopened with waits | emits
      · rw [waits] at same; cases same
      · rw [emits] at same; cases same
  | ended notifies cancelled => rw [notifies] at same; cases same

theorem Kind.later (kind : Kind plane task progress) : plane.sequence ≤ progress.sequence := by
  cases kind with
  | begun waits unknown => exact Nat.le_succ _
  | opened emits => exact Nat.le_refl _
  | returned handles outcome called => exact Nat.le_refl _
  | concluded outcome emits after finishes recorded completes kept => exact Nat.le_refl _
  | passed unopened after finishes completes => exact Nat.le_refl _
  | ended notifies cancelled => exact Nat.le_refl _

theorem Finishes.notRunning {after : Task} (finishes : Finishes task after) :
    running after.phase = false := by
  rcases finishes.answers with ⟨phase, _⟩ | ⟨phase, _⟩
  · rw [phase]
    rfl
  · rw [phase]
    rfl

theorem Finishes.notOpen {after : Task} (finishes : Finishes task after) :
    after.phase.isOpen = false := by
  by_contra opened
  have runs := running_of_open (Bool.eq_true_of_not_eq_false opened)
  rw [finishes.notRunning] at runs
  exact Bool.false_ne_true runs

theorem Finishes.sane {after : Task} (finishes : Finishes task after) (sane : Sane task)
    (runs : task.phase = .created ∨ running task.phase = true) : Sane after := by
  have silent := sane.before runs
  have calls : after.called ≠ .mismatched ∧
      ∀ definition, after.called = .handlerOf definition → definition = after.definition := by
    rw [finishes.definition]
    rcases finishes.calls with same | same | same
    · rw [same]
      exact sane.calls
    · rw [same]
      exact ⟨by decide, fun _ impossible => by cases impossible⟩
    · rw [same]
      exact ⟨by decide, fun _ impossible => by cases impossible⟩
  rcases finishes.answers with ⟨notifies, result, answered⟩ | ⟨ended, cancelled, unanswered⟩
  · rw [silent] at answered
    refine ⟨calls, ?_, ?_, ?_, ?_⟩
    · rw [answered]
      exact Nat.le_refl 1
    · rw [notifies]
      rintro (impossible | impossible)
      · cases impossible
      · exact absurd impossible Bool.false_ne_true
    · intro _
      rw [answered]
      rfl
    · rw [notifies]
      intro impossible
      cases impossible
  · rw [silent] at unanswered
    refine ⟨calls, ?_, ?_, ?_, ?_⟩
    · rw [unanswered]
      exact Nat.zero_le 1
    · exact fun _ => unanswered
    · rw [ended]
      intro impossible
      cases impossible
    · intro _ uncancelled
      rw [cancelled] at uncancelled
      cases uncancelled

theorem Kind.sane (kind : Kind plane task progress) (sane : Sane task) :
    Sane progress.task := by
  have moving : ∀ after : Task, after.definition = task.definition →
      (after.called = task.called ∨ after.called = .handlerOf task.definition) →
      after.answers = task.answers → running after.phase = true →
      (task.phase = .created ∨ running task.phase = true) → Sane after := by
    intro after definition called answers runs before
    have silent := sane.before before
    refine ⟨?_, ?_, ?_, ?_, ?_⟩
    · rw [definition]
      rcases called with same | same
      · rw [same]
        exact sane.calls
      · rw [same]
        constructor
        · intro impossible
          cases impossible
        · intro own calls
          exact (Called.handlerOf.inj calls).symm
    · rw [answers]
      exact sane.few
    · rw [answers]
      exact fun _ => silent
    · intro notifies
      rw [notifies] at runs
      exact absurd runs Bool.false_ne_true
    · intro ended
      exact absurd ended (not_done_of_running runs)
  cases kind with
  | begun waits unknown => exact moving _ rfl (Or.inl rfl) rfl rfl (Or.inl waits)
  | opened emits =>
      exact moving _ rfl (Or.inr rfl) rfl rfl (Or.inr (by rw [emits]; rfl))
  | returned handles outcome called =>
      exact moving _ rfl (Or.inl rfl) rfl rfl (Or.inr (by rw [handles]; rfl))
  | concluded outcome emits after finishes recorded completes kept =>
      exact finishes.sane sane (Or.inr (by rw [emits]; rfl))
  | passed unopened after finishes completes =>
      exact finishes.sane sane (unopened.imp_right fun emits => by rw [emits]; rfl)
  | ended notifies cancelled =>
      refine ⟨sane.calls, sane.few, ?_, ?_, fun _ _ => sane.after notifies⟩
      · rintro (impossible | impossible)
        · cases impossible
        · exact absurd impossible Bool.false_ne_true
      · intro impossible
        cases impossible

theorem Kind.runs (kind : Kind plane task progress)
    (runs : running progress.task.phase = true) :
    running task.phase = true ∧ progress.task.commandId = task.commandId ∨
      task.phase = .created ∧ progress.sequence = plane.sequence + 1 ∧
        (task.requestId ≠ [] → plane.requestResults.find? task.requestId = none) ∧
        progress.task.commandId =
          if task.requestId = [] then generatedId (plane.sequence + 1) else task.requestId := by
  cases kind with
  | begun waits unknown => exact Or.inr ⟨waits, rfl, unknown, rfl⟩
  | opened emits => exact Or.inl ⟨by rw [emits]; rfl, rfl⟩
  | returned handles outcome called => exact Or.inl ⟨by rw [handles]; rfl, rfl⟩
  | concluded outcome emits after finishes recorded completes kept =>
      dsimp only at runs
      rw [finishes.notRunning] at runs
      exact absurd runs Bool.false_ne_true
  | passed unopened after finishes completes =>
      dsimp only at runs
      rw [finishes.notRunning] at runs
      exact absurd runs Bool.false_ne_true
  | ended notifies cancelled => exact absurd runs Bool.false_ne_true

theorem Kind.keeps (kind : Kind plane task progress) {result : CommandResult}
    (recorded : progress.recorded = some result) : running progress.task.phase = false := by
  cases kind with
  | begun waits unknown => cases recorded
  | opened emits => cases recorded
  | returned handles outcome called => cases recorded
  | concluded outcome emits after finishes kept completes success => exact finishes.notRunning
  | passed unopened after finishes completes => cases recorded
  | ended notifies cancelled => cases recorded

/-! ### The tasks after a step -/

theorem getElem?_apply (found : plane.tasks[index]? = some task) {place : Nat} {other : Task}
    (placed : (plane.apply index progress).tasks[place]? = some other) :
    place = index ∧ other = progress.task ∨ place ≠ index ∧ plane.tasks[place]? = some other := by
  change (plane.tasks.set index progress.task)[place]? = some other at placed
  by_cases own : place = index
  · rw [own, List.getElem?_set_self (List.getElem?_eq_some_iff.mp found).1] at placed
    exact Or.inl ⟨own, (Option.some.inj placed).symm⟩
  · rw [List.getElem?_set_ne (Ne.symm own)] at placed
    exact Or.inr ⟨own, placed⟩

theorem getElem?_apply_self (found : plane.tasks[index]? = some task) :
    (plane.apply index progress).tasks[index]? = some progress.task :=
  List.getElem?_set_self (List.getElem?_eq_some_iff.mp found).1

theorem getElem?_apply_ne {place : Nat} (other : place ≠ index) :
    (plane.apply index progress).tasks[place]? = plane.tasks[place]? :=
  List.getElem?_set_ne (Ne.symm other)

theorem find?_apply (requestId : Text) :
    (plane.apply index progress).requestResults.find? requestId =
        plane.requestResults.find? requestId ∨
      progress.task.requestId = requestId ∧ ∃ result, progress.recorded = some result := by
  unfold apply
  dsimp only
  cases recorded : progress.recorded with
  | none => exact Or.inl rfl
  | some result =>
      dsimp only
      by_cases anonymous : progress.task.requestId = []
      · rw [if_pos anonymous]
        exact Or.inl rfl
      · rw [if_neg anonymous]
        by_cases same : progress.task.requestId = requestId
        · exact Or.inr ⟨same, result, rfl⟩
        · exact Or.inl (KeyedTable.find?_set_ne _ _ same)

theorem isSome_apply {requestId : Text}
    (known : (plane.requestResults.find? requestId).isSome = true) :
    ((plane.apply index progress).requestResults.find? requestId).isSome = true := by
  unfold apply
  dsimp only
  cases progress.recorded with
  | none => exact known
  | some result =>
      dsimp only
      by_cases anonymous : progress.task.requestId = []
      · rw [if_pos anonymous]
        exact known
      · rw [if_neg anonymous, KeyedTable.find?_set]
        split
        · rfl
        · exact known

def OtherOpen (plane : CommandPlane) (index : Nat) (id : Text) : Prop :=
  ∃ (place : Nat) (other : Task), place ≠ index ∧ plane.tasks[place]? = some other ∧
    other.phase.isOpen = true ∧ other.commandId = id

theorem openUnder_iff (found : plane.tasks[index]? = some task) (id : Text) :
    plane.OpenUnder id ↔
      (task.phase.isOpen = true ∧ task.commandId = id) ∨ plane.OtherOpen index id := by
  constructor
  · rintro ⟨place, other, placed, opened, named⟩
    by_cases own : place = index
    · rw [own, found] at placed
      cases placed
      exact Or.inl ⟨opened, named⟩
    · exact Or.inr ⟨place, other, own, placed, opened, named⟩
  · rintro (⟨opened, named⟩ | ⟨place, other, _, placed, opened, named⟩)
    · exact ⟨index, task, found, opened, named⟩
    · exact ⟨place, other, placed, opened, named⟩

theorem openUnder_apply_iff (found : plane.tasks[index]? = some task) (id : Text) :
    (plane.apply index progress).OpenUnder id ↔
      (progress.task.phase.isOpen = true ∧ progress.task.commandId = id) ∨
        plane.OtherOpen index id := by
  rw [openUnder_iff (getElem?_apply_self found)]
  apply or_congr_right
  constructor
  · rintro ⟨place, other, different, placed, rest⟩
    rw [getElem?_apply_ne different] at placed
    exact ⟨place, other, different, placed, rest⟩
  · rintro ⟨place, other, different, placed, rest⟩
    have elsewhere := @getElem?_apply_ne plane index progress place different
    rw [← elsewhere] at placed
    exact ⟨place, other, different, placed, rest⟩

theorem Good.not_otherOpen (good : plane.Good) (found : plane.tasks[index]? = some task)
    (runs : running task.phase = true) : ¬ plane.OtherOpen index task.commandId := by
  rintro ⟨place, other, different, placed, opened, named⟩
  exact different (good.running_unique placed found (running_of_open opened) runs named)

theorem Good.paired_apply (good : plane.Good) (found : plane.tasks[index]? = some task)
    (kind : Kind plane task progress) (id : Text) :
    ∃ isOpen, Paired isOpen (kindsOf id (plane.apply index progress).events) ∧
      (isOpen = true ↔ (plane.apply index progress).OpenUnder id) := by
  obtain ⟨isOpen, paired, open_iff⟩ := good.paired id
  rw [openUnder_iff found] at open_iff
  -- A step without an event leaves the task as open as it was.
  have quiet : progress.emitted = [] →
      (progress.task.phase.isOpen = true ∧ progress.task.commandId = id ↔
        task.phase.isOpen = true ∧ task.commandId = id) →
      ∃ isOpen, Paired isOpen (kindsOf id (plane.apply index progress).events) ∧
        (isOpen = true ↔ (plane.apply index progress).OpenUnder id) := by
    intro silent same
    refine ⟨isOpen, ?_, ?_⟩
    · change Paired isOpen (kindsOf id (plane.events ++ progress.emitted))
      rw [silent, List.append_nil]
      exact paired
    · rw [openUnder_apply_iff found, same]
      exact open_iff
  cases kind with
  | begun waits unknown =>
      apply quiet rfl
      rw [waits]
      exact ⟨fun opened => absurd opened.1 Bool.false_ne_true,
        fun opened => absurd opened.1 Bool.false_ne_true⟩
  | returned handles outcome called =>
      apply quiet rfl
      rw [handles]
      rfl
  | passed unopened after finishes completes =>
      apply quiet rfl
      have before : task.phase.isOpen = false := by
        rcases unopened with phase | phase
        · rw [phase]
          rfl
        · rw [phase]
          rfl
      rw [before, finishes.notOpen]
      exact ⟨fun opened => absurd opened.1 Bool.false_ne_true,
        fun opened => absurd opened.1 Bool.false_ne_true⟩
  | ended notifies cancelled =>
      apply quiet rfl
      rw [notifies]
      exact ⟨fun opened => absurd opened.1 Bool.false_ne_true,
        fun opened => absurd opened.1 Bool.false_ne_true⟩
  | opened emits =>
      have alone := good.not_otherOpen found (by rw [emits]; rfl)
      have named : (runEvent task).commandId = task.commandId := rfl
      change ∃ isOpen, Paired isOpen (kindsOf id (plane.events ++ [runEvent task])) ∧ _
      rw [kindsOf_append, named, openUnder_apply_iff found]
      by_cases own : task.commandId = id
      · rw [if_pos own]
        rw [own] at alone
        have closed : isOpen = false := by
          apply Bool.eq_false_of_not_eq_true
          intro impossible
          rcases open_iff.mp impossible with ⟨opened, _⟩ | other
          · rw [emits] at opened
            exact Bool.false_ne_true opened
          · exact alone other
        rw [closed] at paired
        exact ⟨true, .run paired, fun _ => Or.inl ⟨rfl, own⟩, fun _ => rfl⟩
      · rw [if_neg own]
        refine ⟨isOpen, paired, open_iff.trans (or_congr_left ?_)⟩
        exact ⟨fun opened => absurd opened.2 own, fun opened => absurd opened.2 own⟩
  | concluded outcome emits after finishes recorded completes kept =>
      have alone := good.not_otherOpen found (by rw [emits]; rfl)
      have named : (doneEvent task outcome).commandId = task.commandId := by cases outcome <;> rfl
      have isDone : (doneEvent task outcome).isRun = false := by cases outcome <;> rfl
      change ∃ isOpen, Paired isOpen (kindsOf id (plane.events ++ [doneEvent task outcome])) ∧ _
      rw [kindsOf_append, named, isDone, openUnder_apply_iff found]
      dsimp only
      rw [finishes.notOpen]
      by_cases own : task.commandId = id
      · rw [if_pos own]
        rw [own] at alone
        have opened : isOpen = true := open_iff.mpr (Or.inl ⟨by rw [emits]; rfl, own⟩)
        rw [opened] at paired
        refine ⟨false, .done paired, fun impossible => absurd impossible Bool.false_ne_true, ?_⟩
        rintro (⟨impossible, _⟩ | other)
        · exact impossible
        · exact absurd other alone
      · rw [if_neg own]
        refine ⟨isOpen, paired, open_iff.trans (or_congr_left ?_)⟩
        exact ⟨fun opened => absurd opened.2 own,
          fun opened => absurd opened.1 Bool.false_ne_true⟩

theorem Good.not_succeeded (good : plane.Good) (found : plane.tasks[index]? = some task)
    (runs : running task.phase = true) (handles : ∀ outcome, task.phase ≠ .emittingDone outcome)
    (known : task.requestId ≠ []) : task.requestId ∉ plane.successes := by
  intro member
  rcases good.covered task.requestId known member with kept | ⟨place, other, outcome, placed, same,
    phase, _⟩
  · rw [(good.named index task found).unanswered runs known] at kept
    cases kept
  · have mine := good.own index task found known (not_done_of_running runs)
    have other_own := good.own place other placed (by rw [same]; exact known)
      (not_done_of_running (by rw [phase]; rfl))
    rw [same, mine] at other_own
    have place_eq := Option.some.inj other_own
    rw [← place_eq, found] at placed
    cases placed
    exact handles outcome phase

theorem covered_apply (found : plane.tasks[index]? = some task)
    (kind : Kind plane task progress) {requestId : Text} (named : requestId ≠ [])
    (covered : plane.Covered requestId) : (plane.apply index progress).Covered requestId := by
  rcases covered with kept | ⟨place, other, outcome, placed, same, phase, success⟩
  · exact Or.inl (isSome_apply kept)
  · by_cases own : place = index
    · rw [own, found] at placed
      cases placed
      cases kind with
      | begun waits unknown => rw [waits] at phase; cases phase
      | opened emits => rw [emits] at phase; cases phase
      | returned handles ended called => rw [handles] at phase; cases phase
      | passed unopened after finishes completes =>
          rcases unopened with waits | emits
          · rw [waits] at phase; cases phase
          · rw [emits] at phase; cases phase
      | ended notifies cancelled => rw [notifies] at phase; cases phase
      | concluded ended emits after finishes recorded completes kept =>
          rw [emits] at phase
          cases phase
          obtain ⟨result, recorded_eq⟩ := Option.isSome_iff_exists.mp (kept success)
          left
          unfold apply
          dsimp only
          rw [recorded_eq, finishes.requestId, same]
          dsimp only
          rw [if_neg named, KeyedTable.find?_set, if_pos rfl]
          rfl
    · right
      refine ⟨place, other, outcome, ?_, same, phase, success⟩
      rw [getElem?_apply_ne own]
      exact placed

theorem Good.apply (good : plane.Good) (found : plane.tasks[index]? = some task)
    (kind : Kind plane task progress) : (plane.apply index progress).Good := by
  have same := kind.same
  have mine := good.named index task found
  refine ⟨good.registry, good.alive, good.registered, ?_, ?_, ?_, ?_,
    good.paired_apply found kind, ?_, ?_⟩
  · intro place other placed
    rcases getElem?_apply found placed with ⟨_, own⟩ | ⟨_, old⟩
    · rw [own]
      exact kind.sane (good.sane index task found)
    · exact good.sane place other old
  · intro place other placed
    rcases getElem?_apply found placed with ⟨_, own⟩ | ⟨different, old⟩
    · rw [own]
      refine ⟨?_, ?_, ?_, ?_⟩
      · rw [same.requestId]
        exact mine.given
      · intro runs known
        rw [same.requestId] at known ⊢
        rcases kind.runs runs with ⟨ran, id⟩ | ⟨_, _, _, id⟩
        · rw [id]
          exact mine.request ran known
        · rw [id, if_neg known]
      · intro runs anonymous
        rw [same.requestId] at anonymous
        rcases kind.runs runs with ⟨ran, id⟩ | ⟨_, next, _, id⟩
        · obtain ⟨sequence, before, generated⟩ := mine.anonymous ran anonymous
          exact ⟨sequence, Nat.le_trans before kind.later, id.trans generated⟩
        · rw [if_pos anonymous] at id
          exact ⟨plane.sequence + 1, Nat.le_of_eq next.symm, id⟩
      · intro runs known
        rcases @find?_apply plane index progress progress.task.requestId with
          unchanged | ⟨_, result, recorded⟩
        · rw [unchanged]
          rw [same.requestId] at known ⊢
          rcases kind.runs runs with ⟨ran, _⟩ | ⟨_, _, unknown, _⟩
          · exact mine.unanswered ran known
          · exact unknown known
        · rw [kind.keeps recorded] at runs
          exact absurd runs Bool.false_ne_true
    · have named := good.named place other old
      refine ⟨named.given, named.request, ?_, ?_⟩
      · intro runs anonymous
        obtain ⟨sequence, before, generated⟩ := named.anonymous runs anonymous
        exact ⟨sequence, Nat.le_trans before kind.later, generated⟩
      · intro runs known
        rcases @find?_apply plane index progress other.requestId with unchanged | ⟨shared, _⟩
        · rw [unchanged]
          exact named.unanswered runs known
        · rw [same.requestId] at shared
          have first := good.own index task found (by rw [shared]; exact known) kind.live
          have second := good.own place other old known (not_done_of_running runs)
          rw [shared, second] at first
          exact absurd (Option.some.inj first) different
  · intro place other placed known live
    rcases getElem?_apply found placed with ⟨at_index, own⟩ | ⟨_, old⟩
    · rw [own, same.requestId] at known ⊢
      rw [at_index]
      exact good.own index task found known kind.live
    · exact good.own place other old known live
  · intro first second left right placedLeft placedRight runsLeft runsRight bareLeft bareRight
      shared
    -- An anonymous task that has just begun has a new number.
    have fresh : ∀ (place : Nat) (other : Task), place ≠ index →
        plane.tasks[place]? = some other → running other.phase = true → other.requestId = [] →
        running progress.task.phase = true → progress.task.requestId = [] →
        other.commandId ≠ progress.task.commandId := by
      intro place other different old runs bare ownRuns ownBare equal
      rw [same.requestId] at ownBare
      rcases kind.runs ownRuns with ⟨ran, id⟩ | ⟨_, _, _, id⟩
      · rw [id] at equal
        exact different (good.apart place index other task old found runs ran bare ownBare equal)
      · obtain ⟨sequence, before, generated⟩ := (good.named place other old).anonymous runs bare
        rw [generated, id, if_pos ownBare] at equal
        have numbers := generatedId_injective equal
        omega
    rcases getElem?_apply found placedLeft with ⟨leftAt, ownLeft⟩ | ⟨leftNe, oldLeft⟩
    · rcases getElem?_apply found placedRight with ⟨rightAt, ownRight⟩ | ⟨rightNe, oldRight⟩
      · rw [leftAt, rightAt]
      · rw [ownLeft] at runsLeft bareLeft shared
        exact absurd shared.symm (fresh second right rightNe oldRight runsRight bareRight runsLeft
          bareLeft)
    · rcases getElem?_apply found placedRight with ⟨rightAt, ownRight⟩ | ⟨rightNe, oldRight⟩
      · rw [ownRight] at runsRight bareRight shared
        exact absurd shared (fresh first left leftNe oldLeft runsLeft bareLeft runsRight bareRight)
      · exact good.apart first second left right oldLeft oldRight runsLeft runsRight bareLeft
          bareRight shared
  · intro requestId named
    change (if progress.succeeded = true then plane.successes ++ [progress.task.requestId]
      else plane.successes).count requestId ≤ 1
    by_cases success : progress.succeeded = true
    · rw [if_pos success, List.count_append]
      by_cases own : progress.task.requestId = requestId
      · rw [← own, same.requestId] at named ⊢
        have silent : task.requestId ∉ plane.successes := by
          cases kind with
          | returned handles outcome called =>
              exact good.not_succeeded found (by rw [handles]; rfl)
                (fun outcome phase => by rw [handles] at phase; cases phase) named
          | begun waits unknown => cases success
          | opened emits => cases success
          | concluded outcome emits after finishes recorded completes kept => cases success
          | passed unopened after finishes completes => cases success
          | ended notifies cancelled => cases success
        rw [List.count_eq_zero.mpr silent, List.count_singleton_self]
      · have absent : requestId ∉ [progress.task.requestId] :=
          fun listed => own (List.mem_singleton.mp listed).symm
        rw [List.count_eq_zero.mpr absent]
        exact good.single requestId named
    · rw [if_neg success]
      exact good.single requestId named
  · intro requestId named member
    change requestId ∈ (if progress.succeeded = true then
      plane.successes ++ [progress.task.requestId] else plane.successes) at member
    by_cases success : progress.succeeded = true
    · rw [if_pos success] at member
      rcases List.mem_append.mp member with old | new
      · exact covered_apply found kind named (good.covered requestId named old)
      · cases kind with
        | returned handles outcome called =>
            exact Or.inr ⟨index, _, outcome, getElem?_apply_self found,
              (List.mem_singleton.mp new).symm, rfl, success⟩
        | begun waits unknown => cases success
        | opened emits => cases success
        | concluded outcome emits after finishes recorded completes kept => cases success
        | passed unopened after finishes completes => cases success
        | ended notifies cancelled => cases success
    · rw [if_neg success] at member
      exact covered_apply found kind named (good.covered requestId named member)

end

/-! ### The other operations -/

theorem Good.register (good : plane.Good) (definition : CommandDef) :
    (plane.register definition).Good := by
  unfold CommandPlane.register
  cases registered : plane.registry.registerDef ⟨plane.issued.length, definition⟩ with
  | none => exact good
  | some registry =>
      have perm := Registry.registerDef_perm registered
      have below : ∀ number ∈ plane.alive, number < plane.issued.length := by
        intro number listed
        obtain ⟨entry, member, same⟩ := (good.registered number).mpr listed
        rw [← same]
        exact (List.getElem?_eq_some_iff.mp (good.registry.issued entry member)).1
      refine ⟨good.registry.register registered, ?_, ?_, good.sane, ?_, good.own, good.apart,
        good.paired, good.single, good.covered⟩
      · dsimp only
        rw [List.nodup_append]
        refine ⟨good.alive, List.nodup_singleton _, ?_⟩
        intro number listed other own same
        have last := List.mem_singleton.mp own
        have before := below number listed
        omega
      · intro number
        dsimp only
        rw [List.mem_append, List.mem_singleton]
        constructor
        · rintro ⟨entry, member, same⟩
          rcases List.mem_append.mp (perm.mem_iff.mp member) with old | own
          · exact Or.inl ((good.registered number).mp ⟨entry, old, same⟩)
          · rw [List.mem_singleton.mp own] at same
            exact Or.inr same.symm
        · rintro (listed | last)
          · obtain ⟨entry, member, same⟩ := (good.registered number).mpr listed
            exact ⟨entry, perm.mem_iff.mpr (List.mem_append_left _ member), same⟩
          · exact ⟨⟨plane.issued.length, definition⟩,
              perm.mem_iff.mpr (List.mem_append_right _ List.mem_cons_self), last.symm⟩
      · intro index task found
        have named := good.named index task found
        exact ⟨named.given, named.request, named.anonymous, named.unanswered⟩

variable {plane after : CommandPlane}

theorem Good.dispose (good : plane.Good) {number : Nat} (careful : plane.Careful (.dispose number))
    (disposed : plane.dispose number = some after) : after.Good := by
  obtain ⟨definition, known, same⟩ := Option.map_eq_some_iff.mp disposed
  have left := good.registry.dispose known (careful definition known)
  rw [← same]
  refine ⟨good.registry.unregister definition.command, good.alive.erase _, ?_, good.sane, ?_,
    good.own, good.apart, good.paired, good.single, good.covered⟩
  · intro wanted
    dsimp only
    rw [good.alive.mem_erase_iff]
    constructor
    · rintro ⟨entry, member, numbered⟩
      obtain ⟨old, different⟩ := (left entry).mp member
      rw [numbered] at different
      exact ⟨different, (good.registered wanted).mp ⟨entry, old, numbered⟩⟩
    · rintro ⟨different, listed⟩
      obtain ⟨entry, member, numbered⟩ := (good.registered wanted).mpr listed
      refine ⟨entry, (left entry).mpr ⟨member, ?_⟩, numbered⟩
      rw [numbered]
      exact different
  · intro index task found
    have named := good.named index task found
    exact ⟨named.given, named.request, named.anonymous, named.unanswered⟩

theorem getElem?_submitted {tasks : List Task} {added : Task} {index : Nat}
    (found : (tasks ++ [added])[index]? = some task) :
    tasks[index]? = some task ∨ index = tasks.length ∧ task = added := by
  by_cases before : index < tasks.length
  · rw [List.getElem?_append_left before] at found
    exact Or.inl found
  · rw [List.getElem?_append_right (Nat.le_of_not_lt before)] at found
    obtain ⟨bound, same⟩ := List.getElem?_eq_some_iff.mp found
    have zero : index - tasks.length = 0 := Nat.lt_one_iff.mp bound
    right
    refine ⟨by omega, ?_⟩
    rw [← same]
    exact List.mem_singleton.mp (List.getElem_mem bound)

theorem Good.submit (good : plane.Good) {content requestId : Text}
    (careful : plane.Careful (.submit content requestId)) :
    (plane.submit content requestId).Good := by
  unfold CommandPlane.submit
  cases plane.registry.parse content with
  | none => exact good
  | some parsed =>
      dsimp only
      split
      · exact good
      · rename_i fresh
        have kept : ∀ (index : Nat) (task : Task), plane.tasks[index]? = some task →
            (plane.tasks ++ [Task.created parsed.definition content requestId])[index]? =
              some task := by
          intro index task found
          rw [List.getElem?_append_left (List.getElem?_eq_some_iff.mp found).1]
          exact found
        -- The request of a task in flight is not submitted again.
        have unshared : ∀ (index : Nat) (task : Task), plane.tasks[index]? = some task →
            task.requestId ≠ [] → task.phase ≠ .done → requestId ≠ [] →
            requestId ≠ task.requestId := by
          intro index task found known live named same
          have mine := good.own index task found known live
          apply fresh
          refine ⟨named, Or.inl ?_⟩
          rw [same, mine]
          rfl
        refine ⟨good.registry, good.alive, good.registered, ?_, ?_, ?_, ?_, ?_, good.single, ?_⟩
        · intro index task found
          rcases getElem?_submitted found with old | ⟨_, same⟩
          · exact good.sane index task old
          · rw [same]
            refine ⟨⟨?_, ?_⟩, Nat.zero_le 1, fun _ => rfl, ?_, ?_⟩
            · intro impossible
              cases impossible
            · intro _ impossible
              cases impossible
            · intro impossible
              cases impossible
            · intro impossible
              cases impossible
        · intro index task found
          rcases getElem?_submitted found with old | ⟨_, same⟩
          · have named := good.named index task old
            exact ⟨named.given, named.request, named.anonymous, named.unanswered⟩
          · rw [same]
            exact ⟨careful, fun impossible => absurd impossible Bool.false_ne_true,
              fun impossible => absurd impossible Bool.false_ne_true,
              fun impossible => absurd impossible Bool.false_ne_true⟩
        · intro index task found known live
          dsimp only
          rcases getElem?_submitted found with old | ⟨last, same⟩
          · have mine := good.own index task old known live
            split
            · exact mine
            · rename_i named
              rw [KeyedTable.find?_set_ne _ _ (unshared index task old known live named)]
              exact mine
          · rw [same] at known ⊢
            change requestId ≠ [] at known
            rw [if_neg known, last]
            change KeyedTable.find? _ requestId = _
            rw [KeyedTable.find?_set, if_pos rfl]
        · intro first second left right foundLeft foundRight runsLeft runsRight
          rcases getElem?_submitted foundLeft with oldLeft | ⟨_, same⟩
          · rcases getElem?_submitted foundRight with oldRight | ⟨_, same⟩
            · exact good.apart first second left right oldLeft oldRight runsLeft runsRight
            · rw [same] at runsRight
              exact absurd runsRight Bool.false_ne_true
          · rw [same] at runsLeft
            exact absurd runsLeft Bool.false_ne_true
        · intro id
          obtain ⟨isOpen, paired, open_iff⟩ := good.paired id
          refine ⟨isOpen, paired, open_iff.trans ?_⟩
          constructor
          · rintro ⟨index, task, found, opened, named⟩
            exact ⟨index, task, kept index task found, opened, named⟩
          · rintro ⟨index, task, found, opened, named⟩
            rcases getElem?_submitted found with old | ⟨_, same⟩
            · exact ⟨index, task, old, opened, named⟩
            · rw [same] at opened
              exact absurd opened Bool.false_ne_true
        · intro wanted named member
          rcases good.covered wanted named member with known | ⟨index, task, outcome, found, rest⟩
          · exact Or.inl known
          · exact Or.inr ⟨index, task, outcome, kept index task found, rest⟩

def Marked (task other : Task) : Prop :=
  ∃ cancelling background, other =
    { task with
      cancelling := cancelling
      background := background }

theorem Good.marked {plane : CommandPlane} (good : plane.Good) {tasks : List Task}
    (inflight : KeyedTable Text Nat) (completed : List Text) (closing : List (List Nat))
    (back : ∀ (index : Nat) (task : Task), tasks[index]? = some task →
      ∃ old, plane.tasks[index]? = some old ∧ Marked old task)
    (forth : ∀ (index : Nat) (task : Task), plane.tasks[index]? = some task →
      ∃ new, tasks[index]? = some new ∧ Marked task new)
    (own : ∀ (index : Nat) (task : Task), plane.tasks[index]? = some task → task.requestId ≠ [] →
      task.phase ≠ .done → inflight.find? task.requestId = some index) :
    ({ plane with
        tasks := tasks
        inflight := inflight
        completed := completed
        closing := closing } : CommandPlane).Good := by
  refine ⟨good.registry, good.alive, good.registered, ?_, ?_, ?_, ?_, ?_, good.single, ?_⟩
  · intro index task found
    obtain ⟨old, before, cancelling, background, same⟩ := back index task found
    have sane := good.sane index old before
    rw [same]
    exact ⟨sane.calls, sane.few, sane.before, sane.after, sane.ended⟩
  · intro index task found
    obtain ⟨old, before, cancelling, background, same⟩ := back index task found
    have named := good.named index old before
    rw [same]
    exact ⟨named.given, named.request, named.anonymous, named.unanswered⟩
  · intro index task found known live
    obtain ⟨old, before, cancelling, background, same⟩ := back index task found
    rw [same] at known live ⊢
    exact own index old before known live
  · intro first second left right foundLeft foundRight runsLeft runsRight bareLeft bareRight shared
    obtain ⟨oldLeft, beforeLeft, _, _, sameLeft⟩ := back first left foundLeft
    obtain ⟨oldRight, beforeRight, _, _, sameRight⟩ := back second right foundRight
    rw [sameLeft] at runsLeft bareLeft shared
    rw [sameRight] at runsRight bareRight shared
    exact good.apart first second oldLeft oldRight beforeLeft beforeRight runsLeft runsRight
      bareLeft bareRight shared
  · intro id
    obtain ⟨isOpen, paired, open_iff⟩ := good.paired id
    refine ⟨isOpen, paired, open_iff.trans ?_⟩
    constructor
    · rintro ⟨index, task, found, opened, named⟩
      obtain ⟨new, after, cancelling, background, same⟩ := forth index task found
      refine ⟨index, new, after, ?_, ?_⟩
      · rw [same]
        exact opened
      · rw [same]
        exact named
    · rintro ⟨index, task, found, opened, named⟩
      obtain ⟨old, before, cancelling, background, same⟩ := back index task found
      rw [same] at opened named
      exact ⟨index, old, before, opened, named⟩
  · intro requestId named member
    rcases good.covered requestId named member with known | ⟨index, task, outcome, found, shared,
      phase, success⟩
    · exact Or.inl known
    · obtain ⟨new, after, cancelling, background, same⟩ := forth index task found
      refine Or.inr ⟨index, new, outcome, after, ?_, ?_, success⟩
      · rw [same]
        exact shared
      · rw [same]
        exact phase

theorem Good.marked_map {plane : CommandPlane} (good : plane.Good) (mark : Task → Task)
    (marks : ∀ task, Marked task (mark task)) (inflight : KeyedTable Text Nat)
    (completed : List Text) (closing : List (List Nat))
    (own : ∀ (index : Nat) (task : Task), plane.tasks[index]? = some task → task.requestId ≠ [] →
      task.phase ≠ .done → inflight.find? task.requestId = some index) :
    ({ plane with
        tasks := plane.tasks.map mark
        inflight := inflight
        completed := completed
        closing := closing } : CommandPlane).Good := by
  apply good.marked inflight completed closing _ _ own
  · intro index task found
    rw [List.getElem?_map] at found
    obtain ⟨old, before, same⟩ := Option.map_eq_some_iff.mp found
    rw [← same]
    exact ⟨old, before, marks old⟩
  · intro index task found
    refine ⟨mark task, ?_, marks task⟩
    rw [List.getElem?_map, found]
    rfl

theorem Good.settle (good : plane.Good) {index : Nat} (settled : plane.settle index = some after) :
    after.Good := by
  obtain ⟨task, found, settled⟩ := Option.bind_eq_some_iff.mp settled
  obtain ⟨finished, same⟩ := Option.ite_none_right_eq_some.mp settled
  rw [← Option.some.inj same]
  have bound := (List.getElem?_eq_some_iff.mp found).1
  apply good.marked _ plane.completed plane.closing
  · intro place other placed
    by_cases own : place = index
    · rw [own, List.getElem?_set_self bound] at placed
      rw [own, ← Option.some.inj placed]
      exact ⟨task, found, task.cancelling, false, rfl⟩
    · rw [List.getElem?_set_ne (Ne.symm own)] at placed
      exact ⟨other, placed, other.cancelling, other.background, rfl⟩
  · intro place other placed
    by_cases own : place = index
    · rw [own, found] at placed
      cases placed
      rw [own, List.getElem?_set_self bound]
      exact ⟨_, rfl, task.cancelling, false, rfl⟩
    · rw [List.getElem?_set_ne (Ne.symm own)]
      exact ⟨other, placed, other.cancelling, other.background, rfl⟩
  · intro place other placed known live
    have mine := good.own place other placed known live
    split
    · rename_i entry
      -- The request in flight is that of the task that is done.
      have different : other.requestId ≠ task.requestId := by
        intro shared
        rw [shared, entry.2] at mine
        have at_index := Option.some.inj mine
        rw [← at_index, found] at placed
        cases placed
        exact live finished
      rw [KeyedTable.find?_erase_ne _ different]
      exact mine
    · exact mine

theorem Good.close (good : plane.Good) : plane.close.Good := by
  apply good.marked_map cancelled _ plane.inflight plane.completed _ good.own
  intro task
  unfold cancelled
  split
  · exact ⟨true, task.background, rfl⟩
  · exact ⟨task.cancelling, task.background, rfl⟩

theorem Good.closed (good : plane.Good) {close : Nat} (careful : plane.Careful (.closed close))
    (forgotten : plane.closed close = some after) : after.Good := by
  obtain ⟨waited, _, forgotten⟩ := Option.bind_eq_some_iff.mp forgotten
  obtain ⟨_, same⟩ := Option.ite_none_right_eq_some.mp forgotten
  rw [← Option.some.inj same]
  apply good.marked_map (fun task => { task with background := false })
    (fun task => ⟨task.cancelling, false, rfl⟩)
  intro index task found _ live
  exact absurd (careful index task found) live

theorem Good.step (good : plane.Good) {action : Action} (careful : plane.Careful action)
    (stepped : plane.step action = some after) : after.Good := by
  cases action with
  | register definition =>
      cases stepped
      exact good.register definition
  | dispose number => exact good.dispose careful stepped
  | submit content requestId =>
      cases stepped
      exact good.submit careful
  | task index action =>
      obtain ⟨task, found, advanced⟩ := Option.bind_eq_some_iff.mp stepped
      obtain ⟨progress, advances, same⟩ := Option.map_eq_some_iff.mp advanced
      rw [← same]
      exact good.apply found (advance_kind (careful task found) advances)
  | settle index => exact good.settle stepped
  | close =>
      cases stepped
      exact good.close
  | closed close => exact good.closed careful stepped

/-- In a run of careful steps all laws hold in every state. -/
theorem lawful_of_careful (actions : List Action)
    (careful : system.EachStep Careful fresh actions) : system.Always Lawful fresh actions := by
  have keeps : ∀ before action after, Good before → system.step before action = some after →
      Careful before action → Good after := by
    intro before action after good stepped guard
    exact good.step guard stepped
  exact StepSystem.always_of_eachStep Good (fun _ good => good.lawful) keeps good_fresh careful

/-! ### One command -/

def goCommand (object : Nat) : CommandDef where
  object := object
  command := ['/', 'g', 'o']
  system := false
  persistInput := true

def emptied (issued : List CommandDef) : CommandPlane := { fresh with issued := issued }

def holding (issued : List CommandDef) : CommandPlane :=
  { fresh with
    registry := ⟨[], [⟨issued.length, goCommand issued.length⟩]⟩
    issued := issued ++ [goCommand issued.length]
    alive := [issued.length] }

theorem step_register (issued : List CommandDef) :
    system.step (emptied issued) (.register (goCommand issued.length)) = some (holding issued) := by
  have sorted : List.mergeSort [(⟨issued.length, goCommand issued.length⟩ : Registration)]
      longerFirst = [⟨issued.length, goCommand issued.length⟩] := List.mergeSort_singleton _
  have registered : (emptied issued).registry.registerDef
      ⟨(emptied issued).issued.length, goCommand issued.length⟩ =
        some ⟨[], [⟨issued.length, goCommand issued.length⟩]⟩ := by
    change some (Registry.mk [] (List.mergeSort
      [(⟨issued.length, goCommand issued.length⟩ : Registration)] longerFirst)) = _
    rw [sorted]
  change some ((emptied issued).register (goCommand issued.length)) = _
  unfold CommandPlane.register
  rw [registered]
  rfl

/-- A command is registered, run, and disposed of twice. -/
theorem go_lawful : system.Always Lawful fresh
    [.register (goCommand 0), .submit ['/', 'g', 'o', ' ', 'x'] ['r'], .task 0 .begin,
      .task 0 (.runEmitted .recorded), .task 0 (.handled (.returns none)),
      .task 0 (.doneEmitted .recorded), .task 0 .notified, .settle 0, .dispose 0, .dispose 0] := by
  apply lawful_of_careful
  have other : ∀ sequence, ['r'] ≠ generatedId sequence := by
    intro sequence same
    have first := congrArg List.head? same
    cases first
  apply StepSystem.eachStep_cons (step_register []) trivial
  apply StepSystem.eachStep_cons rfl other
  apply StepSystem.eachStep_cons rfl
  · intro task found
    cases found
    exact ⟨_, rfl, rfl⟩
  apply StepSystem.eachStep_cons rfl
  · intro task found text impossible
    cases impossible
  apply StepSystem.eachStep_cons rfl
  · intro task found
    trivial
  apply StepSystem.eachStep_cons rfl
  · intro task found
    exact ⟨fun text impossible => Emission.noConfusion impossible,
      fun outcome phase failed => absurd rfl failed⟩
  apply StepSystem.eachStep_cons rfl
  · intro task found
    trivial
  apply StepSystem.eachStep_cons rfl trivial
  apply StepSystem.eachStep_cons rfl
  · intro definition known
    cases known
    unfold Registry.Clear
    rw [if_pos ⟨⟨0, goCommand 0⟩, List.mem_singleton_self _, rfl⟩]
    exact Or.inr fun entry member => absurd member List.not_mem_nil
  apply StepSystem.eachStep_cons rfl
  · intro definition known
    unfold Registry.Clear
    rw [if_neg]
    · exact fun entry member => absurd member List.not_mem_nil
    · exact fun found => absurd found.choose_spec.1 List.not_mem_nil
  exact trivial

/-- A disposer that was called before takes away a later registration of the same name. -/
theorem disposer_reused : ¬ system.Always Lawful fresh
    [.register (goCommand 0), .dispose 0, .register (goCommand 1), .dispose 0] := by
  intro lawful
  have registered := lawful.2 _ (step_register [])
  have disposed := registered.2 (emptied [goCommand 0]) rfl
  have again := disposed.2 _ (step_register [goCommand 0])
  have final := again.2 _ rfl
  obtain ⟨entry, member, _⟩ := (final.registered 1).mpr List.mem_cons_self
  cases member

end CommandPlane

end Ftre.Commands
