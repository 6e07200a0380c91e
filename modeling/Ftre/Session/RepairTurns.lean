import Ftre.Session.LegacyLog

/-!
Turns and calls of an event log, read off its events alone, and what the repair
of an old log does about them: the calls it closes are the ones that wait in the
open turn, its events continue the numbers, and it repairs nothing twice.
-/

namespace Ftre.Session

open Lib Message

/-- Consecutive numbers from `first` on. -/
def NumberedFrom (first : Int) : List Event → Prop
  | [] => True
  | event :: rest => event.seq = first ∧ NumberedFrom (first + 1) rest

theorem numberedFrom_append (first : Int) (left right : List Event) :
    NumberedFrom first (left ++ right) ↔
      NumberedFrom first left ∧ NumberedFrom (first + left.length) right := by
  induction left generalizing first with
  | nil => simp [NumberedFrom]
  | cons event rest ih =>
      have shift : first + 1 + (rest.length : Int) = first + ((event :: rest).length : Int) := by
        rw [List.length_cons]
        omega
      rw [List.cons_append, NumberedFrom, NumberedFrom, ih, shift, and_assoc]

def followTurn (turn : Option (List Event)) (event : Event) : Option (List Event) :=
  match event.data with
  | .turnStart _ => some []
  | .turnEnd _ => none
  | _ => turn.map (· ++ [event])

def openTurnOf (events : List Event) : Option (List Event) := events.foldl followTurn none

def readTurn (opened : Option Bool) (event : Event) : Option Bool :=
  match event.data with
  | .turnStart _ => opened.bind fun inside => if inside then none else some true
  | .turnEnd _ => opened.map fun _ => false
  | _ => opened

def turnsOf (events : List Event) : Option Bool := events.foldl readTurn (some false)

def awaitResult (toolCallId : String) (waiting : Bool) (event : Event) : Bool :=
  match event.data with
  | .toolCallStart started _ _ => waiting || started = toolCallId
  | .toolResult finished _ _ _ _ => waiting && finished ≠ toolCallId
  | _ => waiting

def unanswered (toolCallId : String) (events : List Event) : Bool :=
  events.foldl (awaitResult toolCallId) false

theorem unanswered_append (toolCallId : String) (events : List Event) (event : Event) :
    unanswered toolCallId (events ++ [event]) =
      awaitResult toolCallId (unanswered toolCallId events) event := by
  unfold unanswered
  rw [List.foldl_append]
  rfl

/-! ### What the repair reads -/

structure Agrees (scan : RepairScan) (turn : Option (List Event)) : Prop where
  opened : scan.openTurn.isSome = turn.isSome
  closed : turn = none → scan.openToolCalls.entries = []
  waiting : ∀ events, turn = some events → ∀ id,
    id ∈ scan.openToolCalls.keys ↔ id ≠ "" ∧ unanswered id events = true

namespace Agrees

variable {scan : RepairScan} {turn : Option (List Event)}

theorem start : Agrees .start none := ⟨rfl, fun _ => rfl, fun _ impossible => by cases impossible⟩

private theorem keep (agrees : Agrees scan turn) {event : Event} {next : RepairScan}
    (sameTurn : next.openTurn = scan.openTurn)
    (sameCalls : next.openToolCalls = scan.openToolCalls)
    (inside : followTurn turn event = turn.map (· ++ [event]))
    (noCall : ∀ id waiting, awaitResult id waiting event = waiting) :
    Agrees next (followTurn turn event) := by
  rw [inside]
  refine ⟨?_, ?_, ?_⟩
  · rw [sameTurn, agrees.opened, Option.isSome_map]
  · intro absent
    rw [sameCalls]
    exact agrees.closed (Option.map_eq_none_iff.mp absent)
  · intro events grown id
    obtain ⟨earlier, found, rfl⟩ := Option.map_eq_some_iff.mp grown
    rw [sameCalls, unanswered_append, noCall]
    exact agrees.waiting earlier found id

private theorem follow_same (scan : RepairScan) (event : Event) :
    (scan.follow event).openTurn = scan.openTurn ∧
      (scan.follow event).openToolCalls = scan.openToolCalls := by
  unfold RepairScan.follow
  split <;> exact ⟨rfl, rfl⟩

private theorem keys_erase (table : KeyedTable String (String × String)) (id wanted : String) :
    wanted ∈ (table.erase id).keys ↔ wanted ≠ id ∧ wanted ∈ table.keys := by
  rw [KeyedTable.mem_keys_iff, KeyedTable.mem_keys_iff, KeyedTable.find?_erase]
  by_cases same : wanted = id
  · simp [same]
  · simp [same]

private theorem keys_put (table : KeyedTable String (String × String)) (id wanted : String)
    (value : String × String) : wanted ∈ (table.set id value).keys ↔ wanted = id ∨ wanted ∈ table.keys := by
  rw [KeyedTable.mem_keys_iff, KeyedTable.mem_keys_iff, KeyedTable.find?_set]
  by_cases same : id = wanted
  · simp [same]
  · simp [same, Ne.symm same]

private theorem openCall_agrees (agrees : Agrees scan turn) (event : Event)
    {toolCallId name : String} {arguments : KeyedTable String Json}
    (started : event.data = .toolCallStart toolCallId name arguments) :
    Agrees (scan.read event) (followTurn turn event) := by
  unfold RepairScan.read followTurn
  rw [started]
  dsimp only
  cases turn with
  | none =>
      have shut : ¬ scan.openTurn.isSome = true := by simp [agrees.opened]
      rw [if_neg shut]
      exact agrees
  | some earlier =>
      have inside : scan.openTurn.isSome = true := agrees.opened
      rw [if_pos inside]
      refine ⟨inside, (by intro impossible; cases impossible), ?_⟩
      intro events grown id
      cases grown
      rw [unanswered_append]
      have before := agrees.waiting earlier rfl id
      unfold RepairScan.openCall awaitResult
      rw [started]
      dsimp only
      by_cases unnamed : toolCallId = ""
      · rw [if_pos unnamed, before]
        constructor
        · rintro ⟨named, waiting⟩
          exact ⟨named, by simp [waiting]⟩
        · rintro ⟨named, waiting⟩
          have other : toolCallId ≠ id := fun same => named (same.symm.trans unnamed)
          exact ⟨named, by simpa [other] using waiting⟩
      · rw [if_neg unnamed, keys_put, before]
        by_cases same : id = toolCallId
        · subst same
          simp [unnamed]
        · simp [same, Ne.symm same]

private theorem result_agrees (agrees : Agrees scan turn) (event : Event)
    {toolCallId name state : String} {output : List OutputPart} {metadata : KeyedTable String Json}
    (finished : event.data = .toolResult toolCallId name output state metadata) :
    Agrees (scan.read event) (followTurn turn event) := by
  unfold RepairScan.read followTurn
  rw [finished]
  dsimp only
  refine ⟨?_, ?_, ?_⟩
  · rw [agrees.opened, Option.isSome_map]
  · intro absent
    have empty := agrees.closed (Option.map_eq_none_iff.mp absent)
    change scan.openToolCalls.entries.filter _ = []
    rw [empty]
    rfl
  · intro events grown id
    obtain ⟨earlier, found, rfl⟩ := Option.map_eq_some_iff.mp grown
    rw [keys_erase, agrees.waiting earlier found, unanswered_append]
    unfold awaitResult
    rw [finished]
    by_cases same : id = toolCallId
    · subst same
      simp
    · simp [same, Ne.symm same]

theorem read (agrees : Agrees scan turn) (event : Event) :
    Agrees (scan.read event) (followTurn turn event) := by
  have follows : ∀ data, event.data = data → scan.read event =
      (if scan.openTurn.isSome then scan.follow event else scan) →
      followTurn turn event = turn.map (· ++ [event]) →
      (∀ id waiting, awaitResult id waiting event = waiting) →
      Agrees (scan.read event) (followTurn turn event) := by
    intro data _ same inside noCall
    rw [same]
    split
    · exact agrees.keep (follow_same scan event).1 (follow_same scan event).2 inside noCall
    · exact agrees.keep rfl rfl inside noCall
  cases told : event.data with
  | turnStart data =>
      unfold RepairScan.read followTurn
      rw [told]
      refine ⟨rfl, (by intro impossible; cases impossible), ?_⟩
      intro events fresh id
      cases fresh
      change id ∈ [] ↔ _
      simp [unanswered]
  | turnEnd data =>
      unfold RepairScan.read followTurn
      rw [told]
      exact start
  | toolCallStart toolCallId name arguments => exact openCall_agrees agrees event told
  | toolResult toolCallId name output state metadata => exact result_agrees agrees event told
  | assistantMessage message =>
      apply follows _ told <;> simp [RepairScan.read, followTurn, awaitResult, told]
  | hintMessage hint source =>
      apply follows _ told <;> simp [RepairScan.read, followTurn, awaitResult, told]
  | assistantChunk kind delta blockId toolCallId =>
      apply follows _ told <;> simp [RepairScan.read, followTurn, awaitResult, told]
  | userMessage content metadata requestId =>
      apply agrees.keep <;> simp [RepairScan.read, followTurn, awaitResult, told]
  | compactMessage data =>
      apply agrees.keep <;> simp [RepairScan.read, followTurn, awaitResult, told]
  | toolResultStart toolCallId name =>
      apply agrees.keep <;> simp [RepairScan.read, followTurn, awaitResult, told]
  | approvalAsked toolCallId name arguments reason ruleId =>
      apply agrees.keep <;> simp [RepairScan.read, followTurn, awaitResult, told]
  | turnRetry turnId code message attempt maxAttempts =>
      apply agrees.keep <;> simp [RepairScan.read, followTurn, awaitResult, told]
  | sessionStatus status reason =>
      apply agrees.keep <;> simp [RepairScan.read, followTurn, awaitResult, told]

theorem readAll (agrees : Agrees scan turn) (events : List Event) :
    Agrees (events.foldl RepairScan.read scan) (events.foldl followTurn turn) := by
  induction events generalizing scan turn with
  | nil => exact agrees
  | cons event rest ih => exact ih (agrees.read event)

end Agrees

theorem scan_agrees (events : List Event) :
    Agrees (RepairScan.readAll events) (openTurnOf events) := Agrees.start.readAll events

/-! ### The closing events -/

section

variable (now : Int) (textId : String → String)

theorem closing_numbered (count : Nat) (scan : RepairScan) :
    NumberedFrom count (closingEvents now textId count scan) := by
  have results : ∀ (calls : List (String × String × String)) (seq : Int),
      NumberedFrom seq (interruptedResults now textId seq calls) ∧
        (interruptedResults now textId seq calls).length = calls.length := by
    intro calls
    induction calls with
    | nil => exact fun seq => ⟨trivial, rfl⟩
    | cons call rest ih =>
        intro seq
        obtain ⟨numbered, long⟩ := ih (seq + 1)
        exact ⟨⟨rfl, numbered⟩, congrArg (· + 1) long⟩
  obtain ⟨numbered, long⟩ := results scan.openToolCalls.entries count
  unfold closingEvents
  dsimp only
  rw [numberedFrom_append, long]
  refine ⟨numbered, ?_⟩
  cases scan.openTurn with
  | none => trivial
  | some turn => exact ⟨rfl, trivial⟩

theorem repair_closed {events : List Event} (closed : openTurnOf events = none) :
    repairLegacyEvents now textId events = events := by
  have agrees := scan_agrees events
  have noTurn : (RepairScan.readAll events).openTurn = none := by
    have opened := agrees.opened
    rw [closed] at opened
    exact Option.isNone_iff_eq_none.mp (by simpa using opened)
  exact if_pos ⟨noTurn, agrees.closed closed⟩

theorem repair_open {events turn : List Event} (opened : openTurnOf events = some turn) :
    ∃ data, (RepairScan.readAll events).openTurn = some data ∧
      repairLegacyEvents now textId events = events ++
        (interruptedResults now textId events.length
            (RepairScan.readAll events).openToolCalls.entries ++
          [crashedEnd now
            (events.length + (RepairScan.readAll events).openToolCalls.entries.length)
            (RepairScan.readAll events).assistantId data]) := by
  have inside := (scan_agrees events).opened
  rw [opened] at inside
  obtain ⟨data, held⟩ := Option.isSome_iff_exists.mp inside
  refine ⟨data, held, ?_⟩
  have wanting : ¬ ((RepairScan.readAll events).openTurn = none ∧
      (RepairScan.readAll events).openToolCalls.entries = []) := by
    rintro ⟨absent, _⟩
    rw [held] at absent
    cases absent
  unfold repairLegacyEvents closingEvents
  dsimp only
  rw [if_neg wanting, held]

theorem foldl_interrupted {β : Type} (step : β → Event → β) (kept : β → Prop)
    (keeps : ∀ state seq call, kept state →
      kept (step state (interruptedResult now textId seq call)))
    (calls : List (String × String × String)) (seq : Int) {state : β} (initially : kept state) :
    kept ((interruptedResults now textId seq calls).foldl step state) := by
  induction calls generalizing state seq with
  | nil => exact initially
  | cons call rest ih => exact ih (seq + 1) (keeps state seq call initially)

theorem turnsOf_open {events : List Event} {opened : Bool} (read : turnsOf events = some opened) :
    opened = (openTurnOf events).isSome := by
  have both : ∀ (rest : List Event) (state : Option Bool) (turn : Option (List Event)),
      (∀ inside, state = some inside → inside = turn.isSome) →
      ∀ inside, rest.foldl readTurn state = some inside →
        inside = (rest.foldl followTurn turn).isSome := by
    intro rest
    induction rest with
    | nil => exact fun _ _ agree => agree
    | cons event rest ih =>
        intro state turn agree
        apply ih
        intro inside held
        unfold readTurn at held
        unfold followTurn
        cases told : event.data <;> rw [told] at held <;> dsimp only at held ⊢
        case turnStart data =>
          obtain ⟨before, _, started⟩ := Option.bind_eq_some_iff.mp held
          split at started
          · cases started
          · cases started
            rfl
        case turnEnd data =>
          obtain ⟨before, _, ended⟩ := Option.map_eq_some_iff.mp held
          exact ended.symm
        all_goals
          rw [Option.isSome_map]
          exact agree inside held
  exact both events (some false) none (fun inside same => (Option.some.inj same).symm) opened read

theorem repair_ended (events : List Event) :
    turnsOf (repairLegacyEvents now textId events) = some false ↔ (turnsOf events).isSome := by
  cases opened : openTurnOf events with
  | none =>
      rw [repair_closed now textId opened]
      constructor
      · intro ended
        rw [ended]
        rfl
      · intro read
        obtain ⟨inside, held⟩ := Option.isSome_iff_exists.mp read
        rw [held, turnsOf_open held, opened]
        rfl
  | some turn =>
      obtain ⟨data, _, repaired⟩ := repair_open now textId opened
      have results : ∀ (state : Option Bool) (seq : Int),
          (interruptedResults now textId seq
            (RepairScan.readAll events).openToolCalls.entries).foldl readTurn state = state := by
        intro state seq
        exact foldl_interrupted now textId readTurn (· = state) (fun _ _ _ same => same) _ seq rfl
      have ends : turnsOf (repairLegacyEvents now textId events) =
          (turnsOf events).map fun _ => false := by
        rw [repaired]
        unfold turnsOf
        rw [List.foldl_append, List.foldl_append, results]
        rfl
      rw [ends]
      cases turnsOf events with
      | none => simp
      | some inside => simp

theorem readAll_repaired (events : List Event) :
    openTurnOf (repairLegacyEvents now textId events) = none := by
  cases opened : openTurnOf events with
  | none =>
      rw [repair_closed now textId opened]
      exact opened
  | some turn =>
      obtain ⟨data, _, repaired⟩ := repair_open now textId opened
      rw [repaired]
      unfold openTurnOf
      rw [List.foldl_append, List.foldl_append]
      rfl

theorem repair_idempotent (later : Int) (otherId : String → String) (events : List Event) :
    repairLegacyEvents later otherId (repairLegacyEvents now textId events) =
      repairLegacyEvents now textId events :=
  repair_closed later otherId (readAll_repaired now textId events)

private theorem foldl_await (id : String) (calls : List (String × String × String)) (seq : Int)
    (waiting : Bool) :
    (interruptedResults now textId seq calls).foldl (awaitResult id) waiting =
      (waiting && decide (id ∉ calls.map Prod.fst)) := by
  induction calls generalizing seq waiting with
  | nil => simp [interruptedResults]
  | cons call rest ih =>
      rw [interruptedResults, List.foldl_cons, ih]
      change (waiting && decide (call.1 ≠ id) && decide (id ∉ rest.map Prod.fst)) = _
      by_cases same : id = call.1
      · simp [same]
      · have elsewhere : id ∈ (call :: rest).map Prod.fst ↔ id ∈ rest.map Prod.fst := by
          rw [List.map_cons, List.mem_cons]
          exact or_iff_right same
        simp only [decide_not, elsewhere, Ne.symm same, decide_false, Bool.not_false,
          Bool.and_true, ne_eq]

theorem repair_answers {events turn added : List Event} (opened : openTurnOf events = some turn)
    (repaired : repairLegacyEvents now textId events = events ++ added) :
    (∀ id, unanswered id (turn ++ added) = false) ↔ unanswered "" turn = false := by
  obtain ⟨data, _, closing⟩ := repair_open now textId opened
  have same := List.append_cancel_left (repaired.symm.trans closing)
  have read : ∀ id, unanswered id (turn ++ added) =
      (unanswered id turn &&
        decide (id ∉ (RepairScan.readAll events).openToolCalls.keys)) := by
    intro id
    rw [same]
    unfold unanswered
    rw [List.foldl_append, List.foldl_append, foldl_await]
    rfl
  have waiting := (scan_agrees events).waiting turn opened
  constructor
  · intro answered
    have unnamed := answered ""
    have absent : "" ∉ (RepairScan.readAll events).openToolCalls.keys := by
      intro present
      exact ((waiting "").mp present).1 rfl
    rwa [read, decide_eq_true absent, Bool.and_true] at unnamed
  · intro unnamed id
    rw [read]
    cases started : unanswered id turn with
    | false => rfl
    | true =>
        have named : id ≠ "" := by
          rintro rfl
          rw [unnamed] at started
          cases started
        have present := (waiting id).mpr ⟨named, started⟩
        simp [present]

end

end Ftre.Session
