import Ftre.Session.FoldFacts

/-!
The one-time import of an old event log: the storage row that packs a run of chunk events, and the
repair that closes the calls and the turn which a crash left open.
-/

namespace Ftre.Session

open Lib Message

/-! ### Chunk rows -/

inductive ChunkKind where
  | text
  | thinking
  | toolResultText
deriving DecidableEq, Repr

namespace ChunkKind

def value : ChunkKind → String
  | .text => "text"
  | .thinking => "thinking"
  | .toolResultText => "tool_result_text"

def rowType : ChunkKind → String
  | .text => "text-chunks"
  | .thinking => "thinking-chunks"
  | .toolResultText => "tool-result-chunks"

end ChunkKind

/-- `_LEGACY_ROW_TYPES.get`. -/
def legacyRowKind : String → Option String
  | "text-chunks" => some "text"
  | "thinking-chunks" => some "thinking"
  | "tool-result-chunks" => some "tool_result_text"
  | _ => none

theorem legacyRowKind_rowType (kind : ChunkKind) :
    legacyRowKind kind.rowType = some kind.value := by
  cases kind <;> rfl

def chunkRecord (seq time : Int) (messageId kind delta blockId toolCallId : Json) : Json :=
  .object [("type", .str "assistant/chunk"), ("seq", .int seq), ("time", .int time),
    ("message_id", messageId),
    ("data", .object [("kind", kind), ("delta", delta), ("block_id", blockId),
      ("tool_call_id", toolCallId)])]

/-- `isinstance(value, int)` holds of booleans as well. -/
def pyInt? : Json → Option Int
  | .int value => some value
  | .bool value => some (if value then 1 else 0)
  | _ => none

/-- `set(keys) == set(wanted)`. -/
def SameKeys (keys wanted : List String) : Prop :=
  (∀ key ∈ keys, key ∈ wanted) ∧ ∀ key ∈ wanted, key ∈ keys

instance (keys wanted : List String) : Decidable (SameKeys keys wanted) :=
  inferInstanceAs (Decidable (_ ∧ _))

def unpackFrom (record : Int → Int → String → Json) (seq time : Int) :
    List (Int × String) → List Json
  | [] => []
  | (gap, delta) :: rest =>
      record seq (time + gap) delta :: unpackFrom record (seq + 1) (time + gap) rest

def unpack (record : Int → Int → String → Json) (seq0 time0 : Int) (gaps : List Int) :
    List String → List Json
  | [] => []
  | delta :: rest =>
      record seq0 time0 delta :: unpackFrom record (seq0 + 1) time0 (gaps.zip rest)

def decodeRowData (kind : String) (seq0 time0 : Int) (messageId : Json)
    (data : List (String × Json)) : Except String (List Json) :=
  if ¬ SameKeys (data.map Prod.fst) ["kind", "block_id", "tool_call_id", "dt", "deltas"] ∨
      Json.lookup "kind" data ≠ some (.str kind) then
    .error "损坏的旧 chunk row：字段类型错误"
  else
    match ((Json.lookup "deltas" data).bind Json.asArray?).bind (·.mapM Json.asString?),
        ((Json.lookup "dt" data).bind Json.asArray?).bind (·.mapM pyInt?) with
    | some deltas, some gaps =>
        if deltas.length < 3 ∨ gaps.length ≠ deltas.length - 1 then
          .error "损坏的旧 chunk row：delta/dt 长度错误"
        else
          .ok (unpack (fun seq time delta =>
              chunkRecord seq time messageId (.str kind) (.str delta)
                ((Json.lookup "block_id" data).getD .null)
                ((Json.lookup "tool_call_id" data).getD .null)) seq0 time0 gaps deltas)
    | _, _ => .error "损坏的旧 chunk row：delta/dt 长度错误"

def decodeLegacyRow (record : KeyedTable String Json) : Except String (List Json) :=
  match ((record.find? "type").bind Json.asString?).bind legacyRowKind with
  | none => .ok [.object record.entries]
  | some kind =>
      if ¬ SameKeys record.keys ["type", "seq0", "time0", "message_id", "data"] then
        .error "损坏的旧 chunk row：字段不完整"
      else
        match (record.find? "seq0").bind pyInt?, (record.find? "time0").bind pyInt?,
            (record.find? "data").bind Json.asFields? with
        | some seq0, some time0, some data =>
            decodeRowData kind seq0 time0 ((record.find? "message_id").getD .null) data
        | _, _, _ => .error "损坏的旧 chunk row：字段类型错误"

/-! ### Packed runs -/

/-- A run of chunk events with consecutive numbers and the same coordinates, of
at least three events: the first time and delta, and the later ones. -/
structure ChunkRun where
  messageId : Option String
  kind : ChunkKind
  blockId : Option String
  toolCallId : Option String
  seq0 : Int
  time0 : Int
  delta0 : String
  later : List (Int × String)
  long : 2 ≤ later.length

namespace ChunkRun

def record (run : ChunkRun) (seq time : Int) (delta : String) : Json :=
  chunkRecord seq time (optionJson run.messageId) (.str run.kind.value) (.str delta)
    (optionJson run.blockId) (optionJson run.toolCallId)

def recordsFrom (run : ChunkRun) (seq : Int) : List (Int × String) → List Json
  | [] => []
  | (time, delta) :: rest => run.record seq time delta :: run.recordsFrom (seq + 1) rest

def records (run : ChunkRun) : List Json :=
  run.recordsFrom run.seq0 ((run.time0, run.delta0) :: run.later)

def gapsFrom (time : Int) : List (Int × String) → List Int
  | [] => []
  | (next, _) :: rest => (next - time) :: gapsFrom next rest

def packedData (run : ChunkRun) : List (String × Json) :=
  [("kind", .str run.kind.value), ("block_id", optionJson run.blockId),
    ("tool_call_id", optionJson run.toolCallId),
    ("dt", .array ((gapsFrom run.time0 run.later).map .int)),
    ("deltas", .array ((run.delta0 :: run.later.map Prod.snd).map .str))]

/-- The row that holds the run: its first number and time, the gaps between the
events and every delta. -/
def pack (run : ChunkRun) : KeyedTable String Json where
  entries := [("type", .str run.kind.rowType), ("seq0", .int run.seq0), ("time0", .int run.time0),
    ("message_id", optionJson run.messageId), ("data", .object run.packedData)]
  distinct := by
    change ["type", "seq0", "time0", "message_id", "data"].Nodup
    decide

theorem gapsFrom_length (time : Int) (chunks : List (Int × String)) :
    (gapsFrom time chunks).length = chunks.length := by
  induction chunks generalizing time with
  | nil => rfl
  | cons head rest ih =>
      rcases head with ⟨next, delta⟩
      rw [gapsFrom, List.length_cons, List.length_cons, ih]

theorem unpackFrom_gaps (run : ChunkRun) (seq time : Int) (chunks : List (Int × String)) :
    unpackFrom run.record seq time ((gapsFrom time chunks).zip (chunks.map Prod.snd)) =
      run.recordsFrom seq chunks := by
  induction chunks generalizing seq time with
  | nil => rfl
  | cons head rest ih =>
      rcases head with ⟨next, delta⟩
      have reached : time + (next - time) = next := by omega
      rw [gapsFrom, List.map_cons, List.zip_cons_cons, unpackFrom, reached, recordsFrom, ih]

theorem mapM_int (values : List Int) :
    (values.map Json.int).mapM pyInt? = some values := by
  induction values with
  | nil => rfl
  | cons head rest ih => simp [pyInt?, ih]

theorem mapM_str (values : List String) :
    (values.map Json.str).mapM Json.asString? = some values := by
  induction values with
  | nil => rfl
  | cons head rest ih => simp [Json.asString?, ih]

private theorem decode_data (run : ChunkRun) :
    decodeRowData run.kind.value run.seq0 run.time0 (optionJson run.messageId) run.packedData =
      .ok run.records := by
  have complete : SameKeys (run.packedData.map Prod.fst)
      ["kind", "block_id", "tool_call_id", "dt", "deltas"] := by
    change SameKeys ["kind", "block_id", "tool_call_id", "dt", "deltas"] _
    decide
  have deltas : ((Json.lookup "deltas" run.packedData).bind Json.asArray?).bind
      (·.mapM Json.asString?) = some (run.delta0 :: run.later.map Prod.snd) := mapM_str _
  have gaps : ((Json.lookup "dt" run.packedData).bind Json.asArray?).bind (·.mapM pyInt?) =
      some (gapsFrom run.time0 run.later) := mapM_int _
  have lengths : ¬ ((run.delta0 :: run.later.map Prod.snd).length < 3 ∨
      (gapsFrom run.time0 run.later).length ≠
        (run.delta0 :: run.later.map Prod.snd).length - 1) := by
    have long := run.long
    rw [gapsFrom_length, List.length_cons, List.length_map]
    omega
  unfold decodeRowData
  rw [if_neg, deltas, gaps]
  · dsimp only
    rw [if_neg lengths]
    exact congrArg (fun later => Except.ok (run.record run.seq0 run.time0 run.delta0 :: later))
      (unpackFrom_gaps run (run.seq0 + 1) run.time0 run.later)
  · rintro (incomplete | unlike)
    · exact incomplete complete
    · exact unlike rfl

theorem decode_pack (run : ChunkRun) : decodeLegacyRow run.pack = .ok run.records := by
  have typed : ((run.pack.find? "type").bind Json.asString?).bind legacyRowKind =
      some run.kind.value := legacyRowKind_rowType run.kind
  have complete : SameKeys run.pack.keys ["type", "seq0", "time0", "message_id", "data"] := by
    change SameKeys ["type", "seq0", "time0", "message_id", "data"] _
    decide
  unfold decodeLegacyRow
  rw [typed]
  dsimp only
  rw [if_neg (not_not_intro complete)]
  exact decode_data run

end ChunkRun

/-! ### Repair -/

/-- What `repair_legacy_events` has read: the calls that wait for a result, each
with its name and message, the turn that is open, and its last message. -/
structure RepairScan where
  openToolCalls : KeyedTable String (String × String)
  openTurn : Option TurnStartData
  assistantId : Option String
deriving DecidableEq

namespace RepairScan

def start : RepairScan := ⟨.empty, none, none⟩

def follow (scan : RepairScan) (event : Event) : RepairScan :=
  match event.target with
  | some id => { scan with assistantId := some id }
  | none => scan

def openCall (scan : RepairScan) (event : Event) (toolCallId name : String) : RepairScan :=
  let owner := event.target.getD (scan.assistantId.getD "")
  { scan with
    openToolCalls :=
      if toolCallId = "" then scan.openToolCalls
      else scan.openToolCalls.set toolCallId (name, owner)
    assistantId := some owner }

def read (scan : RepairScan) (event : Event) : RepairScan :=
  match event.data with
  | .turnStart data => ⟨.empty, some data, none⟩
  | .turnEnd _ => start
  | .toolCallStart toolCallId name _ =>
      if scan.openTurn.isSome then scan.openCall event toolCallId name else scan
  | .assistantChunk _ _ _ _ => if scan.openTurn.isSome then scan.follow event else scan
  | .assistantMessage _ => if scan.openTurn.isSome then scan.follow event else scan
  | .hintMessage _ _ => if scan.openTurn.isSome then scan.follow event else scan
  | .toolResult toolCallId _ _ _ _ =>
      { scan with openToolCalls := scan.openToolCalls.erase toolCallId }
  | _ => scan

def readAll (events : List Event) : RepairScan := events.foldl read start

end RepairScan

def synthetic : KeyedTable String Json := KeyedTable.empty.set "synthetic" (.bool true)

def interruptedResult (now : Int) (textId : String → String) (seq : Int)
    (call : String × String × String) : Event where
  seq := seq
  time := now
  messageId := if call.2.2 = "" then none else some call.2.2
  data := .toolResult call.1 call.2.1
    [.text ⟨"[CRASHED] 执行中断，结果未知", textId call.1, isoFromMs now, none⟩] "interrupted" synthetic

def interruptedResults (now : Int) (textId : String → String) (seq : Int) :
    List (String × String × String) → List Event
  | [] => []
  | call :: rest =>
      interruptedResult now textId seq call :: interruptedResults now textId (seq + 1) rest

def crashedEnd (now seq : Int) (messageId : Option String) (turn : TurnStartData) : Event where
  seq := seq
  time := now
  messageId := messageId
  data := .turnEnd {
    turnId := turn.turnId
    requestId := turn.requestId
    outcome := "cancelled"
    reason := "crashed"
    error := some ((KeyedTable.empty.set "code" (.str "crashed")).set "message"
      (.str "Gateway 异常退出，turn 由 migration 收尾"))
    usage := none
    iterations := 0
    metadata := synthetic }

/-- The events the repair adds after `count` events. -/
def closingEvents (now : Int) (textId : String → String) (count : Nat) (scan : RepairScan) :
    List Event :=
  let calls := scan.openToolCalls.entries
  interruptedResults now textId count calls ++
    match scan.openTurn with
    | some turn => [crashedEnd now (count + calls.length) scan.assistantId turn]
    | none => []

def repairLegacyEvents (now : Int) (textId : String → String) (events : List Event) :
    List Event :=
  let scan := RepairScan.readAll events
  if scan.openTurn = none ∧ scan.openToolCalls.entries = [] then events
  else events ++ closingEvents now textId events.length scan

end Ftre.Session
