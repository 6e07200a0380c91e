import Ftre.Session.FoldFacts

/-!
The context view compaction makes of a transcript: the newest summary, the messages
behind the one it covers up to, and tool outputs trimmed by fast compactions.
-/

namespace Ftre.Compaction

open Lib Message Session

def trimmedToolResultPlaceholder : String := "[已压缩裁剪：原始工具输出不再可见]"

/-- `message.metadata.get("context_compact")`, when it is a mapping. -/
def compactMetadata (message : Msg) : Json :=
  match message.metadata.find? "context_compact" with
  | some (.object fields) => .object fields
  | _ => .object []

/-- `max(0, int(value or 0))`; what is no number counts as none. -/
def nonnegativeInt : Option Json → Nat
  | some (.int value) => value.toNat
  | some (.bool true) => 1
  | _ => 0

def isSummary (message : Msg) : Bool :=
  decide (message.role = .user) && decide (message.name = .compact)

/-- `str(compact_meta.get("through_message_id") or "")`. -/
def throughMessageId (message : Msg) : String :=
  strOr ((compactMetadata message).get? "through_message_id") none

def toolResults (message : Msg) : List ToolResultBlock :=
  message.content.filterMap ContentBlock.asToolResult?

def toolResultIds (message : Msg) : List String :=
  message.content.filterMap fun block => block.asToolResult?.map ToolResultBlock.id

def namedResults (message : Msg) : List String :=
  ((((compactMetadata message).get? "tool_result_ids").bind Json.asArray?).getD []).filterMap
    fun item => if item.truthy then some item.toStr else none

/-- What one message adds to the ids to trim; `seen` are the messages before it. An old
marker has only a count, for the oldest results not trimmed yet. -/
def markTrimmed (seen : List Msg) (trimIds : List String) (message : Msg) : List String :=
  if message.name ≠ .compactFast then trimIds
  else if namedResults message ≠ [] ∨
      (((compactMetadata message).get? "tool_result_ids").bind Json.asArray?).getD [] ≠ [] then
    trimIds ++ namedResults message
  else
    let eligible := (seen.flatMap toolResultIds).filter fun id => id ∉ trimIds
    trimIds ++ eligible.take (nonnegativeInt ((compactMetadata message).get? "tool_results"))

def collectTrimIds : List Msg → List String → List Msg → List String
  | _, trimIds, [] => trimIds
  | seen, trimIds, message :: rest =>
      collectTrimIds (seen ++ [message]) (markTrimmed seen trimIds message) rest

def trimBlock (trimIds : List String) : ContentBlock → ContentBlock
  | .toolResult result =>
      if result.id ∈ trimIds then
        .toolResult { result with
          output := .parts [.text ⟨trimmedToolResultPlaceholder, "", "", none⟩] }
      else .toolResult result
  | block => block

def trimMessage (trimIds : List String) (message : Msg) : Msg :=
  { message with content := message.content.map (trimBlock trimIds) }

/-- The last summary with what stands behind it. -/
def lastSummary : List Msg → Option (Msg × List Msg)
  | [] => none
  | message :: rest =>
      match lastSummary rest with
      | some found => some found
      | none => if isSummary message then some (message, rest) else none

def behindMessage (id : String) : List Msg → Option (List Msg)
  | [] => none
  | message :: rest => if message.id = id then some rest else behindMessage id rest

def selectView (snapshot : List Msg) : List Msg :=
  match lastSummary snapshot with
  | none => snapshot
  | some (compact, behind) =>
      match behindMessage (throughMessageId compact) snapshot with
      | some items => compact :: items.filter fun item => item.id ≠ compact.id
      | none => compact :: behind

def buildContextView (snapshot : List Msg) : List Msg :=
  (selectView snapshot).map (trimMessage (collectTrimIds [] [] snapshot))

def headMessages (view : List Msg) : List Msg :=
  match view with
  | [] => []
  | first :: rest => if first.name = .compact then rest else first :: rest

theorem headMessages_map {alter : Msg → Msg}
    (keepsName : ∀ message, (alter message).name = message.name) (view : List Msg) :
    headMessages (view.map alter) = (headMessages view).map alter := by
  cases view with
  | nil => rfl
  | cons first rest =>
      rw [List.map_cons, headMessages, headMessages, keepsName]
      split
      · rfl
      · rfl

/-- `through_message_id`; a compaction with nothing to summarise has none. -/
def boundaryOf (snapshot : List Msg) : Option String :=
  (headMessages (buildContextView snapshot)).getLast?.map Msg.id

/-! ### Ids of the view -/

@[simp] theorem trimMessage_id (trimIds : List String) (message : Msg) :
    (trimMessage trimIds message).id = message.id := rfl

@[simp] theorem trimMessage_name (trimIds : List String) (message : Msg) :
    (trimMessage trimIds message).name = message.name := rfl

theorem boundaryOf_select (snapshot : List Msg) :
    boundaryOf snapshot = (headMessages (selectView snapshot)).getLast?.map Msg.id := by
  rw [boundaryOf, buildContextView]
  cases selectView snapshot with
  | nil => rfl
  | cons first rest =>
      rw [List.map_cons, headMessages, headMessages, trimMessage_name]
      split
      · rw [List.getLast?_map, Option.map_map]
        rfl
      · rw [← List.map_cons, List.getLast?_map, Option.map_map]
        rfl

theorem behindMessage_split {id : String} {messages items : List Msg}
    (found : behindMessage id messages = some items) :
    ∃ before covered, messages = before ++ covered :: items ∧ covered.id = id := by
  induction messages with
  | nil => cases found
  | cons message rest ih =>
      rw [behindMessage] at found
      by_cases same : message.id = id
      · rw [if_pos same] at found
        exact ⟨[], message, by rw [Option.some.inj found]; rfl, same⟩
      · rw [if_neg same] at found
        obtain ⟨before, covered, split, own⟩ := ih found
        exact ⟨message :: before, covered, by rw [split]; rfl, own⟩

theorem behindMessage_of_split {before items : List Msg} {covered : Msg}
    (distinct : ((before ++ covered :: items).map Msg.id).Nodup) :
    behindMessage covered.id (before ++ covered :: items) = some items := by
  induction before with
  | nil => exact if_pos rfl
  | cons message before ih =>
      rw [List.cons_append, List.map_cons, List.nodup_cons] at distinct
      have different : message.id ≠ covered.id := by
        intro same
        exact distinct.1 (by rw [same]; simp)
      rw [List.cons_append, behindMessage, if_neg different]
      exact ih distinct.2

theorem lastSummary_split {messages behind : List Msg} {compact : Msg}
    (found : lastSummary messages = some (compact, behind)) :
    ∃ before, messages = before ++ compact :: behind ∧ isSummary compact = true ∧
      ∀ message ∈ behind, isSummary message = false := by
  induction messages with
  | nil => cases found
  | cons message rest ih =>
      rw [lastSummary] at found
      cases later : lastSummary rest with
      | some other =>
          rw [later] at found
          obtain ⟨before, split, own, last⟩ := ih (later.trans found)
          exact ⟨message :: before, by rw [split]; rfl, own, last⟩
      | none =>
          rw [later] at found
          simp only at found
          by_cases own : isSummary message = true
          · rw [if_pos own, Option.some.injEq, Prod.mk.injEq] at found
            obtain ⟨same, tail⟩ := found
            subst same
            subst tail
            exact ⟨[], rfl, own, lastSummary_none later⟩
          · rw [if_neg own] at found
            cases found
where
  lastSummary_none {messages : List Msg} (absent : lastSummary messages = none) :
      ∀ message ∈ messages, isSummary message = false := by
    induction messages with
    | nil => exact fun _message present => absurd present List.not_mem_nil
    | cons message rest ih =>
        rw [lastSummary] at absent
        cases later : lastSummary rest with
        | some other => rw [later] at absent; cases absent
        | none =>
            rw [later] at absent
            simp only at absent
            intro other present
            rcases List.mem_cons.mp present with same | behind
            · subst same
              cases own : isSummary other with
              | false => rfl
              | true => rw [own, if_pos rfl] at absent; cases absent
            · exact ih later other behind

end Ftre.Compaction
