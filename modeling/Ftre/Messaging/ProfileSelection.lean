import Ftre.Agent.Profiles
import Ftre.Inbox.Models

/-!
The metadata of a client's frame on its way to the profile of a run.
-/

namespace Ftre.Messaging

open Lib Session Agent Inbox

structure AgentRef where
  leaderSession : String
  subAgent : String
deriving DecidableEq, Repr

structure InboundMetadata where
  requestId : String
  agentId : String
  agentRef : Option AgentRef
  historyMessageId : String
deriving DecidableEq, Repr

/-- `_on_message`'s `from_client`: of what a client sends only an agent id is taken. -/
def InboundMetadata.fromClient (raw : Option Json) : InboundMetadata :=
  match raw with
  | some (.object fields) =>
      match Json.lookup "agent_id" fields with
      | some (.str agentId) => ⟨"", agentId, none, ""⟩
      | _ => ⟨"", "", none, ""⟩
  | _ => ⟨"", "", none, ""⟩

/-- `model_copy(update={"request_id": request_id})`. -/
def InboundMetadata.withRequest (metadata : InboundMetadata) (requestId : String) :
    InboundMetadata :=
  { metadata with requestId := requestId }

def AgentRef.toJson (agentRef : AgentRef) : Json :=
  .object [("leader_session", .str agentRef.leaderSession), ("sub_agent", .str agentRef.subAgent)]

def InboundMetadata.modelDump (metadata : InboundMetadata) : List (String × Json) :=
  [("request_id", .str metadata.requestId), ("agent_id", .str metadata.agentId),
    ("agent_ref", (metadata.agentRef.map AgentRef.toJson).getD .null),
    ("history_message_id", .str metadata.historyMessageId)]

/-- A prompt of a session that can be stored. -/
structure ClientPrompt where
  sessionId : String
  requestId : String
  content : String
  attachments : List Json
  metadata : Option Json
  stored : sessionId ≠ ""

/-- `_item_from_message`. -/
def ClientPrompt.item (prompt : ClientPrompt) : AdmittedItem :=
  let metadata :=
    ((InboundMetadata.fromClient prompt.metadata).withRequest prompt.requestId).modelDump
  .ofInbound ⟨prompt.sessionId, prompt.requestId, "ws", prompt.content, prompt.attachments, "user",
    strOr (Json.lookup "agent_id" metadata) none⟩ prompt.stored

/-- `get_session`'s agent id; a session that is not stored has none. -/
def sessionAgent (sessions : SessionTable) (sessionId : String) : String :=
  ((sessions sessionId).map StoredSession.agentId).getD ""

def resolveSessionAgent (sessions : SessionTable) (admitted : AdmittedItem) : AdmittedItem :=
  let item := admitted.item
  admitted.resolved (if item.agentId = "" then
    let value := sessionAgent sessions item.sessionId
    if value = "" then "default" else value
  else item.agentId)

def orDefault (agentId : String) : String := if agentId = "" then "default" else agentId

structure RequestMetadata where
  agentId : String
  metadata : List (String × Json)

/-- `_to_agent_request`; the item may name its message in the history by now. -/
def toAgentRequest (item : QueueItem) (historyMessageId : Option String) : RequestMetadata where
  agentId := item.sessionId ++ ":" ++ orDefault item.agentId
  metadata := [("agent_id", .str (orDefault item.agentId)),
    ("profile_agent_id", .str (orDefault item.agentId)), ("attachments", .array item.attachments)] ++
    match historyMessageId with
    | none => []
    | some id => if id = "" then [] else [("history_message_id", .str id)]

/-- `_to_inbound`: the metadata of the runtime's input. -/
def toInbound (request : RequestMetadata) : List (String × Json) :=
  let metadata := request.metadata.filter fun field => decide (field.1 ≠ "attachments")
  let profile := Json.orElse (Json.lookup "profile_agent_id" metadata)
    (Json.orElse (Json.lookup "runtime_agent_id" metadata)
      (Json.orElse (some (.str request.agentId)) (some (.str "default"))))
  KeyedList.putItem Prod.fst ("agent_id", .str (strOr profile none)) metadata

/-- `_resolve_turn_config`: the profile of an input of the runtime. -/
def runtimeSelection (disk : FileSystem) (roots : ProfileRoots) (sessions : SessionTable)
    (sessionId : String) (metadata : List (String × Json)) : Selection :=
  let agentId := strOr (Json.lookup "agent_id" metadata)
    (some (.str (sessionAgent sessions sessionId)))
  resolveForInbound disk roots sessions agentId sessionId metadata

/-- The two ways a frame leads to a run. -/
inductive Entrance where
  | turn (admitting : SessionTable) (historyMessageId : Option String)
  | confirmation

/-- The profile of the run a prompt leads to; `sessions` is what is stored when it starts. -/
def selectProfile (disk : FileSystem) (roots : ProfileRoots) (sessions : SessionTable)
    (prompt : ClientPrompt) : Entrance → Selection
  | .turn admitting historyMessageId =>
      let item := (resolveSessionAgent admitting prompt.item).item
      let metadata := toInbound (toAgentRequest item historyMessageId)
      runtimeSelection disk roots sessions item.sessionId
        (KeyedList.putItem Prod.fst ("request_id", .str item.requestId) metadata)
  | .confirmation =>
      runtimeSelection disk roots sessions prompt.sessionId
        ((InboundMetadata.fromClient prompt.metadata).withRequest prompt.requestId).modelDump

/-! ### Confinement -/

/-- The agent id of a frame's metadata. -/
def clientAgentId (metadata : Option Json) : Option Json := metadata.bind (·.get? "agent_id")

/-- The agent of a run: the client's choice, or else the session's. -/
def chosenAgent (sessions : SessionTable) (prompt : ClientPrompt) (entrance : Entrance) : String :=
  let fallback :=
    match entrance with
    | .turn admitting _ => orDefault (sessionAgent admitting prompt.sessionId)
    | .confirmation => sessionAgent sessions prompt.sessionId
  match clientAgentId prompt.metadata with
  | some (.str agentId) => if agentId = "" then fallback else agentId
  | _ => fallback

structure SelectionConfined (disk : FileSystem) (roots : ProfileRoots) (sessions : SessionTable)
    (sessionId agentId : String) (selection : Selection) : Prop where
  reads : selection.memberReads =
    (boundLeader sessions sessionId).toList.map fun leader => (leader, sessionId)
  confined : ∀ profile, selection.profile = .ok profile →
    (∃ leader, boundLeader sessions sessionId = some leader ∧
      IsMember disk roots leader sessionId profile) ∨
    (Known disk roots.agentsDir agentId ∧ profile.agentId = agentId ∧
      IsChild disk roots.agentsDir profile) ∨
    (¬ Known disk roots.agentsDir agentId ∧ IsDefault roots.agentsDir profile)
  member : ∀ leader dir, boundLeader sessions sessionId = some leader →
    HoldsMember disk roots leader sessionId dir → selection.profile = .ok ⟨sessionId, some dir⟩
  raised : ∀ error, selection.profile = .error error → error = .unreadable ∧
    ∃ dir, Chosen disk roots.agentsDir agentId dir ∧ disk.merges dir = false

theorem fromClient_eq (raw : Option Json) :
    InboundMetadata.fromClient raw =
      ⟨"", ((clientAgentId raw).bind Json.asString?).getD "", none, ""⟩ := by
  unfold InboundMetadata.fromClient clientAgentId
  cases raw with
  | none => rfl
  | some value =>
      cases value with
      | object fields =>
          change (match Json.lookup "agent_id" fields with
            | some (.str agentId) => (⟨"", agentId, none, ""⟩ : InboundMetadata)
            | _ => ⟨"", "", none, ""⟩) = ⟨"", ((Json.lookup "agent_id" fields).bind _).getD "", _, _⟩
          cases Json.lookup "agent_id" fields with
          | none => rfl
          | some id => cases id <;> rfl
      | _ => rfl

theorem strOr_str (text : String) (second : Option Json) :
    strOr (some (.str text)) second = if text = "" then strOr none second else text := by
  unfold strOr Json.orElse Json.truthy
  by_cases blank : text = ""
  · subst blank
    rfl
  · simp [blank, Json.toStr]

theorem strOr_text (text : String) : strOr none (some (.str text)) = text := by
  by_cases blank : text = ""
  · subst blank
    rfl
  · simp [strOr, Json.orElse, Json.truthy, Json.toStr, blank]

def frameAgent (prompt : ClientPrompt) : String :=
  ((clientAgentId prompt.metadata).bind Json.asString?).getD ""

theorem chosenAgent_eq (sessions : SessionTable) (prompt : ClientPrompt) (entrance : Entrance) :
    chosenAgent sessions prompt entrance =
      if frameAgent prompt = "" then
        match entrance with
        | .turn admitting _ => orDefault (sessionAgent admitting prompt.sessionId)
        | .confirmation => sessionAgent sessions prompt.sessionId
      else frameAgent prompt := by
  unfold chosenAgent frameAgent
  cases clientAgentId prompt.metadata with
  | none => rfl
  | some value => cases value <;> rfl

theorem queuedAgent_eq (admitting : SessionTable) (prompt : ClientPrompt) :
    (resolveSessionAgent admitting prompt.item).item.agentId =
      if frameAgent prompt = "" then orDefault (sessionAgent admitting prompt.sessionId)
      else frameAgent prompt := by
  have agent : prompt.item.item.agentId = frameAgent prompt := by
    change strOr (Json.lookup "agent_id" (((InboundMetadata.fromClient prompt.metadata).withRequest
      prompt.requestId).modelDump)) none = _
    rw [fromClient_eq]
    change strOr (some (.str (frameAgent prompt))) none = _
    rw [strOr_str]
    split
    · rename_i blank
      rw [blank]
      rfl
    · rfl
  change (if prompt.item.item.agentId = "" then _ else prompt.item.item.agentId) = _
  rw [agent]
  rfl

theorem orDefault_of_ne {agentId : String} (named : agentId ≠ "") : orDefault agentId = agentId :=
  if_neg named

theorem orDefault_ne (agentId : String) : orDefault agentId ≠ "" := by
  unfold orDefault
  split
  · decide
  · assumption

theorem toInbound_lookups (item : QueueItem) (historyMessageId : Option String)
    (requestId : String) :
    let metadata := KeyedList.putItem Prod.fst ("request_id", .str requestId)
      (toInbound (toAgentRequest item historyMessageId))
    Json.lookup "agent_id" metadata = some (.str (orDefault item.agentId)) ∧
      Json.lookup "agent_ref" metadata = none := by
  have named := orDefault_ne item.agentId
  have agent : strOr (some (.str (orDefault item.agentId))) none = orDefault item.agentId := by
    rw [strOr_str, if_neg named]
  have truthy : (Json.str (orDefault item.agentId)).truthy = true := decide_eq_true named
  unfold toInbound toAgentRequest
  cases historyMessageId with
  | none =>
      simp [Json.lookup, KeyedList.putItem, Json.orElse, truthy, agent]
  | some id =>
      by_cases blank : id = ""
      · simp [Json.lookup, KeyedList.putItem, Json.orElse, truthy, agent, blank]
      · simp [Json.lookup, KeyedList.putItem, Json.orElse, truthy, agent, blank]

theorem referredLeader_none {metadata : List (String × Json)}
    (unreferred : (Json.lookup "agent_ref" metadata).bind (·.get? "leader_session") = none)
    (sessionId : String) : referredLeader metadata sessionId = none := by
  unfold referredLeader
  dsimp only
  rw [unreferred]

theorem selectProfile_eq (disk : FileSystem) (roots : ProfileRoots) (sessions : SessionTable)
    (prompt : ClientPrompt) (entrance : Entrance) :
    selectProfile disk roots sessions prompt entrance =
      resolveForInbound disk roots sessions (chosenAgent sessions prompt entrance)
        prompt.sessionId [] := by
  rw [chosenAgent_eq]
  cases entrance with
  | turn admitting historyMessageId =>
      unfold selectProfile runtimeSelection
      obtain ⟨agent, unreferred⟩ := toInbound_lookups
        (resolveSessionAgent admitting prompt.item).item historyMessageId
        (resolveSessionAgent admitting prompt.item).item.requestId
      have queued := queuedAgent_eq admitting prompt
      have named : (resolveSessionAgent admitting prompt.item).item.agentId ≠ "" := by
        rw [queued]
        split
        · exact orDefault_ne _
        · assumption
      dsimp only
      rw [agent, strOr_str, if_neg (orDefault_ne _), orDefault_of_ne named, queued]
      apply resolveForInbound_unreferred
      apply referredLeader_none
      rw [unreferred]
      rfl
  | confirmation =>
      unfold selectProfile runtimeSelection
      dsimp only
      rw [fromClient_eq]
      change resolveForInbound disk roots sessions
        (strOr (some (.str (frameAgent prompt))) (some (.str (sessionAgent sessions prompt.sessionId))))
        prompt.sessionId _ = _
      rw [strOr_str, strOr_text]
      apply resolveForInbound_unreferred
      exact referredLeader_none rfl _

theorem resolved_confined (disk : FileSystem) (roots : ProfileRoots) (sessions : SessionTable)
    (agentId sessionId : String) :
    SelectionConfined disk roots sessions sessionId agentId
      (resolveForInbound disk roots sessions agentId sessionId []) := by
  unfold resolveForInbound
  rw [referredLeader_none rfl]
  dsimp only [Option.bind_none, Option.toList_none, List.map_nil, List.nil_append]
  cases bound : boundLeader sessions sessionId with
  | none =>
      refine ⟨by rw [bound]; rfl, ?_, ?_, ?_⟩
      · intro profile loaded
        exact Or.inr (load_ok loaded)
      · intro leader dir same
        rw [bound] at same
        cases same
      · intro error failed
        exact load_error failed
  | some leader =>
      dsimp only [Option.bind_some]
      cases member : loadMemberProfile disk roots leader sessionId with
      | none =>
          refine ⟨by rw [bound]; rfl, ?_, ?_, ?_⟩
          · intro profile loaded
            exact Or.inr (load_ok loaded)
          · intro other dir same held
            rw [bound] at same
            cases same
            rw [loadMemberProfile_of_holds held] at member
            cases member
          · intro error failed
            exact load_error failed
      | some found =>
          refine ⟨by rw [bound]; rfl, ?_, ?_, nofun⟩
          · intro profile loaded
            cases loaded
            exact Or.inl ⟨leader, bound, loadMemberProfile_some member⟩
          · intro other dir same held
            rw [bound] at same
            cases same
            rw [loadMemberProfile_of_holds held] at member
            cases member
            rfl

end Ftre.Messaging
