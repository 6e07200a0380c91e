import Ftre.Config.DeepMerge
import Ftre.Lib.StepSystem
import Ftre.Mcp.ServerConfig
import Mathlib.Logic.Function.Basic

/-!
The layers MCP servers are configured in, and the calls that write them.
-/

namespace Ftre.Mcp

open Lib

/-- A file of a layer, by what reading it gives. -/
inductive JsonFile where
  | missing
  | broken
  | undecodable
  | holds (value : Decoded)

def JsonFile.content : JsonFile → Option Dict
  | .holds value => value.dict?
  | _ => none

/-- `_global_config` is what the connections were last told. -/
structure McpStores where
  config : Dict
  globalConfig : Dict
  agentFiles : String → JsonFile
  projectFiles : String → JsonFile

/-- The directories that the file system resolves an agent id and a workspace to, if there are
such directories and they are legal. -/
structure McpPlaces where
  agentDir : String → Option String
  workspaceRoot : String → Option String

inductive Layer where
  | global
  | agent (agentId : String)
  | project (workspace : String)
deriving DecidableEq

inductive Location where
  | global
  | agentFile (directory : String)
  | projectFile (root : String)
deriving DecidableEq

def McpPlaces.location (places : McpPlaces) : Layer → Option Location
  | .global => some .global
  | .agent agentId => (places.agentDir agentId).map .agentFile
  | .project workspace => (places.workspaceRoot workspace).map .projectFile

def globalSource (stores : McpStores) : Dict :=
  match stores.config.lookup "mcp" with
  | none => .empty
  | some _ => (stores.config.dict? "mcp").getD stores.globalConfig

/-- `read_mcp_source`. -/
def agentSource (file : JsonFile) : Dict :=
  (file.content.bind fun fields => fields.dict? "mcp").getD .empty

/-- `WorkspaceService.mcp_source`: without the key the whole object is the layer. -/
def projectSource (file : JsonFile) : Dict :=
  match file.content with
  | none => .empty
  | some fields =>
      match fields.lookup "mcp" with
      | none => fields
      | some _ => (fields.dict? "mcp").getD .empty

/-- `_source_for_write`. -/
def McpPlaces.source (places : McpPlaces) (stores : McpStores) : Layer → Dict
  | .global => globalSource stores
  | .agent agentId =>
      ((places.agentDir agentId).map fun directory =>
        agentSource (stores.agentFiles directory)).getD .empty
  | .project workspace =>
      ((places.workspaceRoot workspace).map fun root =>
        projectSource (stores.projectFiles root)).getD .empty

inductive McpError where
  | value (text : String)
  | type (text : String)
  | key (text : String)
  | runtime (text : String)
  | noDirectory (name : String)
  | file
  | notAssignable
  | reload
deriving DecidableEq

/-- How the writing of a file and the reload of the connections go. -/
structure Attempt where
  writeFails : Bool
  reloadFails : Bool

def Attempt.smooth : Attempt := ⟨false, false⟩

/-- `{"mcp": entries}`. -/
def mcpPatch (entries : Dict) : Dict := Dict.empty.put "mcp" entries.toDecoded

def McpStores.writeGlobal (stores : McpStores) (entries : Dict) : McpStores :=
  { stores with
    config := Config.merged stores.config (mcpPatch entries)
    globalConfig := entries }

/-- `update_agent` with a patch of the MCP layer: the other fields of a readable file stay. -/
def JsonFile.withMcp (entries : Dict) : JsonFile → Except McpError Dict
  | .missing => .ok (mcpPatch entries)
  | .broken => .ok (mcpPatch entries)
  | .undecodable => .error .file
  | .holds value =>
      match value.dict? with
      | some fields => .ok (fields.put "mcp" entries.toDecoded)
      | none => .error .notAssignable

def McpPlaces.replaceSource (places : McpPlaces) (stores : McpStores) (entries : Dict)
    (attempt : Attempt) : Layer → Except McpError Unit × McpStores
  | .global =>
      if attempt.writeFails then (.error .file, stores)
      else (if attempt.reloadFails then .error .reload else .ok (), stores.writeGlobal entries)
  | .agent agentId =>
      match places.agentDir agentId with
      | none => (.error (.noDirectory agentId), stores)
      | some directory =>
          match (stores.agentFiles directory).withMcp entries with
          | .error error => (.error error, stores)
          | .ok value =>
              if attempt.writeFails then (.error .file, stores)
              else
                (.ok (),
                  { stores with
                    agentFiles :=
                      Function.update stores.agentFiles directory (.holds value.toDecoded) })
  | .project workspace =>
      match places.workspaceRoot workspace with
      | none => (.error (.noDirectory workspace), stores)
      | some root =>
          if attempt.writeFails then (.error .file, stores)
          else
            (.ok (),
              { stores with
                projectFiles :=
                  Function.update stores.projectFiles root
                    (.holds (mcpPatch entries).toDecoded) })

/-! ### Calls -/

inductive McpRequest where
  | create (config : Decoded)
  | update (patch : Decoded)
  | delete

structure McpCall where
  name : Json
  scope : String
  agentId : Option String
  workspace : Option String
  request : McpRequest

/-- `_validate_server_name`. -/
def McpCall.serverName (call : McpCall) : Except McpError String :=
  match call.name.asString?.filter safeServerName with
  | some name => .ok name
  | none => .error (.value "MCP server name may only contain letters, digits, - and _")

/-- `_validate_scope_context`, and the layer it is about. -/
def McpCall.layer (call : McpCall) : Except McpError Layer :=
  if call.scope = "global" then .ok .global
  else if call.scope = "agent" then
    match call.agentId.filter fun agentId => decide (agentId ≠ "") with
    | some agentId => .ok (.agent agentId)
    | none => .error (.value "agent scope requires agent_id")
  else if call.scope = "project" then
    match call.workspace.filter fun workspace => decide (workspace ≠ "") with
    | some workspace => .ok (.project workspace)
    | none => .error (.value "project scope requires workspace")
  else .error (.value "scope must be global, agent, or project")

def validateConfig (pyRepr : Json → String) (name : String) (config : Decoded) :
    Option McpError :=
  match config.dict? with
  | none => some (.type "MCP config must be an object")
  | some _ =>
      (inspectMcpServer name config.value).error.map fun error => .value (error.text pyRepr)

/-- `{**current, **patch}`. -/
def shallowMerge (current patch : Dict) : Dict := current.putAll patch

def McpRequest.edited (pyRepr : Json → String) (name scope : String) (entries : Dict) :
    McpRequest → Except McpError Dict
  | .create config =>
      match validateConfig pyRepr name config with
      | some error => .error error
      | none =>
          if (entries.lookup name).isSome then
            .error (.value s!"MCP server '{name}' already exists in {scope}")
          else .ok (entries.put name config)
  | .update patch =>
      match patch.dict? with
      | none => .error (.type "MCP patch must be an object")
      | some fields =>
          if (fields.lookup "name").isSome then
            .error (.value "renaming an MCP server is not supported")
          else
            match entries.dict? name with
            | none => .error (.key s!"MCP server '{name}' does not exist in {scope}")
            | some current =>
                let candidate := (shallowMerge current fields).toDecoded
                match validateConfig pyRepr name candidate with
                | some error => .error error
                | none => .ok (entries.put name candidate)
  | .delete =>
      if (entries.lookup name).isSome then .ok (entries.erase name)
      else .error (.key s!"MCP server '{name}' does not exist in {scope}")

structure Edit where
  name : String
  layer : Layer
  entries : Dict

def McpPlaces.edit (places : McpPlaces) (pyRepr : Json → String) (stores : McpStores)
    (call : McpCall) : Except McpError Edit :=
  match call.serverName with
  | .error error => .error error
  | .ok name =>
      match call.layer with
      | .error error => .error error
      | .ok layer =>
          match call.request.edited pyRepr name call.scope (places.source stores layer) with
          | .error error => .error error
          | .ok entries => .ok ⟨name, layer, entries⟩

/-- `_source_item`: what was written has to be found in the catalog; a deletion does not look. -/
def McpPlaces.sourceItem (places : McpPlaces) (stores : McpStores) (edit : Edit) :
    McpRequest → Except McpError Unit
  | .delete => .ok ()
  | _ =>
      if ((places.source stores edit.layer).lookup edit.name).isSome then .ok ()
      else .error (.runtime "written MCP source was not present in its catalog")

/-- `create`, `update` and `delete`. -/
def McpPlaces.perform (places : McpPlaces) (pyRepr : Json → String) (stores : McpStores)
    (call : McpCall) (attempt : Attempt) : Except McpError Unit × McpStores :=
  match places.edit pyRepr stores call with
  | .error error => (.error error, stores)
  | .ok edit =>
      match places.replaceSource stores edit.entries attempt edit.layer with
      | (.error error, after) => (.error error, after)
      | (.ok _, after) => (places.sourceItem after edit call.request, after)

structure McpAction where
  call : McpCall
  attempt : Attempt

/-- Calls one after the other, whether they raise or not. -/
def McpPlaces.system (places : McpPlaces) (pyRepr : Json → String) :
    StepSystem McpStores McpAction :=
  ⟨fun stores action => some (places.perform pyRepr stores action.call action.attempt).2⟩

end Ftre.Mcp
