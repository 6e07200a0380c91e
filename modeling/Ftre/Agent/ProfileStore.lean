import Ftre.Lib.JsonObjects
import Ftre.Lib.KeyedTable
import Ftre.Lib.StepSystem
import Ftre.Agent.Profiles

/-!
The agents directory as the manager changes it: a folder of files for each agent.
-/

namespace Ftre.Agent.ProfileStore

open Lib Session

inductive Loaded where
  | value (value : Json)
  | malformed
  | undecodable

/-- How the manager reads and writes a file of content `β`. -/
structure FileCodec (β : Type) where
  loads : β → Loaded
  rendered : Json → β
  dumped : Json → β
  readText : β → Option String
  blank : β

abbrev Files (β : Type) := KeyedTable String β

inductive Entry (β : Type) where
  | folder (files : Files β)
  | file (content : β)

abbrev AgentsDirectory (β : Type) := KeyedTable String (Entry β)

inductive StoreError where
  | emptyId
  | illegalId (id : String)
  | exists (id : String)
  | absent (id : String)
  | defaultAgent
  | unsupportedFile (filename : String)
  | notAnObject
  | undecodable
  | system
deriving DecidableEq

variable {β : Type}

def configFile : String := "agent.config.json"

def promptFiles : List String := ["SOUL.md", "AGENTS.md", "USER.md"]

def folder? (directory : AgentsDirectory β) (id : String) : Option (Files β) :=
  match directory.find? id with
  | some (.folder files) => some files
  | _ => none

def file? (directory : AgentsDirectory β) (id filename : String) : Option β :=
  (folder? directory id).bind fun files => files.find? filename

def resolveAgentDir (id : String) : Except StoreError String :=
  if safeId id then .ok id else .error (.illegalId id)

def existingDir (directory : AgentsDirectory β) (id : String) : Except StoreError String :=
  match resolveAgentDir id with
  | .error error => .error error
  | .ok agentDir =>
      if (folder? directory agentDir).isSome then .ok agentDir else .error (.absent id)

/-- Where `load` reads the agent from; none for the empty profile. -/
def loadDir (directory : AgentsDirectory β) (id : String) (strict : Bool) :
    Except StoreError (Option String) :=
  match existingDir directory id with
  | .ok agentDir => .ok (some agentDir)
  | .error error =>
      if strict then .error error
      else .ok (if (folder? directory "default").isSome then some "default" else none)

def promptDir (directory : AgentsDirectory β) (id : String) : Option String :=
  match existingDir directory id with
  | .ok agentDir => some agentDir
  | .error _ => if (folder? directory "default").isSome then some "default" else none

/-- What `delete_agent` is about to remove. -/
def deletableDir (directory : AgentsDirectory β) (id : String) : Except StoreError String :=
  if id = "default" then .error .defaultAgent else existingDir directory id

def readMd (codec : FileCodec β) (files : Files β) (filename : String) :
    Except StoreError String :=
  match files.find? filename with
  | none => .ok ""
  | some content =>
      match codec.readText content with
      | none => .error .undecodable
      | some text => .ok (strip text)

def readPrompts (codec : FileCodec β) (directory : AgentsDirectory β) (id : String) :
    Except StoreError (List (String × String)) :=
  match (promptDir directory id).bind (folder? directory) with
  | none => .ok (promptFiles.map fun filename => (filename, ""))
  | some files =>
      promptFiles.mapM fun filename => do
        let text ← readMd codec files filename
        return (filename, text)

/-- `write_prompt`: what it gives back, and the directory behind it. -/
def writePrompt (directory : AgentsDirectory β) (id filename : String) (_content : String) :
    Except StoreError Unit × AgentsDirectory β :=
  if filename ∉ promptFiles then (.error (.unsupportedFile filename), directory)
  else
    match promptDir directory id with
    | none => (.error (.absent id), directory)
    | some _ =>
        -- The path is made and logged, and nothing is written to it.
        (.ok (), directory)

def mergeLlm (patch fields : List (String × Json)) : List (String × Json) :=
  match Json.lookup "llm" patch with
  | some (.object given) =>
      let existing := match Json.lookup "llm" fields with
        | some (.object existing) => existing
        | _ => []
      KeyedList.putItem Prod.fst
        ("llm", .object (given.foldl (fun merged field => KeyedList.putItem Prod.fst field merged)
          existing)) fields
  | _ => fields

def mergeText (key : String) (patch fields : List (String × Json)) : List (String × Json) :=
  match Json.lookup key patch with
  | some (.str text) => KeyedList.putItem Prod.fst (key, .str text) fields
  | _ => fields

def mergeMcp (patch fields : List (String × Json)) :
    Except StoreError (List (String × Json)) :=
  match Json.lookup "mcp" patch with
  | none => .ok fields
  | some (.object servers) => .ok (KeyedList.putItem Prod.fst ("mcp", .object servers) fields)
  | some _ => .error .notAnObject

def inert (patch : List (String × Json)) : Bool :=
  (match Json.lookup "llm" patch with | some (.object _) => false | _ => true) &&
    (match Json.lookup "name" patch with | some (.str _) => false | _ => true) &&
    (match Json.lookup "workspace" patch with | some (.str _) => false | _ => true) &&
    (Json.lookup "mcp" patch).isNone

def patchConfig (config : Json) (patch : List (String × Json)) : Except StoreError Json :=
  match config with
  | .object fields =>
      (mergeMcp patch (mergeText "workspace" patch (mergeText "name" patch
        (mergeLlm patch fields)))).map .object
  | other => if inert patch then .ok other else .error .notAnObject

/-- The config `update_agent` starts from. -/
def readConfig (codec : FileCodec β) (files : Files β) : Except StoreError Json :=
  match files.find? configFile with
  | none => .ok (.object [])
  | some content =>
      match codec.loads content with
      | .value config => .ok config
      | .malformed => .ok (.object [])
      | .undecodable => .error .undecodable

/-- `update_agent`; `broken` says that the new file cannot be written, which leaves the old
one in its place. -/
def updateAgent (codec : FileCodec β) (directory : AgentsDirectory β) (id : String)
    (patch : List (String × Json)) (broken : Bool) : Except StoreError Json × AgentsDirectory β :=
  match existingDir directory id with
  | .error error => (.error error, directory)
  | .ok agentDir =>
      match folder? directory agentDir with
      | none => (.error (.absent id), directory)
      | some files =>
          match (readConfig codec files).bind fun config => patchConfig config patch with
          | .error error => (.error error, directory)
          | .ok config =>
              if broken then (.error .system, directory)
              else
                (.ok config,
                  directory.set agentDir (.folder (files.set configFile (codec.dumped config))))

/-- Why `create_agent_profile` refuses an id. -/
def createRefusal (isAlnum : Char → Bool) (directory : AgentsDirectory β) (id : String) :
    Option StoreError :=
  if id = "" then some .emptyId
  else if !(id.toList.all fun character =>
      isAlnum character || decide (character = '-') || decide (character = '_')) then
    some (.illegalId id)
  else if directory.contains id then some (.exists id)
  else none

/-- Where creation breaks down: at the directory, or at one of the files, which may have
been opened before its text could not be written. -/
inductive CreateFault where
  | folder
  | file (written : Nat) (opened : Bool)
deriving DecidableEq

def newConfig (id name provider model workspace : String) : Json :=
  .object ([("id", .str id)] ++ (if name = "" then [] else [("name", .str name)]) ++
    (if provider = "" ∨ model = "" then []
      else [("llm", .object [("provider", .str provider), ("model", .str model)])]) ++
    (if workspace = "" then [] else [("workspace", .str workspace)]))

def newFiles (codec : FileCodec β) (config : Json) : List (String × β) :=
  (configFile, codec.rendered config) :: promptFiles.map fun filename => (filename, codec.blank)

def tornFiles (codec : FileCodec β) (config : Json) (written : Nat) (opened : Bool) :
    List (String × β) :=
  let files := newFiles codec config
  files.take written ++
    (if opened then (files.drop written).head?.toList.map fun (filename, _) =>
      (filename, codec.blank) else [])

def createAgentProfile (codec : FileCodec β) (isAlnum : Char → Bool)
    (directory : AgentsDirectory β) (id name provider model workspace : String)
    (fault : Option CreateFault) : Except StoreError Json × AgentsDirectory β :=
  match createRefusal isAlnum directory id with
  | some error => (.error error, directory)
  | none =>
      let config := newConfig id name provider model workspace
      match fault with
      | none => (.ok config, directory.set id (.folder (.ofList (newFiles codec config))))
      | some .folder => (.error .system, directory)
      | some (.file written opened) =>
          (.error .system,
            directory.set id (.folder (.ofList (tornFiles codec config written opened))))

/-- `delete_agent`; `fault` has the files removed before one could not be. -/
def deleteAgent (directory : AgentsDirectory β) (id : String) (fault : Option (List String)) :
    Except StoreError Unit × AgentsDirectory β :=
  match deletableDir directory id with
  | .error error => (.error error, directory)
  | .ok agentDir =>
      match fault with
      | none => (.ok (), directory.erase agentDir)
      | some removed =>
          match folder? directory agentDir with
          | none => (.error .system, directory)
          | some files =>
              (.error .system, directory.set agentDir
                (.folder (files.filter fun filename _ => decide (filename ∉ removed))))

inductive StoreAction where
  | create (id name provider model workspace : String) (fault : Option CreateFault)
  | update (id : String) (patch : List (String × Json)) (broken : Bool)
  | writePrompt (id filename content : String)
  | delete (id : String) (fault : Option (List String))

def perform (codec : FileCodec β) (isAlnum : Char → Bool) (directory : AgentsDirectory β) :
    StoreAction → Except StoreError Unit × AgentsDirectory β
  | .create id name provider model workspace fault =>
      let (result, after) :=
        createAgentProfile codec isAlnum directory id name provider model workspace fault
      (result.map fun _ => (), after)
  | .update id patch broken =>
      let (result, after) := updateAgent codec directory id patch broken
      (result.map fun _ => (), after)
  | .writePrompt id filename content => writePrompt directory id filename content
  | .delete id fault => deleteAgent directory id fault

/-- The directory under one call after the other. -/
def store (codec : FileCodec β) (isAlnum : Char → Bool) :
    StepSystem (AgentsDirectory β) StoreAction where
  step directory action := some (perform codec isAlnum directory action).2

end Ftre.Agent.ProfileStore
