import Ftre.Agent.Profiles
import Ftre.Lib.JsonObjects
import Ftre.Lib.JsonText

/-!
Entries of the MCP configuration: the names they may have, and what makes an object a server.
-/

namespace Ftre.Mcp

open Lib

/-- `_SAFE_SERVER_NAME.fullmatch`. -/
def safeServerName (name : String) : Bool :=
  !name.toList.isEmpty && name.toList.all Agent.isIdCharacter

inductive ServerType where
  | localServer
  | remoteServer
deriving DecidableEq, Repr

structure McpServerConfig where
  name : String
  type : ServerType
  command : List String
  environment : List (String × String)
  url : String
  headers : List (String × String)
  disabled : Bool
  timeout : Int
  timeoutPositive : 0 < timeout
deriving DecidableEq

inductive EntryError where
  | emptyName
  | notObject
  | unknownType (type : Json)
  | timeout
  | command
  | environment
  | url
  | headers
deriving DecidableEq

/-- `pyRepr` is how the interpreter shows a value. -/
def EntryError.text (pyRepr : Json → String) : EntryError → String
  | .emptyName => "服务器名称不能为空"
  | .notObject => "配置必须是对象"
  | .unknownType type => s!"未知 type={pyRepr type}，且未提供 command"
  | .timeout => "timeout 必须是正整数毫秒"
  | .command => "local MCP 的 command 必须是非空字符串数组"
  | .environment => "environment 必须是字符串键值对象"
  | .url => "remote MCP 缺少 url"
  | .headers => "headers 必须是字符串键值对象"

structure McpConfigInspection where
  name : String
  config : Option McpServerConfig
  disabled : Bool
  error : Option EntryError
deriving DecidableEq

def entryDisabled (fields : List (String × Json)) : Bool :=
  (Json.lookup "disabled" fields).any Json.truthy ||
    decide (Json.lookup "enabled" fields = some (.bool false))

def entryType (fields : List (String × Json)) : Except EntryError ServerType :=
  let given := (Json.lookup "type" fields).getD (.str "")
  if given = .str "local" then .ok .localServer
  else if given = .str "remote" then .ok .remoteServer
  else if (Json.lookup "command" fields).isSome then .ok .localServer
  else .error (.unknownType given)

def nonemptyString? (value : Json) : Option String :=
  value.asString?.filter fun text => decide (text ≠ "")

def commandOf (fields : List (String × Json)) : Option (List String) :=
  match Json.lookup "command" fields with
  | some (.array items) => if items.isEmpty then none else items.mapM nonemptyString?
  | _ => none

/-- `raw.get(key) or {}` where it is an object of strings. -/
def stringsAt (key : String) (fields : List (String × Json)) : Option (List (String × String)) :=
  if (Json.lookup key fields).any Json.truthy then
    match Json.lookup key fields with
    | some (.object entries) =>
        entries.mapM fun entry => entry.2.asString?.map fun text => (entry.1, text)
    | _ => none
  else some []

def timeoutOf (fields : List (String × Json)) : Option Int :=
  ((Json.lookup "timeout" fields).getD (.int 30000)).asInt?

def serverConfig (name : String) (fields : List (String × Json)) :
    Except EntryError McpServerConfig :=
  match entryType fields with
  | .error error => .error error
  | .ok type =>
      match timeoutOf fields with
      | none => .error .timeout
      | some timeout =>
          if positive : 0 < timeout then
            match type with
            | .localServer =>
                match commandOf fields, stringsAt "environment" fields with
                | none, _ => .error .command
                | some _, none => .error .environment
                | some command, some environment =>
                    .ok
                      { name := name
                        type := .localServer
                        command := command
                        environment := environment
                        url := ""
                        headers := []
                        disabled := entryDisabled fields
                        timeout := timeout
                        timeoutPositive := positive }
            | .remoteServer =>
                match nonemptyString? ((Json.lookup "url" fields).getD (.str "")),
                  stringsAt "headers" fields with
                | none, _ => .error .url
                | some _, none => .error .headers
                | some url, some headers =>
                    .ok
                      { name := name
                        type := .remoteServer
                        command := []
                        environment := []
                        url := url
                        headers := headers
                        disabled := entryDisabled fields
                        timeout := timeout
                        timeoutPositive := positive }
          else .error .timeout

def inspectMcpServer (name : String) (raw : Json) : McpConfigInspection :=
  if name = "" then ⟨name, none, false, some .emptyName⟩
  else
    match raw with
    | .object fields =>
        match serverConfig name fields with
        | .ok config => ⟨name, some config, entryDisabled fields, none⟩
        | .error error => ⟨name, none, entryDisabled fields, some error⟩
    | _ => ⟨name, none, false, some .notObject⟩

end Ftre.Mcp
