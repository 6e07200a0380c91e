import Ftre.Mcp.Sources

/-!
What a call does to the layers.
-/

namespace Ftre.Mcp

open Lib Config

variable {places : McpPlaces} {pyRepr : Json → String} {stores : McpStores}

def McpPlaces.entry (places : McpPlaces) (stores : McpStores) (layer : Layer) (name : String) :
    Option Json :=
  (places.source stores layer).lookup name

def McpPlaces.Unchanged (places : McpPlaces) (before after : McpStores) (layer : Layer) : Prop :=
  ∀ name, Json.AlikeAt (places.entry after layer name) (places.entry before layer name)

theorem unchanged_refl (layer : Layer) : places.Unchanged stores stores layer :=
  fun _ => Json.AlikeAt.refl _

def McpRequest.wanted (name : String) (before : Dict) (entry : String) :
    McpRequest → Option Json
  | .create config => if name = entry then some config.value else before.lookup entry
  | .update patch =>
      if name = entry then
        (before.dict? name).bind fun current =>
          patch.dict?.map fun fields => .object (shallowMerge current fields).fields
      else before.lookup entry
  | .delete => if name = entry then none else before.lookup entry

def McpCall.recreate (call : McpCall) (config : Decoded) : McpCall :=
  { call with request := .create config }

structure CallLaw (places : McpPlaces) (pyRepr : Json → String) (stores after : McpStores)
    (call : McpCall) (name : String) (layer : Layer) : Prop where
  changed : ∀ entry, Json.AlikeAt (places.entry after layer entry)
    (call.request.wanted name (places.source stores layer) entry)
  elsewhere : ∀ other, places.location other ≠ places.location layer →
    places.Unchanged stores after other
  fresh : ∀ config, call.request = .create config → places.entry stores layer name = none
  recreated : call.request = .delete → ∀ config, validateConfig pyRepr name config = none →
    (places.perform pyRepr after (call.recreate config) .smooth).1 = .ok ()

/-- The law of one call. -/
structure CrudLaw (places : McpPlaces) (pyRepr : Json → String) (stores : McpStores)
    (action : McpAction) : Prop where
  raised : ∀ error, (places.perform pyRepr stores action.call action.attempt).1 = .error error →
    ∀ layer, places.Unchanged stores
      (places.perform pyRepr stores action.call action.attempt).2 layer
  returned : (places.perform pyRepr stores action.call action.attempt).1 = .ok () →
    ∃ name layer, action.call.serverName = .ok name ∧ action.call.layer = .ok layer ∧
      CallLaw places pyRepr stores (places.perform pyRepr stores action.call action.attempt).2
        action.call name layer

def PatchCovers (current : Dict) (patch : Decoded) : Prop :=
  ∀ fields, patch.dict? = some fields →
    covers (some (.object current.fields)) (.object (shallowMerge current fields).fields) = true

/-- A call to the global layer tells the connections, and where the configuration has a layer it
deletes no entry and takes no key away from an object in one. -/
def Additive (stores : McpStores) (action : McpAction) : Prop :=
  action.call.layer = .ok .global →
    action.attempt.reloadFails = false ∧
      ∀ name entries, action.call.serverName = .ok name →
        stores.config.dict? "mcp" = some entries →
          match action.call.request with
          | .create _ => True
          | .update patch =>
              ∀ current, entries.dict? name = some current → PatchCovers current patch
          | .delete => entries.lookup name = none

/-! ### What is written -/

theorem lookup_mcpPatch (entries : Dict) :
    (mcpPatch entries).dict? "mcp" = some entries := by
  apply Dict.dict?_eq
  unfold mcpPatch
  rw [Dict.lookup_put, if_pos rfl]
  rfl

private theorem mcpPatch_keys (entries : Dict) :
    ((mcpPatch entries).fields.map Prod.fst).Nodup :=
  (Json.distinct_object.mp (mcpPatch entries).distinct).1

theorem lookup_writeGlobal (stores : McpStores) (entries : Dict) :
    (stores.writeGlobal entries).config.lookup "mcp" =
      some (mergeValue (stores.config.lookup "mcp") (.object entries.fields)) := by
  change Json.lookup "mcp" (deepMerge stores.config.fields (mcpPatch entries).fields) = _
  rw [lookup_deepMerge (mcpPatch_keys entries)]
  have held := Dict.dict?_some (lookup_mcpPatch entries)
  change Json.lookup "mcp" (mcpPatch entries).fields = _ at held
  rw [held]
  rfl

variable {entries : Dict} {after : McpStores} {action : McpAction}

theorem globalSource_object {stores : McpStores}
    (held : stores.config.lookup "mcp" = some (.object entries.fields)) :
    globalSource stores = entries := by
  unfold globalSource
  rw [held, Dict.dict?_eq held]
  rfl

theorem entry_writeGlobal {entries : Dict}
    (covering : ∀ old, stores.config.dict? "mcp" = some old →
      covers (some (.object old.fields)) (.object entries.fields) = true) (name : String) :
    Json.AlikeAt ((globalSource (stores.writeGlobal entries)).lookup name)
      (entries.lookup name) := by
  have written := lookup_writeGlobal stores entries
  cases old : stores.config.dict? "mcp" with
  | some inner =>
      have held := Dict.dict?_some old
      rw [held, mergeValue_into] at written
      have whole := mergeValue_alike (some (.object inner.fields)) (.object entries.fields)
        entries.distinct (covering inner old)
      rw [mergeValue_into] at whole
      have distinct := distinct_deepMerge inner.fields inner.distinct entries.fields
        (Json.distinct_object.mp entries.distinct).2
      rw [show globalSource (stores.writeGlobal entries) = ⟨_, distinct⟩ from globalSource_object written]
      intro path
      exact whole (name :: path)
  | none =>
      have plain : ¬ ∃ fields, stores.config.lookup "mcp" = some (.object fields) := by
        rintro ⟨fields, held⟩
        have distinct := Json.distinct_lookup stores.config.distinct held
        rw [show stores.config.dict? "mcp" = some ⟨fields, distinct⟩ from Dict.dict?_eq held] at old
        cases old
      rw [mergeValue_other plain] at written
      rw [globalSource_object written]
      exact Json.AlikeAt.refl _

theorem content_toDecoded (value : Dict) :
    (JsonFile.holds value.toDecoded).content = some value :=
  @Decoded.dict?_eq value.toDecoded value rfl

theorem agentSource_put (fields entries : Dict) :
    agentSource (.holds (fields.put "mcp" entries.toDecoded).toDecoded) = entries := by
  have held : (fields.put "mcp" entries.toDecoded).dict? "mcp" = some entries := by
    apply Dict.dict?_eq
    rw [Dict.lookup_put, if_pos rfl]
    rfl
  unfold agentSource
  rw [content_toDecoded, Option.bind_some, held]
  rfl

theorem agentSource_withMcp {file : JsonFile} {entries value : Dict}
    (put : file.withMcp entries = .ok value) : agentSource (.holds value.toDecoded) = entries := by
  cases file with
  | missing =>
      cases put
      exact agentSource_put .empty entries
  | broken =>
      cases put
      exact agentSource_put .empty entries
  | undecodable => cases put
  | holds held =>
      unfold JsonFile.withMcp at put
      dsimp only at put
      cases found : held.dict? with
      | none =>
          rw [found] at put
          cases put
      | some fields =>
          rw [found] at put
          cases put
          exact agentSource_put fields entries

theorem projectSource_mcpPatch (entries : Dict) :
    projectSource (.holds (mcpPatch entries).toDecoded) = entries := by
  unfold projectSource
  rw [content_toDecoded]
  dsimp only
  rw [Dict.dict?_some (lookup_mcpPatch entries)]
  dsimp only
  rw [lookup_mcpPatch]
  rfl

/-! ### Writing a layer -/

structure Replaced (places : McpPlaces) (stores after : McpStores) (layer : Layer)
    (entries : Dict) : Prop where
  holds : ∀ name, Json.AlikeAt (places.entry after layer name) (entries.lookup name)
  elsewhere : ∀ other, places.location other ≠ places.location layer →
    places.source after other = places.source stores other

inductive SourceWrite (places : McpPlaces) (stores : McpStores) (entries : Dict)
    (attempt : Attempt) : Layer → Except McpError Unit × McpStores → Prop
  | refused (layer : Layer) (error : McpError) :
      SourceWrite places stores entries attempt layer (.error error, stores)
  | configuration :
      SourceWrite places stores entries attempt .global
        (if attempt.reloadFails then .error .reload else .ok (), stores.writeGlobal entries)
  | agentFile {agentId directory : String} {value : Dict}
      (found : places.agentDir agentId = some directory)
      (put : (stores.agentFiles directory).withMcp entries = .ok value) :
      SourceWrite places stores entries attempt (.agent agentId)
        (.ok (),
          { stores with
            agentFiles := Function.update stores.agentFiles directory (.holds value.toDecoded) })
  | projectFile {workspace root : String} (found : places.workspaceRoot workspace = some root) :
      SourceWrite places stores entries attempt (.project workspace)
        (.ok (),
          { stores with
            projectFiles :=
              Function.update stores.projectFiles root (.holds (mcpPatch entries).toDecoded) })

theorem sourceWrite (places : McpPlaces) (stores : McpStores) (entries : Dict)
    (attempt : Attempt) (layer : Layer) :
    SourceWrite places stores entries attempt layer
      (places.replaceSource stores entries attempt layer) := by
  cases layer with
  | global =>
      unfold McpPlaces.replaceSource
      dsimp only
      split
      · exact .refused _ _
      · exact .configuration
  | agent agentId =>
      unfold McpPlaces.replaceSource
      dsimp only
      split
      · exact .refused _ _
      · rename_i directory found
        split
        · exact .refused _ _
        · rename_i value put
          split
          · exact .refused _ _
          · exact .agentFile found put
  | project workspace =>
      unfold McpPlaces.replaceSource
      dsimp only
      split
      · exact .refused _ _
      · rename_i root found
        split
        · exact .refused _ _
        · exact .projectFile found

theorem replaceSource_error {attempt : Attempt} {layer : Layer} {error : McpError}
    (told : layer = .global → attempt.reloadFails = false)
    (raised : places.replaceSource stores entries attempt layer = (.error error, after)) :
    after = stores := by
  have write := sourceWrite places stores entries attempt layer
  rw [raised] at write
  generalize outcome : ((.error error, after) : Except McpError Unit × McpStores) = result at write
  cases write with
  | refused _ _ =>
      cases outcome
      rfl
  | configuration =>
      rw [told rfl] at outcome
      cases outcome
  | agentFile _ _ => cases outcome
  | projectFile _ => cases outcome

private theorem source_agentFile {directory agentId : String} {file : JsonFile} {other : Layer}
    (found : places.agentDir agentId = some directory)
    (apart : places.location other ≠ places.location (.agent agentId)) :
    places.source { stores with
      agentFiles := Function.update stores.agentFiles directory file } other =
      places.source stores other := by
  cases other with
  | global => rfl
  | project workspace => rfl
  | agent otherId =>
      unfold McpPlaces.source
      dsimp only
      cases held : places.agentDir otherId with
      | none => rfl
      | some otherDirectory =>
          have different : otherDirectory ≠ directory := by
            intro same
            apply apart
            unfold McpPlaces.location
            dsimp only
            rw [held, found, same]
          rw [Option.map_some, Option.map_some, Function.update_of_ne different]

private theorem source_projectFile {root workspace : String} {file : JsonFile} {other : Layer}
    (found : places.workspaceRoot workspace = some root)
    (apart : places.location other ≠ places.location (.project workspace)) :
    places.source { stores with
      projectFiles := Function.update stores.projectFiles root file } other =
      places.source stores other := by
  cases other with
  | global => rfl
  | agent agentId => rfl
  | project otherSpace =>
      unfold McpPlaces.source
      dsimp only
      cases held : places.workspaceRoot otherSpace with
      | none => rfl
      | some otherRoot =>
          have different : otherRoot ≠ root := by
            intro same
            apply apart
            unfold McpPlaces.location
            dsimp only
            rw [held, found, same]
          rw [Option.map_some, Option.map_some, Function.update_of_ne different]

theorem replaceSource_ok {entries : Dict} {attempt : Attempt} {layer : Layer}
    {after : McpStores}
    (covering : layer = .global → ∀ old, stores.config.dict? "mcp" = some old →
      covers (some (.object old.fields)) (.object entries.fields) = true)
    (written : places.replaceSource stores entries attempt layer = (.ok (), after)) :
    Replaced places stores after layer entries := by
  have write := sourceWrite places stores entries attempt layer
  rw [written] at write
  generalize outcome : ((.ok (), after) : Except McpError Unit × McpStores) = result at write
  cases write with
  | refused _ _ => cases outcome
  | configuration =>
      cases (Prod.mk.inj outcome).2
      constructor
      · exact entry_writeGlobal (covering rfl)
      · intro other apart
        cases other with
        | global => exact absurd rfl apart
        | agent agentId => rfl
        | project workspace => rfl
  | agentFile found put =>
      cases (Prod.mk.inj outcome).2
      constructor
      · intro name
        unfold McpPlaces.entry McpPlaces.source
        dsimp only
        rw [found, Option.map_some, Function.update_self, agentSource_withMcp put]
        exact Json.AlikeAt.refl _
      · exact fun other apart => source_agentFile found apart
  | projectFile found =>
      cases (Prod.mk.inj outcome).2
      constructor
      · intro name
        unfold McpPlaces.entry McpPlaces.source
        dsimp only
        rw [found, Option.map_some, Function.update_self, projectSource_mcpPatch]
        exact Json.AlikeAt.refl _
      · exact fun other apart => source_projectFile found apart

theorem replaceSource_again {entries : Dict} {attempt : Attempt} {layer : Layer}
    {after : McpStores}
    (written : places.replaceSource stores entries attempt layer = (.ok (), after))
    (others : Dict) :
    (places.replaceSource after others .smooth layer).1 = .ok () := by
  have write := sourceWrite places stores entries attempt layer
  rw [written] at write
  generalize outcome : ((.ok (), after) : Except McpError Unit × McpStores) = result at write
  cases write with
  | refused _ _ => cases outcome
  | configuration => rfl
  | agentFile found put =>
      cases (Prod.mk.inj outcome).2
      unfold McpPlaces.replaceSource
      dsimp only
      rw [found]
      dsimp only
      rw [Function.update_self]
      unfold JsonFile.withMcp
      dsimp only
      have form : ∀ value : Dict, value.toDecoded.dict? = some value := content_toDecoded
      rw [form]
      rfl
  | projectFile found =>
      cases (Prod.mk.inj outcome).2
      unfold McpPlaces.replaceSource
      dsimp only
      rw [found]
      rfl

/-! ### Edits -/

variable {name scope : String} {before entries : Dict}

theorem edited_create {config : Decoded}
    (edited : (McpRequest.create config).edited pyRepr name scope before = .ok entries) :
    before.lookup name = none ∧ entries = before.put name config := by
  unfold McpRequest.edited at edited
  dsimp only at edited
  split at edited
  · cases edited
  · by_cases present : (before.lookup name).isSome = true
    · rw [if_pos present] at edited
      cases edited
    · rw [if_neg present] at edited
      cases edited
      exact ⟨Option.not_isSome_iff_eq_none.mp present, rfl⟩

theorem edited_update {patch : Decoded}
    (edited : (McpRequest.update patch).edited pyRepr name scope before = .ok entries) :
    ∃ fields current, patch.dict? = some fields ∧ before.dict? name = some current ∧
      entries = before.put name (shallowMerge current fields).toDecoded := by
  unfold McpRequest.edited at edited
  dsimp only at edited
  cases form : patch.dict? with
  | none =>
      rw [form] at edited
      cases edited
  | some fields =>
      rw [form] at edited
      dsimp only at edited
      by_cases renames : (fields.lookup "name").isSome = true
      · rw [if_pos renames] at edited
        cases edited
      · rw [if_neg renames] at edited
        cases held : before.dict? name with
        | none =>
            rw [held] at edited
            cases edited
        | some current =>
            rw [held] at edited
            dsimp only at edited
            split at edited
            · cases edited
            · cases edited
              exact ⟨fields, current, rfl, rfl, rfl⟩

theorem edited_delete (edited : McpRequest.delete.edited pyRepr name scope before = .ok entries) :
    (before.lookup name).isSome = true ∧ entries = before.erase name := by
  unfold McpRequest.edited at edited
  dsimp only at edited
  by_cases present : (before.lookup name).isSome = true
  · rw [if_pos present] at edited
    cases edited
    exact ⟨present, rfl⟩
  · rw [if_neg present] at edited
    cases edited

theorem edited_wanted {request : McpRequest}
    (edited : request.edited pyRepr name scope before = .ok entries) (entry : String) :
    entries.lookup entry = request.wanted name before entry := by
  cases request with
  | create config =>
      obtain ⟨_, rfl⟩ := edited_create edited
      exact Dict.lookup_put before name entry config
  | update patch =>
      obtain ⟨fields, current, form, held, rfl⟩ := edited_update edited
      unfold McpRequest.wanted
      dsimp only
      rw [Dict.lookup_put, form, held]
      rfl
  | delete =>
      obtain ⟨_, rfl⟩ := edited_delete edited
      exact Dict.lookup_erase before name entry

theorem edited_holds {request : McpRequest}
    (edited : request.edited pyRepr name scope before = .ok entries)
    (kept : request ≠ .delete) : (entries.lookup name).isSome = true := by
  cases request with
  | create config =>
      obtain ⟨_, rfl⟩ := edited_create edited
      rw [Dict.lookup_put, if_pos rfl]
      rfl
  | update patch =>
      obtain ⟨fields, current, _, _, rfl⟩ := edited_update edited
      rw [Dict.lookup_put, if_pos rfl]
      rfl
  | delete => exact absurd rfl kept

theorem edited_covers (additive : Additive stores action)
    (isGlobal : action.call.layer = .ok .global) (named : action.call.serverName = .ok name)
    (edited : action.call.request.edited pyRepr name scope (globalSource stores) = .ok entries)
    {old : Dict} (held : stores.config.dict? "mcp" = some old) :
    covers (some (.object old.fields)) (.object entries.fields) = true := by
  have condition := (additive isGlobal).2 name old named held
  rw [globalSource_object (Dict.dict?_some held)] at edited
  cases request : action.call.request with
  | create config =>
      rw [request] at edited
      obtain ⟨absent, rfl⟩ := edited_create edited
      apply covers_put
      rw [absent]
      exact covers_none config.value
  | update patch =>
      rw [request] at edited condition
      obtain ⟨fields, current, form, inner, rfl⟩ := edited_update edited
      apply covers_put
      rw [Dict.dict?_some inner]
      exact condition current inner fields form
  | delete =>
      rw [request] at edited condition
      obtain ⟨present, _⟩ := edited_delete edited
      rw [condition] at present
      cases present

/-! ### Calls -/

theorem edit_ok {call : McpCall} {edit : Edit}
    (edited : places.edit pyRepr stores call = .ok edit) :
    call.serverName = .ok edit.name ∧ call.layer = .ok edit.layer ∧
      call.request.edited pyRepr edit.name call.scope (places.source stores edit.layer) =
        .ok edit.entries := by
  unfold McpPlaces.edit at edited
  cases named : call.serverName with
  | error error =>
      rw [named] at edited
      cases edited
  | ok name =>
      rw [named] at edited
      dsimp only at edited
      cases placed : call.layer with
      | error error =>
          rw [placed] at edited
          cases edited
      | ok layer =>
          rw [placed] at edited
          dsimp only at edited
          cases written : call.request.edited pyRepr name call.scope
              (places.source stores layer) with
          | error error =>
              rw [written] at edited
              cases edited
          | ok entries =>
              rw [written] at edited
              cases edited
              exact ⟨rfl, rfl, written⟩

theorem sourceItem_ok {call : McpCall} {edit : Edit}
    (edited : places.edit pyRepr stores call = .ok edit)
    (replaced : Replaced places stores after edit.layer edit.entries) :
    places.sourceItem after edit call.request = .ok () := by
  obtain ⟨_, _, written⟩ := edit_ok edited
  have found : call.request ≠ .delete →
      ((places.source after edit.layer).lookup edit.name).isSome = true := by
    intro kept
    exact (replaced.holds edit.name).isSome.trans (edited_holds written kept)
  unfold McpPlaces.sourceItem
  split
  · rfl
  · rename_i kept
    rw [if_pos (found kept)]

theorem perform_written {action : McpAction} {edit : Edit} {after : McpStores}
    (additive : Additive stores action)
    (edited : places.edit pyRepr stores action.call = .ok edit)
    (written : places.replaceSource stores edit.entries action.attempt edit.layer =
      (.ok (), after)) :
    places.perform pyRepr stores action.call action.attempt = (.ok (), after) ∧
      Replaced places stores after edit.layer edit.entries := by
  obtain ⟨named, placed, entries⟩ := edit_ok edited
  have covering : edit.layer = .global → ∀ old, stores.config.dict? "mcp" = some old →
      covers (some (.object old.fields)) (.object edit.entries.fields) = true := by
    intro isGlobal old held
    rw [isGlobal] at placed entries
    exact edited_covers additive placed named entries held
  have replaced := replaceSource_ok covering written
  refine ⟨?_, replaced⟩
  unfold McpPlaces.perform
  rw [edited]
  dsimp only
  rw [written]
  dsimp only
  rw [sourceItem_ok edited replaced]

theorem perform_outcome (additive : Additive stores action) :
    (∃ error, places.perform pyRepr stores action.call action.attempt = (.error error, stores)) ∨
      ∃ edit after, places.edit pyRepr stores action.call = .ok edit ∧
        places.replaceSource stores edit.entries action.attempt edit.layer = (.ok (), after) ∧
        places.perform pyRepr stores action.call action.attempt = (.ok (), after) ∧
        Replaced places stores after edit.layer edit.entries := by
  cases edited : places.edit pyRepr stores action.call with
  | error error =>
      unfold McpPlaces.perform
      rw [edited]
      exact Or.inl ⟨error, rfl⟩
  | ok edit =>
      obtain ⟨_, placed, _⟩ := edit_ok edited
      cases outcome : places.replaceSource stores edit.entries action.attempt edit.layer with
      | mk result after =>
          cases result with
          | error error =>
              have told : edit.layer = .global → action.attempt.reloadFails = false :=
                fun isGlobal => (additive (isGlobal ▸ placed)).1
              unfold McpPlaces.perform
              rw [edited]
              dsimp only
              rw [outcome, replaceSource_error told outcome]
              exact Or.inl ⟨error, rfl⟩
          | ok returned =>
              obtain ⟨performed, replaced⟩ := perform_written additive edited outcome
              exact Or.inr ⟨edit, after, rfl, outcome, performed, replaced⟩

private theorem additive_recreate (stores : McpStores) (call : McpCall) (config : Decoded) :
    Additive stores ⟨call.recreate config, .smooth⟩ :=
  fun _ => ⟨rfl, fun _ _ _ _ => trivial⟩

theorem recreate_returns {edit : Edit} (deletes : action.call.request = .delete)
    (edited : places.edit pyRepr stores action.call = .ok edit)
    (written : places.replaceSource stores edit.entries action.attempt edit.layer = (.ok (), after))
    (replaced : Replaced places stores after edit.layer edit.entries) {config : Decoded}
    (valid : validateConfig pyRepr edit.name config = none) :
    (places.perform pyRepr after (action.call.recreate config) .smooth).1 = .ok () := by
  obtain ⟨named, placed, removed⟩ := edit_ok edited
  rw [deletes] at removed
  obtain ⟨_, gone⟩ := edited_delete removed
  have absent : ¬ ((places.source after edit.layer).lookup edit.name).isSome = true := by
    have missing := (replaced.holds edit.name).isSome
    rw [gone, Dict.lookup_erase, if_pos rfl] at missing
    intro present
    cases present.symm.trans missing
  have again : places.edit pyRepr after (action.call.recreate config) =
      .ok ⟨edit.name, edit.layer, (places.source after edit.layer).put edit.name config⟩ := by
    unfold McpPlaces.edit
    have sameName : (action.call.recreate config).serverName = .ok edit.name := named
    have sameLayer : (action.call.recreate config).layer = .ok edit.layer := placed
    rw [sameName]
    dsimp only
    rw [sameLayer]
    dsimp only [McpCall.recreate]
    unfold McpRequest.edited
    dsimp only
    rw [valid]
    dsimp only
    rw [if_neg absent]
  have accepted := replaceSource_again written
    ((places.source after edit.layer).put edit.name config)
  obtain ⟨performed, _⟩ := perform_written
    (additive_recreate after action.call config) again (Prod.ext accepted rfl)
  exact congrArg Prod.fst performed

theorem crudLaw_of_additive (additive : Additive stores action) :
    CrudLaw places pyRepr stores action := by
  rcases @perform_outcome places pyRepr stores action additive with refused | performed
  · obtain ⟨error, raised⟩ := refused
    constructor
    · intro _ _ layer
      rw [raised]
      exact unchanged_refl layer
    · intro returned
      rw [raised] at returned
      cases returned
  · obtain ⟨edit, after, edited, written, returned, replaced⟩ := performed
    obtain ⟨named, placed, entries⟩ := edit_ok edited
    constructor
    · intro error raised
      rw [returned] at raised
      cases raised
    · intro _
      rw [returned]
      refine ⟨edit.name, edit.layer, named, placed, ?_⟩
      constructor
      · intro entry
        rw [← edited_wanted entries entry]
        exact replaced.holds entry
      · intro other apart name
        unfold McpPlaces.entry
        rw [replaced.elsewhere other apart]
        exact Json.AlikeAt.refl _
      · intro config creates
        rw [creates] at entries
        exact (edited_create entries).1
      · exact fun deletes config valid =>
          recreate_returns deletes edited written replaced valid

/-- Every call of a run whose calls are additive obeys the law. -/
theorem mcp_calls_lawful (places : McpPlaces) (pyRepr : Json → String) (stores : McpStores)
    (actions : List McpAction)
    (additive : (places.system pyRepr).EachStep Additive stores actions) :
    (places.system pyRepr).EachStep (CrudLaw places pyRepr) stores actions := by
  induction actions generalizing stores with
  | nil => trivial
  | cons action rest ih =>
      intro next stepped
      obtain ⟨allowed, later⟩ := additive next stepped
      exact ⟨crudLaw_of_additive allowed, ih next later⟩

private def fileServer : Decoded where
  value := .object [("type", .str "local"), ("command", .array [.str "npx"])]
  distinct := by decide

private def onePlace : McpPlaces := ⟨fun id => some id, fun workspace => some workspace⟩

private def callOn (scope name : String) (request : McpRequest) : McpAction :=
  ⟨⟨.str name, scope, some "default", some "/work", request⟩, .smooth⟩

private def emptyStores : McpStores := ⟨.empty, .empty, fun _ => .missing, fun _ => .missing⟩

/-- A server is created in the global layer and in that of a project, and deleted there. -/
theorem project_server_deleted :
    (onePlace.system fun _ => "").EachStep (CrudLaw onePlace fun _ => "") emptyStores
      [callOn "global" "files" (.create fileServer), callOn "project" "files" (.create fileServer),
        callOn "project" "files" .delete] := by
  have inProject : ∀ stores request, Additive stores (callOn "project" "files" request) := by
    intro stores request isGlobal
    cases isGlobal
  exact mcp_calls_lawful onePlace (fun _ => "") emptyStores _ fun _ _ =>
    ⟨fun _ => ⟨rfl, fun _ _ _ _ => trivial⟩,
      fun _ _ => ⟨inProject _ _, fun _ _ => ⟨inProject _ _, trivial⟩⟩⟩

private def configured : McpStores :=
  { emptyStores with
    config :=
      { fields := [("mcp", .object [("files", fileServer.value)])]
        distinct := by decide } }

/-- The deletion of a configured global server returns, and the server is still there. -/
theorem global_server_survives_delete :
    ¬ (onePlace.system fun _ => "").EachStep (CrudLaw onePlace fun _ => "") configured
      [callOn "global" "files" .delete] := by
  intro lawful
  have law := (lawful _ rfl).1
  obtain ⟨name, layer, named, placed, deleted⟩ := law.returned rfl
  cases named
  cases placed
  have left := (deleted.changed "files").isSome
  have present : (onePlace.entry
      (onePlace.perform (fun _ => "") configured (callOn "global" "files" .delete).call
        .smooth).2 .global "files").isSome = true := rfl
  cases present.symm.trans left

end Ftre.Mcp
