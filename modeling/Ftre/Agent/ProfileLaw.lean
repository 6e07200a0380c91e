import Ftre.Agent.ProfileStore

/-!
The agents directory as a map from ids to agents: what one call may change, and which calls keep
to it.
-/

namespace Ftre.Agent.ProfileStore

open Lib Session

variable {β : Type}

/-- The prompt that `read_prompts` gives. -/
def Reads (codec : FileCodec β) (directory : AgentsDirectory β) (id filename text : String) :
    Prop :=
  ∃ prompts, readPrompts codec directory id = .ok prompts ∧ (filename, text) ∈ prompts

structure Named (directory : AgentsDirectory β) (id : String) : Prop where
  loaded : loadDir directory id true = .ok (some id)
  updated : existingDir directory id = .ok id
  written : promptDir directory id = some id
  deleted : deletableDir directory id = .ok id

/-- The laws of the store at one call. -/
structure StoreLaw (codec : FileCodec β) (isAlnum : Char → Bool) (before : AgentsDirectory β)
    (action : StoreAction) : Prop where
  prompts : ∀ id filename content, action = .writePrompt id filename content →
    (folder? before id).isSome → (perform codec isAlnum before action).1 = .ok () →
      Reads codec (perform codec isAlnum before action).2 id filename (strip content) ∧
        ∀ other name, (other, name) ≠ (id, filename) →
          file? (perform codec isAlnum before action).2 other name = file? before other name
  created : ∀ id name provider model workspace fault,
    action = .create id name provider model workspace fault →
      (perform codec isAlnum before action).1 = .ok () →
        Named (perform codec isAlnum before action).2 id
  stays : ∀ id, Named before id → (∀ fault, action ≠ .delete id fault) →
    Named (perform codec isAlnum before action).2 id
  updatedApart : ∀ id patch broken, action = .update id patch broken → ∀ other, other ≠ id →
    (perform codec isAlnum before action).2.find? other = before.find? other
  deletedApart : ∀ id fault, action = .delete id fault → ∀ other, other ≠ id →
    (perform codec isAlnum before action).2.find? other = before.find? other
  unchanged : ∀ error, (perform codec isAlnum before action).1 = .error error →
    (perform codec isAlnum before action).2 = before

/-- A prompt that is written is there already, a new id is one the pattern takes and not the
default, and no call breaks down once it has changed something. -/
def Guarded (codec : FileCodec β) (isAlnum : Char → Bool) (before : AgentsDirectory β) :
    StoreAction → Prop
  | .create id _ _ _ _ fault =>
      createRefusal isAlnum before id = none →
        match fault with
        | none => safeId id = true ∧ id ≠ "default"
        | some .folder => True
        | some (.file _ _) => False
  | .update _ _ _ => True
  | .writePrompt id filename content =>
      (folder? before id).isSome → filename ∈ promptFiles → promptDir before id ≠ none →
        Reads codec before id filename (strip content)
  | .delete id fault =>
      ∀ removed, fault = some removed → deletableDir before id = .ok id →
        ∀ filename ∈ removed, file? before id filename = none

theorem existingDir_cases (directory : AgentsDirectory β) (id : String) :
    (safeId id = true ∧ (folder? directory id).isSome ∧ existingDir directory id = .ok id) ∨
      ((safeId id = false ∨ folder? directory id = none) ∧
        ∃ error, existingDir directory id = .error error) := by
  unfold existingDir resolveAgentDir
  cases safe : safeId id with
  | false => exact Or.inr ⟨Or.inl rfl, _, rfl⟩
  | true =>
      rw [if_pos rfl]
      dsimp only
      cases found : folder? directory id with
      | none => exact Or.inr ⟨Or.inr rfl, _, rfl⟩
      | some files => exact Or.inl ⟨rfl, rfl, rfl⟩

variable {directory : AgentsDirectory β} {id : String}

theorem existingDir_name {directory : AgentsDirectory β} {id agentDir : String}
    (existing : existingDir directory id = .ok agentDir) : agentDir = id := by
  rcases existingDir_cases directory id with ⟨_, _, same⟩ | ⟨_, error, failed⟩
  · rw [existing] at same
    cases same
    rfl
  · rw [existing] at failed
    cases failed

theorem deletableDir_name {id agentDir : String}
    (deletable : deletableDir directory id = .ok agentDir) : agentDir = id := by
  unfold deletableDir at deletable
  split at deletable
  · cases deletable
  · exact existingDir_name deletable

theorem deletableDir_folder {id agentDir : String}
    (deletable : deletableDir directory id = .ok agentDir) : (folder? directory id).isSome := by
  unfold deletableDir at deletable
  split at deletable
  · cases deletable
  · rcases existingDir_cases directory id with ⟨_, there, _⟩ | ⟨_, error, failed⟩
    · exact there
    · rw [deletable] at failed
      cases failed

theorem folder?_find {files : Files β} (found : folder? directory id = some files) :
    directory.find? id = some (.folder files) := by
  unfold folder? at found
  split at found
  next files' there =>
    cases found
    exact there
  next => cases found

theorem named_iff (there : (folder? directory id).isSome) :
    Named directory id ↔ safeId id = true ∧ id ≠ "default" := by
  constructor
  · intro named
    constructor
    · rcases existingDir_cases directory id with ⟨safe, _⟩ | ⟨_, error, failed⟩
      · exact safe
      · rw [named.updated] at failed
        cases failed
    · intro default
      have deleted := named.deleted
      rw [deletableDir, if_pos default] at deleted
      cases deleted
  · intro ⟨safe, other⟩
    have existing : existingDir directory id = .ok id := by
      rcases existingDir_cases directory id with ⟨_, _, found⟩ | ⟨missing, _⟩
      · exact found
      · rcases missing with unsafely | absent
        · rw [safe] at unsafely
          cases unsafely
        · rw [absent] at there
          cases there
    refine ⟨?_, existing, ?_, ?_⟩
    · rw [loadDir, existing]
    · rw [promptDir, existing]
    · rw [deletableDir, if_neg other, existing]

/-! ### Calls -/

theorem createRefusal_fresh {isAlnum : Char → Bool}
    (accepted : createRefusal isAlnum directory id = none) : directory.find? id = none := by
  unfold createRefusal at accepted
  split at accepted
  · cases accepted
  · split at accepted
    · cases accepted
    · split at accepted
      next => cases accepted
      next fresh => simpa [KeyedTable.contains] using fresh

theorem folder?_set (directory : AgentsDirectory β) (id : String) (files : Files β) :
    folder? (directory.set id (.folder files)) id = some files := by
  unfold folder?
  rw [KeyedTable.find?_set_self]

variable (codec : FileCodec β)

theorem updateAgent_cases (directory : AgentsDirectory β) (id : String)
    (patch : List (String × Json)) (broken : Bool) :
    (∃ error, updateAgent codec directory id patch broken = (.error error, directory)) ∨
      ∃ config files, updateAgent codec directory id patch broken =
        (.ok config, directory.set id (.folder files)) := by
  unfold updateAgent
  cases existing : existingDir directory id with
  | error error => exact Or.inl ⟨error, rfl⟩
  | ok agentDir =>
      cases existingDir_name existing
      dsimp only
      cases folder? directory id with
      | none => exact Or.inl ⟨_, rfl⟩
      | some files =>
          dsimp only
          cases (readConfig codec files).bind fun config => patchConfig config patch with
          | error error => exact Or.inl ⟨error, rfl⟩
          | ok config =>
              cases broken with
              | true => exact Or.inl ⟨_, rfl⟩
              | false => exact Or.inr ⟨config, _, rfl⟩

theorem writePrompt_directory (directory : AgentsDirectory β) (id filename content : String) :
    (writePrompt directory id filename content).2 = directory := by
  unfold writePrompt
  split
  · rfl
  · split <;> rfl

theorem writePrompt_ok_iff (directory : AgentsDirectory β) (id filename content : String) :
    (writePrompt directory id filename content).1 = .ok () ↔
      filename ∈ promptFiles ∧ promptDir directory id ≠ none := by
  unfold writePrompt
  by_cases supported : filename ∈ promptFiles
  · rw [if_neg (not_not_intro supported)]
    cases promptDir directory id with
    | none => exact iff_of_false (fun failed => by cases failed) fun both => both.2 rfl
    | some target => exact iff_of_true rfl ⟨supported, fun missing => by cases missing⟩
  · rw [if_pos supported]
    exact iff_of_false (fun failed => by cases failed) fun both => supported both.1

theorem deleteAgent_apart (before : AgentsDirectory β) (id : String)
    (fault : Option (List String)) (other : String) (different : other ≠ id) :
    (deleteAgent before id fault).2.find? other = before.find? other := by
  unfold deleteAgent
  cases deletable : deletableDir before id with
  | error error => rfl
  | ok agentDir =>
      cases deletableDir_name deletable
      cases fault with
      | none => exact KeyedTable.find?_erase_ne before different
      | some removed =>
          dsimp only
          cases folder? before id with
          | none => rfl
          | some files => exact KeyedTable.find?_set_ne before _ (Ne.symm different)

theorem named_folder (named : Named directory id) : (folder? directory id).isSome := by
  rcases existingDir_cases directory id with ⟨_, there, _⟩ | ⟨_, error, failed⟩
  · exact there
  · rw [named.updated] at failed
    cases failed

theorem folder?_congr {left right : AgentsDirectory β} (same : left.find? id = right.find? id) :
    folder? left id = folder? right id := by
  unfold folder?
  rw [same]

theorem folder_stays (isAlnum : Char → Bool) {before : AgentsDirectory β} {action : StoreAction}
    (there : (folder? before id).isSome) (kept : ∀ fault, action ≠ .delete id fault) :
    (folder? (perform codec isAlnum before action).2 id).isSome := by
  -- Setting the folder of any agent keeps all folders.
  have set_folder : ∀ (other : String) (files : Files β),
      (folder? (before.set other (.folder files)) id).isSome := by
    intro other files
    by_cases same : other = id
    · rw [same, folder?_set]
      rfl
    · rwa [folder?_congr (KeyedTable.find?_set_ne before _ same)]
  cases action with
  | create other name provider model workspace fault =>
      simp only [perform, createAgentProfile]
      cases createRefusal isAlnum before other with
      | some error => exact there
      | none =>
          cases fault with
          | none => exact set_folder _ _
          | some fault =>
              cases fault with
              | folder => exact there
              | file written opened => exact set_folder _ _
  | update other patch broken =>
      simp only [perform]
      rcases updateAgent_cases codec before other patch broken with ⟨_, failed⟩ | ⟨_, files, done⟩
      · rw [failed]
        exact there
      · rw [done]
        exact set_folder _ _
  | writePrompt other filename content =>
      rw [perform, writePrompt_directory]
      exact there
  | delete other fault =>
      have apart : other ≠ id := fun same => kept fault (by rw [same])
      rwa [perform, folder?_congr (deleteAgent_apart before other fault id (Ne.symm apart))]

theorem named_stays (isAlnum : Char → Bool) {before : AgentsDirectory β} {action : StoreAction}
    (named : Named before id) (kept : ∀ fault, action ≠ .delete id fault) :
    Named (perform codec isAlnum before action).2 id :=
  (named_iff (folder_stays codec isAlnum (named_folder named) kept)).mpr
    ((named_iff (named_folder named)).mp named)

/-! ### The laws -/

private theorem law_writePrompt (isAlnum : Char → Bool) (before : AgentsDirectory β)
    (id filename content : String) :
    StoreLaw codec isAlnum before (.writePrompt id filename content) ↔
      Guarded codec isAlnum before (.writePrompt id filename content) := by
  have kept : (perform codec isAlnum before (.writePrompt id filename content)).2 = before :=
    writePrompt_directory before id filename content
  have returns := writePrompt_ok_iff before id filename content
  constructor
  · intro law there supported target
    have read := (law.prompts id filename content rfl there (returns.mpr ⟨supported, target⟩)).1
    rwa [kept] at read
  · intro guarded
    refine
      { prompts := ?_
        created := fun _ _ _ _ _ _ same => by cases same
        stays := fun _ => named_stays codec isAlnum
        updatedApart := fun _ _ _ same => by cases same
        deletedApart := fun _ _ same => by cases same
        unchanged := fun _ _ => kept }
    intro id' filename' content' same there returned
    cases same
    rw [kept]
    obtain ⟨supported, target⟩ := returns.mp returned
    exact ⟨guarded there supported target, fun _ _ _ => rfl⟩

private theorem law_update (isAlnum : Char → Bool) (before : AgentsDirectory β) (id : String)
    (patch : List (String × Json)) (broken : Bool) :
    StoreLaw codec isAlnum before (.update id patch broken) := by
  have performed : perform codec isAlnum before (.update id patch broken) =
      ((updateAgent codec before id patch broken).1.map fun _ => (),
        (updateAgent codec before id patch broken).2) := rfl
  refine
    { prompts := fun _ _ _ same => by cases same
      created := fun _ _ _ _ _ _ same => by cases same
      stays := fun _ => named_stays codec isAlnum
      updatedApart := ?_
      deletedApart := fun _ _ same => by cases same
      unchanged := ?_ }
  · intro id' patch' broken' same other apart
    cases same
    rw [performed]
    rcases updateAgent_cases codec before id patch broken with ⟨error, failed⟩ | ⟨_, files, done⟩
    · rw [failed]
    · rw [done]
      exact KeyedTable.find?_set_ne before _ (Ne.symm apart)
  · intro error raised
    rw [performed] at raised ⊢
    rcases updateAgent_cases codec before id patch broken with ⟨_, failed⟩ | ⟨_, files, done⟩
    · rw [failed]
    · rw [done] at raised
      cases raised

private theorem law_of_create {codec : FileCodec β} {isAlnum : Char → Bool}
    {before after : AgentsDirectory β} {id name provider model workspace : String}
    {fault : Option CreateFault} {result : Except StoreError Unit}
    (performed : perform codec isAlnum before (.create id name provider model workspace fault) =
      (result, after)) :
    StoreLaw codec isAlnum before (.create id name provider model workspace fault) ↔
      (result = .ok () → Named after id) ∧ (∀ error, result = .error error → after = before) := by
  constructor
  · intro law
    have created := law.created id name provider model workspace fault rfl
    have unchanged := law.unchanged
    rw [performed] at created unchanged
    exact ⟨created, unchanged⟩
  · intro ⟨created, unchanged⟩
    refine
      { prompts := fun _ _ _ same => by cases same
        created := ?_
        stays := fun _ => named_stays codec isAlnum
        updatedApart := fun _ _ _ same => by cases same
        deletedApart := fun _ _ same => by cases same
        unchanged := ?_ }
    · intro id' name' provider' model' workspace' fault' same
      cases same
      rw [performed]
      exact created
    · rw [performed]
      exact unchanged

private theorem law_create (isAlnum : Char → Bool) (before : AgentsDirectory β)
    (id name provider model workspace : String) (fault : Option CreateFault) :
    StoreLaw codec isAlnum before (.create id name provider model workspace fault) ↔
      Guarded codec isAlnum before (.create id name provider model workspace fault) := by
  have guard : Guarded codec isAlnum before (.create id name provider model workspace fault) =
      (createRefusal isAlnum before id = none →
        match fault with
        | none => safeId id = true ∧ id ≠ "default"
        | some .folder => True
        | some (.file _ _) => False) := rfl
  rw [guard]
  cases refusal : createRefusal isAlnum before id with
  | some error =>
      have performed : perform codec isAlnum before
          (.create id name provider model workspace fault) = (.error error, before) := by
        simp only [perform, createAgentProfile, refusal]
        rfl
      rw [law_of_create performed]
      exact iff_of_true ⟨(fun raised => by cases raised), fun _ _ => rfl⟩
        fun accepted => by cases accepted
  | none =>
      rw [eq_self_iff_true, true_imp_iff]
      cases fault with
      | none =>
          have performed : perform codec isAlnum before
              (.create id name provider model workspace none) =
                (.ok (), before.set id (.folder (.ofList (newFiles codec
                  (newConfig id name provider model workspace))))) := by
            simp only [perform, createAgentProfile, refusal]
            rfl
          have there := folder?_set before id
            (.ofList (newFiles codec (newConfig id name provider model workspace)))
          rw [law_of_create performed]
          dsimp only
          rw [← named_iff (Option.isSome_iff_exists.mpr ⟨_, there⟩)]
          exact ⟨fun both => both.1 rfl,
            fun named => ⟨fun _ => named, fun _ raised => by cases raised⟩⟩
      | some fault =>
          cases fault with
          | folder =>
              have performed : perform codec isAlnum before
                  (.create id name provider model workspace (some .folder)) =
                    (.error .system, before) := by
                simp only [perform, createAgentProfile, refusal]
                rfl
              rw [law_of_create performed]
              exact iff_of_true ⟨(fun raised => by cases raised), fun _ _ => rfl⟩ trivial
          | file written opened =>
              have performed : perform codec isAlnum before
                  (.create id name provider model workspace (some (.file written opened))) =
                    (.error .system, before.set id (.folder (.ofList (tornFiles codec
                      (newConfig id name provider model workspace) written opened)))) := by
                simp only [perform, createAgentProfile, refusal]
                rfl
              rw [law_of_create performed]
              refine iff_of_false (fun both => ?_) fun impossible => impossible
              have same := both.2 _ rfl
              have left := KeyedTable.find?_set_self before id (.folder (.ofList (tornFiles codec
                (newConfig id name provider model workspace) written opened)) : Entry β)
              rw [same, createRefusal_fresh refusal] at left
              cases left

private theorem law_delete (isAlnum : Char → Bool) (before : AgentsDirectory β) (id : String)
    (fault : Option (List String)) :
    StoreLaw codec isAlnum before (.delete id fault) ↔
      Guarded codec isAlnum before (.delete id fault) := by
  have laws : StoreLaw codec isAlnum before (.delete id fault) ↔
      ∀ error, (deleteAgent before id fault).1 = .error error →
        (deleteAgent before id fault).2 = before := by
    constructor
    · exact fun law => law.unchanged
    · intro unchanged
      refine
        { prompts := fun _ _ _ same => by cases same
          created := fun _ _ _ _ _ _ same => by cases same
          stays := fun _ => named_stays codec isAlnum
          updatedApart := fun _ _ _ same => by cases same
          deletedApart := ?_
          unchanged := unchanged }
      intro id' fault' same
      cases same
      exact deleteAgent_apart before id fault
  have guard : Guarded codec isAlnum before (.delete id fault) =
      ∀ removed, fault = some removed → deletableDir before id = .ok id →
        ∀ filename ∈ removed, file? before id filename = none := rfl
  rw [laws, guard]
  unfold deleteAgent
  cases deletable : deletableDir before id with
  | error error => exact iff_of_true (fun _ _ => rfl) fun _ _ refused => by cases refused
  | ok agentDir =>
      cases deletableDir_name deletable
      cases fault with
      | none => exact iff_of_true (fun _ raised => by cases raised) fun _ same => by cases same
      | some removed =>
          obtain ⟨files, found⟩ := Option.isSome_iff_exists.mp (deletableDir_folder deletable)
          dsimp only
          rw [found]
          dsimp only
          constructor
          · intro unchanged removed' same _ filename member
            cases same
            have same := unchanged _ rfl
            rw [file?, ← same, folder?_set, Option.bind_some]
            cases left : (files.filter fun name _ => decide (name ∉ removed)).find? filename with
            | none => rfl
            | some content =>
                have kept := ((KeyedTable.find?_filter files _ filename content).mp left).2
                exact absurd member (of_decide_eq_true kept)
          · intro absent error _
            have untouched : (files.filter fun name _ => decide (name ∉ removed)) = files := by
              apply KeyedTable.ext_entries
              refine List.filter_eq_self.mpr fun entry member => decide_eq_true fun listed => ?_
              have missing := absent removed rfl rfl entry.1 listed
              rw [file?, found, Option.bind_some,
                (KeyedTable.find?_eq_some_iff files entry.1 entry.2).mpr member] at missing
              cases missing
            rw [untouched]
            exact KeyedTable.set_of_find? (folder?_find found)

theorem storeLaw_iff (isAlnum : Char → Bool) (before : AgentsDirectory β) (action : StoreAction) :
    StoreLaw codec isAlnum before action ↔ Guarded codec isAlnum before action := by
  cases action with
  | create id name provider model workspace fault =>
      exact law_create codec isAlnum before id name provider model workspace fault
  | update id patch broken =>
      exact iff_of_true (law_update codec isAlnum before id patch broken) trivial
  | writePrompt id filename content =>
      exact law_writePrompt codec isAlnum before id filename content
  | delete id fault => exact law_delete codec isAlnum before id fault

/-- The calls of a run keep to the laws exactly if each is guarded. -/
theorem store_lawful_iff (codec : FileCodec β) (isAlnum : Char → Bool)
    (start : AgentsDirectory β) (actions : List StoreAction) :
    (store codec isAlnum).EachStep (StoreLaw codec isAlnum) start actions ↔
      (store codec isAlnum).EachStep (Guarded codec isAlnum) start actions :=
  StepSystem.eachStep_iff_of_invariant (fun _ => True) (fun _ _ _ _ _ _ => trivial)
    (fun before action _ _ _ => storeLaw_iff codec isAlnum before action) trivial actions

/-! A prompt of the default agent that is written and read. -/

def plainCodec : FileCodec String where
  loads := fun _ => .malformed
  rendered := fun _ => ""
  dumped := fun _ => ""
  readText := some
  blank := ""

def freshDefault : AgentsDirectory String :=
  KeyedTable.empty.set "default" (.folder (.ofList [("SOUL.md", ""), ("AGENTS.md", ""),
    ("USER.md", "")]))

/-- A prompt that is written is not what is read. -/
theorem written_prompt_unread : ¬ (store plainCodec Char.isAlphanum).EachStep
    (StoreLaw plainCodec Char.isAlphanum) freshDefault
    [.writePrompt "default" "SOUL.md" "be brief"] := by
  intro each
  obtain ⟨law, _⟩ := each _ rfl
  obtain ⟨prompts, read, listed⟩ := (law.prompts "default" "SOUL.md" "be brief" rfl rfl rfl).1
  have empty : readPrompts plainCodec freshDefault "default" =
      .ok [("SOUL.md", ""), ("AGENTS.md", ""), ("USER.md", "")] := rfl
  have same : prompts = [("SOUL.md", ""), ("AGENTS.md", ""), ("USER.md", "")] :=
    Except.ok.inj (read.symm.trans empty)
  have brief : strip "be brief" ≠ "" := by decide
  rw [same] at listed
  simp [brief] at listed

end Ftre.Agent.ProfileStore
