import Ftre.Lib.KeyedList
import Ftre.Session.UserContent

/-!
Which directory the profile of a run is read from.
-/

namespace Ftre.Agent

open Lib Session

abbrev Path := List String

def splitAtSlash : List Char → List (List Char)
  | [] => [[]]
  | character :: rest =>
      if character = '/' then [] :: splitAtSlash rest
      else
        match splitAtSlash rest with
        | [] => [[character]]
        | first :: others => (character :: first) :: others

def components (path : String) : Path :=
  ((splitAtSlash path.toList).filter fun part => decide (part ≠ []) && decide (part ≠ ['.'])).map
    String.ofList

/-- `directory / name`: an absolute name starts anew. -/
def joinPath (directory : Path) (name : String) : Path :=
  if name.toList.head? = some '/' then components name else directory ++ components name

/-- `resolve` follows links; `merges` says that reading and merging the configuration of a
directory raises nothing. -/
structure FileSystem where
  resolve : Path → Path
  isDir : Path → Bool
  isFile : Path → Bool
  merges : Path → Bool

def isIdCharacter (character : Char) : Bool :=
  let code := character.toNat
  (65 ≤ code && code ≤ 90) || (97 ≤ code && code ≤ 122) || (48 ≤ code && code ≤ 57) ||
    decide (character = '_') || decide (character = '-')

/-- `^[A-Za-z0-9_-]+$`; the dollar also matches in front of a last line break. -/
def safeId (id : String) : Bool :=
  let body := if id.toList.getLast? = some '\n' then id.toList.dropLast else id.toList
  !body.isEmpty && body.all isIdCharacter

inductive ProfileError where
  | illegalId
  | outside
  | missing
  | unreadable
deriving DecidableEq, Repr

def childDir (disk : FileSystem) (directory : Path) (id : String) : Except ProfileError Path :=
  if !safeId id then .error .illegalId
  else if (disk.resolve (joinPath directory id)).dropLast ≠ disk.resolve directory then
    .error .outside
  else .ok (disk.resolve (joinPath directory id))

def resolveAgentDir (disk : FileSystem) (agentsDir : Path) (agentId : String) :
    Except ProfileError Path :=
  childDir disk agentsDir agentId

def sessionDir (disk : FileSystem) (sessionsRoot : Path) (sessionId : String) :
    Except ProfileError Path :=
  childDir disk sessionsRoot sessionId

/-- A profile, by the directory its files are read from; the empty profile has none. -/
structure AgentProfile where
  agentId : String
  source : Option Path
deriving DecidableEq, Repr

def loadAndMerge (disk : FileSystem) (agentId : String) (agentDir : Path) :
    Except ProfileError AgentProfile :=
  if disk.merges agentDir then .ok ⟨agentId, some agentDir⟩ else .error .unreadable

def defaultDir (agentsDir : Path) : Path := joinPath agentsDir "default"

def loadDefault (disk : FileSystem) (agentsDir : Path) : Except ProfileError AgentProfile :=
  if disk.isDir (defaultDir agentsDir) then loadAndMerge disk "default" (defaultDir agentsDir)
  else .ok ⟨"default", none⟩

def load (disk : FileSystem) (agentsDir : Path) (agentId : String) :
    Except ProfileError AgentProfile :=
  match resolveAgentDir disk agentsDir agentId with
  | .error _ => loadDefault disk agentsDir
  | .ok agentDir =>
      if disk.isDir agentDir then loadAndMerge disk agentId agentDir
      else loadDefault disk agentsDir

/-- `load(agent_id, strict=True)`. -/
def loadStrict (disk : FileSystem) (agentsDir : Path) (agentId : String) :
    Except ProfileError AgentProfile :=
  match resolveAgentDir disk agentsDir agentId with
  | .error error => .error error
  | .ok agentDir =>
      if disk.isDir agentDir then loadAndMerge disk agentId agentDir else .error .missing

structure ProfileRoots where
  agentsDir : Path
  sessionsRoot : Path

/-- `load_member_profile`; whatever it raises, there is no profile. -/
def loadMemberProfile (disk : FileSystem) (roots : ProfileRoots)
    (leaderSessionId memberSessionId : String) : Option AgentProfile :=
  match sessionDir disk roots.sessionsRoot leaderSessionId with
  | .error _ => none
  | .ok leaderDir =>
      let baseDir := joinPath (joinPath leaderDir "sub_agents") memberSessionId
      if disk.isFile (joinPath baseDir "AGENTS.md") then
        (loadStrict disk baseDir.dropLast memberSessionId).toOption
      else none

/-- What is stored with a session. -/
structure StoredSession where
  agentId : String
  metadata : List (String × Json)

abbrev SessionTable := String → Option StoredSession

/-- `binding_of`: the leader of a member. -/
def bindingOf (metadata : List (String × Json)) : Option String :=
  match Json.lookup "team_member" metadata with
  | some (.object binding) =>
      match Json.lookup "leader_session" binding with
      | some (.str leader) => if leader = "" then none else some leader
      | _ => none
  | _ => none

def boundLeader (sessions : SessionTable) (sessionId : String) : Option String :=
  bindingOf ((sessions sessionId).map StoredSession.metadata |>.getD [])

def referredLeader (metadata : List (String × Json)) (sessionId : String) : Option String :=
  let agentRef := Json.lookup "agent_ref" metadata
  match agentRef.bind (·.get? "leader_session") with
  | some leader =>
      if leader.truthy && decide (agentRef.bind (·.get? "sub_agent") = some (.str sessionId)) then
        some leader.toStr
      else none
  | none => none

/-- The profile of a run, and the members that were looked for, by leader and session. -/
structure Selection where
  memberReads : List (String × String)
  profile : Except ProfileError AgentProfile

def resolveForInbound (disk : FileSystem) (roots : ProfileRoots) (sessions : SessionTable)
    (agentId sessionId : String) (metadata : List (String × Json)) : Selection :=
  let referred := referredLeader metadata sessionId
  let reads := referred.toList.map fun leader => (leader, sessionId)
  match referred.bind fun leader => loadMemberProfile disk roots leader sessionId with
  | some profile => ⟨reads, .ok profile⟩
  | none =>
      let bound := boundLeader sessions sessionId
      let more := reads ++ bound.toList.map fun leader => (leader, sessionId)
      match bound.bind fun leader => loadMemberProfile disk roots leader sessionId with
      | some profile => ⟨more, .ok profile⟩
      | none => ⟨more, load disk roots.agentsDir agentId⟩

/-! ### Where a profile comes from -/

/-- The member profile of a session under a leader. -/
structure IsMember (disk : FileSystem) (roots : ProfileRoots) (leader sessionId : String)
    (profile : AgentProfile) : Prop where
  named : profile.agentId = sessionId
  inside : ∃ leaderDir dir, sessionDir disk roots.sessionsRoot leader = .ok leaderDir ∧
    profile.source = some dir ∧ dir.dropLast = disk.resolve (leaderDir ++ ["sub_agents"])

/-- The leader holds the files of a member, and they can be read. -/
structure HoldsMember (disk : FileSystem) (roots : ProfileRoots) (leader sessionId : String)
    (dir : Path) : Prop where
  marked : ∃ leaderDir, sessionDir disk roots.sessionsRoot leader = .ok leaderDir ∧
    disk.isFile (joinPath (joinPath (joinPath leaderDir "sub_agents") sessionId) "AGENTS.md") =
      true ∧
    resolveAgentDir disk (leaderDir ++ ["sub_agents"]) sessionId = .ok dir
  isDir : disk.isDir dir = true
  merges : disk.merges dir = true

structure IsChild (disk : FileSystem) (agentsDir : Path) (profile : AgentProfile) : Prop where
  legal : safeId profile.agentId = true
  child : ∃ dir, profile.source = some dir ∧ dir.dropLast = disk.resolve agentsDir

def IsDefault (agentsDir : Path) (profile : AgentProfile) : Prop :=
  profile.agentId = "default" ∧
    (profile.source = none ∨ profile.source = some (agentsDir ++ ["default"]))

def Known (disk : FileSystem) (agentsDir : Path) (agentId : String) : Prop :=
  ∃ dir, resolveAgentDir disk agentsDir agentId = .ok dir ∧ disk.isDir dir = true

def Chosen (disk : FileSystem) (agentsDir : Path) (agentId : String) (dir : Path) : Prop :=
  disk.isDir dir = true ∧ (resolveAgentDir disk agentsDir agentId = .ok dir ∨
    (¬ Known disk agentsDir agentId ∧ dir = agentsDir ++ ["default"]))

variable {disk : FileSystem} {profile : AgentProfile}

theorem childDir_ok {directory dir : Path} {id : String}
    (found : childDir disk directory id = .ok dir) :
    safeId id = true ∧ dir = disk.resolve (joinPath directory id) ∧
      dir.dropLast = disk.resolve directory := by
  unfold childDir at found
  by_cases unsafeName : (!safeId id) = true
  · rw [if_pos unsafeName] at found
    cases found
  · rw [if_neg unsafeName] at found
    by_cases away : (disk.resolve (joinPath directory id)).dropLast ≠ disk.resolve directory
    · rw [if_pos away] at found
      cases found
    · rw [if_neg away] at found
      cases found
      exact ⟨by simpa using unsafeName, rfl, not_not.mp away⟩

theorem splitAtSlash_plain {characters : List Char} (plain : '/' ∉ characters) :
    splitAtSlash characters = [characters] := by
  induction characters with
  | nil => rfl
  | cons character rest ih =>
      have other : character ≠ '/' := by
        rintro rfl
        exact plain List.mem_cons_self
      unfold splitAtSlash
      rw [if_neg other, ih fun member => plain (List.mem_cons_of_mem _ member)]

theorem safeId_characters {id : String} (legal : safeId id = true) :
    id.toList ≠ [] ∧ ∀ character ∈ id.toList, isIdCharacter character = true ∨ character = '\n' := by
  unfold safeId at legal
  dsimp only at legal
  by_cases broken : id.toList.getLast? = some '\n'
  · rw [if_pos broken, Bool.and_eq_true] at legal
    obtain ⟨front, whole⟩ : ∃ front, id.toList = front ++ ['\n'] :=
      ⟨_, (List.dropLast_append_getLast? _ broken).symm⟩
    rw [whole] at legal ⊢
    rw [List.dropLast_concat] at legal
    refine ⟨by simp, ?_⟩
    intro character member
    rcases List.mem_append.mp member with before | last
    · exact Or.inl (List.all_eq_true.mp legal.2 character before)
    · exact Or.inr (List.mem_singleton.mp last)
  · rw [if_neg broken, Bool.and_eq_true] at legal
    refine ⟨?_, fun character member => Or.inl (List.all_eq_true.mp legal.2 character member)⟩
    intro empty
    rw [empty] at legal
    cases legal.1

theorem joinPath_safe {id : String} (legal : safeId id = true) (directory : Path) :
    joinPath directory id = directory ++ [id] := by
  obtain ⟨nonempty, characters⟩ := safeId_characters legal
  have plain : '/' ∉ id.toList := by
    intro slash
    rcases characters '/' slash with allowed | broken
    · exact absurd allowed (by decide)
    · exact absurd broken (by decide)
  have relative : id.toList.head? ≠ some '/' := by
    intro slash
    exact plain (List.mem_of_head? slash)
  have notDot : id.toList ≠ ['.'] := by
    intro dot
    rcases characters '.' (by rw [dot]; exact List.mem_cons_self) with allowed | broken
    · exact absurd allowed (by decide)
    · exact absurd broken (by decide)
  unfold joinPath components
  rw [if_neg relative, splitAtSlash_plain plain]
  simp [nonempty, notDot]

theorem loadAndMerge_ok {agentId : String} {agentDir : Path}
    (loaded : loadAndMerge disk agentId agentDir = .ok profile) :
    profile = ⟨agentId, some agentDir⟩ := by
  unfold loadAndMerge at loaded
  split at loaded
  · cases loaded
    rfl
  · cases loaded

theorem loadDefault_ok {agentsDir : Path} (loaded : loadDefault disk agentsDir = .ok profile) :
    IsDefault agentsDir profile := by
  have named : defaultDir agentsDir = agentsDir ++ ["default"] := joinPath_safe (by decide) _
  unfold loadDefault at loaded
  split at loaded
  · rw [loadAndMerge_ok loaded]
    exact ⟨rfl, Or.inr (congrArg some named)⟩
  · cases loaded
    exact ⟨rfl, Or.inl rfl⟩

theorem load_ok {agentsDir : Path} {agentId : String}
    (loaded : load disk agentsDir agentId = .ok profile) :
    (Known disk agentsDir agentId ∧ profile.agentId = agentId ∧ IsChild disk agentsDir profile) ∨
      (¬ Known disk agentsDir agentId ∧ IsDefault agentsDir profile) := by
  unfold load at loaded
  cases found : resolveAgentDir disk agentsDir agentId with
  | error error =>
      rw [found] at loaded
      refine Or.inr ⟨?_, loadDefault_ok loaded⟩
      rintro ⟨dir, known, _⟩
      rw [found] at known
      cases known
  | ok agentDir =>
      rw [found] at loaded
      dsimp only at loaded
      by_cases present : disk.isDir agentDir = true
      · rw [if_pos present] at loaded
        obtain ⟨legal, _, child⟩ := childDir_ok found
        rw [loadAndMerge_ok loaded]
        exact Or.inl ⟨⟨agentDir, found, present⟩, rfl, legal, agentDir, rfl, child⟩
      · rw [if_neg present] at loaded
        refine Or.inr ⟨?_, loadDefault_ok loaded⟩
        rintro ⟨dir, known, isDir⟩
        rw [found] at known
        cases known
        exact present isDir

theorem loadAndMerge_error {agentId : String} {agentDir : Path} {error : ProfileError}
    (raised : loadAndMerge disk agentId agentDir = .error error) :
    error = .unreadable ∧ disk.merges agentDir = false := by
  unfold loadAndMerge at raised
  split at raised
  · cases raised
  · rename_i unmerged
    cases raised
    exact ⟨rfl, Bool.eq_false_iff.mpr unmerged⟩

theorem loadDefault_error {agentsDir : Path} {error : ProfileError}
    (raised : loadDefault disk agentsDir = .error error) :
    error = .unreadable ∧ disk.isDir (agentsDir ++ ["default"]) = true ∧
      disk.merges (agentsDir ++ ["default"]) = false := by
  have named : defaultDir agentsDir = agentsDir ++ ["default"] := joinPath_safe (by decide) _
  unfold loadDefault at raised
  rw [named] at raised
  split at raised
  · rename_i present
    exact ⟨(loadAndMerge_error raised).1, present, (loadAndMerge_error raised).2⟩
  · cases raised

theorem load_error {agentsDir : Path} {agentId : String} {error : ProfileError}
    (raised : load disk agentsDir agentId = .error error) :
    error = .unreadable ∧ ∃ dir, Chosen disk agentsDir agentId dir ∧ disk.merges dir = false := by
  have fallen (unknown : ¬ Known disk agentsDir agentId)
      (failed : loadDefault disk agentsDir = .error error) :
      error = .unreadable ∧ ∃ dir, Chosen disk agentsDir agentId dir ∧ disk.merges dir = false := by
    obtain ⟨same, present, unmerged⟩ := loadDefault_error failed
    exact ⟨same, _, ⟨present, Or.inr ⟨unknown, rfl⟩⟩, unmerged⟩
  unfold load at raised
  cases found : resolveAgentDir disk agentsDir agentId with
  | error illegal =>
      rw [found] at raised
      refine fallen ?_ raised
      rintro ⟨dir, known, _⟩
      rw [found] at known
      cases known
  | ok agentDir =>
      rw [found] at raised
      dsimp only at raised
      by_cases present : disk.isDir agentDir = true
      · rw [if_pos present] at raised
        obtain ⟨same, unmerged⟩ := loadAndMerge_error raised
        exact ⟨same, agentDir, ⟨present, Or.inl found⟩, unmerged⟩
      · rw [if_neg present] at raised
        refine fallen ?_ raised
        rintro ⟨dir, known, isDir⟩
        rw [found] at known
        cases known
        exact present isDir

theorem loadMemberProfile_of_holds {roots : ProfileRoots} {leader sessionId : String} {dir : Path}
    (held : HoldsMember disk roots leader sessionId dir) :
    loadMemberProfile disk roots leader sessionId = some ⟨sessionId, some dir⟩ := by
  obtain ⟨leaderDir, led, marked, found⟩ := held.marked
  obtain ⟨legal, _⟩ := childDir_ok found
  have members : joinPath leaderDir "sub_agents" = leaderDir ++ ["sub_agents"] :=
    joinPath_safe (by decide) _
  unfold loadMemberProfile
  rw [led]
  dsimp only
  rw [if_pos marked, joinPath_safe legal, List.dropLast_concat, members]
  unfold loadStrict
  rw [found]
  dsimp only
  rw [if_pos held.isDir]
  unfold loadAndMerge
  rw [if_pos held.merges]
  rfl

theorem loadMemberProfile_some {roots : ProfileRoots} {leader sessionId : String}
    (loaded : loadMemberProfile disk roots leader sessionId = some profile) :
    IsMember disk roots leader sessionId profile := by
  unfold loadMemberProfile at loaded
  cases led : sessionDir disk roots.sessionsRoot leader with
  | error error =>
      rw [led] at loaded
      cases loaded
  | ok leaderDir =>
      rw [led] at loaded
      dsimp only at loaded
      split at loaded
      · unfold loadStrict at loaded
        generalize parent :
          (joinPath (joinPath leaderDir "sub_agents") sessionId).dropLast = membersDir at loaded
        cases found : resolveAgentDir disk membersDir sessionId with
        | error error =>
            rw [found] at loaded
            cases loaded
        | ok agentDir =>
            rw [found] at loaded
            obtain ⟨legal, _, child⟩ := childDir_ok found
            dsimp only at loaded
            split at loaded
            · cases merged : loadAndMerge disk sessionId agentDir with
              | error error =>
                  rw [merged] at loaded
                  cases loaded
              | ok other =>
                  rw [merged] at loaded
                  cases loaded
                  rw [loadAndMerge_ok merged]
                  have members : joinPath leaderDir "sub_agents" = leaderDir ++ ["sub_agents"] :=
                    joinPath_safe (by decide) _
                  rw [joinPath_safe legal, List.dropLast_concat, members] at parent
                  rw [← parent] at child
                  exact ⟨rfl, leaderDir, agentDir, led, rfl, child⟩
            · cases loaded
      · cases loaded

theorem resolveForInbound_unreferred {roots : ProfileRoots} {sessions : SessionTable}
    {agentId sessionId : String} {metadata : List (String × Json)}
    (unreferred : referredLeader metadata sessionId = none) :
    resolveForInbound disk roots sessions agentId sessionId metadata =
      resolveForInbound disk roots sessions agentId sessionId [] := by
  unfold resolveForInbound
  rw [unreferred]
  rfl

end Ftre.Agent
