import Ftre.Config.DeepMerge
import Ftre.Lib.StepSystem

/-!
The configuration in memory and in its file. A commit writes the whole file from memory; what
others save into the file enters memory when the service looks at the file again.
-/

namespace Ftre.Config

open Lib

/-- A text of the file, by what reading it gives and which of the texts with that reading it is.
The digest of a text stands for the text. -/
structure ConfigText where
  reading : Option Fields
  layout : Nat
deriving DecidableEq

def ConfigText.written (value : Fields) : ConfigText := ⟨some value, 0⟩

/-- The signature is made of the times and the size that `stat` tells. -/
structure ConfigFile where
  text : ConfigText
  signature : Nat
deriving DecidableEq

/-- `read_with_hash`: a missing file is empty and has no digest; none is an exception. -/
def readWithHash : Option ConfigFile → Option (Fields × Option ConfigText)
  | none => some ([], none)
  | some file => file.text.reading.map fun value => (value, some file.text)

/-- A file that can be read. -/
structure ReadableFile where
  value : Fields
  layout : Nat
  signature : Nat

def ReadableFile.file (found : ReadableFile) : ConfigFile :=
  ⟨⟨some found.value, found.layout⟩, found.signature⟩

/-! ### The service -/

/-- A change that entered the snapshot. -/
inductive Change where
  | committed (value : Fields)
  | reloaded (value : Fields)
deriving DecidableEq

/-- An accepted commit: the revision its caller expected, the text it replaced, and the value of
the revision it was based on. -/
structure Overwrite where
  expected : Option Int
  found : Option ConfigText
  base : Fields
deriving DecidableEq

structure ConfigService where
  value : Fields
  contentHash : Option ConfigText
  revision : Nat
  fileSignature : Option Nat
  file : Option ConfigFile
  overwrites : List Overwrite
  changes : List Change
deriving DecidableEq

namespace ConfigService

/-- A service on a file that can be read, or on none. -/
def opened (found : Option ReadableFile) : ConfigService where
  value := (found.map ReadableFile.value).getD []
  contentHash := found.map fun found => found.file.text
  revision := 0
  fileSignature := found.map ReadableFile.signature
  file := found.map ReadableFile.file
  overwrites := []
  changes := []

abbrev Disturbance := Option (Option ConfigFile)

/-- How the write of a commit goes; others may save before it reads the file back, and before it
takes the signature. -/
inductive Writing where
  | failed
  | written (signature : Nat) (beforeRead beforeStat : Disturbance)
deriving DecidableEq

/-- `_commit`; none is an error. -/
def commit (service : ConfigService) (candidate : Fields) (expected : Option Int) :
    Writing → Option ConfigService
  | .failed => none
  | .written signature beforeRead beforeStat =>
      if expected.getD service.revision ≠ service.revision then none
      else
        let read := beforeRead.getD (some ⟨.written candidate, signature⟩)
        let left := beforeStat.getD read
        some
          { service with
            value := candidate
            contentHash := (readWithHash read).bind Prod.snd
            revision := service.revision + 1
            fileSignature := left.map ConfigFile.signature
            file := left
            overwrites := ⟨expected, service.file.map ConfigFile.text, service.value⟩ ::
              service.overwrites
            changes := .committed candidate :: service.changes }

/-- `reload_if_changed`; others may save between the look at the signature and the reading. -/
def reloadIfChanged (service : ConfigService) (force : Bool) (beforeRead : Disturbance) :
    ConfigService :=
  let signature := service.file.map ConfigFile.signature
  let seen :=
    { service with
      file := beforeRead.getD service.file
      fileSignature := signature }
  if !force && decide (signature = service.fileSignature) then
    { service with file := beforeRead.getD service.file }
  else if signature = none then seen
  else
    match readWithHash seen.file with
    | none => seen
    | some (value, contentHash) =>
        if contentHash = service.contentHash then seen
        else
          { seen with
            value := value
            contentHash := contentHash
            revision := service.revision + 1
            changes := .reloaded value :: service.changes }

/-- A change of the configuration through the service. -/
inductive Request where
  | update (patch : Fields)
  | replace (value : Fields)
deriving DecidableEq

def candidate (service : ConfigService) : Request → Fields
  | .update patch => deepMerge service.value patch
  | .replace value => value

inductive Action where
  | request (request : Request) (expected : Option Int) (writing : Writing)
  /-- The watcher, or a reader that asks for the snapshot. -/
  | poll (force : Bool) (beforeRead : Disturbance)
  /-- Others save the file, or remove it. -/
  | saved (file : Option ConfigFile)
deriving DecidableEq

def perform (service : ConfigService) : Action → ConfigService
  | .request request expected writing =>
      (service.commit (service.candidate request) expected writing).getD service
  | .poll force beforeRead => service.reloadIfChanged force beforeRead
  | .saved file => { service with file := file }

def system : StepSystem ConfigService Action where
  step service action := some (service.perform action)

def Accepts (service : ConfigService) (expected : Option Int) (writing : Writing) : Prop :=
  writing ≠ .failed ∧ expected.getD service.revision = service.revision

theorem commit_some {service after : ConfigService} {candidate : Fields} {expected : Option Int}
    {writing : Writing} (committed : service.commit candidate expected writing = some after) :
    service.Accepts expected writing ∧
      after.overwrites = ⟨expected, service.file.map ConfigFile.text, service.value⟩ ::
        service.overwrites ∧
      after.revision = service.revision + 1 ∧
      after.changes = .committed candidate :: service.changes := by
  cases writing with
  | failed => cases committed
  | written signature beforeRead beforeStat =>
      unfold commit at committed
      dsimp only at committed
      by_cases conflict : expected.getD service.revision ≠ service.revision
      · rw [if_pos conflict] at committed
        cases committed
      · rw [if_neg conflict] at committed
        cases committed
        exact ⟨⟨nofun, not_not.mp conflict⟩, rfl, rfl, rfl⟩

theorem commit_none {service : ConfigService} {candidate : Fields} {expected : Option Int}
    {writing : Writing} (refused : service.commit candidate expected writing = none) :
    ¬ service.Accepts expected writing := by
  rintro ⟨written, current⟩
  cases writing with
  | failed => exact written rfl
  | written signature beforeRead beforeStat =>
      unfold commit at refused
      dsimp only at refused
      rw [if_neg (not_not.mpr current)] at refused
      cases refused

theorem reloadIfChanged_cases (service : ConfigService) (force : Bool)
    (beforeRead : Disturbance) :
    (service.reloadIfChanged force beforeRead).overwrites = service.overwrites ∧
      (((service.reloadIfChanged force beforeRead).value = service.value ∧
          (service.reloadIfChanged force beforeRead).revision = service.revision ∧
          (service.reloadIfChanged force beforeRead).changes = service.changes) ∨
        ∃ value, (service.reloadIfChanged force beforeRead).value = value ∧
          (service.reloadIfChanged force beforeRead).revision = service.revision + 1 ∧
          (service.reloadIfChanged force beforeRead).changes =
            .reloaded value :: service.changes) := by
  unfold reloadIfChanged
  dsimp only
  split
  · exact ⟨rfl, Or.inl ⟨rfl, rfl, rfl⟩⟩
  · split
    · exact ⟨rfl, Or.inl ⟨rfl, rfl, rfl⟩⟩
    · split
      · exact ⟨rfl, Or.inl ⟨rfl, rfl, rfl⟩⟩
      · split
        · exact ⟨rfl, Or.inl ⟨rfl, rfl, rfl⟩⟩
        · exact ⟨rfl, Or.inr ⟨_, rfl, rfl, rfl⟩⟩

end ConfigService

end Ftre.Config
