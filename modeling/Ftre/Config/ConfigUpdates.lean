import Ftre.Config.ConfigService

/-!
What an accepted update keeps of the changes others make.
-/

namespace Ftre.Config

open Lib

namespace ConfigService

def Reads (text : Option ConfigText) (value : Fields) : Prop :=
  ∀ found, text = some found → found.reading = some value

instance (text : Option ConfigText) (value : Fields) : Decidable (Reads text value) :=
  match text with
  | none => isTrue nofun
  | some found =>
      decidable_of_iff (found.reading = some value)
        ⟨fun reads _ same => Option.some.inj same ▸ reads, fun reads => reads found rfl⟩

/-- No accepted update with an expected revision replaced a text that is not part of that
revision, and every change that entered the snapshot counted one. -/
structure UpdateLaw (service : ConfigService) : Prop where
  kept : ∀ overwrite ∈ service.overwrites, overwrite.expected.isSome = true →
    Reads overwrite.found overwrite.base
  counted : service.revision = service.changes.length

/-- Where an update with an expected revision is accepted, the file reads as that revision. -/
def Current (service : ConfigService) : Action → Prop
  | .request _ expected writing =>
      expected.isSome = true → service.Accepts expected writing →
        Reads (service.file.map ConfigFile.text) service.value
  | _ => True

variable {service : ConfigService}

theorem updateLaw_step (law : service.UpdateLaw) (action : Action) :
    (service.perform action).UpdateLaw ↔ service.Current action := by
  cases action with
  | saved file => exact ⟨fun _ => trivial, fun _ => ⟨law.kept, law.counted⟩⟩
  | poll force beforeRead =>
      refine ⟨fun _ => trivial, fun _ => ?_⟩
      obtain ⟨same, entered⟩ := service.reloadIfChanged_cases force beforeRead
      constructor
      · change ∀ overwrite ∈ (service.reloadIfChanged force beforeRead).overwrites, _
        rw [same]
        exact law.kept
      · change (service.reloadIfChanged force beforeRead).revision =
          (service.reloadIfChanged force beforeRead).changes.length
        rcases entered with ⟨_, revision, changes⟩ | ⟨_, _, revision, changes⟩
        · rw [revision, changes]
          exact law.counted
        · rw [revision, changes, List.length_cons, law.counted]
  | request request expected writing =>
      change ((service.commit (service.candidate request) expected writing).getD
        service).UpdateLaw ↔ _
      cases committed : service.commit (service.candidate request) expected writing with
      | none =>
          refine ⟨fun _ _ accepted => absurd accepted (commit_none committed), fun _ => law⟩
      | some after =>
          obtain ⟨accepted, overwrites, revision, changes⟩ := commit_some committed
          change after.UpdateLaw ↔ _
          constructor
          · intro next conditional _
            have present : ⟨expected, service.file.map ConfigFile.text, service.value⟩ ∈
                after.overwrites := by
              rw [overwrites]
              exact List.mem_cons_self
            exact next.kept _ present conditional
          · intro current
            constructor
            · intro overwrite member conditional
              rw [overwrites] at member
              rcases List.mem_cons.mp member with same | earlier
              · rw [same] at conditional ⊢
                exact current conditional accepted
              · exact law.kept overwrite earlier conditional
            · rw [revision, changes, List.length_cons, law.counted]

/-! ### What nobody has looked at -/

def Action.Disturbs : Action → Prop
  | .request _ _ .failed => False
  | .request _ _ (.written _ beforeRead beforeStat) => beforeRead ≠ none ∨ beforeStat ≠ none
  | .poll _ beforeRead => beforeRead ≠ none
  | .saved _ => True

def TakesIn (service : ConfigService) : Action → Prop
  | .request _ expected writing => service.Accepts expected writing ∧
      ∀ signature beforeRead beforeStat, writing = .written signature beforeRead beforeStat →
        beforeRead = none ∧ beforeStat = none
  | .poll force beforeRead => beforeRead = none ∧
      (force = true ∨ service.file.map ConfigFile.signature ≠ service.fileSignature) ∧
      ∃ file, service.file = some file ∧ file.text.reading.isSome = true ∧
        service.contentHash ≠ some file.text
  | .saved _ => False

/-- Others save at some action, and none behind it takes the file in. -/
def Unlooked (service : ConfigService) : List Action → Prop
  | [] => False
  | action :: rest =>
      (action.Disturbs ∧ system.EachStep (fun before next => ¬ before.TakesIn next)
          (service.perform action) rest) ∨
        Unlooked (service.perform action) rest

def Settled (service : ConfigService) : Prop :=
  Reads (service.file.map ConfigFile.text) service.value

theorem settled_commit {service after : ConfigService} {candidate : Fields}
    {expected : Option Int} {signature : Nat}
    (committed : service.commit candidate expected (.written signature none none) = some after) :
    after.Settled := by
  unfold commit at committed
  dsimp only at committed
  split at committed
  · cases committed
  · cases committed
    intro found same
    rw [← Option.some.inj same]
    rfl

theorem settled_poll (settled : service.Settled) (force : Bool) :
    (service.reloadIfChanged force none).Settled := by
  unfold reloadIfChanged
  dsimp only [Option.getD_none]
  split
  · exact settled
  · split
    · exact settled
    · split
      · exact settled
      · rename_i value contentHash read
        split
        · exact settled
        · cases present : service.file with
          | none =>
              intro found same
              cases same
          | some file =>
              rw [present] at read
              obtain ⟨reading, same, whole⟩ := Option.map_eq_some_iff.mp read
              cases whole
              intro found stands
              rw [← Option.some.inj stands]
              exact same

theorem settled_look {force : Bool}
    (looks : force = true ∨ service.file.map ConfigFile.signature ≠ service.fileSignature)
    {file : ConfigFile} (present : service.file = some file)
    (readable : file.text.reading.isSome = true) (new : service.contentHash ≠ some file.text) :
    (service.reloadIfChanged force none).Settled := by
  obtain ⟨value, reading⟩ := Option.isSome_iff_exists.mp readable
  have read : readWithHash (some file) = some (value, some file.text) := by
    change file.text.reading.map (fun value => (value, some file.text)) = _
    rw [reading]
    rfl
  have unread : ¬ (!force && decide (service.file.map ConfigFile.signature =
      service.fileSignature)) = true := by
    rcases looks with forced | signed
    · rw [forced]
      exact Bool.false_ne_true
    · rw [decide_eq_false signed, Bool.and_false]
      exact Bool.false_ne_true
  unfold reloadIfChanged
  dsimp only [Option.getD_none]
  have signed : (some file).map ConfigFile.signature ≠ none := Option.some_ne_none file.signature
  rw [if_neg unread, present, if_neg signed, read]
  dsimp only
  rw [if_neg (Ne.symm new)]
  intro found same
  rw [← Option.some.inj same]
  exact reading

theorem settled_step (settled : service.Settled) {action : Action} (alone : ¬ action.Disturbs) :
    (service.perform action).Settled := by
  cases action with
  | saved file => exact absurd trivial alone
  | poll force beforeRead =>
      have undisturbed : beforeRead = none := not_not.mp alone
      subst undisturbed
      exact settled_poll settled force
  | request request expected writing =>
      change ((service.commit (service.candidate request) expected writing).getD service).Settled
      cases committed : service.commit (service.candidate request) expected writing with
      | none => exact settled
      | some after =>
          cases writing with
          | failed => cases committed
          | written signature beforeRead beforeStat =>
              obtain ⟨first, second⟩ := not_or.mp alone
              have undisturbed := not_not.mp first
              have untouched := not_not.mp second
              subst undisturbed untouched
              exact settled_commit committed

theorem settled_of_takesIn {action : Action} (taken : service.TakesIn action) :
    (service.perform action).Settled := by
  cases action with
  | saved file => exact absurd taken id
  | poll force beforeRead =>
      obtain ⟨undisturbed, looks, file, present, readable, new⟩ := taken
      subst undisturbed
      exact settled_look looks present readable new
  | request request expected writing =>
      obtain ⟨accepted, alone⟩ := taken
      change ((service.commit (service.candidate request) expected writing).getD service).Settled
      cases committed : service.commit (service.candidate request) expected writing with
      | none => exact absurd accepted (commit_none committed)
      | some after =>
          cases writing with
          | failed => cases committed
          | written signature beforeRead beforeStat =>
              obtain ⟨first, second⟩ := alone signature beforeRead beforeStat rfl
              subst first second
              exact settled_commit committed

theorem unlooked_of_unsettled {after : ConfigService} {actions : List Action}
    (ran : system.run service actions = some after) (unsettled : ¬ after.Settled) :
    service.Unlooked actions ∨ ¬ service.Settled ∧
      system.EachStep (fun before next => ¬ before.TakesIn next) service actions := by
  induction actions generalizing service with
  | nil =>
      cases ran
      exact Or.inr ⟨unsettled, trivial⟩
  | cons action rest ih =>
      rcases ih ran with later | ⟨unread, untaken⟩
      · exact Or.inl (Or.inr later)
      · by_cases disturbs : action.Disturbs
        · exact Or.inl (Or.inl ⟨disturbs, untaken⟩)
        · refine Or.inr ⟨fun settled => unread (settled_step settled disturbs), fun next stepped => ?_⟩
          cases stepped
          exact ⟨fun taken => unread (settled_of_takesIn taken), untaken⟩

theorem settled_opened (found : Option ReadableFile) : (opened found).Settled := by
  cases found with
  | none => exact nofun
  | some found =>
      intro text same
      rw [← Option.some.inj same]
      rfl

theorem unlooked_of_not_current {found : Option ReadableFile} {actions : List Action}
    {before : ConfigService} {action : Action}
    (ran : system.run (opened found) actions = some before)
    (late : ¬ before.Current action) : (opened found).Unlooked actions := by
  have unsettled : ¬ before.Settled := by
    intro settled
    cases action with
    | request request expected writing => exact late fun _ _ => settled
    | _ => exact late trivial
  rcases unlooked_of_unsettled ran unsettled with unlooked | ⟨never, _⟩
  · exact unlooked
  · exact absurd (settled_opened found) never

theorem updateLaw_opened (found : Option ReadableFile) : (opened found).UpdateLaw where
  kept := fun _ present => absurd present List.not_mem_nil
  counted := rfl

/-! ### Looking in time -/

def InStep (service : ConfigService) : Prop :=
  service.file.map ConfigFile.signature = service.fileSignature →
    Reads (service.file.map ConfigFile.text) service.value

/-- A save has a new signature, a look at the file finds what it can read, nobody saves while
the service looks or writes, and an update with an expected revision comes after a look at the
last save. -/
def Attentive (service : ConfigService) : Action → Prop
  | .saved file => file.map ConfigFile.signature ≠ service.fileSignature ∨ file = none
  | .poll _ beforeRead =>
      beforeRead = none ∧ ∀ file, service.file = some file → file.text.reading.isSome = true
  | .request _ expected writing =>
      (∀ signature beforeRead beforeStat, writing = .written signature beforeRead beforeStat →
        beforeRead = none ∧ beforeStat = none) ∧
      (expected.isSome = true → service.file.map ConfigFile.signature = service.fileSignature)

def Digested (service : ConfigService) : Prop := Reads service.contentHash service.value

theorem reads_none (value : Fields) : Reads none value := nofun

theorem inStep_saved {service : ConfigService} {file : Option ConfigFile}
    (seen : file.map ConfigFile.signature ≠ service.fileSignature ∨ file = none) :
    InStep { service with file := file } := by
  intro same
  rcases seen with new | gone
  · exact absurd same new
  · change Reads (file.map ConfigFile.text) _
    rw [gone]
    exact reads_none _

theorem inStep_poll (digested : service.Digested) (inStep : service.InStep) (force : Bool)
    (readable : ∀ file, service.file = some file → file.text.reading.isSome = true) :
    (service.reloadIfChanged force none).InStep ∧
      (service.reloadIfChanged force none).Digested := by
  unfold reloadIfChanged
  dsimp only [Option.getD_none]
  split
  · exact ⟨inStep, digested⟩
  · split
    · rename_i unsigned
      refine ⟨fun _ => ?_, digested⟩
      have absent : service.file = none := Option.map_eq_none_iff.mp unsigned
      change Reads (service.file.map ConfigFile.text) _
      rw [absent]
      exact reads_none _
    · rename_i signed
      cases present : service.file with
      | none =>
          rw [present] at signed
          exact absurd rfl signed
      | some file =>
          obtain ⟨value, reading⟩ := Option.isSome_iff_exists.mp (readable file present)
          have read : readWithHash (some file) = some (value, some file.text) := by
            change file.text.reading.map (fun value => (value, some file.text)) = _
            rw [reading]
            rfl
          rw [read]
          dsimp only
          split
          · rename_i same
            refine ⟨fun _ => ?_, digested⟩
            change Reads (some file.text) service.value
            rw [same]
            exact digested
          · have reads : Reads (some file.text) value := by
              intro found same
              rw [← Option.some.inj same]
              exact reading
            exact ⟨fun _ => reads, reads⟩

theorem inStep_commit {service after : ConfigService} {candidate : Fields}
    {expected : Option Int} {signature : Nat}
    (committed : service.commit candidate expected (.written signature none none) = some after) :
    after.InStep ∧ after.Digested := by
  have reads : Reads (some (ConfigText.written candidate)) candidate := by
    intro found same
    rw [← Option.some.inj same]
    rfl
  unfold commit at committed
  dsimp only at committed
  split at committed
  · cases committed
  · cases committed
    exact ⟨fun _ => reads, reads⟩

theorem current_of_attentive (inStep : service.InStep) {action : Action}
    (attentive : service.Attentive action) : service.Current action := by
  cases action with
  | request request expected writing =>
      intro conditional _
      exact inStep (attentive.2 conditional)
  | _ => trivial

theorem inStep_step (inStep : service.InStep) (digested : service.Digested) {action : Action}
    (attentive : service.Attentive action) :
    (service.perform action).InStep ∧ (service.perform action).Digested := by
  cases action with
  | saved file => exact ⟨inStep_saved attentive, digested⟩
  | poll force beforeRead =>
      obtain ⟨undisturbed, readable⟩ := attentive
      subst undisturbed
      exact inStep_poll digested inStep force readable
  | request request expected writing =>
      change ((service.commit (service.candidate request) expected writing).getD
        service).InStep ∧ ((service.commit (service.candidate request) expected writing).getD
        service).Digested
      cases committed : service.commit (service.candidate request) expected writing with
      | none => exact ⟨inStep, digested⟩
      | some after =>
          cases writing with
          | failed => cases committed
          | written signature beforeRead beforeStat =>
              obtain ⟨first, second⟩ := attentive.1 signature beforeRead beforeStat rfl
              subst first second
              exact inStep_commit committed

theorem inStep_opened (found : Option ReadableFile) :
    (opened found).InStep ∧ (opened found).Digested := by
  cases found with
  | none => exact ⟨fun _ => reads_none _, reads_none _⟩
  | some found =>
      have reads : Reads (some found.file.text) found.value := by
        intro text same
        rw [← Option.some.inj same]
        rfl
      exact ⟨fun _ => reads, reads⟩

theorem eachStep_current_of_attentive (found : Option ReadableFile) {actions : List Action}
    (attentive : system.EachStep Attentive (opened found) actions) :
    system.EachStep Current (opened found) actions := by
  have start := inStep_opened found
  generalize opened found = service at attentive start
  induction actions generalizing service with
  | nil => trivial
  | cons action rest ih =>
      intro next stepped
      obtain ⟨now, later⟩ := attentive next stepped
      cases stepped
      exact ⟨current_of_attentive start.1 now,
        ih _ later (inStep_step start.1 start.2 now)⟩

theorem updateLaw_always_iff (found : Option ReadableFile) (actions : List Action) :
    system.Always UpdateLaw (opened found) actions ↔
      system.EachStep Current (opened found) actions := by
  apply StepSystem.always_iff_eachStep
  · intro before action after law stepped
    cases stepped
    exact updateLaw_step law action
  · exact updateLaw_opened found

/-- Who always looks in time discards nothing. -/
theorem attentive_updates_kept (found : Option ReadableFile) {actions : List Action}
    (attentive : system.EachStep Attentive (opened found) actions) :
    system.Always UpdateLaw (opened found) actions :=
  (updateLaw_always_iff found actions).mpr (eachStep_current_of_attentive found attentive)

def attentiveActions : List Action :=
  [.saved (some ⟨⟨some [("language", .str "zh"), ("theme", .str "dark")], 1⟩, 1⟩),
    .poll false none,
    .request (.update [("language", .str "en")]) (some 1) (.written 2 none none)]

/-- The saved key is still there. -/
theorem seen_save_kept :
    system.Always UpdateLaw (opened (some ⟨[("language", .str "zh")], 0, 0⟩)) attentiveActions ∧
      ((system.run (opened (some ⟨[("language", .str "zh")], 0, 0⟩)) attentiveActions).map
        fun service => (service.file, service.overwrites.length, service.revision)) =
        some (some ⟨.written [("language", .str "en"), ("theme", .str "dark")], 2⟩, 1, 2) := by
  constructor
  · refine attentive_updates_kept _ ?_
    refine StepSystem.eachStep_cons rfl (Or.inl (by decide)) ?_
    refine StepSystem.eachStep_cons rfl ⟨rfl, fun file stands => ?_⟩ ?_
    · cases stands
      rfl
    refine StepSystem.eachStep_cons rfl ⟨fun signature beforeRead beforeStat same => ?_, fun _ => ?_⟩
      trivial
    · cases same
      exact ⟨rfl, rfl⟩
    · decide
  · decide

/-- Updates keep what others saved exactly if each accepted update with an expected revision finds
it in the file; one that does not comes after a save nobody has looked at. -/
theorem config_updates_kept_iff (found : Option ReadableFile) (actions : List Action)
    (service : ConfigService) (request : Request) (expected : Option Int) :
    (system.Always UpdateLaw (opened found) actions ↔
        system.EachStep Current (opened found) actions) ∧
      (∀ before action, system.run (opened found) actions = some before →
        ¬ before.Current action → (opened found).Unlooked actions) ∧
      service.perform (.request request expected .failed) = service :=
  ⟨updateLaw_always_iff found actions, fun _ _ => unlooked_of_not_current, rfl⟩

/-- A key is saved into the file and an update of another key, based on the current revision,
is accepted before anyone looks at the file. -/
theorem unseen_save_is_discarded :
    ¬ system.Always UpdateLaw (opened none)
        [.saved (some ⟨⟨some [("theme", .str "dark")], 1⟩, 1⟩),
          .request (.update [("language", .str "en")]) (some 0) (.written 2 none none)] ∧
      ((system.run (opened none)
        [.saved (some ⟨⟨some [("theme", .str "dark")], 1⟩, 1⟩),
          .request (.update [("language", .str "en")]) (some 0)
            (.written 2 none none)]).bind fun service => service.file) =
        some ⟨.written [("language", .str "en")], 2⟩ := by
  constructor
  · intro always
    have final := (always.2 _ rfl).2 _ rfl
    have reads := final.kept ⟨some 0, some ⟨some [("theme", .str "dark")], 1⟩, []⟩
      List.mem_cons_self rfl
    exact absurd (reads _ rfl) (by decide)
  · decide

end ConfigService

end Ftre.Config
