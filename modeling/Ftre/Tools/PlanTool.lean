import Mathlib.Logic.Function.Iterate
import Mathlib.Data.List.Forall2
import Ftre.Lib.JsonText
import Ftre.Session.UserContent

/-!
The plan tool. A plan lives in the metadata of its session.
-/

namespace Ftre.Tools

open Lib Session

inductive StepStatus where
  | pending
  | inProgress
  | completed
deriving DecidableEq, Repr

def StepStatus.name : StepStatus → String
  | .pending => "pending"
  | .inProgress => "in_progress"
  | .completed => "completed"

def validStatuses : List StepStatus := [.pending, .inProgress, .completed]

def StepStatus.ofName (name : String) : Option StepStatus :=
  validStatuses.find? fun status => status.name = name

structure PlanStep where
  id : String
  content : String
  status : StepStatus
deriving DecidableEq

structure Plan where
  goal : String
  raw : String
  steps : List PlanStep
deriving DecidableEq

/-- One step of `_normalize_steps`; what is no mapping is left out. -/
def normalizeStep (index : Nat) (step : Json) : Option PlanStep :=
  match step with
  | .object fields =>
      let id := ((Json.lookup "id" fields).getD (.int (index + 1))).toStr
      some {
        id := id
        content := ((Json.lookup "content" fields).getD (.str ("步骤 " ++ id))).toStr
        status := (((Json.lookup "status" fields).bind Json.asString?).bind
          StepStatus.ofName).getD .pending }
  | _ => none

def normalizeSteps (steps : List Json) : List PlanStep :=
  (steps.mapIdx normalizeStep).filterMap id

def StepStatus.mark : StepStatus → String
  | .completed => "[x]"
  | .inProgress => "[~]"
  | .pending => "[ ]"

def formatPlanResponse (heading : String) (plan : Plan) : String :=
  "\n".intercalate (heading :: ("目标：" ++ plan.goal) :: "步骤：" ::
    plan.steps.map fun step => "  " ++ step.status.mark ++ " " ++ step.id ++ ". " ++ step.content)

/-- The plan of a session, in the repository's memory and in the session's file. -/
structure PlanStore where
  memory : Option Plan
  written : Option Plan
deriving DecidableEq

variable (store : PlanStore) (requests : List (String × StepStatus))

/-- Any write of the session, whatever it is for, writes what memory holds. -/
def PlanStore.commit : PlanStore := { store with written := store.memory }

/-- `update_session_metadata` of the plan; when the file cannot be written it raises and
memory stays. -/
def updatePlanMetadata (plan : Option Plan) (writable : Bool) : Option PlanStore :=
  if writable then some ⟨plan, plan⟩ else none

inductive PlanReply where
  | error (text : String)
  | done (text : String)
  /-- The exception reaches the tool's caller, who reports it as a failed call. -/
  | raised
deriving DecidableEq, Repr

def PlanReply.failed : PlanReply → Bool
  | .done _ => false
  | _ => true

/-! ### Updating -/

def wanted (entry : Json) : Option (String × String) :=
  match entry with
  | .object fields =>
      let id := strip ((Json.lookup "id" fields).getD (.str "")).toStr
      let status := strip ((Json.lookup "status" fields).getD (.str "")).toStr
      if id = "" ∨ status = "" then none else some (id, status)
  | _ => none

def setStatus (id : String) (status : StepStatus) : List PlanStep → List PlanStep × Bool
  | [] => ([], false)
  | step :: rest =>
      if step.id = id then ({ step with status := status } :: rest, true)
      else
        let later := setStatus id status rest
        (step :: later.1, later.2)

/-- How the loop over the entries ends. -/
inductive UpdateEnd where
  | invalid (status : String)
  | applied (updated notFound : List String)

def applyUpdates (updated notFound : List String) (steps : List PlanStep) :
    List Json → List PlanStep × UpdateEnd
  | [] => (steps, .applied updated notFound)
  | entry :: rest =>
      match wanted entry with
      | none => applyUpdates updated notFound steps rest
      | some (id, text) =>
          match StepStatus.ofName text with
          | none => (steps, .invalid text)
          | some status =>
              let changed := setStatus id status steps
              if changed.2 then applyUpdates (updated ++ [id]) notFound changed.1 rest
              else applyUpdates updated (notFound ++ [id]) changed.1 rest

/-- `updates`, or the single entry that `step_id` and `status` stand for. -/
def updateList (updates : List Json) (stepId status : String) : Option (List Json) :=
  if updates ≠ [] then some updates
  else if strip stepId ≠ "" ∧ strip status ≠ "" then
    some [.object [("id", .str (strip stepId)), ("status", .str (strip status))]]
  else none

def reprStrings (texts : List String) : String := (Json.array (texts.map .str)).repr

def invalidText (status : String) : String :=
  "[error] status 必须是 " ++ "/".intercalate (validStatuses.map StepStatus.name) ++
    " 之一，收到: " ++ status

def unmatchedText (steps : List PlanStep) : String :=
  "[error] 未找到任何匹配的步骤。现有步骤: " ++ reprStrings (steps.map PlanStep.id)

def usageText : String :=
  "[error] action=update 需要 updates 数组或 step_id + status。\n" ++
    "单个更新：step_id + status\n" ++
    "批量更新：updates=[\x7b\"id\": \"2\", \"status\": \"completed\"\x7d, " ++
    "\x7b\"id\": \"3\", \"status\": \"in_progress\"\x7d]"

/-- The `update` action. The steps are changed in the repository's memory. -/
def planUpdate (store : PlanStore) (updates : List Json) (stepId status : String)
    (writable : Bool) : PlanReply × PlanStore :=
  match store.memory with
  | none => (.error "[error] 当前 session 没有 plan，请先使用 action=create 创建", store)
  | some plan =>
      match updateList updates stepId status with
      | none => (.error usageText, store)
      | some entries =>
          let (steps, ending) := applyUpdates [] [] plan.steps entries
          let changed : Plan := { plan with steps := steps }
          let live : PlanStore := { store with memory := some changed }
          match ending with
          | .invalid text => (.error (invalidText text), live)
          | .applied [] _ => (.error (unmatchedText steps), live)
          | .applied updated notFound =>
              match updatePlanMetadata (some changed) writable with
              | none => (.raised, live)
              | some stored =>
                  (.done (formatPlanResponse ("已更新步骤 " ++ reprStrings updated) changed ++
                    if notFound = [] then "" else "\n⚠ 未找到的步骤 id: " ++ reprStrings notFound),
                    stored)

def planCreate (store : PlanStore) (goal raw : String) (steps : List Json) (writable : Bool) :
    PlanReply × PlanStore :=
  if strip goal = "" then (.error "[error] action=create 时 goal 不能为空", store)
  else if steps = [] then (.error "[error] action=create 时 steps 不能为空", store)
  else
    let plan : Plan := ⟨strip goal, strip raw, normalizeSteps steps⟩
    match updatePlanMetadata (some plan) writable with
    | none => (.raised, store)
    | some stored => (.done (formatPlanResponse "已创建计划" plan), stored)

def incompleteText (steps : List PlanStep) : String :=
  s!"[error] 计划尚未全部完成，还有 {steps.length} 个步骤未完成：" ++
    "、".intercalate (steps.map fun step => String.ofList (step.content.toList.take 20)) ++
    "。请先用 action=update 更新这些步骤状态为 completed，再调用 complete。"

def planComplete (store : PlanStore) (writable : Bool) : PlanReply × PlanStore :=
  match store.memory with
  | none => (.error "[error] 当前 session 没有 plan", store)
  | some plan =>
      let incomplete := plan.steps.filter fun step => step.status ≠ .completed
      if incomplete ≠ [] then (.error (incompleteText incomplete), store)
      else
        match updatePlanMetadata none writable with
        | none => (.raised, store)
        | some stored =>
            (.done "计划已全部完成，已清除 plan 数据。\n你现在可以正常结束当前对话了。", stored)

theorem planCreate_failed {store : PlanStore} {goal raw : String} {steps : List Json}
    {writable : Bool} (failed : (planCreate store goal raw steps writable).1.failed = true) :
    (planCreate store goal raw steps writable).2 = store := by
  unfold planCreate at failed ⊢
  by_cases aimless : strip goal = ""
  · rw [if_pos aimless]
  · rw [if_neg aimless] at failed ⊢
    by_cases bare : steps = []
    · rw [if_pos bare]
    · rw [if_neg bare] at failed ⊢
      cases writable with
      | true => cases failed
      | false => rfl

theorem planComplete_cases (store : PlanStore) (writable : Bool) :
    (planComplete store writable).1.failed = true ∧ (planComplete store writable).2 = store ∨
      (planComplete store writable).2.memory = none ∧
        ∃ plan, store.memory = some plan ∧ ∀ step ∈ plan.steps, step.status = .completed := by
  unfold planComplete
  cases store.memory with
  | none => exact Or.inl ⟨rfl, rfl⟩
  | some plan =>
      dsimp only
      by_cases incomplete : (plan.steps.filter fun step => step.status ≠ .completed) ≠ []
      · rw [if_pos incomplete]
        exact Or.inl ⟨rfl, rfl⟩
      · rw [if_neg incomplete]
        cases writable with
        | false => exact Or.inl ⟨rfl, rfl⟩
        | true =>
            refine Or.inr ⟨rfl, plan, rfl, fun step present => ?_⟩
            have clear := List.filter_eq_nil_iff.mp (not_not.mp incomplete) step present
            simpa using clear

/-! ### What an update leaves -/

def faulty (entry : Json) : Bool :=
  match wanted entry with
  | none => false
  | some (_, text) => (StepStatus.ofName text).isNone

def request (entry : Json) : Option (String × StepStatus) :=
  (wanted entry).bind fun named => (StepStatus.ofName named.2).map fun status => (named.1, status)

def carriedOut (entries : List Json) : List (String × StepStatus) :=
  (entries.takeWhile fun entry => !faulty entry).filterMap request

def applySteps (requests : List (String × StepStatus)) (steps : List PlanStep) : List PlanStep :=
  requests.foldl (fun steps request => (setStatus request.1 request.2 steps).1) steps

def lastStatus (id : String) (requests : List (String × StepStatus)) : Option StepStatus :=
  ((requests.filter fun request => request.1 = id).getLast?).map Prod.snd

def Settles (requests : List (String × StepStatus)) (steps : List PlanStep) : Prop :=
  ∀ id step status, steps.find? (fun step => step.id = id) = some step →
    lastStatus id requests = some status → step.status = status

def StatusOnly (requests : List (String × StepStatus)) : List PlanStep → List PlanStep → Prop :=
  List.Forall₂ fun before after =>
    after = before ∨
      ∃ status, (before.id, status) ∈ requests ∧ after = { before with status := status }

theorem applySteps_nil : applySteps requests [] = [] := by
  induction requests with
  | nil => rfl
  | cons request rest ih => exact ih

theorem lastStatus_cons (id : String) (request : String × StepStatus)
    (rest : List (String × StepStatus)) :
    lastStatus id (request :: rest) =
      (lastStatus id rest).or (if request.1 = id then some request.2 else none) := by
  unfold lastStatus
  by_cases own : request.1 = id
  · rw [List.filter_cons_of_pos (by simpa using own), if_pos own, List.getLast?_cons]
    cases (rest.filter fun request => request.1 = id).getLast? with
    | none => rfl
    | some last => rfl
  · rw [List.filter_cons_of_neg (by simpa using own), if_neg own, Option.or_none]

theorem applySteps_cons (step : PlanStep) (rest : List PlanStep) :
    applySteps requests (step :: rest) =
      { step with status := (lastStatus step.id requests).getD step.status } ::
        applySteps (requests.filter fun request => request.1 ≠ step.id) rest := by
  induction requests generalizing step rest with
  | nil => rfl
  | cons request others ih =>
      rw [lastStatus_cons]
      change applySteps others (setStatus request.1 request.2 (step :: rest)).1 = _
      by_cases own : step.id = request.1
      · rw [setStatus, if_pos own, ih, if_pos own.symm,
          List.filter_cons_of_neg (by simp [own])]
        dsimp only
        cases lastStatus step.id others with
        | none => rfl
        | some status => rfl
      · have other : ¬ request.1 = step.id := fun same => own same.symm
        rw [setStatus, if_neg own, ih, if_neg other, Option.or_none,
          List.filter_cons_of_pos (by simpa using other)]
        rfl

theorem lastStatus_others (id own : String) (requests : List (String × StepStatus)) :
    lastStatus id (requests.filter fun request => request.1 ≠ own) =
      if id = own then none else lastStatus id requests := by
  unfold lastStatus
  rw [List.filter_filter]
  by_cases same : id = own
  · have none : (requests.filter fun request =>
        decide (request.1 = id) && decide (request.1 ≠ own)) = [] := by
      rw [List.filter_eq_nil_iff]
      intro request _
      simp [same]
    rw [none, if_pos same]
    rfl
  · have kept : (requests.filter fun request =>
        decide (request.1 = id) && decide (request.1 ≠ own)) =
        requests.filter fun request => request.1 = id := by
      apply List.filter_congr
      intro request _
      by_cases own' : request.1 = id
      · simp [own', same]
      · simp [own']
    rw [kept, if_neg same]

theorem applySteps_eq_iff (steps : List PlanStep) :
    applySteps requests steps = steps ↔ Settles requests steps := by
  induction steps generalizing requests with
  | nil =>
      rw [applySteps_nil]
      exact ⟨fun _ _ _ _ found => absurd found (by simp), fun _ => rfl⟩
  | cons step rest ih =>
      rw [applySteps_cons, List.cons.injEq, ih]
      constructor
      · rintro ⟨head, tail⟩ id found status place last
        rw [List.find?_cons] at place
        by_cases own : step.id = id
        · rw [decide_eq_true own] at place
          have same := Option.some.inj place
          subst same
          rw [own, last, Option.getD_some] at head
          exact (congrArg PlanStep.status head).symm
        · rw [decide_eq_false own] at place
          apply tail id found status place
          rw [lastStatus_others, if_neg fun same => own same.symm]
          exact last
      · intro settles
        constructor
        · cases last : lastStatus step.id requests with
          | none => rfl
          | some status =>
              have same := settles step.id step status (by simp) last
              rw [Option.getD_some, ← same]
        · intro id found status place last
          rw [lastStatus_others] at last
          by_cases own : id = step.id
          · rw [if_pos own] at last
            cases last
          · rw [if_neg own] at last
            apply settles id found status ?_ last
            rw [List.find?_cons, decide_eq_false fun same => own same.symm]
            exact place

theorem statusOnly_applySteps {requests listed : List (String × StepStatus)}
    (within : ∀ request ∈ requests, request ∈ listed) (steps : List PlanStep) :
    StatusOnly listed steps (applySteps requests steps) := by
  induction steps generalizing requests with
  | nil =>
      rw [applySteps_nil]
      exact .nil
  | cons step rest ih =>
      rw [applySteps_cons]
      refine .cons ?_ (ih fun request member => within request (List.mem_of_mem_filter member))
      cases last : lastStatus step.id requests with
      | none => exact Or.inl rfl
      | some status =>
          obtain ⟨found, newest, same⟩ := Option.map_eq_some_iff.mp last
          have member := List.mem_filter.mp (List.mem_of_getLast? newest)
          have own : found.1 = step.id := by simpa using member.2
          refine Or.inr ⟨status, ?_, rfl⟩
          rw [← own, ← same]
          exact within found member.1

/-! ### The loop -/

theorem entry_cases (entry : Json) :
    (wanted entry = none ∧ faulty entry = false ∧ request entry = none) ∨
    (∃ id text, wanted entry = some (id, text) ∧ StepStatus.ofName text = none ∧
      faulty entry = true) ∨
    (∃ id text status, wanted entry = some (id, text) ∧ StepStatus.ofName text = some status ∧
      faulty entry = false ∧ request entry = some (id, status)) := by
  unfold faulty request
  cases wanted entry with
  | none => exact Or.inl ⟨rfl, rfl, rfl⟩
  | some pair =>
      obtain ⟨id, text⟩ := pair
      rw [Option.bind_some]
      dsimp only
      cases known : StepStatus.ofName text with
      | none => exact Or.inr (Or.inl ⟨id, text, rfl, known, rfl⟩)
      | some status => exact Or.inr (Or.inr ⟨id, text, status, rfl, known, rfl, rfl⟩)

section Entries

variable {updated notFound : List String} {steps : List PlanStep} {entry : Json}
  {rest : List Json} {id text : String} {status : StepStatus}

theorem applyUpdates_skipped (named : wanted entry = none) :
    applyUpdates updated notFound steps (entry :: rest) =
      applyUpdates updated notFound steps rest := by
  rw [applyUpdates, named]

theorem applyUpdates_invalid (named : wanted entry = some (id, text))
    (unknown : StepStatus.ofName text = none) :
    applyUpdates updated notFound steps (entry :: rest) = (steps, .invalid text) := by
  rw [applyUpdates, named]
  dsimp only
  rw [unknown]

theorem applyUpdates_found (named : wanted entry = some (id, text))
    (known : StepStatus.ofName text = some status)
    (found : (setStatus id status steps).2 = true) :
    applyUpdates updated notFound steps (entry :: rest) =
      applyUpdates (updated ++ [id]) notFound (setStatus id status steps).1 rest := by
  rw [applyUpdates, named]
  dsimp only
  rw [known]
  dsimp only
  rw [if_pos found]

theorem applyUpdates_missing (named : wanted entry = some (id, text))
    (known : StepStatus.ofName text = some status)
    (missing : (setStatus id status steps).2 = false) :
    applyUpdates updated notFound steps (entry :: rest) =
      applyUpdates updated (notFound ++ [id]) (setStatus id status steps).1 rest := by
  rw [applyUpdates, named]
  dsimp only
  rw [known]
  dsimp only
  rw [missing]
  rfl

end Entries

theorem setStatus_missing {id : String} {status : StepStatus} {steps : List PlanStep}
    (missing : (setStatus id status steps).2 = false) : (setStatus id status steps).1 = steps := by
  induction steps with
  | nil => rfl
  | cons step rest ih =>
      rw [setStatus] at missing ⊢
      by_cases own : step.id = id
      · rw [if_pos own] at missing
        cases missing
      · rw [if_neg own] at missing ⊢
        exact congrArg (step :: ·) (ih missing)

theorem applyUpdates_steps (updated notFound : List String) (steps : List PlanStep)
    (entries : List Json) :
    (applyUpdates updated notFound steps entries).1 = applySteps (carriedOut entries) steps := by
  induction entries generalizing updated notFound steps with
  | nil => rfl
  | cons entry rest ih =>
      rw [carriedOut]
      rcases entry_cases entry with ⟨named, fine, nothing⟩ | ⟨id, text, named, unknown, wrong⟩ |
        ⟨id, text, status, named, known, fine, asked⟩
      · rw [applyUpdates_skipped named, List.takeWhile_cons_of_pos (by simp [fine]),
          List.filterMap_cons_none nothing]
        exact ih updated notFound steps
      · rw [applyUpdates_invalid named unknown, List.takeWhile_cons_of_neg (by simp [wrong])]
        rfl
      · rw [List.takeWhile_cons_of_pos (by simp [fine]), List.filterMap_cons_some asked]
        cases found : (setStatus id status steps).2 with
        | true =>
            rw [applyUpdates_found named known found]
            exact ih _ _ _
        | false =>
            rw [applyUpdates_missing named known found]
            exact ih _ _ _

theorem applyUpdates_applied (updated notFound : List String) (steps : List PlanStep)
    (entries : List Json) :
    (∃ found missing, (applyUpdates updated notFound steps entries).2 = .applied found missing) ↔
      ∀ entry ∈ entries, faulty entry = false := by
  induction entries generalizing updated notFound steps with
  | nil => exact ⟨fun _ _ absent => absurd absent List.not_mem_nil, fun _ => ⟨_, _, rfl⟩⟩
  | cons entry rest ih =>
      rw [List.forall_mem_cons]
      rcases entry_cases entry with ⟨named, fine, _⟩ | ⟨id, text, named, unknown, wrong⟩ |
        ⟨id, text, status, named, known, fine, _⟩
      · rw [applyUpdates_skipped named, ih, and_iff_right fine]
      · rw [applyUpdates_invalid named unknown, wrong]
        constructor
        · rintro ⟨_, _, same⟩
          cases same
        · intro both
          cases both.1
      · cases found : (setStatus id status steps).2 with
        | true => rw [applyUpdates_found named known found, ih, and_iff_right fine]
        | false => rw [applyUpdates_missing named known found, ih, and_iff_right fine]

theorem applyUpdates_unmatched {updated notFound missing : List String} {steps : List PlanStep}
    {entries : List Json}
    (ended : (applyUpdates updated notFound steps entries).2 = .applied [] missing) :
    updated = [] ∧ (applyUpdates updated notFound steps entries).1 = steps := by
  induction entries generalizing updated notFound steps with
  | nil =>
      cases ended
      exact ⟨rfl, rfl⟩
  | cons entry rest ih =>
      rcases entry_cases entry with ⟨named, _, _⟩ | ⟨id, text, named, unknown, _⟩ |
        ⟨id, text, status, named, known, _, _⟩
      · rw [applyUpdates_skipped named] at ended ⊢
        exact ih ended
      · rw [applyUpdates_invalid named unknown] at ended
        cases ended
      · cases found : (setStatus id status steps).2 with
        | true =>
            rw [applyUpdates_found named known found] at ended
            exact absurd (ih ended).1 (by simp)
        | false =>
            rw [applyUpdates_missing named known found] at ended ⊢
            rw [setStatus_missing found] at ended ⊢
            exact ih ended

/-! ### Atomic updates -/

def LaterSees (store : PlanStore) (plan : Option Plan) : Prop :=
  ∀ writes : Nat, (PlanStore.commit^[writes] store).memory = plan ∧
    (0 < writes → (PlanStore.commit^[writes] store).written = plan)

theorem commit_memory (writes : Nat) : (PlanStore.commit^[writes] store).memory = store.memory := by
  induction writes generalizing store with
  | zero => rfl
  | succ writes ih => exact ih store.commit

theorem laterSees_iff (plan : Option Plan) : LaterSees store plan ↔ store.memory = plan := by
  constructor
  · exact fun sees => (sees 0).1
  · intro held writes
    refine ⟨(commit_memory store writes).trans held, fun some => ?_⟩
    obtain ⟨earlier, count⟩ := Nat.exists_eq_succ_of_ne_zero (Nat.pos_iff_ne_zero.mp some)
    rw [count, Function.iterate_succ_apply']
    exact (commit_memory store earlier).trans held

/-- A failed update leaves the plan as it was, one that succeeds changes only the statuses of
the steps that it lists. -/
structure UpdateAtomic (store : PlanStore) (updates : List Json) (stepId status : String)
    (writable : Bool) : Prop where
  failed : (planUpdate store updates stepId status writable).1.failed = true →
    LaterSees (planUpdate store updates stepId status writable).2 store.memory
  succeeded : (planUpdate store updates stepId status writable).1.failed = false →
    ∃ plan entries steps, store.memory = some plan ∧
      updateList updates stepId status = some entries ∧
      LaterSees (planUpdate store updates stepId status writable).2
        (some { plan with steps := steps }) ∧
      StatusOnly (entries.filterMap request) plan.steps steps

/-- Each entry names a status and the session can be written, or what is carried out before
the first faulty entry leaves every step with the status it had. -/
def SafeUpdate (store : PlanStore) (updates : List Json) (stepId status : String)
    (writable : Bool) : Prop :=
  ∀ plan entries, store.memory = some plan → updateList updates stepId status = some entries →
    ((∀ entry ∈ entries, faulty entry = false) ∧ writable = true) ∨
      Settles (carriedOut entries) plan.steps

theorem updateAtomic_failed {store : PlanStore} {updates : List Json} {stepId status : String}
    {writable : Bool} {plan : Plan} {steps : List PlanStep} {reply : PlanReply}
    (held : store.memory = some plan) (failed : reply.failed = true)
    (outcome : planUpdate store updates stepId status writable =
      (reply, { store with memory := some { plan with steps := steps } })) :
    UpdateAtomic store updates stepId status writable ↔ steps = plan.steps := by
  constructor
  · intro atomic
    have seen := atomic.failed
    rw [outcome, laterSees_iff, held] at seen
    exact congrArg Plan.steps (Option.some.inj (seen failed))
  · intro same
    constructor
    · rw [outcome, laterSees_iff, held, same]
      exact fun _ => rfl
    · rw [outcome]
      intro done
      exact absurd (failed.symm.trans done) (by decide)

theorem updateAtomic_unchanged {store : PlanStore} {updates : List Json} {stepId status : String}
    {writable : Bool} {reply : PlanReply} (failed : reply.failed = true)
    (outcome : planUpdate store updates stepId status writable = (reply, store)) :
    UpdateAtomic store updates stepId status writable := by
  constructor
  · rw [outcome, laterSees_iff]
    exact fun _ => rfl
  · rw [outcome]
    intro done
    exact absurd (failed.symm.trans done) (by decide)

theorem updateAtomic_entries {store : PlanStore} {updates : List Json} {stepId status : String}
    {writable : Bool} {plan : Plan} {entries : List Json} (held : store.memory = some plan)
    (listed : updateList updates stepId status = some entries) :
    UpdateAtomic store updates stepId status writable ↔
      ((∀ entry ∈ entries, faulty entry = false) ∧ writable = true) ∨
        Settles (carriedOut entries) plan.steps := by
  have left := applyUpdates_steps [] [] plan.steps entries
  have stopped := applyUpdates_applied [] [] plan.steps entries
  have settled := applySteps_eq_iff (carriedOut entries) plan.steps
  have outcome : planUpdate store updates stepId status writable =
      planUpdate store updates stepId status writable := rfl
  conv at outcome => rhs; unfold planUpdate
  rw [held] at outcome
  dsimp only at outcome
  rw [listed] at outcome
  dsimp only at outcome
  rw [left] at outcome
  cases ending : (applyUpdates [] [] plan.steps entries).2 with
  | invalid text =>
      rw [ending] at outcome stopped
      have some : ¬ ∀ entry ∈ entries, faulty entry = false := fun fine => by
        obtain ⟨_, _, same⟩ := stopped.mpr fine
        cases same
      rw [updateAtomic_failed held rfl outcome, settled]
      exact ⟨Or.inr, fun either => either.resolve_left fun both => some both.1⟩
  | applied found missing =>
      rw [ending] at outcome stopped
      have fine := stopped.mp ⟨found, missing, rfl⟩
      cases found with
      | nil =>
          have same := (applyUpdates_unmatched ending).2
          rw [left] at same
          rw [updateAtomic_failed held rfl outcome]
          exact ⟨fun _ => Or.inr (settled.mp same), fun _ => same⟩
      | cons first others =>
          cases writable with
          | false =>
              rw [updateAtomic_failed held rfl outcome, settled]
              exact ⟨Or.inr, fun either => either.resolve_left fun both => absurd both.2 (by decide)⟩
          | true =>
              refine ⟨fun _ => Or.inl ⟨fine, rfl⟩, fun _ => ?_⟩
              constructor
              · rw [outcome]
                intro failed
                cases failed
              · intro _
                refine ⟨plan, entries, applySteps (carriedOut entries) plan.steps, held, listed,
                  ?_, ?_⟩
                · rw [outcome, laterSees_iff]
                  rfl
                · apply statusOnly_applySteps
                  intro request member
                  exact (List.takeWhile_sublist _).filterMap _ |>.subset member

def openStore : PlanStore :=
  let plan : Plan := ⟨"ship", "", [⟨"1", "build", .pending⟩, ⟨"2", "test", .pending⟩]⟩
  ⟨some plan, some plan⟩

def mixedUpdates : List Json :=
  [.object [("id", .str "1"), ("status", .str "completed")],
    .object [("id", .str "2"), ("status", .str "done")]]

end Ftre.Tools
