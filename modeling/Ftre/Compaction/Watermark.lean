import Mathlib.Algebra.Order.Field.Rat
import Mathlib.Algebra.Order.Field.Basic
import Mathlib.Tactic.Positivity
import Ftre.Compaction.TrimLaw

/-!
The watermark that decides whether a session is compacted.
-/

namespace Ftre.Compaction

open Lib Message Session FoldState

/-- The numbers of the model and of the compaction that the decision reads. -/
structure ContextBudget where
  contextWindow : Option Int
  maxOutput : Option Int
  safetyBuffer : Int

/-- `prompt_budget`, of a window that counts. -/
def ContextBudget.prompt (budget : ContextBudget) (window : Int) : Int :=
  window - max 0 (budget.maxOutput.getD 0) - max 0 budget.safetyBuffer

/-- `get_token_usage`: the watermark of the view of a history. -/
def tokenUsage (history : List Msg) : UsageReport := computeTokenUsage (buildContextView history)

def shouldCompact (budget : ContextBudget) (threshold : ℚ) (extraTokens : Int)
    (history : List Msg) : Bool :=
  match budget.contextWindow with
  | none => false
  | some window =>
      if window ≤ 0 then false
      else if budget.prompt window ≤ 0 then true
      else
        let estimated := (tokenUsage history).contextTokens + max 0 extraTokens
        if estimated ≤ 0 then false
        else decide (threshold ≤ (estimated : ℚ) / (budget.prompt window : ℚ))

def measure (message : Msg) : String × Option TokenUsage := (message.id, callUsage message)

def anchorOf (view : List Msg) : Option (TokenUsage × List String) :=
  (findLastCallUsage view).map fun found => (found.1, found.2.map Msg.id)

def lastMeasured : List (String × Option TokenUsage) → Option (TokenUsage × List String)
  | [] => none
  | (_, usage) :: rest =>
      match lastMeasured rest with
      | some found => some found
      | none => usage.map fun usage => (usage, rest.map Prod.fst)

theorem anchorOf_eq (view : List Msg) : anchorOf view = lastMeasured (view.map measure) := by
  unfold anchorOf
  induction view with
  | nil => rfl
  | cons message rest ih =>
      rw [findLastCallUsage, List.map_cons, measure, lastMeasured, ← ih]
      cases findLastCallUsage rest with
      | some found => rfl
      | none =>
          rw [List.map_map]
          change Option.map _ (Option.map _ (callUsage message)) = _
          rw [Option.map_map]
          rfl

theorem anchorOf_congr {left right : List Msg} (same : left.map measure = right.map measure) :
    anchorOf left = anchorOf right := by
  rw [anchorOf_eq, anchorOf_eq, same]

theorem lastMeasured_append (measures : List (String × Option TokenUsage)) (id : String) :
    lastMeasured (measures ++ [(id, none)]) =
      (lastMeasured measures).map fun found => (found.1, found.2 ++ [id]) := by
  induction measures with
  | nil => rfl
  | cons first rest ih =>
      obtain ⟨own, usage⟩ := first
      rw [List.cons_append, lastMeasured, lastMeasured, ih]
      cases lastMeasured rest with
      | some found => rfl
      | none =>
          rw [List.map_append]
          change Option.map _ usage = Option.map _ (Option.map _ usage)
          rw [Option.map_map]
          rfl

variable {view : List Msg} {usage : TokenUsage} {behind : List String}

theorem anchorOf_append {last : Msg} (unmeasured : callUsage last = none) :
    anchorOf (view ++ [last]) =
      (anchorOf view).map fun found => (found.1, found.2 ++ [last.id]) := by
  rw [anchorOf_eq, anchorOf_eq, List.map_append, List.map_singleton, measure, unmeasured,
    lastMeasured_append]

theorem measure_view (history : List Msg) :
    (buildContextView history).map measure = (selectView history).map measure := by
  unfold buildContextView
  rw [List.map_map]
  rfl

theorem measure_bare {left right : List Msg} (same : left.map bare = right.map bare) :
    left.map measure = right.map measure := by
  have all := congrArg (List.map measure) same
  rw [List.map_map, List.map_map] at all
  exact all

theorem anchorOf_fast {fold : FoldState} {data : CompactData} (fast : data.mode = "fast")
    (seq time : Int) {id : String} (fresh : freshFor id fold.messages.items = true) :
    anchorOf (buildContextView (applyEvent fold (fastEvent seq time id data)).messages.items) =
      (anchorOf (buildContextView fold.messages.items)).map fun found =>
        (found.1, found.2 ++ [id]) := by
  obtain ⟨kept, selected, same⟩ := selectView_fast fast seq time fresh
  have before := anchorOf_congr (measure_view fold.messages.items)
  have after := anchorOf_congr
    (measure_view (applyEvent fold (fastEvent seq time id data)).messages.items)
  rw [after, before, selected, anchorOf_append rfl, anchorOf_congr (measure_bare same)]
  rfl

theorem anchored (anchor : anchorOf view = some (usage, behind)) :
    promptBase usage ≤ (computeTokenUsage view).contextTokens := by
  obtain ⟨⟨found, later⟩, place, same⟩ := Option.map_eq_some_iff.mp anchor
  cases same
  unfold computeTokenUsage
  rw [place]
  change promptBase found ≤ promptBase found + (estimateMessagesTokens later : Int)
  omega

/-! ### What a call changes -/

/-- A result that the call trims was part of the request that the last usage measured:
its message is not behind the one with the usage. The results of the message with the usage count
as measured, also while its turn is in progress and they came after the request. -/
def TrimsMeasured (keepTurns : Int) (view : List Msg) : Prop :=
  ∃ usage behind, anchorOf view = some (usage, behind) ∧
    ∃ message ∈ unprotected keepTurns view,
      (toolResults message).any isUntrimmed = true ∧ message.id ∉ behind

/-- The usage that the watermark starts from afterwards measured none of the outputs
that the call trimmed. -/
def SeesTrimming (keepTurns : Int) (before after : List Msg) : Prop :=
  ∀ usage behind, anchorOf after = some (usage, behind) →
    ∀ message ∈ unprotected keepTurns before, (toolResults message).any isUntrimmed = true →
      message.id ∈ behind

/-- One round: the mark of the call that trims gets the id. -/
structure TrimRound where
  keepTurns : Int
  seq : Int
  time : Int
  id : String

def trimRound (fold : FoldState) (round : TrimRound) : FoldState :=
  match compressFast fold.messages.items round.keepTurns with
  | none => fold
  | some data => applyEvent fold (fastEvent round.seq round.time round.id data)

/-- Each mark has an id of its own. -/
def FreshRounds : FoldState → List TrimRound → Prop
  | _, [] => True
  | fold, round :: rest =>
      freshFor round.id fold.messages.items = true ∧ FreshRounds (trimRound fold round) rest

theorem mem_unprotected {keepTurns : Int} {message : Msg}
    (within : message ∈ unprotected keepTurns view) : message ∈ view := by
  have active := List.mem_of_mem_take within
  cases view with
  | nil => exact active
  | cons first rest =>
      rw [headMessages] at active
      split at active
      · exact List.mem_cons_of_mem _ active
      · exact active

theorem fresh_view {id : String} {history : List Msg} (fresh : freshFor id history = true)
    {message : Msg} (present : message ∈ buildContextView history) : message.id ≠ id := by
  obtain ⟨original, selected, same⟩ := List.mem_map.mp present
  have own := List.all_eq_true.mp fresh original (mem_selectView selected)
  rw [Bool.and_eq_true, decide_eq_true_eq] at own
  rw [← same]
  exact own.1

theorem anchorOf_rounds {rounds : List TrimRound} {fold : FoldState}
    (fresh : FreshRounds fold rounds)
    (anchor : anchorOf (buildContextView fold.messages.items) = some (usage, behind)) :
    ∃ later, anchorOf (buildContextView (rounds.foldl trimRound fold).messages.items) =
      some (usage, later) := by
  induction rounds generalizing fold behind with
  | nil => exact ⟨behind, anchor⟩
  | cons round rest ih =>
      obtain ⟨own, others⟩ := fresh
      cases trims : compressFast fold.messages.items round.keepTurns with
      | none =>
          have same : trimRound fold round = fold := by
            unfold trimRound
            rw [trims]
          rw [same] at others
          rw [List.foldl_cons, same]
          exact ih others anchor
      | some data =>
          have moved : trimRound fold round =
              applyEvent fold (fastEvent round.seq round.time round.id data) := by
            unfold trimRound
            rw [trims]
          rw [moved] at others
          rw [List.foldl_cons, moved]
          have next := anchorOf_fast (compressFast_some trims).2.1 round.seq round.time own
          rw [anchor] at next
          exact ih others next

theorem shouldCompact_anchored {history : List Msg}
    (anchor : anchorOf (buildContextView history) = some (usage, behind)) {budget : ContextBudget}
    {window : Int} (given : budget.contextWindow = some window) (counts : 0 < window)
    {threshold : ℚ} (measured : 0 < promptBase usage)
    (past : threshold * budget.prompt window ≤ promptBase usage) (extraTokens : Int) :
    shouldCompact budget threshold extraTokens history = true := by
  have base := anchored anchor
  have extra : 0 ≤ max 0 extraTokens := le_max_left _ _
  unfold shouldCompact
  rw [given]
  dsimp only
  rw [if_neg (by omega)]
  by_cases spent : budget.prompt window ≤ 0
  · rw [if_pos spent]
  · rw [if_neg spent]
    change (if (tokenUsage history).contextTokens + max 0 extraTokens ≤ 0 then false else _) = _
    have total : promptBase usage ≤ (tokenUsage history).contextTokens + max 0 extraTokens := by
      change promptBase usage ≤ (computeTokenUsage (buildContextView history)).contextTokens + _
      omega
    rw [if_neg (by omega)]
    have room : (0 : ℚ) < (budget.prompt window : ℚ) := by
      exact_mod_cast Int.not_le.mp spent
    apply decide_eq_true
    rw [le_div_iff₀ room]
    calc threshold * (budget.prompt window : ℚ) ≤ (promptBase usage : ℚ) := past
      _ ≤ (((tokenUsage history).contextTokens + max 0 extraTokens : Int) : ℚ) := by
          exact_mod_cast total

/-- The watermark sees a trimming exactly where none of the trimmed outputs was in the measured
request; a session whose measured prompt is past the threshold stays past it. -/
theorem sees_trimming_iff {fold : FoldState} {keepTurns : Int} {data : CompactData}
    (trims : compressFast fold.messages.items keepTurns = some data) (seq time : Int)
    {id : String} (fresh : freshFor id fold.messages.items = true) :
    let after := applyEvent fold (fastEvent seq time id data)
    let view := buildContextView fold.messages.items
    (SeesTrimming keepTurns view (buildContextView after.messages.items) ↔
      ¬ TrimsMeasured keepTurns view) ∧
    ∀ usage behind, anchorOf view = some (usage, behind) → 0 < promptBase usage →
      ∀ (budget : ContextBudget) (window : Int) (threshold : ℚ),
        budget.contextWindow = some window → 0 < window →
        threshold * budget.prompt window ≤ promptBase usage →
        ∀ rounds extraTokens, FreshRounds after rounds →
          shouldCompact budget threshold extraTokens
            (rounds.foldl trimRound after).messages.items = true := by
  have anchors := anchorOf_fast (compressFast_some trims).2.1 seq time fresh
  refine ⟨?_, ?_⟩
  · constructor
    · rintro sees ⟨usage, behind, anchor, message, within, untrimmed, measured⟩
      rw [anchor] at anchors
      have listed := sees usage (behind ++ [id]) anchors message within untrimmed
      rcases List.mem_append.mp listed with before | own
      · exact measured before
      · exact fresh_view fresh (mem_unprotected within) (List.mem_singleton.mp own)
    · intro unmeasured usage behind anchor message within untrimmed
      rw [anchors] at anchor
      obtain ⟨⟨found, earlier⟩, place, same⟩ := Option.map_eq_some_iff.mp anchor
      cases same
      refine Classical.byContradiction fun outside => unmeasured ⟨found, earlier, place, message,
        within, untrimmed, fun listed => outside (List.mem_append_left _ listed)⟩
  · intro usage behind anchor measured budget window threshold given counts past rounds extra each
    rw [anchor] at anchors
    obtain ⟨later, kept⟩ := anchorOf_rounds each anchors
    exact shouldCompact_anchored kept given counts measured past extra

def measuredMessage : Msg :=
  { Msg.plain "a1" .assistant
      [.toolCall ⟨"c1", "read", .empty, .finished, "", none⟩,
        .toolResult ⟨"c1", "read", .plain "a long file", .success, .empty, "", none⟩,
        .text ⟨"done", "t1", "", none⟩] "" with
    token := some ⟨⟨900, 20, 920⟩, ⟨900, 20, 920⟩⟩ }

def measuredSession : FoldState :=
  foldEvents .empty
    [⟨1, 1, some "u1", .userMessage [.object [("type", .str "text"), ("text", .str "read it")]]
      .empty ""⟩,
     ⟨2, 2, some "a1", .assistantMessage measuredMessage⟩]

def smallWindow : ContextBudget where
  contextWindow := some 1000
  maxOutput := none
  safetyBuffer := 0

def measuredView : List Msg := buildContextView measuredSession.messages.items

theorem measured_session_trims :
    ∃ data, compressFast measuredSession.messages.items 0 = some data ∧
      (SeesTrimming 0 measuredView (buildContextView
          (applyEvent measuredSession (fastEvent 3 3 "m1" data)).messages.items) ↔
        ¬ TrimsMeasured 0 measuredView) := by
  have some : (compressFast measuredSession.messages.items 0).isSome = true := by
    decide
  obtain ⟨data, trims⟩ := Option.isSome_iff_exists.mp some
  have fresh : freshFor "m1" measuredSession.messages.items = true := by
    decide
  exact ⟨data, trims, (sees_trimming_iff trims 3 3 fresh).1⟩

/-- Nothing is left to trim and the view is small, but the session stays past the
threshold. -/
theorem trimmed_session_stays_past :
    let after := trimRound measuredSession ⟨0, 3, 3, "m1"⟩
    let view := buildContextView after.messages.items
    (compressFast measuredSession.messages.items 0).isSome = true ∧
      TrimsMeasured 0 measuredView ∧ ¬ SeesTrimming 0 measuredView view ∧
      trimmable 0 view = [] ∧ estimateMessagesTokens view = 88 ∧
      (tokenUsage after.messages.items).contextTokens = 951 ∧
      shouldCompact smallWindow (4 / 5) 0 after.messages.items = true := by
  have numbers : trimmable 0 (buildContextView
        (trimRound measuredSession ⟨0, 3, 3, "m1"⟩).messages.items) = [] ∧
      estimateMessagesTokens (buildContextView
        (trimRound measuredSession ⟨0, 3, 3, "m1"⟩).messages.items) = 88 ∧
      (tokenUsage (trimRound measuredSession ⟨0, 3, 3, "m1"⟩).messages.items).contextTokens =
        951 ∧
      shouldCompact smallWindow (4 / 5) 0
        (trimRound measuredSession ⟨0, 3, 3, "m1"⟩).messages.items = true ∧
      anchorOf (buildContextView
        (trimRound measuredSession ⟨0, 3, 3, "m1"⟩).messages.items) =
        some (⟨900, 20, 920⟩, ["m1"]) := by
    -- one evaluation of the marked history serves all of them
    decide +kernel
  obtain ⟨nothing, estimate, tokens, past, marked⟩ := numbers
  have anchor : anchorOf measuredView = some (⟨900, 20, 920⟩, []) := by
    decide
  have met : ((unprotected 0 measuredView).any fun message =>
      (toolResults message).any isUntrimmed && decide (message.id ∉ ["m1"])) = true := by
    decide
  obtain ⟨message, within, both⟩ := List.any_eq_true.mp met
  rw [Bool.and_eq_true, decide_eq_true_eq] at both
  refine ⟨by decide, ?_, ?_, nothing, estimate, tokens, past⟩
  · exact ⟨_, _, anchor, message, within, both.1, List.not_mem_nil⟩
  · intro sees
    exact both.2 (sees _ _ marked message within both.1)

end Ftre.Compaction
