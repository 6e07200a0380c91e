import Mathlib.Logic.Relation

/-!
Computations on a state that may throw.
-/

namespace Ftre.Lib

/-- A computation on states `σ` that throws `ε` or returns `α`. -/
def Throwing (σ ε α : Type) : Type := σ → Except ε α × σ

namespace Throwing

variable {σ ε α β : Type}

def returns (value : α) : Throwing σ ε α := fun state => (.ok value, state)

def andThen (first : Throwing σ ε α) (second : α → Throwing σ ε β) : Throwing σ ε β :=
  fun state =>
    match first state with
    | (.ok value, after) => second value after
    | (.error thrown, after) => (.error thrown, after)

instance : Monad (Throwing σ ε) where
  pure := returns
  bind := andThen

def throws (thrown : ε) : Throwing σ ε α := fun state => (.error thrown, state)

def change (update : σ → σ) : Throwing σ ε Unit := fun state => (.ok (), update state)

def look : Throwing σ ε σ := fun state => (.ok state, state)

def catching (body : Throwing σ ε α) (handler : ε → Throwing σ ε α) : Throwing σ ε α :=
  fun state =>
    match body state with
    | (.ok value, after) => (.ok value, after)
    | (.error thrown, after) => handler thrown after

def ensuring (body : Throwing σ ε α) (cleanup : Throwing σ ε Unit) : Throwing σ ε α :=
  fun state =>
    match cleanup (body state).2 with
    | (.ok (), after) => ((body state).1, after)
    | (.error thrown, after) => (.error thrown, after)

def forEach (items : List β) (body : β → Throwing σ ε Unit) : Throwing σ ε Unit :=
  match items with
  | [] => returns ()
  | item :: rest => andThen (body item) fun _ => forEach rest body

def Keeps (related : σ → σ → Prop) (body : Throwing σ ε α) : Prop :=
  ∀ state, related state (body state).2

variable {state after : σ} {body : Throwing σ ε α}

theorem bind_of_ok {first : Throwing σ ε α} {second : α → Throwing σ ε β} {value : α}
    (returned : first state = (.ok value, after)) :
    (first >>= second) state = second value after := by
  change andThen first second state = _
  unfold andThen
  rw [returned]

theorem bind_of_error {first : Throwing σ ε α} {second : α → Throwing σ ε β} {thrown : ε}
    (threw : first state = (.error thrown, after)) :
    (first >>= second) state = (.error thrown, after) := by
  change andThen first second state = _
  unfold andThen
  rw [threw]

theorem catching_of_ok {handler : ε → Throwing σ ε α} {value : α}
    (returned : body state = (.ok value, after)) :
    catching body handler state = (.ok value, after) := by
  unfold catching
  rw [returned]

theorem catching_of_error {handler : ε → Throwing σ ε α} {thrown : ε}
    (threw : body state = (.error thrown, after)) :
    catching body handler state = handler thrown after := by
  unfold catching
  rw [threw]

theorem ensuring_of_ok {cleanup : Throwing σ ε Unit}
    (cleaned : cleanup (body state).2 = (.ok (), after)) :
    ensuring body cleanup state = ((body state).1, after) := by
  unfold ensuring
  rw [cleaned]

theorem ensuring_of_error {cleanup : Throwing σ ε Unit} {thrown : ε}
    (threw : cleanup (body state).2 = (.error thrown, after)) :
    ensuring body cleanup state = (.error thrown, after) := by
  unfold ensuring
  rw [threw]

section Keeps

variable {related : σ → σ → Prop}

theorem keeps_pure (reflexive : ∀ state, related state state) (value : α) :
    Keeps related (pure value : Throwing σ ε α) := reflexive

theorem keeps_throws (reflexive : ∀ state, related state state) (thrown : ε) :
    Keeps related (throws thrown : Throwing σ ε α) := reflexive

theorem keeps_look (reflexive : ∀ state, related state state) :
    Keeps related (look : Throwing σ ε σ) := reflexive

theorem keeps_change {update : σ → σ} (kept : ∀ state, related state (update state)) :
    Keeps related (change update : Throwing σ ε Unit) := kept

theorem Keeps.mono {weaker : σ → σ → Prop} {body : Throwing σ ε α} (kept : Keeps related body)
    (implied : ∀ before after, related before after → weaker before after) : Keeps weaker body :=
  fun state => implied state _ (kept state)

theorem Keeps.bind (transitive : ∀ first second third, related first second →
      related second third → related first third)
    {first : Throwing σ ε α} {second : α → Throwing σ ε β} (left : Keeps related first)
    (right : ∀ value, Keeps related (second value)) : Keeps related (first >>= second) := by
  intro state
  have reached := left state
  rcases outcome : first state with ⟨thrown | value, after⟩
  · rw [outcome] at reached
    rw [bind_of_error outcome]
    exact reached
  · rw [outcome] at reached
    rw [bind_of_ok outcome]
    exact transitive _ _ _ reached (right value after)

theorem Keeps.catching (transitive : ∀ first second third, related first second →
      related second third → related first third)
    {body : Throwing σ ε α} {handler : ε → Throwing σ ε α} (left : Keeps related body)
    (right : ∀ thrown, Keeps related (handler thrown)) :
    Keeps related (Throwing.catching body handler) := by
  intro state
  have reached := left state
  rcases outcome : body state with ⟨thrown | value, after⟩
  · rw [outcome] at reached
    rw [catching_of_error outcome]
    exact transitive _ _ _ reached (right thrown after)
  · rw [outcome] at reached
    rw [catching_of_ok outcome]
    exact reached

theorem Keeps.forEach (reflexive : ∀ state, related state state)
    (transitive : ∀ first second third, related first second →
      related second third → related first third)
    {body : β → Throwing σ ε Unit} (kept : ∀ item, Keeps related (body item)) (items : List β) :
    Keeps related (Throwing.forEach items body) := by
  induction items with
  | nil => exact reflexive
  | cons item rest ih =>
      have chained : Keeps related (body item >>= fun _ => Throwing.forEach rest body) :=
        Keeps.bind transitive (kept item) (fun _ => ih)
      exact chained

end Keeps

def Yields (property : α → Prop) (body : Throwing σ ε α) : Prop :=
  ∀ {state after value}, body state = (.ok value, after) → property value

section Yields

variable {property : α → Prop}

theorem yields_pure {value : α} (holds : property value) :
    Yields property (pure value : Throwing σ ε α) := by
  intro state after returned same
  cases same
  exact holds

theorem Yields.bind {first : Throwing σ ε β} {second : β → Throwing σ ε α}
    (right : ∀ value, Yields property (second value)) : Yields property (first >>= second) := by
  intro state after returned same
  rcases outcome : first state with ⟨thrown | value, between⟩
  · rw [bind_of_error outcome] at same
    cases same
  · rw [bind_of_ok outcome] at same
    exact right value same

theorem Yields.catching {body : Throwing σ ε α} {handler : ε → Throwing σ ε α}
    (left : Yields property body) (right : ∀ thrown, Yields property (handler thrown)) :
    Yields property (Throwing.catching body handler) := by
  intro state after returned same
  rcases outcome : body state with ⟨thrown | value, between⟩
  · rw [catching_of_error outcome] at same
    exact right thrown same
  · rw [catching_of_ok outcome] at same
    cases same
    exact left outcome

end Yields

end Throwing

end Ftre.Lib
