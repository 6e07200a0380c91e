import Ftre.Lib.KeyedList
import Ftre.Runtime.ToolPermission

/-!
What a tool is called with. The arguments of the model and the values of the runtime
context are merged by name; a name the model gives keeps the model's value.
-/

namespace Ftre.Runtime

open Lib

/-- JSON of the model, or a live object of the host. -/
inductive ToolValue (η : Type) where
  | json (value : Json)
  | host (object : η)
deriving DecidableEq

inductive ParameterKind where
  | positionalOnly
  | positionalOrKeyword
  | varPositional
  | keywordOnly
  | varKeyword
deriving DecidableEq, Repr

inductive ParameterDefault (η : Type) where
  | empty
  | plain (value : ToolValue η)
  /-- `Injected(key)`. -/
  | injected (key : String)
deriving DecidableEq

structure Parameter (η : Type) where
  name : String
  kind : ParameterKind
  default : ParameterDefault η
deriving DecidableEq

variable {η : Type}

def Parameter.takesKeyword (parameter : Parameter η) : Bool :=
  decide (parameter.kind = .positionalOrKeyword ∨ parameter.kind = .keywordOnly)

abbrev Signature (η : Type) := KeyedList (Parameter.name : Parameter η → String)

abbrev RuntimeContext (η : Type) := KeyedTable String (ToolValue η)

/-- `runtime_context.get(key)`. -/
def contextValue (context : RuntimeContext η) (key : String) : ToolValue η :=
  (context.find? key).getD (.json .null)

def injectParameter (context : RuntimeContext η) (values : KeyedTable String (ToolValue η))
    (parameter : Parameter η) : KeyedTable String (ToolValue η) :=
  match parameter.default with
  | .injected key => values.setDefault parameter.name (contextValue context key)
  | _ => values

def resolveInjections (signature : Signature η) (arguments : KeyedTable String Json)
    (context : RuntimeContext η) : KeyedTable String (ToolValue η) :=
  signature.items.foldl (injectParameter context) (arguments.mapValues .json)

/-- What a parameter holds in the body of the callable. -/
inductive Received (η : Type) where
  | value (value : ToolValue η)
  /-- The `Injected` object itself. -/
  | marker (key : String)
  | collected
deriving DecidableEq

def receivedDefault : ParameterDefault η → Option (Received η)
  | .empty => none
  | .plain value => some (.value value)
  | .injected key => some (.marker key)

/-- One parameter of `fn(**values)`; none is a missing argument. -/
def bindParameter (values : KeyedTable String (ToolValue η)) (parameter : Parameter η) :
    Option (Received η) :=
  match parameter.kind with
  | .varPositional => some .collected
  | .varKeyword => some .collected
  | .positionalOnly => receivedDefault parameter.default
  | _ =>
      match values.find? parameter.name with
      | some value => some (.value value)
      | none => receivedDefault parameter.default

def collectsKeywords (signature : Signature η) : Bool :=
  signature.items.any fun parameter => decide (parameter.kind = .varKeyword)

def takesName (signature : Signature η) (name : String) : Bool :=
  collectsKeywords signature ||
    signature.items.any fun parameter => parameter.takesKeyword && decide (parameter.name = name)

abbrev Bound (η : Type) := List (Parameter η × Received η)

def bindAll (values : KeyedTable String (ToolValue η)) : List (Parameter η) → Option (Bound η)
  | [] => some []
  | parameter :: rest =>
      (bindParameter values parameter).bind fun received =>
        (bindAll values rest).map ((parameter, received) :: ·)

/-- `fn(**values)`; none is the `TypeError` of a call that does not fit. -/
def bindCall (signature : Signature η) (values : KeyedTable String (ToolValue η)) :
    Option (Bound η) :=
  if values.keys.all (takesName signature) then bindAll values signature.items else none

/-- A visible tool; a definition without a callable has no signature. -/
structure ToolContribution (η : Type) where
  name : String
  callable : Option (Signature η)

/-- `ToolView.execute` with a context: what the tool's callable receives, if it is called. -/
def toolReceives (view : List (ToolContribution η)) (permissions : ToolPermissions)
    (call : ToolCall) (facts : ToolFacts) (context : RuntimeContext η) : Option (Bound η) :=
  match view.find? fun contribution => decide (contribution.name = call.name) with
  | none => none
  | some contribution =>
      if (permissions.execute call facts).2 then
        contribution.callable.bind fun signature =>
          bindCall signature
            (resolveInjections signature (ToolPermissions.givenArguments call facts) context)
      else none

def injectionFor (context : RuntimeContext η) (name : String) (parameter : Parameter η) :
    Option (ToolValue η) :=
  match parameter.default with
  | .injected key => if parameter.name = name then some (contextValue context key) else none
  | _ => none

variable (context : RuntimeContext η) (arguments : KeyedTable String Json)

theorem find?_injectParameter (values : KeyedTable String (ToolValue η)) (parameter : Parameter η)
    (name : String) :
    (injectParameter context values parameter).find? name =
      (values.find? name).or (injectionFor context name parameter) := by
  unfold injectParameter injectionFor
  cases parameter.default with
  | empty => exact (Option.or_none).symm
  | plain value => exact (Option.or_none).symm
  | injected key =>
      simp only
      rw [KeyedTable.find?_setDefault]
      by_cases same : parameter.name = name
      · subst same
        cases values.find? parameter.name <;> simp
      · cases values.find? name <;> simp [same]

theorem find?_foldl_inject (parameters : List (Parameter η))
    (values : KeyedTable String (ToolValue η)) (name : String) :
    (parameters.foldl (injectParameter context) values).find? name =
      (values.find? name).or (parameters.findSome? (injectionFor context name)) := by
  induction parameters generalizing values with
  | nil => exact (Option.or_none).symm
  | cons parameter rest ih =>
      rw [List.foldl_cons, ih, find?_injectParameter, List.findSome?_cons, Option.or_assoc]
      cases injectionFor context name parameter <;> rfl

theorem find?_resolve (signature : Signature η) (arguments : KeyedTable String Json)
    (context : RuntimeContext η) (name : String) :
    (resolveInjections signature arguments context).find? name =
      ((arguments.find? name).map ToolValue.json).or
        (signature.items.findSome? (injectionFor context name)) := by
  rw [resolveInjections, find?_foldl_inject, KeyedTable.find?_mapValues]

variable {signature : Signature η} {parameter : Parameter η}

theorem injection_of_mem {context : RuntimeContext η} {key : String}
    (member : parameter ∈ signature.items) (injected : parameter.default = .injected key) :
    signature.items.findSome? (injectionFor context parameter.name) =
      some (contextValue context key) := by
  have own : injectionFor context parameter.name parameter = some (contextValue context key) := by
    rw [injectionFor, injected]
    exact if_pos rfl
  cases found : signature.items.findSome? (injectionFor context parameter.name) with
  | none =>
      rw [List.findSome?_eq_none_iff.mp found parameter member] at own
      cases own
  | some value =>
      obtain ⟨other, present, given⟩ := List.exists_of_findSome?_eq_some found
      have named : other.name = parameter.name := by
        unfold injectionFor at given
        cases origin : other.default with
        | injected otherKey =>
            rw [origin] at given
            exact (Option.ite_none_right_eq_some.mp given).1
        | _ =>
            rw [origin] at given
            cases given
      have same : other = parameter := by
        have first := KeyedList.find?_of_mem present
        have second := KeyedList.find?_of_mem member
        rw [named] at first
        exact Option.some.inj (first.symm.trans second)
      rw [same, own] at given
      exact given.symm

theorem find?_injected (context : RuntimeContext η) {key : String}
    (member : parameter ∈ signature.items) (injected : parameter.default = .injected key) :
    (resolveInjections signature arguments context).find? parameter.name =
      some (((arguments.find? parameter.name).map ToolValue.json).getD
        (contextValue context key)) := by
  rw [find?_resolve, injection_of_mem member injected]
  cases arguments.find? parameter.name <;> rfl

/-! ### Calls that fit -/

/-- The names of the call fit the signature: those of the arguments, and those of the
parameters to inject. Nothing of this depends on a value. -/
structure Fits (signature : Signature η) (arguments : KeyedTable String Json) : Prop where
  given : ∀ name ∈ arguments.keys, takesName signature name = true
  injected : ∀ parameter ∈ signature.items, ∀ key, parameter.default = .injected key →
    takesName signature parameter.name = true
  complete : ∀ parameter ∈ signature.items, parameter.default = .empty →
    parameter.kind ≠ .positionalOnly ∧
      (parameter.takesKeyword = true → parameter.name ∈ arguments.keys)

theorem mem_keys_resolve (signature : Signature η) (arguments : KeyedTable String Json)
    (context : RuntimeContext η) (name : String) :
    name ∈ (resolveInjections signature arguments context).keys ↔
      name ∈ arguments.keys ∨
        ∃ parameter ∈ signature.items, ∃ key, parameter.default = .injected key ∧
          parameter.name = name := by
  rw [KeyedTable.mem_keys_iff, find?_resolve, KeyedTable.mem_keys_iff]
  cases arguments.find? name with
  | some value => exact iff_of_true rfl (Or.inl rfl)
  | none =>
      rw [Option.map_none, Option.none_or, List.findSome?_isSome_iff]
      constructor
      · rintro ⟨parameter, member, found⟩
        refine Or.inr ⟨parameter, member, ?_⟩
        unfold injectionFor at found
        cases origin : parameter.default with
        | injected key =>
            rw [origin] at found
            by_cases same : parameter.name = name
            · exact ⟨key, rfl, same⟩
            · simp [same] at found
        | _ =>
            rw [origin] at found
            cases found
      · rintro (given | ⟨parameter, member, key, origin, same⟩)
        · cases given
        · refine ⟨parameter, member, ?_⟩
          rw [injectionFor, origin]
          simp [same]

theorem bindAll_some {values : KeyedTable String (ToolValue η)} {parameters : List (Parameter η)}
    {bound : Bound η} (binds : bindAll values parameters = some bound) :
    bound.map Prod.fst = parameters ∧
      ∀ pair ∈ bound, bindParameter values pair.1 = some pair.2 := by
  induction parameters generalizing bound with
  | nil =>
      cases binds
      exact ⟨rfl, fun _pair present => absurd present List.not_mem_nil⟩
  | cons parameter rest ih =>
      obtain ⟨received, own, others⟩ := Option.bind_eq_some_iff.mp binds
      obtain ⟨tail, later, same⟩ := Option.map_eq_some_iff.mp others
      obtain ⟨names, values⟩ := ih later
      rw [← same]
      refine ⟨by rw [List.map_cons, names], ?_⟩
      intro pair present
      rcases List.mem_cons.mp present with first | behind
      · rw [first]
        exact own
      · exact values pair behind

theorem bindAll_isSome (values : KeyedTable String (ToolValue η))
    (parameters : List (Parameter η)) :
    (bindAll values parameters).isSome = true ↔
      ∀ parameter ∈ parameters, (bindParameter values parameter).isSome = true := by
  induction parameters with
  | nil => exact iff_of_true rfl fun _parameter present => absurd present List.not_mem_nil
  | cons parameter rest ih =>
      rw [List.forall_mem_cons, ← ih, bindAll]
      cases bindParameter values parameter with
      | none => simp
      | some received => simp

theorem bindParameter_isSome (context : RuntimeContext η) (member : parameter ∈ signature.items) :
    (bindParameter (resolveInjections signature arguments context) parameter).isSome = true ↔
      (parameter.default = .empty → parameter.kind ≠ .positionalOnly ∧
        (parameter.takesKeyword = true → parameter.name ∈ arguments.keys)) := by
  have keyword : (match (resolveInjections signature arguments context).find? parameter.name with
      | some value => some (Received.value value)
      | none => receivedDefault parameter.default).isSome = true ↔
      (parameter.default = .empty → parameter.name ∈ arguments.keys) := by
    cases origin : parameter.default with
    | injected key =>
        rw [find?_injected arguments context member origin]
        exact iff_of_true rfl nofun
    | plain value =>
        cases (resolveInjections signature arguments context).find? parameter.name with
        | some given => exact iff_of_true rfl nofun
        | none => exact iff_of_true rfl nofun
    | empty =>
        have keys := mem_keys_resolve signature arguments context parameter.name
        have only : parameter.name ∈ (resolveInjections signature arguments context).keys ↔
            parameter.name ∈ arguments.keys := by
          rw [keys]
          constructor
          · rintro (given | ⟨other, present, key, injected, same⟩)
            · exact given
            · have first := KeyedList.find?_of_mem present
              have second := KeyedList.find?_of_mem member
              rw [same] at first
              have equal : other = parameter := Option.some.inj (first.symm.trans second)
              rw [equal, origin] at injected
              cases injected
          · exact Or.inl
        rw [← only, KeyedTable.mem_keys_iff]
        cases (resolveInjections signature arguments context).find? parameter.name with
        | some given => exact iff_of_true rfl fun _ => rfl
        | none => exact iff_of_false nofun fun all => nomatch all rfl
  unfold bindParameter Parameter.takesKeyword
  cases kind : parameter.kind with
  | varPositional => exact iff_of_true rfl fun _ => ⟨nofun, fun takes => by simp at takes⟩
  | varKeyword => exact iff_of_true rfl fun _ => ⟨nofun, fun takes => by simp at takes⟩
  | positionalOnly =>
      cases parameter.default with
      | empty => exact iff_of_false nofun fun all => (all rfl).1 rfl
      | plain value => exact iff_of_true rfl nofun
      | injected key => exact iff_of_true rfl nofun
  | positionalOrKeyword =>
      rw [keyword]
      simp
  | keywordOnly =>
      rw [keyword]
      simp

theorem bindCall_isSome (signature : Signature η) (arguments : KeyedTable String Json)
    (context : RuntimeContext η) :
    (bindCall signature (resolveInjections signature arguments context)).isSome = true ↔
      Fits signature arguments := by
  unfold bindCall
  by_cases named : (resolveInjections signature arguments context).keys.all
      (takesName signature) = true
  · rw [if_pos named, bindAll_isSome]
    rw [List.all_eq_true] at named
    constructor
    · intro binds
      refine ⟨?_, ?_, ?_⟩
      · intro name given
        exact named name ((mem_keys_resolve signature arguments context name).mpr (Or.inl given))
      · intro parameter member key origin
        exact named _ ((mem_keys_resolve signature arguments context _).mpr
          (Or.inr ⟨parameter, member, key, origin, rfl⟩))
      · intro parameter member
        exact (bindParameter_isSome arguments context member).mp (binds parameter member)
    · intro fits parameter member
      exact (bindParameter_isSome arguments context member).mpr (fits.complete parameter member)
  · rw [if_neg named]
    apply iff_of_false nofun
    intro fits
    apply named
    rw [List.all_eq_true]
    intro name present
    rcases (mem_keys_resolve signature arguments context name).mp present with given | injected
    · exact fits.given name given
    · obtain ⟨parameter, member, key, origin, same⟩ := injected
      rw [← same]
      exact fits.injected parameter member key origin

def Isolated (context : RuntimeContext η) (bound : Bound η) : Prop :=
  ∀ pair ∈ bound, ∀ key, pair.1.default = .injected key →
    pair.2 = .value (contextValue context key)

def KeepsInjection (arguments : KeyedTable String Json) (context : RuntimeContext η)
    (parameter : Parameter η) : Prop :=
  ∀ key, parameter.default = .injected key → parameter.takesKeyword = true ∧
    ∀ value, arguments.find? parameter.name = some value →
      ToolValue.json value = contextValue context key

theorem bindParameter_injected (context : RuntimeContext η) {key : String}
    (member : parameter ∈ signature.items) (injected : parameter.default = .injected key) :
    bindParameter (resolveInjections signature arguments context) parameter =
        some (.value (contextValue context key)) ↔
      parameter.takesKeyword = true ∧ ∀ value, arguments.find? parameter.name = some value →
        ToolValue.json value = contextValue context key := by
  have given := find?_injected arguments context member injected
  have keyword : some (Received.value (((arguments.find? parameter.name).map ToolValue.json).getD
      (contextValue context key))) = some (.value (contextValue context key)) ↔
      ∀ value, arguments.find? parameter.name = some value →
        ToolValue.json value = contextValue context key := by
    cases arguments.find? parameter.name with
    | none => simp
    | some value => simp
  unfold bindParameter Parameter.takesKeyword
  cases kind : parameter.kind with
  | varPositional => simp
  | varKeyword => simp
  | positionalOnly =>
      rw [injected]
      simp [receivedDefault]
  | positionalOrKeyword =>
      simp only [given]
      rw [keyword]
      simp
  | keywordOnly =>
      simp only [given]
      rw [keyword]
      simp

theorem isolated_iff {arguments : KeyedTable String Json} {context : RuntimeContext η}
    {bound : Bound η}
    (binds : bindCall signature (resolveInjections signature arguments context) = some bound) :
    Isolated context bound ↔
      ∀ parameter ∈ signature.items, KeepsInjection arguments context parameter := by
  obtain ⟨_, all⟩ := Option.ite_none_right_eq_some.mp binds
  obtain ⟨names, values⟩ := bindAll_some all
  constructor
  · intro isolated parameter member key injected
    rw [← names] at member
    obtain ⟨pair, present, same⟩ := List.mem_map.mp member
    have held := values pair present
    subst same
    rw [isolated pair present key injected] at held
    exact (bindParameter_injected arguments context
      (by rw [← names]; exact List.mem_map_of_mem present) injected).mp held
  · intro keeps pair present key injected
    have member : pair.1 ∈ signature.items := by
      rw [← names]
      exact List.mem_map_of_mem present
    have held := values pair present
    rw [(bindParameter_injected arguments context member injected).mpr
      (keeps pair.1 member key injected)] at held
    exact (Option.some.inj held).symm

end Ftre.Runtime
