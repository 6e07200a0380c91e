import Ftre.Lib.JsonObjects

/-!
Deep merge of a patch into a configuration. An object of the patch goes into the object it meets
and never takes a key away from it.
-/

namespace Ftre.Config

open Lib

abbrev Fields := List (String × Json)

mutual

def mergeValue (base : Option Json) : Json → Json
  | .object patch =>
      match base with
      | some (.object fields) => .object (deepMerge fields patch)
      | _ => .object patch
  | value => value

def deepMerge (base : Fields) : List (String × Json) → Fields
  | [] => base
  | (key, value) :: rest =>
      deepMerge (KeyedList.putItem Prod.fst (key, mergeValue (Json.lookup key base) value) base)
        rest

end

theorem mergeValue_into (fields : Fields) (patch : List (String × Json)) :
    mergeValue (some (.object fields)) (.object patch) = .object (deepMerge fields patch) := by
  rw [mergeValue]

theorem mergeValue_other {base : Option Json} (other : ¬ ∃ fields, base = some (.object fields))
    (patch : List (String × Json)) : mergeValue base (.object patch) = .object patch := by
  rw [mergeValue]
  intro fields same
  exact other ⟨fields, same⟩

theorem lookup_deepMerge {patch : List (String × Json)} (distinct : (patch.map Prod.fst).Nodup)
    (base : Fields) (key : String) :
    Json.lookup key (deepMerge base patch) =
      match Json.lookup key patch with
      | some value => some (mergeValue (Json.lookup key base) value)
      | none => Json.lookup key base := by
  induction patch generalizing base with
  | nil =>
      rw [deepMerge]
      rfl
  | cons head rest ih =>
      obtain ⟨own, value⟩ := head
      rw [List.map_cons, List.nodup_cons] at distinct
      rw [deepMerge, ih distinct.2, Json.lookup_putItem, Json.lookup]
      by_cases same : own = key
      · subst same
        have absent : Json.lookup own rest = none := by
          rw [← Option.not_isSome_iff_eq_none, Json.lookup_isSome]
          exact distinct.1
        rw [absent, if_pos rfl, if_pos rfl]
      · rw [if_neg same, if_neg same]

mutual

theorem distinct_mergeValue (base : Option Json)
    (own : ∀ value, base = some value → value.distinctKeys = true) :
    ∀ value : Json, value.distinctKeys = true → (mergeValue base value).distinctKeys = true
  | .object patch, distinct => by
      by_cases into : ∃ fields, base = some (.object fields)
      · obtain ⟨fields, rfl⟩ := into
        rw [mergeValue_into]
        exact distinct_deepMerge fields (own _ rfl) patch (Json.distinct_object.mp distinct).2
      · rw [mergeValue_other into]
        exact distinct
  | .null, _ => by rw [mergeValue] <;> first | rfl | nofun
  | .bool _, _ => by rw [mergeValue] <;> first | rfl | nofun
  | .int _, _ => by rw [mergeValue] <;> first | rfl | nofun
  | .float _, _ => by rw [mergeValue] <;> first | rfl | nofun
  | .str _, _ => by rw [mergeValue] <;> first | rfl | nofun
  | .array _, _ => by rw [mergeValue] <;> first | rfl | nofun

theorem distinct_deepMerge (base : Fields) (own : (Json.object base).distinctKeys = true) :
    ∀ patch : List (String × Json), (∀ field ∈ patch, field.2.distinctKeys = true) →
      (Json.object (deepMerge base patch)).distinctKeys = true
  | [], _ => by
      rw [deepMerge]
      exact own
  | (key, value) :: rest, each => by
      rw [deepMerge]
      apply distinct_deepMerge _ _ rest fun field member => each field (List.mem_cons_of_mem _ member)
      apply Json.distinct_putItem own
      apply distinct_mergeValue _ _ value (each _ List.mem_cons_self)
      intro found present
      exact Json.distinct_lookup own present

end

/-- `_deep_merge` of decoded objects. -/
def merged (base patch : Dict) : Dict :=
  ⟨deepMerge base.fields patch.fields,
    distinct_deepMerge base.fields base.distinct patch.fields (Json.distinct_object.mp patch.distinct).2⟩

/-! ### Values that replace what they are merged into -/

mutual

def covers (base : Option Json) : Json → Bool
  | .object patch =>
      match base with
      | some (.object fields) =>
          fields.all (fun field => (Json.lookup field.1 patch).isSome) && coversFields fields patch
      | _ => true
  | _ => true

def coversFields (fields : Fields) : List (String × Json) → Bool
  | [] => true
  | (key, value) :: rest => covers (Json.lookup key fields) value && coversFields fields rest

end

mutual

theorem mergeValue_alike (base : Option Json) :
    ∀ value : Json, value.distinctKeys = true → covers base value = true →
      (mergeValue base value).Alike value
  | .object patch, distinct, covering => by
      by_cases into : ∃ fields, base = some (.object fields)
      · obtain ⟨fields, rfl⟩ := into
        rw [mergeValue_into]
        rw [covers, Bool.and_eq_true] at covering
        obtain ⟨keys, values⟩ := Json.distinct_object.mp distinct
        have each := coversFields_alike fields patch values covering.2
        apply Json.alike_object
        intro key
        rw [lookup_deepMerge keys]
        cases found : Json.lookup key patch with
        | none =>
            dsimp only
            cases present : Json.lookup key fields with
            | none => exact Json.AlikeAt.refl _
            | some value =>
                have kept := List.all_eq_true.mp covering.1 _ (Json.mem_of_lookup present)
                rw [found] at kept
                cases kept
        | some value => exact each (key, value) (Json.mem_of_lookup found)
      · rw [mergeValue_other into]
        exact Json.Alike.refl _
  | .null, _, _ => by rw [mergeValue] <;> first | exact Json.Alike.refl _ | nofun
  | .bool _, _, _ => by rw [mergeValue] <;> first | exact Json.Alike.refl _ | nofun
  | .int _, _, _ => by rw [mergeValue] <;> first | exact Json.Alike.refl _ | nofun
  | .float _, _, _ => by rw [mergeValue] <;> first | exact Json.Alike.refl _ | nofun
  | .str _, _, _ => by rw [mergeValue] <;> first | exact Json.Alike.refl _ | nofun
  | .array _, _, _ => by rw [mergeValue] <;> first | exact Json.Alike.refl _ | nofun

theorem coversFields_alike (fields : Fields) :
    ∀ patch : List (String × Json), (∀ field ∈ patch, field.2.distinctKeys = true) →
      coversFields fields patch = true →
        ∀ field ∈ patch, (mergeValue (Json.lookup field.1 fields) field.2).Alike field.2
  | [], _, _ => nofun
  | (key, value) :: rest, each, covering => by
      rw [coversFields, Bool.and_eq_true] at covering
      intro field member
      rcases List.mem_cons.mp member with same | later
      · rw [same]
        exact mergeValue_alike _ value (each _ List.mem_cons_self) covering.1
      · exact coversFields_alike fields rest
          (fun field member => each field (List.mem_cons_of_mem _ member)) covering.2 field later

end

mutual

theorem covers_self : ∀ value : Json, value.distinctKeys = true → covers (some value) value = true
  | .object fields, distinct => by
      obtain ⟨keys, values⟩ := Json.distinct_object.mp distinct
      rw [covers, Bool.and_eq_true]
      refine ⟨?_, coversFields_self fields keys values fields fun _ member => member⟩
      rw [List.all_eq_true]
      intro field member
      rw [Json.lookup_of_mem keys member]
      rfl
  | .null, _ => by rw [covers] ; nofun
  | .bool _, _ => by rw [covers] ; nofun
  | .int _, _ => by rw [covers] ; nofun
  | .float _, _ => by rw [covers] ; nofun
  | .str _, _ => by rw [covers] ; nofun
  | .array _, _ => by rw [covers] ; nofun

theorem coversFields_self (fields : Fields) (keys : (fields.map Prod.fst).Nodup)
    (values : ∀ field ∈ fields, field.2.distinctKeys = true) :
    ∀ patch : List (String × Json), (∀ field ∈ patch, field ∈ fields) →
      coversFields fields patch = true
  | [], _ => by rw [coversFields]
  | (key, value) :: rest, within => by
      have present := within _ List.mem_cons_self
      rw [coversFields, Bool.and_eq_true, Json.lookup_of_mem keys present]
      exact ⟨covers_self value (values _ present),
        coversFields_self fields keys values rest fun field member =>
          within field (List.mem_cons_of_mem _ member)⟩

end

theorem covers_none (value : Json) : covers none value = true := by
  cases value <;> rw [covers] <;> rintro _ ⟨⟩

theorem coversFields_of_mem {fields : Fields} {patch : List (String × Json)}
    (each : ∀ field ∈ patch, covers (Json.lookup field.1 fields) field.2 = true) :
    coversFields fields patch = true := by
  induction patch with
  | nil => rw [coversFields]
  | cons head rest ih =>
      rw [coversFields, Bool.and_eq_true]
      exact ⟨each head List.mem_cons_self,
        ih fun field member => each field (List.mem_cons_of_mem _ member)⟩

theorem covers_put (dict : Dict) {key : String} {value : Decoded}
    (covering : covers (dict.lookup key) value.value = true) :
    covers (some (.object dict.fields)) (.object (dict.put key value).fields) = true := by
  rw [covers, Bool.and_eq_true]
  constructor
  · rw [List.all_eq_true]
    intro field member
    have present : (dict.lookup field.1).isSome = true :=
      Json.lookup_isSome.mpr (List.mem_map_of_mem member)
    change ((dict.put key value).lookup field.1).isSome = true
    rw [Dict.lookup_put]
    split
    · rfl
    · exact present
  · apply coversFields_of_mem
    intro field member
    have found := Json.lookup_of_mem (Json.distinct_object.mp (dict.put key value).distinct).1 member
    change (dict.put key value).lookup field.1 = some field.2 at found
    rw [Dict.lookup_put] at found
    by_cases same : key = field.1
    · rw [if_pos same] at found
      rw [← Option.some.inj found, ← same]
      exact covering
    · rw [if_neg same] at found
      change covers (dict.lookup field.1) field.2 = true
      rw [found]
      exact covers_self _ (Json.distinct_lookup dict.distinct found)

mutual

private theorem mergeValue_again (base : Option Json) :
    ∀ value : Json, value.distinctKeys = true →
      (mergeValue (some (mergeValue base value)) value).Alike (mergeValue base value)
  | .object patch, distinct => by
      by_cases into : ∃ fields, base = some (.object fields)
      · obtain ⟨fields, rfl⟩ := into
        obtain ⟨keys, values⟩ := Json.distinct_object.mp distinct
        have each := deepMerge_again fields patch values
        rw [mergeValue_into, mergeValue_into]
        apply Json.alike_object
        intro key
        rw [lookup_deepMerge keys, lookup_deepMerge keys]
        cases found : Json.lookup key patch with
        | none => exact Json.AlikeAt.refl _
        | some value => exact each (key, value) (Json.mem_of_lookup found)
      · rw [mergeValue_other into]
        exact mergeValue_alike _ _ distinct (covers_self _ distinct)
  | .null, _ | .bool _, _ | .int _, _ | .float _, _ | .str _, _ | .array _, _ => by
      simp only [mergeValue]
      exact Json.Alike.refl _

private theorem deepMerge_again (fields : Fields) :
    ∀ patch : List (String × Json), (∀ field ∈ patch, field.2.distinctKeys = true) →
      ∀ field ∈ patch,
        (mergeValue (some (mergeValue (Json.lookup field.1 fields) field.2)) field.2).Alike
          (mergeValue (Json.lookup field.1 fields) field.2)
  | [], _ => nofun
  | head :: rest, each => by
      intro field member
      rcases List.mem_cons.mp member with same | later
      · rw [same]
        exact mergeValue_again _ head.2 (each _ List.mem_cons_self)
      · exact deepMerge_again fields rest
          (fun field member => each field (List.mem_cons_of_mem _ member)) field later

end

/-- A patch that is merged again changes nothing. -/
theorem merged_again (base patch : Dict) :
    (Json.object (merged (merged base patch) patch).fields).Alike
      (.object (merged base patch).fields) := by
  have again := mergeValue_again (some (.object base.fields)) (.object patch.fields) patch.distinct
  rwa [mergeValue_into, mergeValue_into] at again

end Ftre.Config
