import ScriptLens.Proofs.Completion.Angles

/-!
References from the types of a schema to one another: the types of properties and the supertypes of
datatypes. An entry of the registry holds them as the schema writes them, but a datatype is found
only by its escaped name. So a reference leads to a datatype exactly if the datatype's name has no
angle bracket, and otherwise an expansion passes over it.
-/

namespace ScriptLens

open Markup

def TypeEntry.RefersTo (entry : TypeEntry) (type : Text) : Prop :=
  type ∈ entry.properties.values ∨ entry.supertype = some type

namespace TypeRegistry

variable (registry : TypeRegistry) {type : Text} {depth : Int}

/-- An expansion that goes deep enough adds the properties of the type, until it is full. -/
theorem contains_expandType_or_isFull (hcompletes : registry.completes type = true)
    (hdepth : depth ≤ 1) {p u : Text} (hp : (p, u) ∈ registry.ownProperties type) (path : Text)
    (seed : Candidates) :
    let expanded := registry.expandType path type seed depth
    expanded.contains (propertyLabel path p) = true ∨ expanded.isFull = true := by
  intro expanded
  obtain ⟨_, -, -, hname⟩ := registry.mem_ownProperties.1 hp
  have hprimitive : isPrimitive (propertyLabel path p) = false := by
    unfold propertyLabel
    split
    next => exact hname
    next => exact isPrimitive_of_mark (.inl rfl) (by simp)
  have hlabel : (propertyLabel path p, type ++ '.' :: p) ∈
      registry.typeLabels path type depth := by
    rw [registry.typeLabels_of_le hdepth, if_pos hcompletes]
    apply List.mem_append_left
    apply List.mem_append_right
    exact List.mem_flatMap.2 ⟨_, hp, List.mem_cons_self⟩
  have hexpanded : expanded = seed.addAll (registry.typeLabels path type depth) :=
    registry.expandType_eq_addAll path type seed depth
  rw [hexpanded]
  exact seed.contains_addAll_or_isFull hlabel hprimitive

theorem expandType_of_unknown (h : registry.get? type = none) (path : Text) (seed : Candidates)
    (depth : Int) : registry.expandType path type seed depth = seed := by
  have hnone : registry.typeLabels path type depth = [] := by
    rw [typeLabels, h]
    split <;> rfl
  rw [expandType_eq_addAll, hnone, Candidates.addAll_nil]

end TypeRegistry

namespace SchemaIndex

section References

variable (literals? : KeywordImport → Option (List Text)) (t : SchemaText)

/-- What a schema refers to from a name: the types of its properties, of several with one name that
of the last, and its last supertype. -/
inductive Refers (key : Text) : Text → Prop
  | property {p : SchemaProperty} {type : Text} :
      ((propertiesFor t key).filter (·.name = p.name)).getLast? = some p → p.type = some type →
        Refers key type
  | supertype {type : Text} : (supertypesFor t key).getLast? = some type → Refers key type

theorem exists_describes {key : Text} (h : propertiesFor t key ≠ [] ∨ supertypesFor t key ≠ []) :
    ∃ entry, (registryOf literals? t).get? key = some entry ∧ Describes literals? t key entry := by
  cases hentry : (registryOf literals? t).get? key with
  | some entry => exact ⟨entry, rfl, describes_of_get? literals? t key hentry⟩
  | none =>
    -- Without an entry nothing is declared, and a new entry holds no property and no supertype.
    rw [registryOf_eq, TypeRegistry.get?_declareAll, Option.map_eq_none_iff,
      nonempty?_eq_none_iff] at hentry
    have hnew := describes_ofFacts literals? t key
    rw [hentry] at hnew
    rcases h with h | h
    · obtain ⟨p, hp⟩ := List.exists_mem_of_ne_nil _ h
      have hname : p.name ∈ (TypeEntry.ofFacts []).properties.keys := by
        rw [hnew.properties, mem_distinct]
        exact List.mem_map_of_mem hp
      cases hname
    · have hlast := hnew.supertype
      rw [List.getLast?_eq_some_getLast h] at hlast
      cases hlast

theorem exists_refersTo {key type : Text} (h : Refers t key type) :
    ∃ entry, (registryOf literals? t).get? key = some entry ∧ entry.RefersTo type := by
  cases h with
  | @property p _ hlast htype =>
    have hp : p ∈ propertiesFor t key := (List.mem_filter.1 (List.mem_of_getLast? hlast)).1
    obtain ⟨entry, hentry, hdescribes⟩ :=
      exists_describes literals? t (.inl (List.ne_nil_of_mem hp))
    have hheld := hdescribes.types p.name
    rw [hlast, Option.map_some, htype, Option.getD_some] at hheld
    exact ⟨entry, hentry, .inl (List.mem_map_of_mem (OrderedMap.mem_entries_iff.2 hheld))⟩
  | supertype hlast =>
    have hsome : supertypesFor t key ≠ [] := by
      rintro hnone
      rw [hnone] at hlast
      cases hlast
    obtain ⟨entry, hentry, hdescribes⟩ := exists_describes literals? t (.inr hsome)
    exact ⟨entry, hentry, .inr (hdescribes.supertype.trans hlast)⟩

structure Reached (registry : TypeRegistry) (d : Datatype) : Prop where
  found : ∃ entry, registry.get? d.name = some entry
  expanded : ∀ path seed depth, depth ≤ 1 → isPrimitive d.name = false →
    ∀ p ∈ d.properties, isPrimitive p.name = false →
      let expanded := registry.expandType path d.name seed depth
      expanded.contains (TypeRegistry.propertyLabel path p.name) = true ∨ expanded.isFull = true

structure Missed (registry : TypeRegistry) (d : Datatype) : Prop where
  unknown : registry.get? d.name = none
  unexpanded : ∀ path seed depth, registry.expandType path d.name seed depth = seed

variable {t} {d : Datatype}

theorem reached_of_angleFree (hd : d ∈ t.datatypes) (hproperties : d.properties ≠ [])
    (hname : AngleFree d.name) : Reached (registryOf literals? t) d := by
  have hkey : escapeAngles d.name = d.name := escapeAngles_eq_iff.2 hname
  have hfound : (registryOf literals? t).contains d.name = true := by
    rw [OrderedMap.contains_iff, mem_keys_registryOf_iff]
    exact hkey ▸ Registers.datatype hd hproperties
  refine ⟨Option.isSome_iff_exists.1 hfound, fun path seed depth hdepth htype p hp hproperty => ?_⟩
  have hcompletes : (registryOf literals? t).completes d.name = true := by
    rw [TypeRegistry.completes, hfound, htype]
    rfl
  have hdeclared : p ∈ propertiesFor t d.name := by
    apply List.mem_append_right
    exact List.mem_flatMap.2 ⟨d, List.mem_filter.2 ⟨hd, decide_eq_true hkey⟩, hp⟩
  obtain ⟨u, hown⟩ := exists_mem_ownProperties literals? t hcompletes hdeclared hproperty
  exact TypeRegistry.contains_expandType_or_isFull _ hcompletes hdepth hown path seed

theorem missed_of_not_angleFree (hname : ¬AngleFree d.name) :
    Missed (registryOf literals? t) d := by
  have hunknown : (registryOf literals? t).get? d.name = none := by
    rw [← Option.not_isSome_iff_eq_none]
    intro hfound
    apply hname
    exact angleFree_of_registers literals? t
      ((mem_keys_registryOf_iff literals? t _).1 (OrderedMap.contains_iff.1 hfound))
  exact ⟨hunknown, TypeRegistry.expandType_of_unknown _ hunknown⟩

variable (t)

/-- Whatever refers to a datatype with properties has an entry that holds the reference as it is
written. The reference leads to the datatype if the datatype's name is free of angle brackets, and
to nothing if it is not. -/
theorem reference_reaches_iff (uri : Option Text) (text : Text) :
    let registry := (build t uri text literals?).registry
    ∀ d ∈ t.datatypes, d.properties ≠ [] →
      (∀ key, Refers t key d.name →
        ∃ entry, registry.get? key = some entry ∧ entry.RefersTo d.name) ∧
      (AngleFree d.name → Reached registry d) ∧ (¬AngleFree d.name → Missed registry d) := by
  intro registry d hd hproperties
  exact ⟨fun key => exists_refersTo literals? t, reached_of_angleFree literals? hd hproperties,
    missed_of_not_angleFree literals?⟩

end References

section AngledType

def angledType : SchemaText :=
  .ofText ("<s><datatype name=\"cc\"><property name=\"p\" type=\"a&lt;b\"/></datatype>".toList ++
    "<datatype name=\"a&lt;b\"><property name=\"q\" type=\"cc\"/></datatype></s>".toList)

def plainDatatype : Datatype :=
  ⟨"cc".toList, none, none, [⟨"p".toList, none, some "a<b".toList⟩]⟩

def angledDatatype : Datatype :=
  ⟨"a<b".toList, none, none, [⟨"q".toList, none, some "cc".toList⟩]⟩

theorem angledType_eq :
    angledType = ⟨[], [plainDatatype, angledDatatype], angledType.spans⟩ := by
  decide +kernel

theorem angledType_reaches_plain :
    let registry := (build angledType none [] fun _ => none).registry
    (plainDatatype ∈ angledType.datatypes ∧ plainDatatype.properties ≠ [] ∧
      Refers angledType "a&lt;b".toList "cc".toList ∧
        (∃ entry, registry.get? "a&lt;b".toList = some entry ∧ entry.RefersTo "cc".toList) ∧
          AngleFree plainDatatype.name ∧ Reached registry plainDatatype) ∧
    angledDatatype ∈ angledType.datatypes ∧ angledDatatype.properties ≠ [] ∧
      Refers angledType "cc".toList "a<b".toList ∧
        (∃ entry, registry.get? "cc".toList = some entry ∧ entry.RefersTo "a<b".toList) ∧
          ¬AngleFree angledDatatype.name ∧ Missed registry angledDatatype := by
  intro registry
  have hplain : plainDatatype ∈ angledType.datatypes := by
    rw [angledType_eq]
    exact List.mem_cons_self
  have hangled : angledDatatype ∈ angledType.datatypes := by
    rw [angledType_eq]
    exact List.mem_cons_of_mem _ List.mem_cons_self
  have htoPlain : Refers angledType "a&lt;b".toList "cc".toList := by
    rw [angledType_eq]
    exact @Refers.property _ _ ⟨"q".toList, none, some "cc".toList⟩ _ (by decide +kernel) rfl
  have htoAngled : Refers angledType "cc".toList "a<b".toList := by
    rw [angledType_eq]
    exact @Refers.property _ _ ⟨"p".toList, none, some "a<b".toList⟩ _ (by decide +kernel) rfl
  have hreaches := reference_reaches_iff (fun _ => none) angledType none []
  obtain ⟨hheldPlain, hreached, -⟩ := hreaches plainDatatype hplain (by decide)
  obtain ⟨hheldAngled, -, hmissed⟩ := hreaches angledDatatype hangled (by decide)
  exact ⟨⟨hplain, by decide, htoPlain, hheldPlain _ htoPlain, by decide, hreached (by decide)⟩,
    hangled, by decide, htoAngled, hheldAngled _ htoAngled, by decide, hmissed (by decide)⟩

theorem angledType_not_found :
    let registry := (build angledType none [] fun _ => none).registry
    (∃ d ∈ angledType.datatypes, d.name = "a<b".toList ∧ d.properties ≠ []) ∧
      (registry.get? "cc".toList).map (·.properties.entries) =
        some [("p".toList, "a<b".toList)] ∧
      registry.get? "a<b".toList = none ∧
      (registry.resolve ⟨"cc".toList, []⟩).keys = ["p".toList] := by
  rw [angledType_eq]
  decide +kernel

end AngledType

end SchemaIndex

end ScriptLens
