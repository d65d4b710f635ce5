import ScriptLens.Proofs.Completion.Offers
import ScriptLens.Proofs.Markup.Angles
import ScriptLens.Proofs.Schema.Registration

/-!
Angle brackets in completion labels. The registry of a schema has the names of types and the
literals escaped, and a property is escaped where it is added to a path; but a property that begins
a label stands there as the schema names it. So a label has an angle bracket exactly if it begins
with a property whose name has one.
-/

namespace ScriptLens

open Markup

namespace TypeRegistry

theorem label_of_mem_resolve (registry : TypeRegistry) {context : PathContext} {label : Text}
    (h : label ∈ (registry.resolve context).keys) : registry.Label label := by
  obtain ⟨e, he, rfl⟩ := List.mem_map.1 h
  have hnamed : ∀ candidates : Candidates, (∀ d ∈ candidates.entries, registry.Label d.1) →
      ∀ d ∈ (registry.byName context.current candidates).entries, registry.Label d.1 := by
    intro candidates hcandidates d hd
    rw [entries_byName] at hd
    rcases List.mem_append.1 (mem_of_mem_firstOfEach (List.mem_of_mem_take hd)) with hd | hd
    · exact hcandidates d hd
    · exact registry.label_of_mem_offersNamed hd
  obtain ⟨previous, current⟩ := context
  cases previous with
  | nil =>
    by_cases hshort : current.length < leastFragment
    · simp only [resolve, hshort, if_true] at he
      cases he
    · simp only [resolve, hshort, if_false] at he
      refine hnamed ∅ (fun d hd => ?_) e he
      cases hd
  | cons c type =>
    by_cases hbrace : c = '\x7b'
    · simp only [resolve, hbrace, if_true] at he
      refine hnamed _ (fun d hd => ?_) e he
      rw [entries_literalCandidates] at hd
      exact registry.label_of_mem_offersLiterals (mem_of_mem_firstOfEach hd)
    · simp only [resolve, hbrace, if_false, entries_ofPrevious] at he
      exact registry.label_of_mem_offersAfter (mem_of_mem_firstOfEach (List.mem_of_mem_take he))

theorem resolve_of_completes (registry : TypeRegistry) {type : Text}
    (hcompletes : registry.completes type = true) (hbrace : type.head? ≠ some '\x7b')
    (current : Text) : registry.resolve ⟨type, current⟩ = registry.ofPrevious type := by
  cases type with
  | nil =>
    have hprimitive := registry.not_isPrimitive_of_completes hcompletes
    exact absurd rfl (ne_nil_of_not_isPrimitive hprimitive)
  | cons c type =>
    have hc : c ≠ '\x7b' := fun hc => hbrace (congrArg some hc)
    simp [resolve, hc]

theorem contains_resolve_or_isFull (registry : TypeRegistry) {type p u : Text}
    (hcompletes : registry.completes type = true) (hbrace : type.head? ≠ some '\x7b')
    (hp : (p, u) ∈ registry.ownProperties type) (current : Text) :
    (registry.resolve ⟨type, current⟩).contains p = true ∨
      (registry.resolve ⟨type, current⟩).isFull = true := by
  obtain ⟨_, _, _, hname⟩ := (mem_ownProperties _).1 hp
  have hoffered : (p, type ++ '.' :: p) ∈ registry.offersAfter type := by
    rw [offersAfter, if_pos hcompletes]
    exact List.mem_flatMap.2 ⟨_, hp, List.mem_cons_self⟩
  rw [registry.resolve_of_completes hcompletes hbrace, ofPrevious_eq]
  exact Candidates.contains_addAll_or_isFull _ hoffered hname

end TypeRegistry

namespace SchemaIndex

variable (literals? : KeywordImport → Option (List Text)) (t : SchemaText)

theorem angleFree_of_registers {key : Text} (h : Registers literals? t key) : AngleFree key := by
  cases h with
  | boolean => decide
  | keyword => exact angleFree_escapeAngles _
  | imported => exact angleFree_escapeAngles _
  | datatype => exact angleFree_escapeAngles _

theorem Describes.angleFree_literal {key literal : Text} {entry : TypeEntry}
    (h : Describes literals? t key entry) (hliteral : literal ∈ entry.literals) :
    AngleFree literal := by
  rw [h.literals, mem_distinct, literalsFor, List.mem_append, List.mem_flatMap] at hliteral
  rcases hliteral with ⟨k, -, hliteral⟩ | hliteral
  · obtain ⟨_, -, rfl⟩ := List.mem_map.1 hliteral
    exact angleFree_escapeAngles _
  · have hfixed : ∀ literal ∈ booleanLiterals, AngleFree literal := by
      decide
    unfold fixedLiterals at hliteral
    split at hliteral
    next => exact hfixed literal hliteral
    next => cases hliteral

theorem angleFree_of_completes {type : Text}
    (h : (registryOf literals? t).completes type = true) : AngleFree type := by
  rw [TypeRegistry.completes, Bool.and_eq_true, OrderedMap.contains_iff,
    mem_keys_registryOf_iff] at h
  exact angleFree_of_registers literals? t h.1

theorem exists_of_mem_ownProperties {type p u : Text}
    (h : (p, u) ∈ (registryOf literals? t).ownProperties type) :
    ∃ property ∈ propertiesFor t type, property.name = p := by
  obtain ⟨entry, hentry, hp, -⟩ := (TypeRegistry.mem_ownProperties _).1 h
  have hkey : p ∈ entry.properties.keys := List.mem_map_of_mem hp
  rw [(describes_of_get? literals? t type hentry).properties, mem_distinct] at hkey
  exact List.mem_map.1 hkey

theorem exists_mem_ownProperties {type : Text} {property : SchemaProperty}
    (hcompletes : (registryOf literals? t).completes type = true)
    (hproperty : property ∈ propertiesFor t type) (hname : isPrimitive property.name = false) :
    ∃ u, (property.name, u) ∈ (registryOf literals? t).ownProperties type := by
  rw [TypeRegistry.completes, Bool.and_eq_true, OrderedMap.contains, Option.isSome_iff_exists]
    at hcompletes
  obtain ⟨⟨entry, hentry⟩, -⟩ := hcompletes
  have hkey : property.name ∈ entry.properties.keys := by
    rw [(describes_of_get? literals? t type hentry).properties, mem_distinct]
    exact List.mem_map_of_mem hproperty
  obtain ⟨⟨_, u⟩, hp, rfl⟩ := List.mem_map.1 hkey
  exact ⟨u, (TypeRegistry.mem_ownProperties _).2 ⟨entry, hentry, hp, hname⟩⟩

def BeginsWith (label property : Text) : Prop :=
  label = property ∨ property ++ ['.'] <+: label

theorem angleFree_of_beginsWith {label property : Text} (h : BeginsWith label property)
    (hlabel : AngleFree label) : AngleFree property := by
  rcases h with rfl | ⟨rest, rfl⟩
  · exact hlabel
  · exact (angleFree_append.1 (angleFree_append.1 hlabel).1).1

theorem angleFree_of_label {label : Text} (h : (registryOf literals? t).Label label)
    (hnames : ∀ key, ∀ property ∈ propertiesFor t key, BeginsWith label property.name →
      AngleFree property.name) : AngleFree label := by
  cases h with
  | literal hentry hliteral =>
    have hfree := (describes_of_get? literals? t _ hentry).angleFree_literal literals? t hliteral
    exact angleFree_append.2 ⟨hfree, by decide⟩
  | type hcompletes => exact angleFree_of_completes literals? t hcompletes
  | property hp =>
    obtain ⟨property, hproperty, rfl⟩ := exists_of_mem_ownProperties literals? t hp
    exact hnames _ property hproperty (.inl rfl)
  | nested hp hq =>
    obtain ⟨property, hproperty, rfl⟩ := exists_of_mem_ownProperties literals? t hp
    have hfree := hnames _ property hproperty (.inr ⟨_, List.append_assoc _ _ _⟩)
    exact angleFree_append.2
      ⟨hfree, angleFree_cons.2 ⟨by decide, angleFree_escapeAngles _⟩⟩
  | inherited hcompletes hq =>
    exact angleFree_append.2 ⟨angleFree_of_completes literals? t hcompletes,
      angleFree_cons.2 ⟨by decide, angleFree_escapeAngles _⟩⟩

/-- The names of types and their literals are free of angle brackets, and any label that completes a
path is free of them exactly if the properties are whose names it begins with. A property can be the
exception: after a type each is offered by its name as it stands, unless the limit is reached. -/
theorem angleFree_label_iff (uri : Option Text) (text : Text) :
    let registry := (build t uri text literals?).registry
    (∀ key entry, registry.get? key = some entry →
      AngleFree key ∧ ∀ literal ∈ entry.literals, AngleFree literal) ∧
    (∀ context, ∀ label ∈ (registry.resolve context).keys,
      (AngleFree label ↔
        ∀ key, ∀ property ∈ propertiesFor t key, BeginsWith label property.name →
          AngleFree property.name)) ∧
    ∀ type, registry.completes type = true → type.head? ≠ some '\x7b' →
      ∀ property ∈ propertiesFor t type, isPrimitive property.name = false → ∀ current,
        let offered := registry.resolve ⟨type, current⟩
        offered.contains property.name = true ∨ offered.isFull = true := by
  intro registry
  refine ⟨fun key entry hentry => ⟨?_, fun literal hliteral => ?_⟩,
    fun context label hlabel => ⟨fun hfree key property _ hbegins => ?_, fun hnames => ?_⟩, ?_⟩
  · have hkey : key ∈ registry.keys := by
      rw [← OrderedMap.contains_iff, OrderedMap.contains, hentry, Option.isSome_some]
    exact angleFree_of_registers literals? t ((mem_keys_registryOf_iff literals? t key).1 hkey)
  · exact (describes_of_get? literals? t key hentry).angleFree_literal literals? t hliteral
  · exact angleFree_of_beginsWith hbegins hfree
  · exact angleFree_of_label literals? t (registry.label_of_mem_resolve hlabel) hnames
  · intro type hcompletes hbrace property hproperty hname current
    obtain ⟨u, hp⟩ := exists_mem_ownProperties literals? t hcompletes hproperty hname
    exact registry.contains_resolve_or_isFull hcompletes hbrace hp current

def angledProperty : SchemaText :=
  .ofText "<s><datatype name=\"cc\"><property name=\"a&lt;b\"/></datatype></s>".toList

def angledRegistry : TypeRegistry :=
  (build angledProperty none [] fun _ => none).registry

theorem angledProperty_eq :
    angledProperty =
      ⟨[], [⟨"cc".toList, none, none, [⟨"a<b".toList, none, none⟩]⟩], angledProperty.spans⟩ := by
  decide +kernel

theorem angledProperty_begins_label :
    (∃ entry, angledRegistry.get? "cc".toList = some entry ∧
      AngleFree "cc".toList ∧ ∀ literal ∈ entry.literals, AngleFree literal) ∧
    ("a<b".toList ∈ (angledRegistry.resolve ⟨"cc".toList, []⟩).keys ∧
      (AngleFree "a<b".toList ↔
        ∀ key, ∀ property ∈ propertiesFor angledProperty key,
          BeginsWith "a<b".toList property.name → AngleFree property.name)) ∧
    angledRegistry.completes "cc".toList = true ∧ "cc".toList.head? ≠ some '\x7b' ∧
      ⟨"a<b".toList, none, none⟩ ∈ propertiesFor angledProperty "cc".toList ∧
        isPrimitive "a<b".toList = false ∧
          let offered := angledRegistry.resolve ⟨"cc".toList, []⟩
          offered.contains "a<b".toList = true ∨ offered.isFull = true := by
  have hlabel : "a<b".toList ∈ (angledRegistry.resolve ⟨"cc".toList, []⟩).keys := by
    rw [angledRegistry, angledProperty_eq]
    decide +kernel
  have hcompletes : angledRegistry.completes "cc".toList = true := by
    rw [angledRegistry, angledProperty_eq]
    decide +kernel
  have hproperty : ⟨"a<b".toList, none, none⟩ ∈ propertiesFor angledProperty "cc".toList := by
    rw [angledProperty_eq]
    decide +kernel
  obtain ⟨hregistered, hbegins, hoffered⟩ :=
    angleFree_label_iff (fun _ => none) angledProperty none []
  obtain ⟨entry, hentry⟩ : ∃ entry, angledRegistry.get? "cc".toList = some entry := by
    rw [TypeRegistry.completes, Bool.and_eq_true] at hcompletes
    exact Option.isSome_iff_exists.1 hcompletes.1
  exact ⟨⟨entry, hentry, hregistered _ entry hentry⟩, ⟨hlabel, hbegins _ _ hlabel⟩, hcompletes,
    by decide, hproperty, by decide,
    hoffered _ hcompletes (by decide) _ hproperty (by decide) []⟩

theorem angledProperty_offered_raw :
    (angledRegistry.resolve ⟨"cc".toList, []⟩).keys = ["a<b".toList] ∧
      ¬AngleFree "a<b".toList := by
  rw [angledRegistry, angledProperty_eq]
  decide +kernel

end SchemaIndex

end ScriptLens
