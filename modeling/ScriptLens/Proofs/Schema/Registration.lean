import ScriptLens.Proofs.Types.Declared
import ScriptLens.Schema.Index

/-!
The types that a schema registers. Entries of the schema whose names are written alike inside
attributes share a registered type: it has the properties of them all, the supertype of its last
datatype that has one, and the literals that were imported for it.
-/

namespace ScriptLens

open Markup

namespace TypeFact

def ofEntry (supertypes : List (Option Text)) (properties : List SchemaProperty)
    (literals : List Text) : List TypeFact :=
  supertypes.map .supertype ++ (properties.map fun p => .property p.name p.type) ++
    literals.map .literal

section OfEntry

variable (supertypes : List (Option Text)) (ps : List SchemaProperty) (literals : List Text)

theorem filterMap_supertype?_ofEntry :
    (ofEntry supertypes ps literals).filterMap supertype? =
      supertypes.filterMap fun name => name.filter (· ≠ TypeEntry.baseType) := by
  simp only [ofEntry, List.filterMap_append, List.filterMap_map]
  have hproperties : ps.filterMap (supertype? ∘ fun p => .property p.name p.type) = [] :=
    List.filterMap_eq_nil_iff.2 fun p _ => rfl
  have hliterals : literals.filterMap (supertype? ∘ literal) = [] :=
    List.filterMap_eq_nil_iff.2 fun t _ => rfl
  rw [hproperties, hliterals, List.append_nil, List.append_nil]
  rfl

theorem filterMap_property?_ofEntry :
    (ofEntry supertypes ps literals).filterMap property? =
      ps.map fun p => (p.name, p.type.getD []) := by
  simp only [ofEntry, List.filterMap_append, List.filterMap_map]
  have hsupertypes : supertypes.filterMap (property? ∘ supertype) = [] :=
    List.filterMap_eq_nil_iff.2 fun name _ => rfl
  have hliterals : literals.filterMap (property? ∘ literal) = [] :=
    List.filterMap_eq_nil_iff.2 fun t _ => rfl
  rw [hsupertypes, hliterals, List.nil_append, List.append_nil, ← List.filterMap_eq_map]
  rfl

theorem filterMap_literal?_ofEntry :
    (ofEntry supertypes ps literals).filterMap literal? = literals := by
  simp only [ofEntry, List.filterMap_append, List.filterMap_map]
  have hsupertypes : supertypes.filterMap (literal? ∘ supertype) = [] :=
    List.filterMap_eq_nil_iff.2 fun name _ => rfl
  have hproperties : ps.filterMap (literal? ∘ fun p => .property p.name p.type) = [] :=
    List.filterMap_eq_nil_iff.2 fun p _ => rfl
  rw [hsupertypes, hproperties]
  exact List.filterMap_some

theorem ofEntry_ne_nil_iff :
    ofEntry supertypes ps literals ≠ [] ↔ supertypes ≠ [] ∨ ps ≠ [] ∨ literals ≠ [] := by
  simp only [ofEntry, ne_eq, List.append_eq_nil_iff, List.map_eq_nil_iff,
    Classical.not_and_iff_not_or_not, or_assoc]

end OfEntry

end TypeFact

namespace SchemaIndex

/-- A keyword with an import has no properties of its own. -/
def ownProperties (k : Keyword) : List SchemaProperty :=
  if k.source?.isSome then [] else k.properties

/-- A datatype without properties declares no supertype. -/
def ownSupertypes (d : Datatype) : List (Option Text) :=
  if d.properties.isEmpty then [] else [d.type]

def datatypeFacts (d : Datatype) : List TypeFact :=
  TypeFact.ofEntry (ownSupertypes d) d.properties []

section Declarations

variable (literals? : KeywordImport → Option (List Text))

/-- The literals that a keyword takes from elsewhere; none if its import fails. -/
def imported (k : Keyword) : List Text :=
  ((k.source?.bind literals?).getD []).map escapeAngles

def keywordFacts (k : Keyword) : List TypeFact :=
  TypeFact.ofEntry [] (ownProperties k) (imported literals? k)

def facts (t : SchemaText) : List (Text × TypeFact) :=
  (t.keywords.flatMap fun k => (keywordFacts literals? k).map fun f => (escapeAngles k.name, f)) ++
    (t.datatypes.flatMap fun d => (datatypeFacts d).map fun f => (escapeAngles d.name, f)) ++
      (TypeFact.ofEntry [] [] booleanLiterals).map fun f => ("boolean".toList, f)

theorem declareProperties_eq (key : Text) (ps : List SchemaProperty) (registry : TypeRegistry) :
    declareProperties key ps registry =
      registry.declareAll (ps.map fun p => (key, .property p.name p.type)) := by
  rw [TypeRegistry.declareAll, List.foldl_map]
  rfl

theorem declareLiterals_eq (key : Text) (ls : List Text) (registry : TypeRegistry) :
    declareLiterals key ls registry =
      registry.declareAll (ls.map fun literal => (key, .literal literal)) := by
  rw [TypeRegistry.declareAll, List.foldl_map]
  rfl

theorem declareKeyword_eq (registry : TypeRegistry) (k : Keyword) :
    declareKeyword literals? registry k =
      registry.declareAll ((keywordFacts literals? k).map fun f => (escapeAngles k.name, f)) := by
  unfold declareKeyword keywordFacts ownProperties imported TypeFact.ofEntry
  cases k.source? with
  | none => simp [declareProperties_eq, Function.comp_def]
  | some source => simp [declareLiterals_eq, Function.comp_def]

theorem declareDatatype_eq (registry : TypeRegistry) (d : Datatype) :
    declareDatatype registry d =
      registry.declareAll ((datatypeFacts d).map fun f => (escapeAngles d.name, f)) := by
  unfold declareDatatype datatypeFacts ownSupertypes TypeFact.ofEntry
  obtain ⟨name, type, suffix, ps⟩ := d
  cases ps with
  | nil => rfl
  | cons p ps =>
    simp only [List.isEmpty_cons, Bool.false_eq_true, if_false, declareProperties_eq,
      List.map_append, List.map_map, List.map_nil, List.append_nil]
    rfl

theorem registryOf_eq (t : SchemaText) :
    registryOf literals? t = TypeRegistry.declareAll ∅ (facts literals? t) := by
  have hkeywords : ∀ registry, t.keywords.foldl (declareKeyword literals?) registry =
      registry.declareAll (t.keywords.flatMap fun k =>
        (keywordFacts literals? k).map fun f => (escapeAngles k.name, f)) := by
    intro registry
    rw [TypeRegistry.declareAll_flatMap]
    exact congrArg (t.keywords.foldl · registry)
      (funext fun registry => funext (declareKeyword_eq literals? registry))
  have hdatatypes : ∀ registry, t.datatypes.foldl declareDatatype registry =
      registry.declareAll (t.datatypes.flatMap fun d =>
        (datatypeFacts d).map fun f => (escapeAngles d.name, f)) := by
    intro registry
    rw [TypeRegistry.declareAll_flatMap]
    exact congrArg (t.datatypes.foldl · registry)
      (funext fun registry => funext (declareDatatype_eq registry))
  rw [facts, TypeRegistry.declareAll_append, TypeRegistry.declareAll_append, ← hkeywords,
    ← hdatatypes]
  exact declareLiterals_eq _ _ _

variable (t : SchemaText) (key : Text)

def keywordsFor : List Keyword :=
  t.keywords.filter fun k => escapeAngles k.name = key

def datatypesFor : List Datatype :=
  t.datatypes.filter fun d => escapeAngles d.name = key

def fixedLiterals : List Text :=
  if "boolean".toList = key then booleanLiterals else []

theorem under_facts :
    under key (facts literals? t) =
      (keywordsFor t key).flatMap (keywordFacts literals?) ++
        (datatypesFor t key).flatMap datatypeFacts ++
          TypeFact.ofEntry [] [] (fixedLiterals key) := by
  have hfixed : (if "boolean".toList = key then TypeFact.ofEntry [] [] booleanLiterals else []) =
      TypeFact.ofEntry [] [] (fixedLiterals key) := by
    unfold fixedLiterals
    split <;> rfl
  rw [facts, under_append, under_append, under_flatMap_pair, under_flatMap_pair, under_map_pair,
    hfixed]
  rfl

def propertiesFor : List SchemaProperty :=
  (keywordsFor t key).flatMap ownProperties ++ (datatypesFor t key).flatMap (·.properties)

/-- The supertypes that are declared for a name. Keywords declare none, and the root of all types is
none worth declaring. -/
def supertypesFor : List Text :=
  ((datatypesFor t key).flatMap ownSupertypes).filterMap fun name =>
    name.filter (· ≠ TypeEntry.baseType)

def literalsFor : List Text :=
  (keywordsFor t key).flatMap (imported literals?) ++ fixedLiterals key

/-- The names that a schema registers, as they are written inside attributes. -/
inductive Registers : Text → Prop
  | boolean : Registers "boolean".toList
  | keyword {k : Keyword} : k ∈ t.keywords → k.source? = none → k.properties ≠ [] →
      Registers (escapeAngles k.name)
  | imported {k : Keyword} {source : KeywordImport} {literals : List Text} : k ∈ t.keywords →
      k.source? = some source → literals? source = some literals → literals ≠ [] →
      Registers (escapeAngles k.name)
  | datatype {d : Datatype} : d ∈ t.datatypes → d.properties ≠ [] →
      Registers (escapeAngles d.name)

/-- The entry of a name holds what is declared for it: each property with its last type, the last
supertype, and each literal once. -/
structure Describes (entry : TypeEntry) : Prop where
  properties : entry.properties.keys = distinct ((propertiesFor t key).map (·.name))
  types : ∀ name, entry.properties.get? name =
    (((propertiesFor t key).filter (·.name = name)).getLast?).map fun p => p.type.getD []
  supertype : entry.supertype = (supertypesFor t key).getLast?
  literals : entry.literals = distinct (literalsFor literals? t key)

theorem describes_ofFacts :
    Describes literals? t key (.ofFacts (under key (facts literals? t))) := by
  have hproperties : (under key (facts literals? t)).filterMap TypeFact.property? =
      (propertiesFor t key).map fun p => (p.name, p.type.getD []) := by
    simp only [under_facts, List.filterMap_append, List.filterMap_flatMap, keywordFacts,
      datatypeFacts, TypeFact.filterMap_property?_ofEntry, propertiesFor, List.map_append,
      List.map_flatMap, List.map_nil, List.append_nil]
  have hsupertypes : (under key (facts literals? t)).filterMap TypeFact.supertype? =
      supertypesFor t key := by
    simp only [under_facts, List.filterMap_append, List.filterMap_flatMap, keywordFacts,
      datatypeFacts, TypeFact.filterMap_supertype?_ofEntry, supertypesFor, List.filterMap_nil,
      List.append_nil]
    simp
  have hliterals : (under key (facts literals? t)).filterMap TypeFact.literal? =
      literalsFor literals? t key := by
    simp only [under_facts, List.filterMap_append, List.filterMap_flatMap, keywordFacts,
      datatypeFacts, TypeFact.filterMap_literal?_ofEntry, literalsFor]
    simp
  constructor
  · rw [TypeEntry.keys_properties_ofFacts, hproperties, List.map_map]
    rfl
  · intro name
    rw [TypeEntry.get?_properties_ofFacts, hproperties, under, List.filter_map, List.map_map,
      List.getLast?_map]
    rfl
  · rw [TypeEntry.supertype_ofFacts, hsupertypes]
  · rw [TypeEntry.literals_ofFacts, hliterals]

theorem ownProperties_ne_nil_iff {k : Keyword} :
    ownProperties k ≠ [] ↔ k.source? = none ∧ k.properties ≠ [] := by
  unfold ownProperties
  cases k.source? <;> simp

theorem imported_ne_nil_iff {k : Keyword} :
    imported literals? k ≠ [] ↔
      ∃ source literals, k.source? = some source ∧ literals? source = some literals ∧
        literals ≠ [] := by
  unfold imported
  cases k.source? with
  | none => simp
  | some source => cases h : literals? source <;> simp [h]

theorem mem_keys_facts_iff :
    key ∈ (facts literals? t).map Prod.fst ↔ Registers literals? t key := by
  simp only [facts, List.map_append, List.mem_append, mem_map_fst_flatMap_pair, keywordFacts,
    datatypeFacts, TypeFact.ofEntry_ne_nil_iff, ownProperties_ne_nil_iff, imported_ne_nil_iff]
  constructor
  · rintro ((⟨k, hk, hfacts, rfl⟩ | ⟨d, hd, hfacts, rfl⟩) | hboolean)
    · rcases hfacts with hnone | ⟨hown, hproperties⟩ | ⟨source, literals, hsource, hread, hliterals⟩
      · exact absurd rfl hnone
      · exact .keyword hk hown hproperties
      · exact .imported hk hsource hread hliterals
    · refine .datatype hd fun hnone => ?_
      simp [ownSupertypes, hnone] at hfacts
    · obtain rfl : key = "boolean".toList := by
        obtain ⟨f, hf, rfl⟩ := List.mem_map.1 hboolean
        obtain ⟨fact, _, rfl⟩ := List.mem_map.1 hf
        rfl
      exact .boolean
  · rintro (_ | ⟨hk, hown, hproperties⟩ | ⟨hk, hsource, hread, hliterals⟩ | ⟨hd, hproperties⟩)
    · exact .inr List.mem_cons_self
    · exact .inl (.inl ⟨_, hk, .inr (.inl ⟨hown, hproperties⟩), rfl⟩)
    · exact .inl (.inl ⟨_, hk, .inr (.inr ⟨_, _, hsource, hread, hliterals⟩), rfl⟩)
    · exact .inl (.inr ⟨_, hd, .inr (.inl hproperties), rfl⟩)

theorem facts_of_failed {before after : List Keyword} {k : Keyword} {source : KeywordImport}
    (ht : t.keywords = before ++ k :: after) (hsource : k.source? = some source)
    (hfailed : literals? source = none) :
    facts literals? t = facts literals? { t with keywords := before ++ after } := by
  have hfacts : keywordFacts literals? k = [] := by
    simp [keywordFacts, TypeFact.ofEntry, ownProperties, imported, hsource, hfailed]
  simp [facts, ht, hfacts]

theorem mem_keys_registryOf_iff :
    key ∈ (registryOf literals? t).keys ↔ Registers literals? t key := by
  rw [registryOf_eq, TypeRegistry.keys_declareAll, mem_distinct]
  exact mem_keys_facts_iff literals? t key

theorem describes_of_get? {entry : TypeEntry}
    (h : (registryOf literals? t).get? key = some entry) : Describes literals? t key entry := by
  rw [registryOf_eq, TypeRegistry.get?_declareAll] at h
  obtain ⟨_, hfacts, rfl⟩ := Option.map_eq_some_iff.1 h
  obtain rfl := eq_of_nonempty? hfacts
  exact describes_ofFacts literals? t key

/-- A schema registers exactly the names of keywords with properties, of keywords whose import finds
literals and of datatypes with properties, and `boolean`; each has one entry, which holds what all
entries of the schema with its name declare. A failed import makes no difference to it. -/
theorem build_registers (uri : Option Text) (text : Text) :
    let registry := (build t uri text literals?).registry
    (registry.keys.Nodup ∧ ∀ key, key ∈ registry.keys ↔ Registers literals? t key) ∧
      (∀ key entry, registry.get? key = some entry → Describes literals? t key entry) ∧
        ∀ before k after source, t.keywords = before ++ k :: after → k.source? = some source →
          literals? source = none →
            registry =
              (build { t with keywords := before ++ after } uri text literals?).registry := by
  intro registry
  have hregistry : registry = TypeRegistry.declareAll ∅ (facts literals? t) :=
    registryOf_eq literals? t
  refine ⟨⟨registry.nodup, fun key => ?_⟩, fun key entry hentry => ?_, ?_⟩
  · rw [hregistry, TypeRegistry.keys_declareAll, mem_distinct]
    exact mem_keys_facts_iff literals? t key
  · rw [hregistry, TypeRegistry.get?_declareAll] at hentry
    obtain ⟨_, hfacts, rfl⟩ := Option.map_eq_some_iff.1 hentry
    obtain rfl := eq_of_nonempty? hfacts
    exact describes_ofFacts literals? t key
  · intro before k after source ht hsource hfailed
    rw [hregistry, facts_of_failed literals? t ht hsource hfailed]
    exact (registryOf_eq literals? _).symm

end Declarations

end SchemaIndex

end ScriptLens
