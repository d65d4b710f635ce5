import ScriptLens.Proofs.OrderedMap
import ScriptLens.Types.Registry

/-!
Registries that are filled by declarations, one after another. A name is registered if something is
declared of it, and its entry is made of what is declared of that name alone: the last supertype,
each property with its last type, and each literal once. So declarations of different names can
change places (`Reordered`) without a trace in any entry.
-/

namespace ScriptLens

inductive TypeFact where
  | supertype (name : Option Text)
  | literal (t : Text)
  | property (name : Text) (type : Option Text)
  deriving DecidableEq, Repr

namespace TypeFact

def addTo (entry : TypeEntry) : TypeFact → TypeEntry
  | supertype name => entry.setSupertype name
  | literal t => entry.addLiteral t
  | property name type => entry.addProperty name (type.getD [])

/-- A supertype that is worth following. -/
def supertype? : TypeFact → Option Text
  | supertype name => name.filter (· ≠ TypeEntry.baseType)
  | _ => none

def literal? : TypeFact → Option Text
  | literal t => some t
  | _ => none

def property? : TypeFact → Option (Text × Text)
  | property name type => some (name, type.getD [])
  | _ => none

end TypeFact

namespace TypeEntry

open TypeFact

def ofFacts (facts : List TypeFact) : TypeEntry :=
  facts.foldl addTo .new

theorem setSupertype_eq (entry : TypeEntry) (name : Option Text) :
    entry.setSupertype name =
      { entry with supertype := (name.filter (· ≠ baseType)).or entry.supertype } := by
  cases name with
  | none => rfl
  | some name => by_cases h : name = baseType <;> simp [setSupertype, Option.filter, h]

theorem supertype_addTo (entry : TypeEntry) (fact : TypeFact) :
    (addTo entry fact).supertype = fact.supertype?.or entry.supertype := by
  cases fact with
  | supertype name => rw [addTo, setSupertype_eq]; rfl
  | literal t => rfl
  | property name type => rfl

theorem literals_addTo (entry : TypeEntry) (fact : TypeFact) :
    (addTo entry fact).literals = fact.literal?.toList.foldl addNew entry.literals := by
  cases fact with
  | supertype name => rw [addTo, setSupertype_eq]; rfl
  | literal t => simp [addTo, addLiteral, literal?, addNew]
  | property name type => rfl

theorem properties_addTo (entry : TypeEntry) (fact : TypeFact) :
    (addTo entry fact).properties =
      OrderedMap.fill (fun _ type => type) entry.properties fact.property?.toList := by
  cases fact with
  | supertype name => rw [addTo, setSupertype_eq]; rfl
  | literal t => rfl
  | property name type => rfl

section Facts

variable (facts : List TypeFact)

theorem supertype_ofFacts :
    (ofFacts facts).supertype = (facts.filterMap supertype?).getLast? := by
  suffices h : ∀ entry : TypeEntry, (facts.foldl addTo entry).supertype =
      (facts.filterMap supertype?).getLast?.or entry.supertype by
    rw [ofFacts, h, new, Option.or_none]
  induction facts with
  | nil => intro entry; rfl
  | cons fact facts ih =>
    intro entry
    rw [List.foldl_cons, ih, supertype_addTo, List.filterMap_cons]
    cases fact.supertype? with
    | none => rfl
    | some name => rw [List.getLast?_cons]; cases (facts.filterMap supertype?).getLast? <;> rfl

theorem literals_ofFacts : (ofFacts facts).literals = distinct (facts.filterMap literal?) := by
  suffices h : ∀ entry : TypeEntry, (facts.foldl addTo entry).literals =
      (facts.filterMap literal?).foldl addNew entry.literals by
    rw [ofFacts, h]
    exact foldl_addNew_nil _
  induction facts with
  | nil => intro entry; rfl
  | cons fact facts ih =>
    intro entry
    rw [List.foldl_cons, ih, literals_addTo, List.filterMap_cons]
    cases fact.literal? <;> rfl

theorem properties_ofFacts :
    (ofFacts facts).properties =
      OrderedMap.fill (fun _ type => type) ∅ (facts.filterMap property?) := by
  suffices h : ∀ entry : TypeEntry, (facts.foldl addTo entry).properties =
      OrderedMap.fill (fun _ type => type) entry.properties (facts.filterMap property?) from h .new
  induction facts with
  | nil => intro entry; rfl
  | cons fact facts ih =>
    intro entry
    rw [List.foldl_cons, ih, properties_addTo, List.filterMap_cons]
    cases fact.property? <;> rfl

theorem keys_properties_ofFacts :
    (ofFacts facts).properties.keys = distinct ((facts.filterMap property?).map Prod.fst) := by
  rw [properties_ofFacts, OrderedMap.keys_fill_empty]

theorem get?_properties_ofFacts (name : Text) :
    (ofFacts facts).properties.get? name = (under name (facts.filterMap property?)).getLast? := by
  rw [properties_ofFacts, OrderedMap.get?_fill_last _ (f := id) fun _ _ => rfl, Option.map_id_apply]

end Facts

/-- An entry that holds what was declared: the last supertype, each property in the place of its
first declaration with the type of its last one, and each literal once. -/
structure Holds (entry : TypeEntry) (facts : List TypeFact) : Prop where
  supertype : entry.supertype = (facts.filterMap supertype?).getLast?
  properties : entry.properties.keys = distinct ((facts.filterMap property?).map Prod.fst)
  types : ∀ name, entry.properties.get? name =
    (under name (facts.filterMap property?)).getLast?
  literals : entry.literals = distinct (facts.filterMap literal?)

theorem holds_ofFacts (facts : List TypeFact) : (ofFacts facts).Holds facts :=
  ⟨supertype_ofFacts facts, keys_properties_ofFacts facts, get?_properties_ofFacts facts,
    literals_ofFacts facts⟩

end TypeEntry

namespace TypeRegistry

def declare (registry : TypeRegistry) (d : Text × TypeFact) : TypeRegistry :=
  match d.2 with
  | .supertype name => registry.declareType d.1 name
  | .literal t => registry.declareLiteral d.1 t
  | .property name type => registry.declareProperty d.1 name type

def declareAll (registry : TypeRegistry) (ds : List (Text × TypeFact)) : TypeRegistry :=
  ds.foldl declare registry

theorem declareAll_append (registry : TypeRegistry) (ds more : List (Text × TypeFact)) :
    registry.declareAll (ds ++ more) = (registry.declareAll ds).declareAll more :=
  List.foldl_append

theorem declareAll_flatMap {α : Type} (registry : TypeRegistry) (f : α → List (Text × TypeFact))
    (l : List α) :
    registry.declareAll (l.flatMap f) = l.foldl (fun registry a => registry.declareAll (f a))
      registry := by
  induction l generalizing registry with
  | nil => rfl
  | cons a l ih => rw [List.flatMap_cons, declareAll_append, ih, List.foldl_cons]

theorem declareAll_eq_fill (registry : TypeRegistry) (ds : List (Text × TypeFact)) :
    registry.declareAll ds =
      OrderedMap.fill (fun held fact => fact.addTo (held.getD .new)) registry ds := by
  induction ds generalizing registry with
  | nil => rfl
  | cons d ds ih =>
    obtain ⟨name, fact⟩ := d
    refine (ih _).trans ?_
    cases fact <;> rfl

theorem keys_declareAll (ds : List (Text × TypeFact)) :
    (declareAll ∅ ds).keys = distinct (ds.map Prod.fst) := by
  rw [declareAll_eq_fill, OrderedMap.keys_fill_empty]

theorem get?_declareAll (ds : List (Text × TypeFact)) (name : Text) :
    (declareAll ∅ ds).get? name = (nonempty? (under name ds)).map TypeEntry.ofFacts := by
  have hmade : ∀ (facts : List TypeFact) (entry : TypeEntry),
      facts.foldl (fun held fact => some (fact.addTo (held.getD .new))) (some entry) =
        some (facts.foldl TypeFact.addTo entry) := by
    intro facts
    induction facts with
    | nil => intro entry; rfl
    | cons fact facts ih => intro entry; exact ih _
  rw [declareAll_eq_fill, OrderedMap.get?_fill]
  cases under name ds with
  | nil => rfl
  | cons fact facts => exact hmade facts _

theorem get?_declareAll_congr {ds ds' : List (Text × TypeFact)} {name : Text}
    (h : under name ds' = under name ds) :
    (declareAll ∅ ds').get? name = (declareAll ∅ ds).get? name := by
  rw [get?_declareAll, get?_declareAll, h]

/-- Declarations list each name that they mention once, in the order in which it first comes up, and
register nothing else. The entry of a name holds what was declared of that name and is the same
whatever is declared of others; so it is the same when declarations of different names change
places. -/
theorem entries_by_name (ds : List (Text × TypeFact)) :
    (declareAll ∅ ds).keys = distinct (ds.map Prod.fst) ∧
      (∀ name ∉ ds.map Prod.fst, (declareAll ∅ ds).get? name = none) ∧
        (∀ name ∈ ds.map Prod.fst, ∃ entry, (declareAll ∅ ds).get? name = some entry ∧
          entry.Holds (under name ds)) ∧
          (∀ ds' name, under name ds' = under name ds →
            (declareAll ∅ ds').get? name = (declareAll ∅ ds).get? name) ∧
            ∀ ds', Reordered ds ds' → ∀ name,
              (declareAll ∅ ds').get? name = (declareAll ∅ ds).get? name := by
  refine ⟨keys_declareAll ds, fun name hname => ?_, fun name hname => ?_,
    fun ds' name h => get?_declareAll_congr h,
    fun ds' h name => get?_declareAll_congr (h.under_eq name)⟩
  · have hkey : name ∉ (declareAll ∅ ds).keys := by
      rwa [keys_declareAll, mem_distinct]
    rw [← OrderedMap.contains_iff, OrderedMap.contains] at hkey
    simpa using hkey
  · obtain ⟨fact, facts, hfacts⟩ := List.exists_cons_of_ne_nil (under_ne_nil hname)
    refine ⟨.ofFacts (under name ds), ?_, TypeEntry.holds_ofFacts _⟩
    rw [get?_declareAll, hfacts]
    rfl

def crossing : List (Text × TypeFact) :=
  [(['s'], .supertype (some ['c'])), (['k'], .literal ['s']), (['s'], .property ['h'] none),
    (['s'], .property ['n'] (some ['t'])), (['s'], .property ['h'] (some ['u'])),
    (['s'], .supertype (some TypeEntry.baseType))]

def crossed : List (Text × TypeFact) :=
  (['k'], .literal ['s']) :: (['s'], .supertype (some ['c'])) :: crossing.drop 2

theorem crossing_entries_by_name :
    ((declareAll ∅ crossing).keys = [['s'], ['k']] ∧
      ['c'] ∉ crossing.map Prod.fst ∧ (declareAll ∅ crossing).get? ['c'] = none) ∧
      (['s'] ∈ crossing.map Prod.fst ∧ ∃ entry, (declareAll ∅ crossing).get? ['s'] = some entry ∧
        entry.supertype = some ['c'] ∧ entry.properties.keys = [['h'], ['n']] ∧
          entry.properties.get? ['h'] = some ['u']) ∧
        Reordered crossing crossed ∧
          (declareAll ∅ crossed).get? ['s'] = (declareAll ∅ crossing).get? ['s'] := by
  obtain ⟨hkeys, hnone, hsome, -, hreordered⟩ := entries_by_name crossing
  have hmentioned : ['s'] ∈ crossing.map Prod.fst := by decide
  have hother : ['c'] ∉ crossing.map Prod.fst := by decide
  obtain ⟨entry, hentry, hholds⟩ := hsome ['s'] hmentioned
  have hswap : Reordered crossing crossed := .swap [] (crossing.drop 2) (by decide)
  refine ⟨⟨hkeys.trans (by decide), hother, hnone ['c'] hother⟩,
    ⟨hmentioned, entry, hentry, hholds.supertype.trans (by decide),
      hholds.properties.trans (by decide), (hholds.types ['h']).trans (by decide)⟩, hswap,
    hreordered crossed hswap ['s']⟩

end TypeRegistry

end ScriptLens
