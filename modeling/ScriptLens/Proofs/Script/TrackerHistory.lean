import ScriptLens.Proofs.Script.TrackerRenaming

/-!
What a tracker answers after any history of replacements, renamings and clearings. A history alone
tells the records that a document has: those of its last replacement, under the names that later
renamings gave them (`TrackerChange.held?`). Each change keeps the tables in step with these lists,
so a tracker answers from them, and from nothing that came before the last replacement.
-/

namespace ScriptLens

/-- What an editor does to the table of one document. A table comes as the records it is made of,
whose names may have sigils. -/
inductive TrackerChange where
  | replace (uri : Text) (dialect : Dialect) (records : List (VariableKind × Text × Location))
  | rename (uri : Text) (kind : VariableKind) (old new : Text)
  | clear (uri : Text)
  deriving DecidableEq

structure DocumentRecords where
  dialect : Dialect
  records : List (VariableKind × Text × Location)
  deriving DecidableEq

namespace DocumentRecords

def locations (held : DocumentRecords) (kind : VariableKind) (name : Text) : List Location :=
  (held.records.filter fun r => r.1 = kind ∧ r.2.1 = name).map fun r => r.2.2

def renamed? (kind : VariableKind) (old new : Text) (r : VariableKind × Text × Location) :
    Option (VariableKind × Text × Location) :=
  if r.1 = kind ∧ r.2.1 = old then some (kind, new, r.2.2)
  else if r.1 = kind ∧ r.2.1 = new then none
  else some r

/-- A renaming of a name that is not recorded changes nothing, and any other one drops the records
that had the new name. -/
def rename (held : DocumentRecords) (kind : VariableKind) (old new : Text) : DocumentRecords :=
  if held.locations kind (bareName old) = [] then held
  else
    { held with records := held.records.filterMap (renamed? kind (bareName old) (bareName new)) }

end DocumentRecords

namespace TrackerChange

def onRecords (uri : Text) (held : Option DocumentRecords) : TrackerChange → Option DocumentRecords
  | .replace uri' dialect records =>
    if uri' = uri then some ⟨dialect, records.map VariableTable.bared⟩ else held
  | .rename uri' kind old new => if uri' = uri then held.map (·.rename kind old new) else held
  | .clear uri' => if uri' = uri then none else held

/-- The records of a document after a history, whose latest change comes first. -/
def held? (uri : Text) : List TrackerChange → Option DocumentRecords
  | [] => none
  | change :: earlier => change.onRecords uri (held? uri earlier)

/-- What the last replacement for a document brought, unless the document was cleared since. -/
def lastReplaced? (uri : Text) : List TrackerChange → Option DocumentRecords
  | [] => none
  | .replace uri' dialect records :: earlier =>
    if uri' = uri then some ⟨dialect, records⟩ else lastReplaced? uri earlier
  | .rename _ _ _ _ :: earlier => lastReplaced? uri earlier
  | .clear uri' :: earlier => if uri' = uri then none else lastReplaced? uri earlier

end TrackerChange

namespace VariableTracker

def change (tracker : VariableTracker) : TrackerChange → VariableTracker
  | .replace uri dialect records => tracker.replace uri (.ofRecords dialect records)
  | .rename uri kind old new => tracker.rename uri kind old new
  | .clear uri => tracker.clear uri

def after : List TrackerChange → VariableTracker
  | [] => ∅
  | change :: earlier => (after earlier).change change

end VariableTracker

/-! The records after a renaming. -/

namespace DocumentRecords

variable {held : DocumentRecords} {kind : VariableKind} {old new : Text}

theorem mem_locations {name : Text} {location : Location} :
    location ∈ held.locations kind name ↔ (kind, name, location) ∈ held.records := by
  simp [locations]

theorem rename_of_unused (new : Text) (h : held.locations kind (bareName old) = []) :
    held.rename kind old new = held :=
  if_pos h

theorem dialect_rename (held : DocumentRecords) (kind : VariableKind) (old new : Text) :
    (held.rename kind old new).dialect = held.dialect := by
  unfold rename
  split <;> rfl

theorem locations_rename_used (new : Text) (h : held.locations kind (bareName old) ≠ [])
    (kind' : VariableKind) (name : Text) :
    (held.rename kind old new).locations kind' name =
      if kind' = kind ∧ name = bareName new then held.locations kind (bareName old)
      else if kind' = kind ∧ name = bareName old then []
      else held.locations kind' name := by
  rw [rename, if_neg h]
  simp only [locations]
  induction held.records with
  | nil => simp
  | cons r records ih =>
    obtain ⟨k, n, location⟩ := r
    simp only [List.filterMap_cons, renamed?]
    grind

theorem sublist_rename (held : DocumentRecords) (kind : VariableKind) (old new : Text) :
    ((held.rename kind old new).records.map fun r => (r.1, r.2.2)).Sublist
      (held.records.map fun r => (r.1, r.2.2)) := by
  unfold rename
  split
  next => exact .refl _
  next =>
    dsimp only
    induction held.records with
    | nil => exact .slnil
    | cons r records ih =>
      rw [List.filterMap_cons, List.map_cons, renamed?]
      by_cases hold : r.1 = kind ∧ r.2.1 = bareName old
      · obtain ⟨rfl, -⟩ := id hold
        rw [if_pos hold]
        exact ih.cons_cons _
      by_cases hnew : r.1 = kind ∧ r.2.1 = bareName new
      · rw [if_neg hold, if_pos hnew]
        exact ih.cons _
      · rw [if_neg hold, if_neg hnew]
        exact ih.cons_cons _

end DocumentRecords

theorem cases_of_rel {α β : Type} {r : α → β → Prop} {a : Option α} {b : Option β}
    (h : Option.Rel r a b) :
    (a = none ∧ b = none) ∨ ∃ x y, a = some x ∧ b = some y ∧ r x y := by
  cases h with
  | none => exact .inl ⟨rfl, rfl⟩
  | some h => exact .inr ⟨_, _, rfl, rfl, h⟩

theorem under_under (kind : VariableKind) (name : Text)
    (records : List (VariableKind × Text × Location)) :
    under name (under kind records) =
      (records.filter fun r => r.1 = kind ∧ r.2.1 = name).map fun r => r.2.2 := by
  simp only [under, List.filter_map, List.map_map, List.filter_filter, Function.comp_def,
    Bool.decide_and, Bool.and_comm]

namespace VariableTable

/-- A table groups records by their kinds and names, each group in order. -/
structure Groups (table : VariableTable) (held : DocumentRecords) : Prop where
  dialect : table.dialect = held.dialect
  get? : ∀ kind name, table.get? kind name = nonempty? (held.locations kind name)

theorem groups_ofRecords (dialect : Dialect) (records : List (VariableKind × Text × Location)) :
    (ofRecords dialect records).Groups ⟨dialect, records.map bared⟩ where
  dialect := by rw [ofRecords_eq]
  get? kind name := by rw [get?_ofRecords, under_under, DocumentRecords.locations]

namespace Groups

variable {table : VariableTable} {held : DocumentRecords} (h : table.Groups held)

include h

protected theorem rename (kind : VariableKind) (old new : Text) :
    (table.rename kind old new).Groups (held.rename kind old new) := by
  refine ⟨?_, fun kind' name => ?_⟩
  · rw [VariableTable.dialect_rename, DocumentRecords.dialect_rename, h.dialect]
  · have hold := h.get? kind (bareName old)
    by_cases hunused : held.locations kind (bareName old) = []
    · rw [hunused] at hold
      rw [rename_of_unused new hold, DocumentRecords.rename_of_unused new hunused, h.get?]
    · obtain ⟨location, locations, hlocations⟩ := List.exists_cons_of_ne_nil hunused
      rw [hlocations] at hold
      rw [get?_rename_used new hold, DocumentRecords.locations_rename_used new hunused, hlocations]
      split
      next => rfl
      next =>
        split
        next => rfl
        next => exact h.get? kind' name

theorem get?_eq_some_iff {kind : VariableKind} {name : Text} {locations : List Location} :
    table.get? kind name = some locations ↔
      locations = held.locations kind name ∧ locations ≠ [] := by
  rw [h.get?]
  cases hheld : held.locations kind name with
  | nil => simp [nonempty?]
  | cons location more => grind [nonempty?]

theorem mem_records_iff {r : VariableKind × Text × Location} :
    r ∈ table.records ↔ r ∈ held.records := by
  obtain ⟨kind, name, location⟩ := r
  rw [VariableTable.mem_records, ← DocumentRecords.mem_locations]
  constructor
  · rintro ⟨locations, hget, hlocation⟩
    rwa [← (h.get?_eq_some_iff.1 hget).1]
  · intro hlocation
    exact ⟨_, h.get?_eq_some_iff.2 ⟨rfl, List.ne_nil_of_mem hlocation⟩, hlocation⟩

theorem isSome_lookup?_iff {p : Position} :
    (table.lookup? p).isSome = true ↔ ∃ r ∈ held.records, r.2.2.range.contains p = true := by
  rw [← Option.ne_none_iff_isSome, ne_eq, lookup?_eq_none_iff]
  simp only [h.mem_records_iff, not_forall, Bool.not_eq_false, exists_prop]

theorem locations_eq (kind : VariableKind) (name : Text) :
    table.locations kind name = held.locations kind (bareName name) := by
  change (table.get? kind (bareName name)).getD [] = _
  rw [h.get?, getD_nonempty?]

end Groups

end VariableTable

namespace DocumentRecords

/-- The records that are left of others after some renamings: none is new, and each has its kind and
its location still. -/
structure ComesFrom (held replaced : DocumentRecords) : Prop where
  dialect : held.dialect = replaced.dialect
  sublist : (held.records.map fun r => (r.1, r.2.2)).Sublist
    (replaced.records.map fun r => (r.1, r.2.2))

theorem ComesFrom.rename {held replaced : DocumentRecords} (h : held.ComesFrom replaced)
    (kind : VariableKind) (old new : Text) : (held.rename kind old new).ComesFrom replaced where
  dialect := (dialect_rename held kind old new).trans h.dialect
  sublist := (sublist_rename held kind old new).trans h.sublist

/-- A match tells a record that is at a position, with all locations of its kind and name. -/
structure Tells (held : DocumentRecords) (p : Position) (m : VariableMatch) : Prop where
  dialect : m.dialect = held.dialect
  recorded : (m.kind, m.name, m.location) ∈ held.records
  contains : m.location.range.contains p = true
  listed : m.location ∈ m.locations
  locations : m.locations = held.locations m.kind m.name

end DocumentRecords

theorem VariableTable.Groups.tells {table : VariableTable} {held : DocumentRecords}
    (h : table.Groups held) {p : Position} {m : VariableMatch} (hm : table.Finds p m) :
    held.Tells p m where
  dialect := hm.dialect.trans h.dialect
  recorded := h.mem_records_iff.1 hm.mem_records
  contains := hm.contains
  listed := hm.location
  locations := (h.get?_eq_some_iff.1 hm.locations).1

/-! Histories. -/

namespace TrackerChange

theorem held?_comesFrom (uri : Text) (history : List TrackerChange) :
    Option.Rel DocumentRecords.ComesFrom (held? uri history) (lastReplaced? uri history) := by
  induction history with
  | nil => exact .none
  | cons change earlier ih =>
    rw [held?]
    cases change with
    | replace uri' dialect records =>
      rw [onRecords, lastReplaced?]
      split
      next =>
        refine .some ⟨rfl, ?_⟩
        rw [List.map_map]
        exact .refl _
      next => exact ih
    | rename uri' kind old new =>
      rw [onRecords, lastReplaced?]
      split
      next =>
        obtain ⟨hheld, hreplaced⟩ | ⟨held, replaced, hheld, hreplaced, h⟩ := cases_of_rel ih
        · rw [hheld, hreplaced]
          exact .none
        · rw [hheld, hreplaced]
          exact .some (h.rename kind old new)
      next => exact ih
    | clear uri' =>
      rw [onRecords, lastReplaced?]
      split
      next => exact .none
      next => exact ih

end TrackerChange

namespace VariableTracker

open TrackerChange

/-- A change of one document does to its table what it does to its records, and no other change
touches them. -/
theorem groups_change {tracker : VariableTracker} {uri : Text} {held : Option DocumentRecords}
    (h : Option.Rel VariableTable.Groups (tracker.get? uri) held) (c : TrackerChange) :
    Option.Rel VariableTable.Groups ((tracker.change c).get? uri) (c.onRecords uri held) := by
  cases c with
  | replace uri' dialect records =>
    rw [change, replace, OrderedMap.get?_insert, onRecords]
    split
    next => exact .some (VariableTable.groups_ofRecords dialect records)
    next => exact h
  | rename uri' kind old new =>
    rw [change, get?_rename, onRecords]
    split
    next =>
      obtain ⟨htable, rfl⟩ | ⟨table, held, htable, rfl, hgroups⟩ := cases_of_rel h
      · rw [htable]
        exact .none
      · rw [htable]
        exact .some (hgroups.rename kind old new)
    next => exact h
  | clear uri' =>
    rw [change, clear, OrderedMap.get?_erase, onRecords]
    split
    next => exact .none
    next => exact h

theorem groups_after (history : List TrackerChange) (uri : Text) :
    Option.Rel VariableTable.Groups ((after history).get? uri) (held? uri history) := by
  induction history with
  | nil => exact .none
  | cons c earlier ih => exact groups_change ih c

theorem locations_after (history : List TrackerChange) (uri : Text) (kind : VariableKind)
    (name : Text) :
    (after history).locations uri kind name =
      ((held? uri history).map fun held => held.locations kind (bareName name)).getD [] := by
  obtain ⟨htable, hheld⟩ | ⟨table, held, htable, hheld, h⟩ := cases_of_rel (groups_after history uri)
  · rw [locations, htable, hheld]
    rfl
  · rw [locations_of_get? htable, h.locations_eq, hheld, Option.map_some, Option.getD_some]

/-- After any history, a tracker finds a variable exactly where its document holds a record, and
tells a record at that place with the whole group in which it is stored. What a document holds comes
from its last replacement; and directly after a replacement a name, with or without its sigil, has
the locations of all records of this name, in order. -/
theorem answers_follow_history (history : List TrackerChange) (uri : Text) :
    Option.Rel DocumentRecords.ComesFrom (held? uri history) (lastReplaced? uri history) ∧
      (∀ p, ((after history).lookup? uri p).isSome = true ↔
        ∃ held, held? uri history = some held ∧
          ∃ r ∈ held.records, r.2.2.range.contains p = true) ∧
      (∀ p m, (after history).lookup? uri p = some m →
        (((after history).get? uri).bind fun table => table.get? m.kind m.name) = some m.locations ∧
          ∃ held, held? uri history = some held ∧ held.Tells p m) ∧
      (∀ kind name, (after history).locations uri kind name =
        ((held? uri history).map fun held => held.locations kind (bareName name)).getD []) ∧
      ∀ dialect records kind name,
        (after (.replace uri dialect records :: history)).locations uri kind name =
          (records.filter fun r => r.1 = kind ∧ bareName r.2.1 = bareName name).map
            fun r => r.2.2 := by
  refine ⟨held?_comesFrom uri history, fun p => ?_, fun p m hm => ?_,
    locations_after history uri, ?_⟩
  · obtain ⟨htable, hheld⟩ | ⟨table, held, htable, hheld, h⟩ := cases_of_rel (groups_after history uri)
    · simp [lookup?, htable, hheld]
    · simp [lookup?_of_get? htable, hheld, h.isSome_lookup?_iff]
  · obtain ⟨htable, -⟩ | ⟨table, held, htable, hheld, h⟩ := cases_of_rel (groups_after history uri)
    · rw [lookup?, htable] at hm
      cases hm
    · rw [lookup?_of_get? htable] at hm
      have hfinds := VariableTable.finds_of_lookup? hm
      rw [htable]
      exact ⟨hfinds.locations, held, hheld, h.tells hfinds⟩
  · intro dialect records kind name
    rw [locations_after, held?, onRecords, if_pos rfl]
    simp only [Option.map_some, Option.getD_some, DocumentRecords.locations, List.filter_map,
      List.map_map]
    rfl

example :
    let history : List TrackerChange :=
      [.rename ['d'] .plain ['x'] ['y'],
        .replace ['d'] .aiScript [(.plain, ['$', 'x'], ⟨['d'], ⟨0, 0⟩, ⟨0, 2⟩⟩)],
        .replace ['d'] .aiScript [(.plain, ['$', 'x'], ⟨['d'], ⟨1, 0⟩, ⟨1, 2⟩⟩)]]
    ((after history).lookup? ['d'] ⟨0, 1⟩).map (·.name) = some ['y'] ∧
      (after history).lookup? ['d'] ⟨1, 1⟩ = none := by
  decide

end VariableTracker

end ScriptLens
