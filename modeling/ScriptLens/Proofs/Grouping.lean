import ScriptLens.Proofs.OrderedMap
import ScriptLens.Session.Workspace

/-!
The variables of a document are grouped twice, by kind and under each kind by name; each kind and
each name stands where it first occurs, with the locations in order.
-/

namespace ScriptLens

namespace VariableTable

/-- The kinds of a table, in order, with the names of each and the locations of those. -/
def listing (table : VariableTable) : List (VariableKind × List (Text × List Location)) :=
  table.groups.entries.map fun (kind, names) => (kind, names.entries)

/-- A record as a table keeps it, under its name without sigil. -/
def bared (r : VariableKind × Text × Location) : VariableKind × Text × Location :=
  (r.1, bareName r.2.1, r.2.2)

def ofRecords (dialect : Dialect) (records : List (VariableKind × Text × Location)) :
    VariableTable :=
  records.foldl (fun table r => table.record r.1 r.2.1 r.2.2) (.new dialect)

def scannedAs (uri : Text) (d : Document) (o : Occurrence) : VariableKind × Text × Location :=
  (o.kind, bareName o.name, ⟨uri, d.rangeOf o.start o.stop⟩)

def scanned (uri : Text) (d : Document) : List (VariableKind × Text × Location) :=
  (Occurrence.ofDocument d.text).map (scannedAs uri d)

def addLocation (locations : Option (List Location)) (location : Location) : List Location :=
  locations.getD [] ++ [location]

def addName (names : Option NameGroups) (r : Text × Location) : NameGroups :=
  (names.getD ∅).alter r.1 fun locations => addLocation locations r.2

theorem foldl_addLocation (locations held : List Location) :
    locations.foldl (fun held location => some (addLocation held location)) (some held) =
      some (held ++ locations) := by
  induction locations generalizing held with
  | nil => simp
  | cons location locations ih =>
    rw [List.foldl_cons, addLocation, Option.getD_some, ih, List.append_assoc]
    rfl

theorem foldl_addName (records : List (Text × Location)) (names : NameGroups) :
    records.foldl (fun held r => some (addName held r)) (some names) =
      some (OrderedMap.fill addLocation names records) := by
  induction records generalizing names with
  | nil => rfl
  | cons r records ih => exact ih _

theorem foldl_record (records : List (VariableKind × Text × Location)) (table : VariableTable) :
    records.foldl (fun table r => table.record r.1 r.2.1 r.2.2) table =
      ⟨table.dialect, OrderedMap.fill addName table.groups (records.map bared)⟩ := by
  induction records generalizing table with
  | nil => rfl
  | cons r records ih => exact ih _

theorem ofRecords_eq (dialect : Dialect) (records : List (VariableKind × Text × Location)) :
    ofRecords dialect records = ⟨dialect, OrderedMap.fill addName ∅ (records.map bared)⟩ :=
  foldl_record records (.new dialect)

theorem ofDocument_eq (uri : Text) (dialect : Dialect) (d : Document) :
    ofDocument uri dialect d = ⟨dialect, OrderedMap.fill addName ∅ (scanned uri d)⟩ := by
  have hrecords := ofRecords_eq dialect ((Occurrence.ofDocument d.text).map fun o =>
    (o.kind, o.name, ⟨uri, d.rangeOf o.start o.stop⟩))
  rw [List.map_map] at hrecords
  rw [ofRecords, List.foldl_map] at hrecords
  exact hrecords

theorem listing_ofDocument (uri : Text) (dialect : Dialect) (d : Document) :
    (ofDocument uri dialect d).listing =
      (grouped (scanned uri d)).map fun (kind, found) => (kind, grouped found) := by
  have hkinds := OrderedMap.entries_fill addName (scanned uri d)
    (OrderedMap.fill addLocation ∅) fun r records => foldl_addName records _
  have hnames : ∀ records : List (Text × Location),
      (OrderedMap.fill addLocation ∅ records).entries = grouped records := by
    intro records
    have h := OrderedMap.entries_fill addLocation records id
      fun location locations => foldl_addLocation locations [location]
    simpa using h
  rw [ofDocument_eq, listing]
  rw [hkinds, List.map_map]
  simp only [Function.comp_def, hnames]

/-- The locations of a variable, whose name is given bare; none if there is no such variable. -/
def get? (table : VariableTable) (kind : VariableKind) (name : Text) : Option (List Location) :=
  (table.groups.get? kind).bind fun names => names.get? name

theorem get?_fill (dialect : Dialect) (records : List (VariableKind × Text × Location))
    (kind : VariableKind) (name : Text) :
    get? ⟨dialect, OrderedMap.fill addName ∅ records⟩ kind name =
      nonempty? (under name (under kind records)) := by
  have hnames : ∀ records : List (Text × Location),
      (OrderedMap.fill addLocation ∅ records).get? name = nonempty? (under name records) := by
    intro records
    rw [OrderedMap.get?_fill]
    cases under name records with
    | nil => rfl
    | cons location locations => exact foldl_addLocation locations [location]
  rw [get?, OrderedMap.get?_fill]
  cases under kind records with
  | nil => rfl
  | cons record records =>
    have hkind := foldl_addName records (OrderedMap.fill addLocation ∅ [record])
    change ((records.foldl (fun held r => some (addName held r))
      (some (OrderedMap.fill addLocation ∅ [record]))).bind _) = _
    rw [hkind]
    exact hnames (record :: records)

theorem get?_ofDocument (uri : Text) (dialect : Dialect) (d : Document) (kind : VariableKind)
    (name : Text) :
    (ofDocument uri dialect d).get? kind name =
      nonempty? (under name (under kind (scanned uri d))) := by
  rw [ofDocument_eq, get?_fill]

theorem get?_ofRecords (dialect : Dialect) (records : List (VariableKind × Text × Location))
    (kind : VariableKind) (name : Text) :
    (ofRecords dialect records).get? kind name =
      nonempty? (under name (under kind (records.map bared))) := by
  rw [ofRecords_eq, get?_fill]

end VariableTable

end ScriptLens
