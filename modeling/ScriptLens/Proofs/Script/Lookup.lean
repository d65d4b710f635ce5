import Mathlib.Data.List.Perm.Basic
import ScriptLens.Proofs.Script.Separation

/-!
What a table finds at a position. A table is taken apart into its records; those of a document are
apart from each other, so that at most one of them is at a position, and then it does not matter in
which order a table is searched.
-/

namespace ScriptLens

section Listed

variable {κ α β : Type} [DecidableEq κ]

def listed (items : β → List α) (entries : List (κ × β)) : List (κ × α) :=
  entries.flatMap fun (k, held) => (items held).map fun a => (k, a)

omit [DecidableEq κ] in
theorem mem_listed {items : β → List α} {entries : List (κ × β)} {k : κ} {a : α} :
    (k, a) ∈ listed items entries ↔ ∃ held, (k, held) ∈ entries ∧ a ∈ items held := by
  simp only [listed, List.mem_flatMap, List.mem_map, Prod.mk.injEq, Prod.exists]
  constructor
  · rintro ⟨k', held, hmem, a', ha, rfl, rfl⟩
    exact ⟨held, hmem, ha⟩
  · rintro ⟨held, hmem, ha⟩
    exact ⟨k, held, hmem, a, ha, rfl, rfl⟩

theorem map_pair_under (k : κ) (records : List (κ × α)) :
    (under k records).map (fun a => (k, a)) = records.filter fun r => r.1 = k := by
  rw [under, List.map_map]
  refine (List.map_congr_left fun r hr => ?_).trans (List.map_id _)
  have hk : r.1 = k := by simpa using (List.mem_filter.1 hr).2
  simp [← hk]

theorem under_listed (items : β → List α) (m : OrderedMap κ β) (k : κ) :
    under k (listed items m.entries) = ((m.get? k).map items).getD [] := by
  obtain ⟨entries, hnodup⟩ := m
  change _ = ((OrderedMap.find? k entries).map items).getD []
  induction entries with
  | nil => rfl
  | cons e rest ih =>
    simp only [List.map_cons, List.nodup_cons] at hnodup
    have hrest := ih hnodup.2
    simp only [listed, List.flatMap_cons, under_append, under_map_pair] at hrest ⊢
    rw [hrest]
    by_cases hk : e.1 = k
    · have hnone : OrderedMap.find? k rest = none := by
        rw [← Option.not_isSome_iff_eq_none, OrderedMap.isSome_find?]
        exact hk ▸ hnodup.1
      simp [OrderedMap.find?, hk, hnone]
    · simp [OrderedMap.find?, hk]

theorem grouped_cons (r : κ × α) (records : List (κ × α)) :
    grouped (r :: records) =
      (r.1, under r.1 (r :: records)) :: grouped (records.filter fun q => !decide (q.1 = r.1)) := by
  have hkeys : ((records.map Prod.fst).filter fun k => !k == r.1) =
      (records.filter fun q => !decide (q.1 = r.1)).map Prod.fst := by
    rw [List.filter_map]
    rfl
  rw [grouped, grouped, List.map_cons, List.eraseDups_cons, List.map_cons, hkeys]
  congr 1
  refine List.map_congr_left fun k hk => ?_
  obtain ⟨q, hq, rfl⟩ := List.mem_map.1 (List.mem_eraseDups.1 hk)
  have hne : q.1 ≠ r.1 := by simpa using (List.mem_filter.1 hq).2
  have hkept : ∀ s : κ × α, (decide (s.1 = q.1) && !decide (s.1 = r.1)) = decide (s.1 = q.1) := by
    intro s
    by_cases hs : s.1 = q.1 <;> simp [hs, hne]
  rw [under_cons, if_neg (Ne.symm hne), under, under, List.filter_filter]
  simp only [hkept]

theorem perm_listed_grouped (items : β → List α) (group : List α → β)
    (hitems : ∀ held, (items (group held)).Perm held) (records : List (κ × α)) :
    (listed items ((grouped records).map fun (k, held) => (k, group held))).Perm records := by
  -- On the length, since the first group takes out all records of its key.
  induction hn : records.length using Nat.strongRecOn generalizing records with
  | ind n ih =>
    cases records with
    | nil => exact .nil
    | cons r records =>
      let others := records.filter fun q => !decide (q.1 = r.1)
      have hothers : others = (r :: records).filter fun q => !decide (q.1 = r.1) := by
        simp [others]
      have hlength : others.length < n := by
        have hle : others.length ≤ records.length := List.length_filter_le _ _
        simp only [List.length_cons] at hn
        omega
      have hfirst := (hitems (under r.1 (r :: records))).map fun a => (r.1, a)
      rw [map_pair_under] at hfirst
      have hrest := ih others.length hlength others rfl
      rw [grouped_cons, List.map_cons, listed, List.flatMap_cons, ← listed]
      refine (hfirst.append hrest).trans ?_
      rw [hothers]
      exact List.filter_append_perm _ _

end Listed

namespace VariableTable

/-- The records of a table, in the order in which it is searched. -/
def records (table : VariableTable) : List (VariableKind × Text × Location) :=
  listed (fun names => listed id names.entries) table.groups.entries

theorem records_eq_listing (table : VariableTable) :
    table.records = listed (listed id) table.listing := by
  simp only [records, listing, listed, List.flatMap_map]

theorem perm_records_ofDocument (uri : Text) (dialect : Dialect) (d : Document) :
    (ofDocument uri dialect d).records.Perm (scanned uri d) := by
  rw [records_eq_listing, listing_ofDocument]
  refine perm_listed_grouped (listed id) grouped (fun found => ?_) _
  simpa using perm_listed_grouped id id (fun held => .refl held) found

theorem under_records (table : VariableTable) (kind : VariableKind) (name : Text) :
    under name (under kind table.records) = (table.get? kind name).getD [] := by
  rw [records, under_listed, get?]
  cases table.groups.get? kind with
  | none => rfl
  | some names =>
    have hnames := under_listed id names name
    rw [Option.map_id_fun, id] at hnames
    exact hnames

theorem mem_records {table : VariableTable} {kind : VariableKind} {name : Text}
    {location : Location} :
    (kind, name, location) ∈ table.records ↔
      ∃ locations, table.get? kind name = some locations ∧ location ∈ locations := by
  simp only [records, mem_listed, OrderedMap.mem_entries_iff, get?, Option.bind_eq_some_iff, id]
  constructor
  · rintro ⟨names, hkind, locations, hname, hlocation⟩
    exact ⟨locations, ⟨names, hkind, hname⟩, hlocation⟩
  · rintro ⟨locations, ⟨names, hkind, hname⟩, hlocation⟩
    exact ⟨names, hkind, locations, hname, hlocation⟩

/-! Searching. -/

structure Finds (table : VariableTable) (p : Position) (m : VariableMatch) : Prop where
  dialect : m.dialect = table.dialect
  locations : table.get? m.kind m.name = some m.locations
  location : m.location ∈ m.locations
  contains : m.location.range.contains p = true

variable {table table' : VariableTable} {p : Position} {m : VariableMatch}

theorem Finds.mem_records (h : table.Finds p m) : (m.kind, m.name, m.location) ∈ table.records :=
  VariableTable.mem_records.2 ⟨m.locations, h.locations, h.location⟩

theorem finds_of_lookup? (h : table.lookup? p = some m) : table.Finds p m := by
  obtain ⟨⟨kind, names⟩, hkind, h⟩ := List.exists_of_findSome?_eq_some h
  obtain ⟨⟨name, locations⟩, hname, h⟩ := List.exists_of_findSome?_eq_some h
  obtain ⟨location, hlocation, rfl⟩ := Option.map_eq_some_iff.1 h
  refine ⟨rfl, ?_, List.mem_of_find?_eq_some hlocation, by simpa using List.find?_some hlocation⟩
  rw [get?, OrderedMap.mem_entries_iff.1 hkind, Option.bind_some]
  exact OrderedMap.mem_entries_iff.1 hname

theorem lookup?_eq_none_iff :
    table.lookup? p = none ↔ ∀ r ∈ table.records, r.2.2.range.contains p = false := by
  simp only [lookup?, List.findSome?_eq_none_iff, Option.map_eq_none_iff, List.find?_eq_none,
    Prod.forall, records, mem_listed, id]
  constructor
  · rintro h kind name location ⟨names, hkind, locations, hname, hlocation⟩
    simpa using h kind names hkind name locations hname location hlocation
  · intro h kind names hkind name locations hname location hlocation
    simpa using h kind name location ⟨names, hkind, locations, hname, hlocation⟩

def Unambiguous (table : VariableTable) : Prop :=
  ∀ p, ∀ r ∈ table.records, ∀ r' ∈ table.records,
    r.2.2.range.contains p = true → r'.2.2.range.contains p = true → r = r'

theorem lookup?_eq_some_iff (h : table.Unambiguous) :
    table.lookup? p = some m ↔ table.Finds p m := by
  refine ⟨finds_of_lookup?, fun hm => ?_⟩
  cases hfound : table.lookup? p with
  | none =>
    have hnone := lookup?_eq_none_iff.1 hfound _ hm.mem_records
    rw [hm.contains] at hnone
    contradiction
  | some m' =>
    have hm' := finds_of_lookup? hfound
    have hsame := h p _ hm'.mem_records _ hm.mem_records hm'.contains hm.contains
    obtain ⟨name, kind, dialect, location, locations⟩ := m
    obtain ⟨name', kind', dialect', location', locations'⟩ := m'
    obtain ⟨rfl, rfl, rfl⟩ : kind' = kind ∧ name' = name ∧ location' = location := by
      simpa using hsame
    obtain rfl : dialect' = dialect := hm'.dialect.trans hm.dialect.symm
    obtain rfl : locations' = locations :=
      Option.some.inj (hm'.locations.symm.trans hm.locations)
    rfl

/-- Two tables with the same records find the same at each position, in whatever order they are
searched; but what else is known of the variable comes in the order of its table. -/
theorem lookup?_of_perm (h : table.Unambiguous) (hdialect : table'.dialect = table.dialect)
    (hrecords : table'.records.Perm table.records) (p : Position) :
    table'.lookup? p = (table.lookup? p).map fun m =>
      { m with locations := (table'.get? m.kind m.name).getD [] } := by
  have h' : table'.Unambiguous := fun p r hr r' hr' =>
    h p r (hrecords.mem_iff.1 hr) r' (hrecords.mem_iff.1 hr')
  cases hfound : table.lookup? p with
  | none =>
    rw [lookup?_eq_none_iff] at hfound
    rw [Option.map_none, lookup?_eq_none_iff]
    exact fun r hr => hfound r (hrecords.mem_iff.1 hr)
  | some m =>
    have hm := finds_of_lookup? hfound
    obtain ⟨locations, hlocations, hlocation⟩ :=
      VariableTable.mem_records.1 (hrecords.mem_iff.2 hm.mem_records)
    rw [Option.map_some, lookup?_eq_some_iff h', hlocations, Option.getD_some]
    exact ⟨hm.dialect.trans hdialect.symm, hlocations, hlocation, hm.contains⟩

theorem perm_get?_of_perm (hrecords : table'.records.Perm table.records) (kind : VariableKind)
    (name : Text) : ((table'.get? kind name).getD []).Perm ((table.get? kind name).getD []) := by
  rw [← under_records, ← under_records]
  exact ((((hrecords.filter _).map _).filter _).map _)

/-! Renaming. -/

section Rename

variable {kind : VariableKind} {old : Text} (new : Text)

theorem exists_of_mem_records_rename {r : VariableKind × Text × Location}
    (h : r ∈ (table.rename kind old new).records) :
    ∃ r₀ ∈ table.records, r =
      (r₀.1, if r₀.1 = kind ∧ r₀.2.1 = bareName old then bareName new else r₀.2.1, r₀.2.2) := by
  obtain ⟨kind', name, location⟩ := r
  obtain ⟨held, hheld, hlocation⟩ := VariableTable.mem_records.1 h
  cases hused : table.get? kind (bareName old) with
  | none =>
    rw [get?_rename_unused new hused] at hheld
    have hother : ¬(kind' = kind ∧ name = bareName old) := by
      rintro ⟨rfl, rfl⟩
      rw [hused] at hheld
      contradiction
    exact ⟨_, VariableTable.mem_records.2 ⟨held, hheld, hlocation⟩, by simp [hother]⟩
  | some locations =>
    rw [get?_rename_used new hused] at hheld
    split at hheld
    next hmoved =>
      obtain rfl := Option.some.inj hheld
      obtain ⟨rfl, rfl⟩ := hmoved
      exact ⟨(kind', bareName old, location),
        VariableTable.mem_records.2 ⟨locations, hused, hlocation⟩, by simp⟩
    next =>
      split at hheld
      next => contradiction
      next hother =>
        exact ⟨_, VariableTable.mem_records.2 ⟨held, hheld, hlocation⟩, by simp [hother]⟩

theorem Unambiguous.rename (h : table.Unambiguous) (kind : VariableKind) (old new : Text) :
    (table.rename kind old new).Unambiguous := by
  intro p r hr r' hr' hcontains hcontains'
  obtain ⟨r₀, hr₀, rfl⟩ := exists_of_mem_records_rename new hr
  obtain ⟨r₀', hr₀', rfl⟩ := exists_of_mem_records_rename new hr'
  rw [h p r₀ hr₀ r₀' hr₀' hcontains hcontains']

theorem Finds.rename (h : table.Finds p m) (hname : bareName m.name = m.name) :
    (table.rename m.kind m.name new).Finds p { m with name := bareName new } := by
  have hused : table.get? m.kind (bareName m.name) = some m.locations := by
    rw [hname, h.locations]
  refine ⟨h.dialect.trans (dialect_rename table _ _ _).symm, ?_, h.location, h.contains⟩
  rw [get?_rename_used new hused, if_pos ⟨rfl, rfl⟩]

/-- The locations that are listed under a match's name, its sigil dropped once more, are those of
the match only if no sigil was left. -/
theorem Finds.mem_locations_iff (h : table.Unambiguous) (hm : table.Finds p m) :
    m.location ∈ table.locations m.kind m.name ↔ bareName m.name = m.name := by
  change m.location ∈ (table.get? m.kind (bareName m.name)).getD [] ↔ _
  constructor
  · intro hlocation
    cases hheld : table.get? m.kind (bareName m.name) with
    | none => simp [hheld] at hlocation
    | some locations =>
      rw [hheld, Option.getD_some] at hlocation
      have hrecord := VariableTable.mem_records.2 ⟨locations, hheld, hlocation⟩
      have hsame := h p _ hrecord _ hm.mem_records hm.contains hm.contains
      exact congrArg (fun r => r.2.1) hsame
  · intro hname
    rw [hname, hm.locations]
    exact hm.location

end Rename

/-! The records of a document. -/

theorem pairwise_apart_records (uri : Text) (dialect : Dialect) (d : Document) :
    (ofDocument uri dialect d).records.Pairwise fun r r' => r.2.2.range.Apart r'.2.2.range := by
  obtain ⟨found, hbefore, -, hscanned⟩ := exists_places uri d
  have hsymm : ∀ {r r' : VariableKind × Text × Location}, r.2.2.range.Apart r'.2.2.range →
      r'.2.2.range.Apart r.2.2.range := by
    intro r r' h p hp
    exact h p ⟨hp.2, hp.1⟩
  rw [(perm_records_ofDocument uri dialect d).pairwise_iff hsymm, hscanned]
  exact hbefore.map _ fun _ _ h => h.apart

theorem length_filter_contains_le_one {records : List (VariableKind × Text × Location)}
    (h : records.Pairwise fun r r' => r.2.2.range.Apart r'.2.2.range) (p : Position) :
    (records.filter fun r => r.2.2.range.contains p).length ≤ 1 := by
  have hcontains : ∀ r ∈ records.filter fun r => r.2.2.range.contains p,
      r.2.2.range.contains p = true := fun r hr => (List.mem_filter.1 hr).2
  have hapart := h.filter fun r => r.2.2.range.contains p
  generalize (records.filter fun r => r.2.2.range.contains p) = found at hcontains hapart ⊢
  match found with
  | [] => exact Nat.zero_le 1
  | [_] => exact Nat.le_refl 1
  | r :: r' :: rest =>
    exact absurd ⟨hcontains r (by simp), hcontains r' (by simp)⟩
      (List.rel_of_pairwise_cons hapart (by simp) p)

theorem unambiguous_of_pairwise
    (h : table.records.Pairwise fun r r' => r.2.2.range.Apart r'.2.2.range) :
    table.Unambiguous := by
  intro p r hr r' hr' hcontains hcontains'
  have hle := length_filter_contains_le_one h p
  have hmem : r ∈ table.records.filter fun r => r.2.2.range.contains p :=
    List.mem_filter.2 ⟨hr, hcontains⟩
  have hmem' : r' ∈ table.records.filter fun r => r.2.2.range.contains p :=
    List.mem_filter.2 ⟨hr', hcontains'⟩
  obtain ⟨q, hq⟩ := List.length_eq_one_iff.1
    (Nat.le_antisymm hle (List.length_pos_of_mem hmem))
  rw [hq, List.mem_singleton] at hmem hmem'
  rw [hmem, hmem']

end VariableTable

end ScriptLens
