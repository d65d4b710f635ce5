import ScriptLens.Proofs.Script.Lookup

/-!
How a tracker answers after a renaming. Where the ranges of a document are apart, a position is in
the range of one variable at most, so a renaming touches three sorts of positions: those of the
renamed variable find it under its new name, those of a variable that had this name find nothing any
more, and all others find what they found before.
-/

namespace ScriptLens

namespace VariableTable

def RangesApart (table : VariableTable) : Prop :=
  table.records.Pairwise fun r r' => r.2.2.range.Apart r'.2.2.range

variable {table : VariableTable} {kind : VariableKind} {old new : Text} {p : Position}

theorem rename_of_unused (new : Text) (h : table.get? kind (bareName old) = none) :
    table.rename kind old new = table := by
  unfold rename
  cases hkind : table.groups.get? kind with
  | none => rfl
  | some names =>
    rw [get?, hkind, Option.bind_some] at h
    have hsame : renameIn names old new = names := by
      rw [renameIn, h]
    simp only [hsame, OrderedMap.insert_of_get? hkind]

section Used

variable {locations : List Location} {location : Location}

theorem locations_rename_used (new : Text)
    (hused : table.get? kind (bareName old) = some locations) (kind' : VariableKind) (name : Text) :
    (table.rename kind old new).locations kind' name =
      if kind' = kind ∧ bareName name = bareName new then locations
      else if kind' = kind ∧ bareName name = bareName old then []
      else table.locations kind' name := by
  have hget := get?_rename_used new hused kind' (bareName name)
  change ((table.rename kind old new).get? kind' (bareName name)).getD [] = _
  rw [hget]
  split
  · rfl
  split <;> rfl

theorem lookup?_rename_moved (h : table.Unambiguous) (new : Text)
    (hused : table.get? kind (bareName old) = some locations) (hlocation : location ∈ locations)
    (hcontains : location.range.contains p = true) :
    (table.rename kind old new).lookup? p =
      some ⟨bareName new, kind, table.dialect, location, locations⟩ := by
  rw [lookup?_eq_some_iff (h.rename kind old new)]
  refine ⟨(dialect_rename table kind old new).symm, ?_, hlocation, hcontains⟩
  rw [get?_rename_used new hused, if_pos ⟨rfl, rfl⟩]

theorem lookup?_rename_overwritten (h : table.Unambiguous) (hne : bareName old ≠ bareName new)
    (hused : table.get? kind (bareName old) = some locations)
    (hlocation : location ∈ table.locations kind new)
    (hcontains : location.range.contains p = true) :
    (table.rename kind old new).lookup? p = none := by
  obtain ⟨held, hheld, hlocation⟩ : ∃ held, table.get? kind (bareName new) = some held ∧
      location ∈ held := by
    change location ∈ (table.get? kind (bareName new)).getD [] at hlocation
    cases hget : table.get? kind (bareName new) with
    | none => simp [hget] at hlocation
    | some held => exact ⟨held, rfl, by simpa [hget] using hlocation⟩
  have hrecord := VariableTable.mem_records.2 ⟨held, hheld, hlocation⟩
  rw [lookup?_eq_none_iff]
  intro r hr
  by_contra hfound
  rw [Bool.not_eq_false] at hfound
  -- The record at the position is the overwritten one, whose name now has other locations.
  obtain ⟨r₀, hr₀, rfl⟩ := exists_of_mem_records_rename new hr
  obtain rfl := h p r₀ hr₀ _ hrecord hfound hcontains
  rw [if_neg fun hold => hne hold.2.symm] at hr
  obtain ⟨moved, hmoved, hlocation⟩ := VariableTable.mem_records.1 hr
  rw [get?_rename_used new hused, if_pos ⟨rfl, rfl⟩] at hmoved
  obtain rfl := Option.some.inj hmoved
  have hsame := h p _ (VariableTable.mem_records.2 ⟨_, hused, hlocation⟩) _ hrecord hcontains
    hcontains
  exact hne (congrArg (fun r => r.2.1) hsame)

theorem lookup?_rename_elsewhere (h : table.Unambiguous)
    (hused : table.get? kind (bareName old) = some locations)
    (hold : ∀ location ∈ locations, location.range.contains p = false)
    (hnew : ∀ location ∈ table.locations kind new, location.range.contains p = false) :
    (table.rename kind old new).lookup? p = table.lookup? p := by
  cases hfound : table.lookup? p with
  | none =>
    rw [lookup?_eq_none_iff] at hfound ⊢
    intro r hr
    obtain ⟨r₀, hr₀, rfl⟩ := exists_of_mem_records_rename new hr
    exact hfound r₀ hr₀
  | some m =>
    have hm := finds_of_lookup? hfound
    have hother : ¬(m.kind = kind ∧ m.name = bareName new) ∧
        ¬(m.kind = kind ∧ m.name = bareName old) := by
      constructor
      · rintro ⟨hkind, hname⟩
        have hlocation : m.location ∈ table.locations kind new := by
          change m.location ∈ (table.get? kind (bareName new)).getD []
          rw [← hkind, ← hname, hm.locations]
          exact hm.location
        exact Bool.false_ne_true ((hnew _ hlocation).symm.trans hm.contains)
      · rintro ⟨hkind, hname⟩
        have hlocations := hm.locations
        rw [hkind, hname, hused] at hlocations
        obtain rfl := Option.some.inj hlocations
        exact Bool.false_ne_true ((hold _ hm.location).symm.trans hm.contains)
    rw [lookup?_eq_some_iff (h.rename kind old new)]
    have hdialect := hm.dialect.trans (dialect_rename table kind old new).symm
    refine ⟨hdialect, ?_, hm.location, hm.contains⟩
    rw [get?_rename_used new hused, if_neg hother.1, if_neg hother.2]
    exact hm.locations

end Used

end VariableTable

namespace VariableTracker

variable {tracker : VariableTracker} {uri : Text}

theorem get?_rename (tracker : VariableTracker) (uri : Text) (kind : VariableKind)
    (old new : Text) (uri' : Text) :
    (tracker.rename uri kind old new).get? uri' =
      if uri = uri' then (tracker.get? uri').map (·.rename kind old new) else tracker.get? uri' := by
  unfold rename
  cases htable : tracker.get? uri with
  | none =>
    by_cases huri : uri = uri'
    · subst huri
      simp [htable]
    · simp [huri]
  | some table =>
    by_cases huri : uri = uri'
    · subst huri
      simp [htable]
    · simp [huri]

section Held

variable {table : VariableTable} (h : tracker.get? uri = some table)

include h

theorem lookup?_of_get? (p : Position) : tracker.lookup? uri p = table.lookup? p := by
  rw [lookup?, h, Option.bind_some]

theorem locations_of_get? (kind : VariableKind) (name : Text) :
    tracker.locations uri kind name = table.locations kind name := by
  rw [locations, h, Option.map_some, Option.getD_some]

end Held

theorem rename_of_unused (tracker : VariableTracker) (uri : Text) {kind : VariableKind} {old : Text}
    (new : Text)
    (hunused : ∀ table, tracker.get? uri = some table → table.get? kind (bareName old) = none) :
    tracker.rename uri kind old new = tracker := by
  unfold rename
  cases htable : tracker.get? uri with
  | none => rfl
  | some table =>
    simp only [VariableTable.rename_of_unused new (hunused table htable)]
    exact OrderedMap.insert_of_get? htable

/-- How a tracker answers after the locations of a variable of one document have been moved to a new
name. -/
structure Moved (tracker after : VariableTracker) (uri : Text) (kind : VariableKind)
    (old new : Text) (dialect : Dialect) (locations : List Location) : Prop where
  moved : ∀ location ∈ locations, ∀ p, location.range.contains p = true →
    after.lookup? uri p = some ⟨bareName new, kind, dialect, location, locations⟩
  listed : after.locations uri kind new = locations
  gone : after.locations uri kind old = []
  overwritten : ∀ location ∈ tracker.locations uri kind new, ∀ p,
    location.range.contains p = true → after.lookup? uri p = none
  elsewhere : ∀ p, (∀ location ∈ locations, location.range.contains p = false) →
    (∀ location ∈ tracker.locations uri kind new, location.range.contains p = false) →
      after.lookup? uri p = tracker.lookup? uri p
  others : ∀ kind' name, (kind', bareName name) ≠ (kind, bareName old) →
    (kind', bareName name) ≠ (kind, bareName new) →
      after.locations uri kind' name = tracker.locations uri kind' name
  documents : ∀ uri', uri' ≠ uri → after.get? uri' = tracker.get? uri'

/-- Renaming a variable that a document does not have changes nothing. Renaming one that it has,
whose ranges are apart from all others of the document, moves its locations to the new name, in the
place of those that this name had, and leaves everything else as it was. -/
theorem rename_moves (tracker : VariableTracker) (uri : Text) (kind : VariableKind)
    (old new : Text) (hapart : ∀ table, tracker.get? uri = some table → table.RangesApart)
    (hne : bareName old ≠ bareName new) :
    let held := (tracker.get? uri).bind fun table => table.get? kind (bareName old)
    (held = none → tracker.rename uri kind old new = tracker) ∧
      ∀ table locations, tracker.get? uri = some table → held = some locations →
        Moved tracker (tracker.rename uri kind old new) uri kind old new table.dialect
          locations := by
  intro held
  refine ⟨fun hnone => ?_, fun table locations htable hheld => ?_⟩
  · exact rename_of_unused tracker uri new fun table htable => by
      simpa [held, htable] using hnone
  · have hused : table.get? kind (bareName old) = some locations := by
      simpa [held, htable] using hheld
    have hclear := VariableTable.unambiguous_of_pairwise (hapart table htable)
    have hafter :
        (tracker.rename uri kind old new).get? uri = some (table.rename kind old new) := by
      rw [get?_rename, if_pos rfl, htable, Option.map_some]
    constructor
    · intro location hlocation p hcontains
      rw [lookup?_of_get? hafter]
      exact VariableTable.lookup?_rename_moved hclear new hused hlocation hcontains
    · rw [locations_of_get? hafter, VariableTable.locations_rename_used new hused,
        if_pos ⟨rfl, rfl⟩]
    · rw [locations_of_get? hafter, VariableTable.locations_rename_used new hused,
        if_neg fun h => hne h.2, if_pos ⟨rfl, rfl⟩]
    · intro location hlocation p hcontains
      rw [locations_of_get? htable] at hlocation
      rw [lookup?_of_get? hafter]
      exact VariableTable.lookup?_rename_overwritten hclear hne hused hlocation hcontains
    · intro p hold hnew
      rw [locations_of_get? htable] at hnew
      rw [lookup?_of_get? hafter, lookup?_of_get? htable]
      exact VariableTable.lookup?_rename_elsewhere hclear hused hold hnew
    · intro kind' name hold hnew
      rw [locations_of_get? hafter, locations_of_get? htable,
        VariableTable.locations_rename_used new hused, if_neg fun h => hnew (Prod.ext h.1 h.2),
        if_neg fun h => hold (Prod.ext h.1 h.2)]
    · intro uri' huri
      rw [get?_rename, if_neg huri.symm]

section TwoNames

def lineStart (line : Nat) : Location :=
  ⟨['d'], ⟨line, 0⟩, ⟨line, 2⟩⟩

def twoNames : VariableTable :=
  ((((VariableTable.new .aiScript).record .plain "$x".toList (lineStart 0)).record .plain
    "x".toList (lineStart 1)).record .plain "$y".toList (lineStart 2)).record .tableField
      "$x".toList (lineStart 3)

def twoNamesTracker : VariableTracker :=
  (∅ : VariableTracker).replace ['d'] twoNames

theorem rangesApart_twoNames : twoNames.RangesApart := by
  have hprecede : twoNames.records.Pairwise fun r r' =>
      r.2.2.range.stop.line < r'.2.2.range.start.line := by
    decide
  exact hprecede.imp fun h => Range.apart_of_precedes (.inl h)

theorem twoNames_rename_moves :
    (∀ table, twoNamesTracker.get? ['d'] = some table → table.RangesApart) ∧
      (bareName "$x".toList ≠ bareName "y".toList ∧ bareName "z".toList ≠ bareName "y".toList) ∧
        (((twoNamesTracker.get? ['d']).bind fun table =>
            table.get? .plain (bareName "z".toList)) = none ∧
          twoNamesTracker.rename ['d'] .plain "z".toList "y".toList = twoNamesTracker) ∧
          twoNamesTracker.get? ['d'] = some twoNames ∧
            ((twoNamesTracker.get? ['d']).bind fun table =>
              table.get? .plain (bareName "$x".toList)) = some [lineStart 0, lineStart 1] ∧
            Moved twoNamesTracker (twoNamesTracker.rename ['d'] .plain "$x".toList "y".toList) ['d']
              .plain "$x".toList "y".toList .aiScript [lineStart 0, lineStart 1] := by
  have hapart : ∀ table, twoNamesTracker.get? ['d'] = some table → table.RangesApart := by
    intro table htable
    obtain rfl : twoNames = table := Option.some.inj htable
    exact rangesApart_twoNames
  have hunused := (rename_moves twoNamesTracker ['d'] .plain "z".toList "y".toList hapart
    (by decide)).1 (by decide)
  have hused := (rename_moves twoNamesTracker ['d'] .plain "$x".toList "y".toList hapart
    (by decide)).2 twoNames [lineStart 0, lineStart 1] (by decide) (by decide)
  exact ⟨hapart, ⟨by decide, by decide⟩, ⟨by decide, hunused⟩, by decide, by decide, hused⟩

end TwoNames

end VariableTracker

end ScriptLens
