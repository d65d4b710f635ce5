import ScriptLens.Proofs.Grouping
import ScriptLens.Proofs.Script.Place

/-!
The table of a document after a renaming, in two ways: the variable of the old table gets its new
name, or the document gets the new names and is scanned anew. Ranges differ, so a location is told
by its number among all variables of its document (`VariableTable.order`), and then the two tables
are the same.
-/

namespace ScriptLens

def numbers {α : Type} (wanted : α → Bool) : (n : Nat) → List α → List Nat
  | _, [] => []
  | n, a :: rest => if wanted a then n :: numbers wanted (n + 1) rest else numbers wanted (n + 1) rest

section Numbers

variable {α β : Type}

theorem numbers_map (wanted : β → Bool) (f : α → β) (n : Nat) (l : List α) :
    numbers wanted n (l.map f) = numbers (fun a => wanted (f a)) n l := by
  induction l generalizing n with
  | nil => rfl
  | cons a l ih => simp [numbers, ih]

theorem numbers_congr {wanted wanted' : α → Bool} {l : List α} (h : ∀ a ∈ l, wanted a = wanted' a)
    (n : Nat) : numbers wanted n l = numbers wanted' n l := by
  induction l generalizing n with
  | nil => rfl
  | cons a l ih =>
    simp only [List.mem_cons, forall_eq_or_imp] at h
    simp [numbers, h.1, ih h.2]

theorem numbers_eq_nil {wanted : α → Bool} {l : List α} (h : ∀ a ∈ l, wanted a = false) (n : Nat) :
    numbers wanted n l = [] := by
  induction l generalizing n with
  | nil => rfl
  | cons a l ih =>
    simp only [List.mem_cons, forall_eq_or_imp] at h
    simp [numbers, h.1, ih h.2]

theorem map_idxOf_filter [DecidableEq β] (f : α → β) (wanted : α → Bool) {l : List α}
    (h : (l.map f).Nodup) :
    ((l.filter wanted).map f).map (fun b => (l.map f).idxOf b) = numbers wanted 0 l := by
  have hrest : ∀ before rest, l = before ++ rest →
      ((rest.filter wanted).map f).map (fun b => (l.map f).idxOf b) =
        numbers wanted before.length rest := by
    intro before rest
    induction rest generalizing before with
    | nil => intro _; rfl
    | cons a rest ih =>
      intro hl
      have hmore := ih (before ++ [a]) (by simp [hl])
      have hindex : (l.map f).idxOf (f a) = before.length := by
        rw [hl, List.map_append, List.nodup_append] at h
        have hnew : f a ∉ before.map f := by
          intro hold
          exact h.2.2 _ hold _ (by simp) rfl
        rw [hl, List.map_append, List.idxOf_append, if_neg hnew]
        simp
      rw [List.length_append, List.length_singleton] at hmore
      by_cases hwanted : wanted a = true
      · simp only [List.filter_cons, hwanted, if_true, List.map_cons, numbers, hindex, hmore]
      · simp only [List.filter_cons, hwanted, Bool.false_eq_true, if_false, numbers, hmore]
  exact hrest [] l rfl

end Numbers

namespace VariableTable

/-- The locations of a variable, each by its number among the variables of a document. -/
def order (table : VariableTable) (uri : Text) (d : Document) (kind : VariableKind) (name : Text) :
    Option (List Nat) :=
  (table.get? kind name).map fun locations =>
    locations.map fun location => ((scanned uri d).map fun record => record.2.2).idxOf location

def recorded (uri : Text) (p : Place) : VariableKind × Text × Location :=
  (p.kind, bareName p.name, ⟨uri, p.range⟩)

section Places

variable {d : Document} {pieces : List Piece} (uri : Text)

theorem scanned_eq (hvalid : ∀ q ∈ pieces, q.Valid) (htext : d.text = spell pieces)
    (hfound : Occurrence.ofDocument d.text = occurrencesIn 0 pieces) :
    scanned uri d = (places [] pieces).map (recorded uri) := by
  have hplaces := occurrencesIn_eq [] pieces
  rw [Text.byteSize_nil] at hplaces
  rw [scanned, hfound, hplaces, List.map_map]
  refine List.map_congr_left fun p hp => ?_
  have hstands : p.StandsIn d.text := by
    have h := standsIn_of_mem_places hvalid hp
    rwa [List.nil_append, ← htext] at h
  simp only [Function.comp_apply, scannedAs, hstands.rangeOf]
  rfl

theorem under_recorded (kind : VariableKind) (name : Text) (found : List Place) :
    under name (under kind (found.map (recorded uri))) =
      (found.filter fun p => p.key = (kind, name)).map fun p => ⟨uri, p.range⟩ := by
  induction found with
  | nil => rfl
  | cons p found ih =>
    rw [List.map_cons, under_cons]
    by_cases hkind : p.kind = kind
    · by_cases hname : bareName p.name = name <;>
        simp [recorded, hkind, hname, under_cons, Place.key, ih]
    · simp [recorded, hkind, Place.key, ih]

theorem nodup_locations (pieces : List Piece) :
    ((places [] pieces).map fun p => (⟨uri, p.range⟩ : Location)).Nodup := by
  refine List.Pairwise.map _ (fun p q hbefore => ?_) (pairwise_places [] pieces)
  intro hlocation
  exact hbefore.range_ne (Location.mk.inj hlocation).2

theorem order_ofDocument (dialect : Dialect) (hvalid : ∀ q ∈ pieces, q.Valid)
    (htext : d.text = spell pieces)
    (hfound : Occurrence.ofDocument d.text = occurrencesIn 0 pieces) (kind : VariableKind)
    (name : Text) :
    (ofDocument uri dialect d).order uri d kind name =
      nonempty? (numbers (fun k => k = (kind, name)) 0 ((places [] pieces).map Place.key)) := by
  have hlocations : ((places [] pieces).map (recorded uri)).map (fun record => record.2.2) =
      (places [] pieces).map fun p => (⟨uri, p.range⟩ : Location) := by
    rw [List.map_map]
    rfl
  rw [order, get?_ofDocument, ← nonempty?_map, scanned_eq uri hvalid htext hfound, under_recorded,
    hlocations, numbers_map, ← map_idxOf_filter _ _ (nodup_locations uri pieces)]

end Places

theorem dialect_rename (table : VariableTable) (kind : VariableKind)
    (old new : Text) : (table.rename kind old new).dialect = table.dialect := by
  unfold rename
  split <;> rfl

theorem get?_rename_unused {table : VariableTable} {kind : VariableKind} {old : Text} (new : Text)
    (h : table.get? kind (bareName old) = none) (kind' : VariableKind) (name : Text) :
    (table.rename kind old new).get? kind' name = table.get? kind' name := by
  unfold rename
  cases hkind : table.groups.get? kind with
  | none => rfl
  | some names =>
    rw [get?, hkind, Option.bind_some] at h
    by_cases hkind' : kind = kind'
    · subst hkind'
      simp [get?, renameIn, h, hkind]
    · simp [get?, hkind']

theorem get?_rename_used {table : VariableTable} {kind : VariableKind} {old : Text} (new : Text)
    {locations : List Location} (h : table.get? kind (bareName old) = some locations)
    (kind' : VariableKind) (name : Text) :
    (table.rename kind old new).get? kind' name =
      if kind' = kind ∧ name = bareName new then some locations
      else if kind' = kind ∧ name = bareName old then none
      else table.get? kind' name := by
  obtain ⟨names, hkind, hname⟩ := Option.bind_eq_some_iff.1 h
  have hnames : renameIn names old new =
      (names.erase (bareName old)).insert (bareName new) locations := by
    rw [renameIn, hname]
  rw [rename, hkind]
  simp only [hnames]
  by_cases hkind' : kind' = kind
  · subst hkind'
    simp only [get?, OrderedMap.get?_insert, if_true, Option.bind_some, OrderedMap.get?_erase,
      hkind, true_and]
    by_cases hnew' : bareName new = name
    · simp [hnew']
    · simp [hnew', Ne.symm hnew', eq_comm]
  · simp [get?, hkind', Ne.symm hkind']

/-- Renaming a variable in the table of a document and making the table of the renamed document come
to the same, as far as numbers tell. -/
theorem order_rename {d d' : Document} {pieces : List Piece} (uri : Text) (dialect : Dialect)
    (r : Renaming) (hvalid : ∀ q ∈ pieces, q.Valid) (htext : d.text = spell pieces)
    (hfound : Occurrence.ofDocument d.text = occurrencesIn 0 pieces)
    (htext' : d'.text = spell (pieces.map (Piece.renamed r)))
    (hfound' : Occurrence.ofDocument d'.text = occurrencesIn 0 (pieces.map (Piece.renamed r)))
    {locations : List Location}
    (hused : (ofDocument uri dialect d).get? r.kind r.old = some locations)
    (hold : bareName r.old = r.old)
    (hfree : (ofDocument uri dialect d).get? r.kind r.new = none) (kind : VariableKind)
    (name : Text) :
    ((ofDocument uri dialect d).rename r.kind r.old r.new).order uri d kind name =
      (ofDocument uri dialect d').order uri d' kind name := by
  have hvalid' : ∀ q ∈ pieces.map (Piece.renamed r), q.Valid := by
    intro q' hq'
    obtain ⟨q, hq, rfl⟩ := List.mem_map.1 hq'
    exact (hvalid q hq).renamed r
  have hused' : (ofDocument uri dialect d).get? r.kind (bareName r.old) = some locations := by
    rw [hold, hused]
  have hne : r.old ≠ r.new := by
    intro heq
    rw [heq, hfree] at hused
    contradiction
  have horder := order_ofDocument uri dialect hvalid htext hfound
  have hnone : ∀ k ∈ (places [] pieces).map Place.key, k ≠ (r.kind, r.new) := by
    rintro k hk rfl
    obtain ⟨p, hp, hkey⟩ := List.mem_map.1 hk
    have hlocation : p ∈ (places [] pieces).filter fun p => p.key = (r.kind, r.new) :=
      List.mem_filter.2 ⟨hp, by simp [hkey]⟩
    rw [get?_ofDocument, scanned_eq uri hvalid htext hfound, under_recorded, nonempty?_map] at hfree
    rw [nonempty?, if_neg (by simp [List.ne_nil_of_mem hlocation])] at hfree
    contradiction
  rw [order_ofDocument uri dialect hvalid' htext' hfound', key_places_renamed r [] [], numbers_map,
    order, get?_rename_used r.new hused', hold, bareName_of_isIdentifier r.identifier]
  by_cases hnew : kind = r.kind ∧ name = r.new
  · obtain ⟨rfl, rfl⟩ := hnew
    rw [if_pos ⟨rfl, rfl⟩, ← hused, ← order, horder]
    congr 1
    refine numbers_congr (fun k hk => ?_) 0
    by_cases hkey : k = (r.kind, r.old) <;> simp [Renaming.key, hkey, hnone k hk]
  by_cases hgone : kind = r.kind ∧ name = r.old
  · obtain ⟨rfl, rfl⟩ := hgone
    rw [if_neg hnew, if_pos ⟨rfl, rfl⟩, numbers_eq_nil (fun k hk => ?_)]
    · rfl
    · by_cases hkey : k = (r.kind, r.old) <;> simp [Renaming.key, hkey, hne.symm]
  · rw [if_neg hnew, if_neg hgone, ← order, horder]
    congr 1
    refine numbers_congr (fun k hk => ?_) 0
    by_cases hkey : k = (r.kind, r.old)
    · have hother : (kind, name) ≠ (r.kind, r.old) ∧ (kind, name) ≠ (r.kind, r.new) := by
        simp [hnew, hgone]
      simp [Renaming.key, hkey, hother.1.symm, hother.2.symm]
    · simp [Renaming.key, hkey]

end VariableTable

end ScriptLens
