import Mathlib.Data.List.Permutation
import ScriptLens.Proofs.Localization.Shown

/-!
What a lookup shows after wordings are inserted one by one. Only the insertions for its own page and
number count, if no colon is in these: each of their languages is shown once, with the last text in
it, the preferred one first and the others by number. Whatever has no number below the greatest one
shares the last place, where languages keep the order in which they first came.
-/

namespace ScriptLens

/-- A sort leaves what compares as equal in the order in which it was. -/
theorem pairwise_mergeSort_of_nodup {α : Type} [BEq α] [LawfulBEq α] {le : α → α → Bool}
    (trans : ∀ a b c, le a b = true → le b c = true → le a c = true)
    (total : ∀ a b, (le a b || le b a) = true) {l : List α} (h : l.Nodup) :
    (l.mergeSort le).Pairwise fun a b =>
      le a b = true ∧ (le b a = true → l.idxOf a < l.idxOf b) := by
  have hdistinct : (l.mergeSort le).Nodup := (List.mergeSort_perm l le).nodup_iff.2 h
  -- The core library numbers the members to say that its sort is stable.
  have hnumbered : ∀ p ∈ l.zipIdx.mergeSort (List.zipIdxLE le), p.2 = l.idxOf p.1 := by
    intro p hp
    obtain ⟨hlt, heq⟩ := List.mem_zipIdx' (List.mem_mergeSort.1 hp)
    rw [heq, h.idxOf_getElem]
  have hsorted := List.pairwise_mergeSort (List.zipIdxLE_trans trans) (List.zipIdxLE_total total)
    l.zipIdx
  have hstable : (l.mergeSort le).Pairwise fun a b =>
      le a b = true ∧ (le b a = true → l.idxOf a ≤ l.idxOf b) := by
    rw [← List.mergeSort_zipIdx, List.pairwise_map]
    refine hsorted.imp_of_mem fun {p q} hp hq hle => ?_
    rw [← hnumbered p hp, ← hnumbered q hq]
    grind [List.zipIdxLE]
  refine (hdistinct.and hstable).imp_of_mem fun {a b} ha _ hab => ?_
  have hplace : l.idxOf a ≠ l.idxOf b :=
    fun heq => hab.1 ((List.idxOf_inj (List.mem_mergeSort.1 ha)).1 heq)
  exact ⟨hab.2.1, fun hba => Nat.lt_of_le_of_ne (hab.2.2 hba) hplace⟩

namespace LocalizedTexts

def filled (preferred : Text) (limited : Bool) (inserted : List (Text × Wording)) :
    LocalizedTexts :=
  inserted.foldl (fun texts r => texts.insert r.1 r.2) (new preferred limited)

def insertedFor (page id : Text) (inserted : List (Text × Wording)) : List (Text × Text) :=
  (inserted.filter fun r => r.2.page = page ∧ r.2.id = id).map fun r => (r.1, r.2.text)

/-- Whether one of several languages is shown before another: the preferred one comes first, the
others follow by number, and by their places among the languages where the numbers are equal. -/
def ShownBefore (preferred : Text) (languages : List Text) (a b : Text) : Prop :=
  b ≠ preferred ∧ (a = preferred ∨ LanguageId.order a < LanguageId.order b ∨
    LanguageId.order a = LanguageId.order b ∧ languages.idxOf a < languages.idxOf b)

structure ShownOf (preferred : Text) (own shown : List (Text × Text)) : Prop where
  once : (shown.map Prod.fst).Perm (distinct (own.map Prod.fst))
  last : ∀ e ∈ shown, (under e.1 own).getLast? = some e.2
  sorted : (shown.map Prod.fst).Pairwise (ShownBefore preferred (distinct (own.map Prod.fst)))

def blocks? : List (Text × Text) → Option Text
  | [] => none
  | shown => some (List.intercalate ['\n', '\n'] (shown.map fun e => block e.1 e.2))

section Order

variable (preferred : Text)

theorem precedes_iff {a b : Text} :
    precedes preferred a b = true ↔
      a = preferred ∨ b ≠ preferred ∧ LanguageId.order a ≤ LanguageId.order b := by
  unfold precedes
  split <;> simp_all

theorem precedes_trans (a b c : Text) (hab : precedes preferred a b = true)
    (hbc : precedes preferred b c = true) : precedes preferred a c = true := by
  rw [precedes_iff] at *
  grind

theorem precedes_total (a b : Text) :
    (precedes preferred a b || precedes preferred b a) = true := by
  rw [Bool.or_eq_true, precedes_iff, precedes_iff]
  grind

theorem pairwise_shownBefore {languages : List Text} (h : languages.Nodup) :
    (languages.mergeSort (precedes preferred)).Pairwise (ShownBefore preferred languages) := by
  refine (pairwise_mergeSort_of_nodup (precedes_trans preferred) (precedes_total preferred)
    h).imp fun {a b} hab => ?_
  obtain ⟨hle, htie⟩ := hab
  rw [precedes_iff] at hle htie
  have hb : b ≠ preferred := by
    rintro rfl
    obtain rfl : a = b := hle.resolve_right fun h => h.1 rfl
    exact absurd (htie (.inl rfl)) (Nat.lt_irrefl _)
  refine ⟨hb, ?_⟩
  by_cases ha : a = preferred
  · exact .inl ha
  · rcases Nat.lt_or_eq_of_le (hle.resolve_left ha).2 with hlt | heq
    · exact .inr (.inl hlt)
    · exact .inr (.inr ⟨heq, htie (.inr ⟨ha, Nat.le_of_eq heq.symm⟩)⟩)

end Order

theorem shownOf_ofList (preferred : Text) (own : List (Text × Text)) :
    ShownOf preferred own ((OrderedMap.ofList own).entries.mergeSort fun a b =>
      precedes preferred a.1 b.1) := by
  have hkeys : (OrderedMap.ofList own).keys = distinct (own.map Prod.fst) :=
    OrderedMap.keys_fill_empty (fun _ text => text) own
  have hlanguages : ((OrderedMap.ofList own).entries.mergeSort fun a b =>
      precedes preferred a.1 b.1).map Prod.fst =
      (distinct (own.map Prod.fst)).mergeSort (precedes preferred) := by
    rw [← hkeys]
    exact List.map_mergeSort fun _ _ _ _ => rfl
  refine ⟨?_, fun e he => ?_, ?_⟩
  · rw [hlanguages]
    exact List.mergeSort_perm _ _
  · rw [← OrderedMap.get?_ofList]
    exact OrderedMap.mem_entries_iff.1 (List.mem_mergeSort.1 he)
  · rw [hlanguages]
    exact pairwise_shownBefore preferred (hkeys ▸ (OrderedMap.ofList own).nodup)

/-! What is stored. -/

theorem key_eq_iff_of_not_mem {page id : Text} (hpage : ':' ∉ page) (hid : ':' ∉ id)
    (page' id' : Text) : key page' id' = key page id ↔ page' = page ∧ id' = id := by
  constructor
  · intro heq
    have hcolons := congrArg (List.count ':') heq
    simp only [key, List.count_append, List.count_cons_self, List.count_eq_zero_of_not_mem hpage,
      List.count_eq_zero_of_not_mem hid] at hcolons
    have hpage' : ':' ∉ page' := List.count_eq_zero.1 (by omega)
    exact (key_eq_iff hpage' hpage).1 heq
  · rintro ⟨rfl, rfl⟩
    rfl

def addText (wordings : Option (OrderedMap Text Text)) (r : Text × Text) : OrderedMap Text Text :=
  (wordings.getD ∅).insert r.1 r.2

theorem filled_eq (preferred : Text) (limited : Bool) (inserted : List (Text × Wording)) :
    filled preferred limited inserted =
      { new preferred limited with
        entries := OrderedMap.fill addText ∅
          (inserted.map fun r => (key r.2.page r.2.id, (r.1, r.2.text))) } := by
  have hfill : ∀ texts : LocalizedTexts,
      inserted.foldl (fun texts r => texts.insert r.1 r.2) texts =
        { texts with
          entries := OrderedMap.fill addText texts.entries
            (inserted.map fun r => (key r.2.page r.2.id, (r.1, r.2.text))) } := by
    induction inserted with
    | nil => exact fun _ => rfl
    | cons r inserted ih => exact fun texts => ih (texts.insert r.1 r.2)
  exact hfill (new preferred limited)

theorem foldl_addText (own : List (Text × Text)) :
    own.foldl (fun held r => some (addText held r)) none =
      (nonempty? own).map OrderedMap.ofList := by
  cases own with
  | nil => rfl
  | cons r own => exact List.foldl_hom some fun _ _ => rfl

section Lookup

variable {page id : Text} (hpage : ':' ∉ page) (hid : ':' ∉ id)

include hpage hid

theorem under_key (inserted : List (Text × Wording)) :
    under (key page id) (inserted.map fun r => (key r.2.page r.2.id, (r.1, r.2.text))) =
      insertedFor page id inserted := by
  simp only [under, insertedFor, List.filter_map, List.map_map, Function.comp_def,
    key_eq_iff_of_not_mem hpage hid]

theorem get?_filled (preferred : Text) (limited : Bool) (inserted : List (Text × Wording)) :
    (filled preferred limited inserted).entries.get? (key page id) =
      (nonempty? (insertedFor page id inserted)).map OrderedMap.ofList := by
  rw [filled_eq]
  exact (OrderedMap.get?_fill addText ∅ _ _).trans
    ((congrArg _ (under_key hpage hid inserted)).trans (foldl_addText _))

theorem find?_unlimited (preferred : Text) (inserted : List (Text × Wording)) :
    ∃ shown, ShownOf preferred (insertedFor page id inserted) shown ∧
      (filled preferred false inserted).find? page id = blocks? shown := by
  refine ⟨_, shownOf_ofList preferred _, ?_⟩
  rw [find?, get?_filled hpage hid, filled_eq]
  cases insertedFor page id inserted with
  | nil => simp [blocks?, OrderedMap.ofList, OrderedMap.empty, nonempty?]
  | cons r own => rfl

theorem find?_limited (preferred : Text) (inserted : List (Text × Wording)) :
    (filled preferred true inserted).find? page id =
      (choices preferred).findSome? fun language =>
        (under language (insertedFor page id inserted)).getLast?.map (block language) := by
  have hlimited : (filled preferred true inserted).limited = true := by rw [filled_eq]; rfl
  have hpreferred : (filled preferred true inserted).preferred = preferred := by rw [filled_eq]; rfl
  rw [find?_of_limited hlimited, hpreferred, get?_filled hpage hid]
  cases insertedFor page id inserted with
  | nil => rfl
  | cons r own =>
    simp only [← OrderedMap.get?_ofList]
    rfl

/-- A lookup depends on what is inserted for its own page and number alone: one language after
another with its last text, or of three languages the first that has a text. -/
theorem shows_inserted (preferred : Text) (inserted : List (Text × Wording)) :
    (∀ limited other, insertedFor page id other = insertedFor page id inserted →
        (filled preferred limited other).find? page id =
          (filled preferred limited inserted).find? page id) ∧
      (∃ shown, ShownOf preferred (insertedFor page id inserted) shown ∧
        (filled preferred false inserted).find? page id = blocks? shown) ∧
      (filled preferred true inserted).find? page id =
        (choices preferred).findSome? fun language =>
          (under language (insertedFor page id inserted)).getLast?.map (block language) := by
  refine ⟨fun limited other hother => ?_, find?_unlimited hpage hid preferred inserted,
    find?_limited hpage hid preferred inserted⟩
  rw [find?, find?, get?_filled hpage hid, get?_filled hpage hid, hother, filled_eq, filled_eq]

end Lookup

section Wares

def wares : List (Text × Wording) :=
  [("44".toList, ⟨"1015".toList, ['7'], "Energy".toList⟩),
    ("49".toList, ⟨"1015".toList, ['7'], "Energiezellen".toList⟩),
    ("44".toList, ⟨"1015:7".toList, [], "Hull".toList⟩),
    (['*'], ⟨"1015".toList, ['7'], "Any".toList⟩),
    ("44".toList, ⟨"1015".toList, ['7'], "Energy Cells".toList⟩)]

theorem wares_shown :
    ':' ∉ "1015".toList ∧ ':' ∉ ['7'] ∧
      (∃ shown, ShownOf "49".toList (insertedFor "1015".toList ['7'] wares) shown ∧
        blocks? shown = some "49: Energiezellen\n\n*: Any\n\n44: Energy Cells".toList) ∧
      (filled ['7'] true wares).find? "1015".toList ['7'] = some "*: Any".toList := by
  have hpage : ':' ∉ "1015".toList := by decide
  have hid : ':' ∉ ['7'] := by decide
  obtain ⟨-, ⟨shown, hshown, hfind⟩, -⟩ := shows_inserted hpage hid "49".toList wares
  obtain ⟨-, -, hlimited⟩ := shows_inserted hpage hid ['7'] wares
  exact ⟨hpage, hid, ⟨shown, hshown, hfind.symm.trans (by cbv)⟩, hlimited.trans (by decide +kernel)⟩

def greatNumbers : List (Text × Wording) :=
  [("18446744073709551617".toList, ⟨['1'], ['1'], ['a']⟩),
    ("18446744073709551616".toList, ⟨['1'], ['1'], ['b']⟩)]

theorem greatNumbers_not_by_number :
    ∃ m n, Text.decimal? "18446744073709551617".toList = some m ∧
      Text.decimal? "18446744073709551616".toList = some n ∧ n < m ∧
      (filled "44".toList false greatNumbers).find? ['1'] ['1'] =
        some "18446744073709551617: a\n\n18446744073709551616: b".toList :=
  ⟨18446744073709551617, 18446744073709551616, by decide, by decide, by decide, by cbv⟩

end Wares

end LocalizedTexts

end ScriptLens
