import ScriptLens.OrderedMap

/-!
A map that is filled record by record is a grouping of the records: each key stands where it first
occurs and holds, in order, what was recorded under it.
-/

namespace ScriptLens

section New

variable {α : Type} [DecidableEq α]

def distinct (as : List α) : List α :=
  as.eraseDups

@[simp] theorem distinct_nil : distinct ([] : List α) = [] := rfl

theorem distinct_cons (a : α) (as : List α) :
    distinct (a :: as) = a :: distinct (as.filter (· ≠ a)) := by
  rw [distinct, List.eraseDups_cons, distinct]
  congr 3
  funext b
  by_cases h : b = a <;> simp [h]

@[simp] theorem mem_distinct {a : α} {as : List α} : a ∈ distinct as ↔ a ∈ as :=
  List.mem_eraseDups

def addNew (held : List α) (a : α) : List α :=
  if a ∈ held then held else held ++ [a]

theorem foldl_addNew (held as : List α) :
    as.foldl addNew held = held ++ distinct (as.filter (· ∉ held)) := by
  induction as generalizing held with
  | nil => simp
  | cons a as ih =>
    rw [List.foldl_cons, ih, addNew]
    by_cases h : a ∈ held
    · simp [h]
    · have hmore : as.filter (· ∉ held ++ [a]) = (as.filter (· ∉ held)).filter (· ≠ a) := by
        rw [List.filter_filter]
        refine List.filter_congr fun b _ => ?_
        by_cases hb : b = a <;> simp [hb]
      simp only [h, if_false, List.filter_cons, not_false_eq_true, decide_true, if_true, hmore,
        distinct_cons, List.append_assoc, List.singleton_append]

theorem foldl_addNew_nil (as : List α) : as.foldl addNew [] = distinct as := by
  have hall : as.filter (· ∉ ([] : List α)) = as :=
    List.filter_eq_self.2 fun a _ => decide_eq_true List.not_mem_nil
  rw [foldl_addNew, List.nil_append, hall]

end New

theorem mem_map_fst_flatMap_pair {κ α β : Type} {k : κ} {key : β → κ} {f : β → List α}
    {l : List β} :
    k ∈ (l.flatMap fun b => (f b).map fun a => (key b, a)).map Prod.fst ↔
      ∃ b ∈ l, f b ≠ [] ∧ key b = k := by
  simp only [List.map_flatMap, List.map_map, List.mem_flatMap, List.mem_map, Function.comp_apply,
    ← List.isEmpty_eq_false_iff, List.isEmpty_eq_false_iff_exists_mem, exists_and_right]

section Grouped

variable {κ α : Type} [DecidableEq κ]

def under (k : κ) (records : List (κ × α)) : List α :=
  (records.filter fun r => r.1 = k).map Prod.snd

def grouped (records : List (κ × α)) : List (κ × List α) :=
  (records.map Prod.fst).eraseDups.map fun k => (k, under k records)

theorem under_cons (k : κ) (r : κ × α) (records : List (κ × α)) :
    under k (r :: records) = if r.1 = k then r.2 :: under k records else under k records := by
  by_cases h : r.1 = k <;> simp [under, h]

theorem under_append (k : κ) (l r : List (κ × α)) : under k (l ++ r) = under k l ++ under k r := by
  simp [under]

theorem under_map_pair (k k' : κ) (l : List α) :
    under k (l.map fun a => (k', a)) = if k' = k then l else [] := by
  by_cases h : k' = k <;> simp [under, List.filter_map, Function.comp_def, h]

theorem under_flatMap_pair {β : Type} (k : κ) (key : β → κ) (f : β → List α) (l : List β) :
    under k (l.flatMap fun b => (f b).map fun a => (key b, a)) =
      (l.filter fun b => key b = k).flatMap f := by
  induction l with
  | nil => rfl
  | cons b l ih =>
    rw [List.flatMap_cons, under_append, ih, under_map_pair]
    by_cases h : key b = k <;> simp [h]

theorem under_ne_nil {k : κ} {records : List (κ × α)} (h : k ∈ records.map Prod.fst) :
    under k records ≠ [] := by
  obtain ⟨r, hr, rfl⟩ := List.mem_map.1 h
  have hm : r.2 ∈ under r.1 records :=
    List.mem_map.2 ⟨r, List.mem_filter.2 ⟨hr, by simp⟩, rfl⟩
  exact List.ne_nil_of_mem hm

/-- Records in another order: neighbours under different keys change places, any number of times. -/
inductive Reordered : List (κ × α) → List (κ × α) → Prop
  | refl (records : List (κ × α)) : Reordered records records
  | swap (before : List (κ × α)) {r s : κ × α} (after : List (κ × α)) : r.1 ≠ s.1 →
      Reordered (before ++ r :: s :: after) (before ++ s :: r :: after)
  | trans {records more rest : List (κ × α)} : Reordered records more → Reordered more rest →
      Reordered records rest

theorem Reordered.under_eq {records records' : List (κ × α)} (h : Reordered records records')
    (k : κ) : under k records' = under k records := by
  induction h with
  | refl => rfl
  | @swap before r s after hne =>
    rw [under_append, under_append, under_cons, under_cons, under_cons, under_cons]
    by_cases hr : r.1 = k
    · have hs : ¬s.1 = k := fun hs => hne (hr.trans hs.symm)
      rw [if_pos hr, if_neg hs, if_neg hs, if_pos hr]
    · rw [if_neg hr, if_neg hr]
  | trans _ _ ih ih' => rw [ih', ih]

end Grouped

def nonempty? {α : Type} (l : List α) : Option (List α) :=
  if l.isEmpty then none else some l

theorem nonempty?_map {α β : Type} (f : α → β) (l : List α) :
    nonempty? (l.map f) = (nonempty? l).map (List.map f) := by
  cases l <;> rfl

theorem getD_nonempty? {α : Type} (l : List α) : (nonempty? l).getD [] = l := by
  cases l <;> rfl

theorem nonempty?_eq_none_iff {α : Type} {l : List α} : nonempty? l = none ↔ l = [] := by
  cases l <;> simp [nonempty?]

theorem eq_of_nonempty? {α : Type} {l held : List α} (h : nonempty? l = some held) : held = l := by
  rw [← getD_nonempty? l, h, Option.getD_some]

namespace OrderedMap

variable {κ α β : Type} [DecidableEq κ]

theorem find?_of_mem {entries : List (κ × α)} (h : (entries.map Prod.fst).Nodup) {e : κ × α}
    (he : e ∈ entries) : find? e.1 entries = some e.2 := by
  induction entries with
  | nil => simp at he
  | cons d rest ih =>
    simp only [List.map_cons, List.nodup_cons] at h
    rcases List.mem_cons.1 he with rfl | he
    · simp [find?]
    · have hne : d.1 ≠ e.1 := by
        intro hd
        exact h.1 (hd ▸ List.mem_map_of_mem he)
      simp [find?, hne, ih h.2 he]

theorem mem_of_find? {entries : List (κ × α)} {k : κ} {a : α} (h : find? k entries = some a) :
    (k, a) ∈ entries := by
  induction entries with
  | nil => simp [find?] at h
  | cons e rest ih =>
    by_cases hk : e.1 = k
    · subst hk
      obtain rfl : e.2 = a := by simpa [find?] using h
      exact List.mem_cons_self
    · have hrest : find? k rest = some a := by simpa [find?, hk] using h
      exact List.mem_cons_of_mem e (ih hrest)

theorem mem_entries_iff {m : OrderedMap κ α} {k : κ} {a : α} :
    (k, a) ∈ m.entries ↔ m.get? k = some a :=
  ⟨fun h => find?_of_mem m.nodup h, mem_of_find?⟩

theorem put_of_find? {k : κ} {a : α} {entries : List (κ × α)} (h : find? k entries = some a) :
    put k a entries = entries := by
  induction entries with
  | nil => cases h
  | cons e rest ih =>
    by_cases hk : e.1 = k
    · subst hk
      obtain rfl : e.2 = a := by simpa [find?] using h
      simp [put]
    · have hrest : find? k rest = some a := by simpa [find?, hk] using h
      simp [put, hk, ih hrest]

theorem insert_of_get? {m : OrderedMap κ α} {k : κ} {a : α} (h : m.get? k = some a) :
    m.insert k a = m :=
  ext (put_of_find? h)

theorem entries_eq_of_get? (m : OrderedMap κ α) (f : κ → α)
    (h : ∀ k ∈ m.keys, m.get? k = some (f k)) : m.entries = m.keys.map fun k => (k, f k) := by
  have hentry : ∀ e ∈ m.entries, (e.1, f e.1) = e := by
    intro e he
    have hget := h e.1 (List.mem_map_of_mem he)
    rw [get?, find?_of_mem m.nodup he] at hget
    exact Prod.ext rfl (Option.some.inj hget).symm
  calc m.entries
    _ = m.entries.map id := (List.map_id _).symm
    _ = m.entries.map fun e => (e.1, f e.1) :=
      List.map_congr_left fun e he => (hentry e he).symm
    _ = m.keys.map fun k => (k, f k) := by rw [keys, List.map_map]; rfl

def fill (add : Option β → α → β) (m : OrderedMap κ β) (records : List (κ × α)) :
    OrderedMap κ β :=
  records.foldl (fun m r => m.alter r.1 fun held => add held r.2) m

variable (add : Option β → α → β)

theorem get?_fill (m : OrderedMap κ β) (records : List (κ × α)) (k : κ) :
    (fill add m records).get? k =
      (under k records).foldl (fun held a => some (add held a)) (m.get? k) := by
  induction records generalizing m with
  | nil => rfl
  | cons r records ih =>
    have hstep := ih (m.alter r.1 fun held => add held r.2)
    rw [get?_alter] at hstep
    rw [fill, List.foldl_cons, ← fill, hstep, under_cons]
    by_cases h : r.1 = k
    · subst h
      simp
    · simp [h]

theorem keys_fill (m : OrderedMap κ β) (records : List (κ × α)) :
    (fill add m records).keys = (records.map Prod.fst).foldl addNew m.keys := by
  induction records generalizing m with
  | nil => rfl
  | cons r records ih =>
    have hstep := ih (m.alter r.1 fun held => add held r.2)
    rw [alter, keys_insert] at hstep
    exact hstep

theorem keys_fill_empty (records : List (κ × α)) :
    (fill add ∅ records).keys = distinct (records.map Prod.fst) :=
  (keys_fill add ∅ records).trans (foldl_addNew_nil _)

theorem foldl_last {f : α → β} (hadd : ∀ (held : Option α) a, add (held.map f) a = f a)
    (as : List α) (held : Option α) :
    as.foldl (fun held a => some (add held a)) (held.map f) = (as.getLast?.or held).map f := by
  induction as generalizing held with
  | nil => rfl
  | cons a as ih =>
    rw [List.foldl_cons, hadd, List.getLast?_cons]
    refine (ih (some a)).trans ?_
    cases as.getLast? <;> rfl

theorem get?_fill_last {f : α → β} (hadd : ∀ (held : Option α) a, add (held.map f) a = f a)
    (records : List (κ × α)) (k : κ) :
    (fill add ∅ records).get? k = (under k records).getLast?.map f := by
  rw [get?_fill]
  refine (foldl_last add hadd _ none).trans ?_
  rw [Option.or_none]

theorem get?_ofList (records : List (κ × α)) (k : κ) :
    (ofList records).get? k = (under k records).getLast? := by
  have hlast := get?_fill_last (fun _ a => a) (f := id) (fun _ _ => rfl) records k
  rwa [Option.map_id] at hlast

theorem entries_fill (records : List (κ × α)) (f : List α → β)
    (hf : ∀ a as, (a :: as).foldl (fun held a => some (add held a)) none = some (f (a :: as))) :
    (fill add ∅ records).entries = (grouped records).map fun (k, held) => (k, f held) := by
  have hkeys := keys_fill_empty add records
  have hget : ∀ k ∈ (fill add ∅ records).keys,
      (fill add ∅ records).get? k = some (f (under k records)) := by
    intro k hk
    rw [hkeys, mem_distinct] at hk
    obtain ⟨a, as, ha⟩ := List.exists_cons_of_ne_nil (under_ne_nil hk)
    rw [get?_fill, ha]
    exact hf a as
  rw [entries_eq_of_get? _ _ hget, hkeys, grouped, List.map_map]
  rfl

theorem eq_of_keys_of_get? {m m' : OrderedMap κ α} (hkeys : m.keys = m'.keys)
    (hget : ∀ k, m.get? k = m'.get? k) : m = m' := by
  have hentries : ∀ m : OrderedMap κ α,
      (m.entries.map fun e => (e.1, some e.2)) = m.keys.map fun k => (k, m.get? k) := by
    intro m
    rw [keys, List.map_map]
    exact List.map_congr_left fun e he => by rw [Function.comp_apply, mem_entries_iff.1 he]
  have hinj : ∀ e e' : κ × α, (e.1, some e.2) = (e'.1, some e'.2) → e = e' := by
    rintro ⟨k, a⟩ ⟨k', a'⟩ heq
    cases heq
    rfl
  refine ext ((List.map_inj_right hinj).1 ?_)
  rw [hentries, hentries, hkeys]
  simp only [hget]

theorem get?_of_isPrefix {m m' : OrderedMap κ α} (h : m.entries <+: m'.entries) {k : κ} {a : α}
    (hget : m.get? k = some a) : m'.get? k = some a :=
  mem_entries_iff.1 (h.subset (mem_entries_iff.2 hget))

def putAll (m : OrderedMap κ α) (records : List (κ × α)) : OrderedMap κ α :=
  fill (fun _ a => a) m records

theorem keys_putAll (m : OrderedMap κ α) (records : List (κ × α)) :
    (m.putAll records).keys = (records.map Prod.fst).foldl addNew m.keys :=
  keys_fill _ m records

theorem get?_putAll (m : OrderedMap κ α) (records : List (κ × α)) (k : κ) :
    (m.putAll records).get? k = (under k records).getLast?.or (m.get? k) := by
  have hlast := foldl_last (fun _ a => a) (f := id) (fun _ _ => rfl) (under k records) (m.get? k)
  rw [Option.map_id_apply, Option.map_id_apply] at hlast
  rw [putAll, get?_fill, hlast]

theorem putAll_putAll (m : OrderedMap κ α) (records : List (κ × α)) :
    (m.putAll records).putAll records = m.putAll records := by
  refine eq_of_keys_of_get? ?_ fun k => ?_
  · have hheld : ∀ k ∈ records.map Prod.fst, k ∈ (m.putAll records).keys := by
      intro k hk
      rw [keys_putAll, foldl_addNew, List.mem_append, mem_distinct, List.mem_filter]
      by_cases h : k ∈ m.keys
      · exact .inl h
      · exact .inr ⟨hk, decide_eq_true h⟩
    have hnew : (records.map Prod.fst).filter (· ∉ (m.putAll records).keys) = [] :=
      List.filter_eq_nil_iff.2 fun k hk => by simpa using hheld k hk
    rw [keys_putAll (m.putAll records), foldl_addNew, hnew, distinct_nil, List.append_nil]
  · simp only [get?_putAll]
    cases (under k records).getLast? <;> rfl

end OrderedMap

end ScriptLens
