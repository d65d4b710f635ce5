/-!
Finite maps that remember the order in which their keys were first inserted. Each key occurs once:
that is part of the type, and the laws below say what each operation does to `get?` and `keys`.
-/

namespace ScriptLens

structure OrderedMap (κ α : Type) where
  entries : List (κ × α)
  nodup : (entries.map Prod.fst).Nodup := by simp

namespace OrderedMap

variable {κ α : Type}

theorem ext {m m' : OrderedMap κ α} (h : m.entries = m'.entries) : m = m' := by
  cases m
  cases m'
  cases h
  rfl

def empty : OrderedMap κ α where
  entries := []

instance : Inhabited (OrderedMap κ α) := ⟨empty⟩

instance : EmptyCollection (OrderedMap κ α) := ⟨empty⟩

instance [DecidableEq κ] [DecidableEq α] : DecidableEq (OrderedMap κ α) := fun m m' =>
  if h : m.entries = m'.entries then isTrue (ext h) else isFalse fun hm => h (hm ▸ rfl)

def keys (m : OrderedMap κ α) : List κ := m.entries.map Prod.fst

def values (m : OrderedMap κ α) : List α := m.entries.map Prod.snd

def size (m : OrderedMap κ α) : Nat := m.entries.length

def isEmpty (m : OrderedMap κ α) : Bool := m.entries.isEmpty

variable [DecidableEq κ]

def find? (k : κ) : List (κ × α) → Option α
  | [] => none
  | (k', a) :: rest => if k' = k then some a else find? k rest

def get? (m : OrderedMap κ α) (k : κ) : Option α := find? k m.entries

def contains (m : OrderedMap κ α) (k : κ) : Bool := (m.get? k).isSome

/-- Gives a key its value, in the key's place or else at the end. -/
def put (k : κ) (a : α) : List (κ × α) → List (κ × α)
  | [] => [(k, a)]
  | (k', a') :: rest => if k' = k then (k, a) :: rest else (k', a') :: put k a rest

theorem mem_keys_put {k k' : κ} {a : α} {entries : List (κ × α)} :
    k' ∈ (put k a entries).map Prod.fst ↔ k' = k ∨ k' ∈ entries.map Prod.fst := by
  induction entries with
  | nil => simp [put]
  | cons e rest ih =>
    unfold put
    split
    next h => subst h; simp
    next => simp only [List.map_cons, List.mem_cons, ih]; grind

theorem nodup_put {k : κ} {a : α} {entries : List (κ × α)} (h : (entries.map Prod.fst).Nodup) :
    ((put k a entries).map Prod.fst).Nodup := by
  induction entries with
  | nil => simp [put]
  | cons e rest ih =>
    simp only [List.map_cons, List.nodup_cons] at h
    unfold put
    split
    next hk => subst hk; simpa using h
    next hk =>
      simp only [List.map_cons, List.nodup_cons, mem_keys_put]
      exact ⟨fun hm => hm.elim hk h.1, ih h.2⟩

def insert (m : OrderedMap κ α) (k : κ) (a : α) : OrderedMap κ α where
  entries := put k a m.entries
  nodup := nodup_put m.nodup

def alter (m : OrderedMap κ α) (k : κ) (f : Option α → α) : OrderedMap κ α :=
  m.insert k (f (m.get? k))

/-- The later entries keep their order. -/
def erase (m : OrderedMap κ α) (k : κ) : OrderedMap κ α where
  entries := m.entries.filter fun e => e.1 ≠ k
  nodup := m.nodup.sublist (List.filter_sublist.map _)

def ofList (entries : List (κ × α)) : OrderedMap κ α :=
  entries.foldl (fun m e => m.insert e.1 e.2) empty

theorem find?_put (k k' : κ) (a : α) (entries : List (κ × α)) :
    find? k' (put k a entries) = if k = k' then some a else find? k' entries := by
  induction entries with
  | nil => simp [put, find?]
  | cons e rest ih =>
    unfold put
    split
    next h => subst h; simp only [find?]; split <;> rfl
    next h => simp only [find?, ih]; grind

@[simp] theorem get?_insert (m : OrderedMap κ α) (k k' : κ) (a : α) :
    (m.insert k a).get? k' = if k = k' then some a else m.get? k' :=
  find?_put k k' a m.entries

@[simp] theorem get?_alter (m : OrderedMap κ α) (k k' : κ) (f : Option α → α) :
    (m.alter k f).get? k' = if k = k' then some (f (m.get? k)) else m.get? k' :=
  get?_insert m k k' _

@[simp] theorem get?_erase (m : OrderedMap κ α) (k k' : κ) :
    (m.erase k).get? k' = if k = k' then none else m.get? k' := by
  change find? k' (m.entries.filter fun e => e.1 ≠ k) = if k = k' then none else find? k' m.entries
  induction m.entries with
  | nil => simp [find?]
  | cons e rest ih =>
    simp only [List.filter_cons]
    split
    next h => simp only [find?, ih]; grind
    next h => simp only [find?, ih]; grind

theorem put_of_not_mem {k : κ} {a : α} {entries : List (κ × α)}
    (h : k ∉ entries.map Prod.fst) : put k a entries = entries ++ [(k, a)] := by
  induction entries with
  | nil => rfl
  | cons e rest ih =>
    simp only [List.map_cons, List.mem_cons, not_or] at h
    unfold put
    simp [Ne.symm h.1, ih h.2]

theorem map_fst_put_of_mem {k : κ} {a : α} {entries : List (κ × α)}
    (h : k ∈ entries.map Prod.fst) : (put k a entries).map Prod.fst = entries.map Prod.fst := by
  induction entries with
  | nil => simp at h
  | cons e rest ih =>
    unfold put
    split
    next he => subst he; simp
    next he =>
      have hr : k ∈ rest.map Prod.fst := by
        rcases List.mem_cons.1 h with rfl | hr
        · exact absurd rfl he
        · exact hr
      simp [ih hr]

theorem isSome_find? {k : κ} {entries : List (κ × α)} :
    (find? k entries).isSome = true ↔ k ∈ entries.map Prod.fst := by
  induction entries with
  | nil => simp [find?]
  | cons e rest ih =>
    by_cases h : e.1 = k
    · simp [find?, h]
    · simp [find?, h, Ne.symm h, ih]

theorem contains_iff {m : OrderedMap κ α} {k : κ} : m.contains k = true ↔ k ∈ m.keys :=
  isSome_find?

theorem keys_insert (m : OrderedMap κ α) (k : κ) (a : α) :
    (m.insert k a).keys = if k ∈ m.keys then m.keys else m.keys ++ [k] := by
  split
  next h => exact map_fst_put_of_mem h
  next h =>
    have hp : (m.insert k a).entries = m.entries ++ [(k, a)] := put_of_not_mem h
    simp [keys, hp]

end OrderedMap

end ScriptLens
