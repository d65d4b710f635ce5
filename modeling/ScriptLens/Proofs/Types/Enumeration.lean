import ScriptLens.Types.Expansion

/-!
All labels that a type has, and what an expansion collects of them. `typeLabels` lists them as the
recursion comes upon them, without a limit and without looking back, so a label can come up again.
An expansion stops as soon as it is full and never takes a label twice; what it ends with is the
first entry of each label, as many as there is room for.
-/

namespace ScriptLens

section First

variable {κ α : Type} [DecidableEq κ]

def firstOfEach : List (κ × α) → List (κ × α)
  | [] => []
  | e :: rest => e :: (firstOfEach rest).filter fun d => d.1 ≠ e.1

theorem firstOfEach_append {held : List (κ × α)} (h : (held.map Prod.fst).Nodup)
    (found : List (κ × α)) :
    firstOfEach (held ++ found) =
      held ++ (firstOfEach found).filter fun e => (OrderedMap.find? e.1 held).isNone := by
  induction held with
  | nil => exact (List.filter_eq_self.2 fun e _ => rfl).symm
  | cons d held ih =>
    simp only [List.map_cons, List.nodup_cons] at h
    have hkept : held.filter (fun e => e.1 ≠ d.1) = held := by
      refine List.filter_eq_self.2 fun e he => decide_eq_true fun heq => h.1 ?_
      exact heq ▸ List.mem_map_of_mem he
    simp only [List.cons_append, firstOfEach, ih h.2, List.filter_append, hkept,
      List.filter_filter]
    congr 2
    refine List.filter_congr fun e _ => ?_
    by_cases he : d.1 = e.1 <;> simp [OrderedMap.find?, he, eq_comm]

end First

namespace Candidates

def addAll (candidates : Candidates) (found : List (Text × Text)) : Candidates :=
  found.foldl (fun candidates e => candidates.add e.1 e.2) candidates

@[simp] theorem addAll_nil (candidates : Candidates) : candidates.addAll [] = candidates := rfl

@[simp] theorem addAll_cons (candidates : Candidates) (e : Text × Text)
    (found : List (Text × Text)) :
    candidates.addAll (e :: found) = (candidates.add e.1 e.2).addAll found := rfl

theorem addAll_append (candidates : Candidates) (found more : List (Text × Text)) :
    candidates.addAll (found ++ more) = (candidates.addAll found).addAll more :=
  List.foldl_append

theorem addAll_flatMap {β : Type} (candidates : Candidates) (f : β → List (Text × Text))
    (l : List β) :
    candidates.addAll (l.flatMap f) = l.foldl (fun candidates b => candidates.addAll (f b))
      candidates := by
  induction l generalizing candidates with
  | nil => rfl
  | cons b l ih => rw [List.flatMap_cons, addAll_append, ih, List.foldl_cons]

theorem add_of_isFull {candidates : Candidates} (h : candidates.isFull = true)
    (label detail : Text) : candidates.add label detail = candidates := by
  simp [add, h]

theorem addAll_of_isFull {candidates : Candidates} (h : candidates.isFull = true)
    (found : List (Text × Text)) : candidates.addAll found = candidates := by
  induction found with
  | nil => rfl
  | cons e found ih => rw [addAll_cons, add_of_isFull h, ih]

theorem add_of_isPrimitive {label : Text} (h : isPrimitive label = true) (candidates : Candidates)
    (detail : Text) : candidates.add label detail = candidates := by
  simp [add, h]

theorem add_of_contains {candidates : Candidates} {label : Text}
    (h : candidates.contains label = true) (detail : Text) :
    candidates.add label detail = candidates := by
  simp [add, h]

theorem add_of_new {candidates : Candidates} {label : Text} (hlabel : isPrimitive label = false)
    (hnew : candidates.contains label = false) (hroom : candidates.isFull = false) (detail : Text) :
    candidates.add label detail = candidates.insert label detail := by
  simp [add, hlabel, hnew, hroom]

theorem entries_addAll (candidates : Candidates) (found : List (Text × Text)) :
    (candidates.addAll found).entries =
      candidates.entries ++
        ((firstOfEach (found.filter fun e => !isPrimitive e.1)).filter fun e =>
          (candidates.get? e.1).isNone).take (limit - candidates.size) := by
  induction found generalizing candidates with
  | nil => simp [firstOfEach]
  | cons e found ih =>
    rw [addAll_cons]
    cases hlabel : isPrimitive e.1 with
    | true => rw [add_of_isPrimitive hlabel, ih]; simp [hlabel]
    | false =>
      simp only [List.filter_cons, hlabel, Bool.not_false, if_true, firstOfEach]
      cases hheld : candidates.get? e.1 with
      | some held =>
        -- What comes later under a held label is dropped with it.
        have hcontains : candidates.contains e.1 = true := by
          rw [OrderedMap.contains, hheld, Option.isSome_some]
        rw [add_of_contains hcontains, ih, Option.isNone_some, if_neg Bool.false_ne_true,
          List.filter_filter]
        congr 2
        refine List.filter_congr fun d _ => ?_
        by_cases hd : d.1 = e.1 <;> simp [hd, hheld]
      | none =>
        rw [Option.isNone_none, if_pos rfl]
        cases hfull : candidates.isFull with
        | true =>
          have hsize : limit - candidates.size = 0 := by
            simpa [isFull, Nat.sub_eq_zero_iff_le] using hfull
          rw [add_of_isFull hfull, addAll_of_isFull hfull, hsize]
          simp
        | false =>
          have hcontains : candidates.contains e.1 = false := by
            rw [OrderedMap.contains, hheld, Option.isSome_none]
          have hentries : (candidates.insert e.1 e.2).entries = candidates.entries ++ [e] := by
            refine OrderedMap.put_of_not_mem fun hkey => ?_
            rw [OrderedMap.contains_iff.2 hkey] at hcontains
            contradiction
          have hsize : limit - candidates.size = limit - (candidates.insert e.1 e.2).size + 1 := by
            have hroom : candidates.size < limit := by simpa [isFull] using hfull
            simp only [OrderedMap.size, hentries, List.length_append, List.length_singleton] at *
            omega
          rw [add_of_new hlabel hcontains hfull, ih, hentries, hsize, List.take_succ_cons,
            List.append_assoc, List.singleton_append, List.filter_filter]
          congr 3
          refine List.filter_congr fun d _ => ?_
          by_cases hd : e.1 = d.1 <;> simp [hd, eq_comm]

/-- The first of each label, a seed's own labels before all others, up to the limit. -/
theorem entries_addAll_of_le {seed : Candidates} (h : seed.size ≤ limit)
    (found : List (Text × Text)) :
    (seed.addAll found).entries =
      (firstOfEach (seed.entries ++ found.filter fun e => !isPrimitive e.1)).take limit := by
  have hseed : seed.entries.take limit = seed.entries := List.take_of_length_le h
  rw [entries_addAll, firstOfEach_append seed.nodup, List.take_append, hseed]
  rfl

end Candidates

namespace TypeRegistry

mutual

/-- The labels of a type below a path with their details, each as often as the recursion comes upon
it. -/
def typeLabels (registry : TypeRegistry) (path type : Text) (depth : Int) : List (Text × Text) :=
  if isPrimitive type ∨ 1 < depth then []
  else match registry.get? type with
  | none => []
  | some entry =>
    (if -1 < depth ∧ path ≠ [] then [(type, type)] else []) ++
      (entry.properties.entries.flatMap fun (property, propertyType) =>
        propertyLabels registry path type property propertyType (depth + 1)) ++
      (entry.supertype.elim [] fun supertype => typeLabels registry type supertype (depth + 1))
termination_by 2 * (2 - depth).toNat

def propertyLabels (registry : TypeRegistry) (path type property propertyType : Text)
    (depth : Int) : List (Text × Text) :=
  if isPrimitive property ∨ isPrimitive type then []
  else
    (propertyLabel path property, type ++ '.' :: property) ::
      typeLabels registry (propertyLabel path property) propertyType (depth + 1)
termination_by 2 * (2 - depth).toNat + 1

end

variable (registry : TypeRegistry) {depth : Int}

theorem typeLabels_of_deep (h : 1 < depth) (path type : Text) :
    registry.typeLabels path type depth = [] := by
  rw [typeLabels, if_pos (.inr h)]

theorem showsType_iff {path : Text} {n : Nat} (h : levels depth = n + 1) :
    showsType path (n + 1) = true ↔ -1 < depth ∧ path ≠ [] := by
  simp only [levels] at h
  have hdepth : n + 1 ≤ 2 ↔ -1 < depth := by omega
  rw [showsType, Bool.and_eq_true, decide_eq_true_iff, hdepth, and_comm]
  simp

theorem levels_succ {n : Nat} (h : levels depth = n + 1) : levels (depth + 1) = n := by
  simp only [levels] at h ⊢
  omega

/-- What an expansion does with a property when `n` levels are left below it. -/
def expandBelow (n : Nat) (path type property propertyType : Text) (candidates : Candidates) :
    Candidates :=
  if isPrimitive property then candidates
  else
    let label := propertyLabel path property
    let added := candidates.add label (type ++ '.' :: property)
    match n with
    | 0 => added
    | m + 1 => registry.expandLevels m label propertyType added

theorem expandLevels_succ {path type : Text} {entry : TypeEntry} (n : Nat)
    (htype : isPrimitive type = false) (hentry : registry.get? type = some entry)
    (candidates : Candidates) :
    registry.expandLevels (n + 1) path type candidates =
      let shown := if showsType path (n + 1) then candidates.add type type else candidates
      if shown.isFull then shown
      else
        let expanded := entry.properties.entries.foldl (fun candidates (property, propertyType) =>
          registry.expandBelow n path type property propertyType candidates) shown
        entry.supertype.elim expanded fun supertype =>
          registry.expandLevels n type supertype expanded := by
  rw [expandLevels, htype, hentry]
  obtain ⟨properties, supertype, literals⟩ := entry
  cases supertype <;> rfl

theorem expandBelow_eq (path : Text) {type : Text} {n : Nat} (htype : isPrimitive type = false)
    (h : levels depth = n)
    (hbelow : ∀ m, n = m + 1 → ∀ path type candidates, registry.expandLevels m path type candidates =
      candidates.addAll (registry.typeLabels path type (depth + 1)))
    (property propertyType : Text) (candidates : Candidates) :
    registry.expandBelow n path type property propertyType candidates =
      candidates.addAll (registry.propertyLabels path type property propertyType depth) := by
  rw [expandBelow, propertyLabels, htype]
  cases isPrimitive property with
  | true => rfl
  | false =>
    simp only [Bool.false_eq_true, or_self, if_false, Candidates.addAll_cons]
    cases n with
    | zero =>
      have hdeep : 1 < depth + 1 := by
        simp only [levels] at h
        omega
      rw [registry.typeLabels_of_deep hdeep, Candidates.addAll_nil]
    | succ m => exact hbelow m rfl _ _ _

/-- An expansion adds the labels of its type one after another; that it stops when it is full makes
no difference. -/
theorem expandLevels_eq (n : Nat) (path type : Text) (candidates : Candidates)
    (h : levels depth = n) :
    registry.expandLevels n path type candidates =
      candidates.addAll (registry.typeLabels path type depth) := by
  -- The supertype is one level down, and the type of a property is two.
  induction n using Nat.strongRecOn generalizing path type candidates depth with
  | ind n ih =>
    cases n with
    | zero =>
      have hdeep : 1 < depth := by
        simp only [levels] at h
        omega
      rw [expandLevels, registry.typeLabels_of_deep hdeep, Candidates.addAll_nil]
    | succ n =>
      have hdepth : ¬1 < depth := by
        simp only [levels] at h
        omega
      have hbelow : levels (depth + 1) = n := levels_succ h
      rw [typeLabels]
      cases htype : isPrimitive type with
      | true => simp [expandLevels, htype]
      | false =>
        simp only [Bool.false_eq_true, hdepth, or_self, if_false]
        cases hentry : registry.get? type with
        | none => simp [expandLevels, htype, hentry]
        | some entry =>
          have hshown : (if showsType path (n + 1) then candidates.add type type else candidates) =
              candidates.addAll (if -1 < depth ∧ path ≠ [] then [(type, type)] else []) := by
            simp only [showsType_iff h]
            split <;> rfl
          have hproperty := registry.expandBelow_eq path htype hbelow
            fun m hm path type candidates =>
              ih m (by omega) path type candidates (levels_succ (hm ▸ hbelow))
          simp only [registry.expandLevels_succ n htype hentry, hshown, Candidates.addAll_append]
          generalize candidates.addAll _ = shown
          cases hfull : shown.isFull with
          | true =>
            rw [if_pos rfl, Candidates.addAll_of_isFull hfull, Candidates.addAll_of_isFull hfull]
          | false =>
            simp only [hproperty, Candidates.addAll_flatMap, Bool.false_eq_true, if_false]
            cases entry.supertype with
            | none => rfl
            | some supertype => exact ih n (by omega) type supertype _ hbelow

/-- An expansion of a type or of one of its properties ends with the first of each label, of the
seed's and then of all labels in the order of the recursion, up to the limit. A seed that fills the
limit stays as it is. -/
theorem expansion_takes_first_of_each (path type property propertyType : Text) (depth : Int)
    (seed : Candidates) :
    (seed.size ≤ Candidates.limit →
      (registry.expandType path type seed depth).entries =
          (firstOfEach (seed.entries ++
            (registry.typeLabels path type depth).filter fun e => !isPrimitive e.1)).take
              Candidates.limit ∧
        (registry.expandProperty path type property propertyType seed depth).entries =
          (firstOfEach (seed.entries ++
            (registry.propertyLabels path type property propertyType depth).filter fun e =>
              !isPrimitive e.1)).take Candidates.limit) ∧
      (Candidates.limit ≤ seed.size →
        registry.expandType path type seed depth = seed ∧
          registry.expandProperty path type property propertyType seed depth = seed) := by
  have htype : registry.expandType path type seed depth =
      seed.addAll (registry.typeLabels path type depth) :=
    registry.expandLevels_eq (levels depth) path type seed rfl
  have hproperty : registry.expandProperty path type property propertyType seed depth =
      seed.addAll (registry.propertyLabels path type property propertyType depth) := by
    rw [expandProperty, propertyLabels]
    simp only [Bool.or_eq_true]
    split
    · rfl
    · exact registry.expandLevels_eq _ _ _ _ rfl
  rw [htype, hproperty]
  refine ⟨fun hsize => ?_, fun hsize => ?_⟩
  · exact ⟨Candidates.entries_addAll_of_le hsize _, Candidates.entries_addAll_of_le hsize _⟩
  · have hfull : seed.isFull = true := by simpa [Candidates.isFull] using hsize
    exact ⟨Candidates.addAll_of_isFull hfull _, Candidates.addAll_of_isFull hfull _⟩

def knot : TypeRegistry :=
  (declareProperty ∅ ['A'] ['p'] (some ['A'])).declareType ['A'] (some ['A'])

example : (knot.expandType [] ['A'] ∅ 0).entries =
    [(['p'], "A.p".toList), (['A'], ['A']), ("A.p".toList, "A.p".toList)] := by
  decide +kernel

def crowd : Candidates where
  entries := (List.range Candidates.limit).map fun n => (List.replicate n 'x', [])
  nodup := by
    rw [List.map_map]
    refine List.Pairwise.map _ (fun m n hne heq => hne ?_) List.nodup_range
    simpa using congrArg List.length heq

theorem knot_expansion_takes_first :
    ((∅ : Candidates).size ≤ Candidates.limit ∧
      (knot.expandType [] ['A'] ∅ 0).entries =
          (firstOfEach ((knot.typeLabels [] ['A'] 0).filter fun e => !isPrimitive e.1)).take
            Candidates.limit ∧
        (knot.expandProperty ['x'] ['A'] ['p'] ['A'] ∅ 0).entries =
          (firstOfEach ((knot.propertyLabels ['x'] ['A'] ['p'] ['A'] 0).filter fun e =>
            !isPrimitive e.1)).take Candidates.limit) ∧
      Candidates.limit ≤ crowd.size ∧
        knot.expandType ['x'] ['A'] crowd 0 = crowd ∧
          knot.expandProperty ['x'] ['A'] ['p'] ['A'] crowd 0 = crowd := by
  have hnone : (∅ : Candidates).size ≤ Candidates.limit := by
    decide
  have hcrowd : Candidates.limit ≤ crowd.size := by
    simp [OrderedMap.size, crowd]
  have htype := (knot.expansion_takes_first_of_each [] ['A'] ['p'] ['A'] 0 ∅).1 hnone
  have hproperty := (knot.expansion_takes_first_of_each ['x'] ['A'] ['p'] ['A'] 0 ∅).1 hnone
  have hfull := (knot.expansion_takes_first_of_each ['x'] ['A'] ['p'] ['A'] 0 crowd).2 hcrowd
  exact ⟨⟨hnone, htype.1, hproperty.2⟩, hcrowd, hfull⟩

end TypeRegistry

end ScriptLens
