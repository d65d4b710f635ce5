import ScriptLens.Completion.Resolve
import ScriptLens.Proofs.Types.Enumeration

/-!
What completes a path, level by level. A type that a path ends in offers its own properties, and
below each the properties of the property's type; a type that is found by a fragment of its name
offers its own properties and, below its name, those of its supertype. There the expansion ends,
however types refer to one another.
-/

namespace ScriptLens

section First

variable {κ α : Type} [DecidableEq κ]

theorem mem_of_mem_firstOfEach {e : κ × α} {found : List (κ × α)} (h : e ∈ firstOfEach found) :
    e ∈ found := by
  induction found with
  | nil => exact h
  | cons d found ih =>
    rcases List.mem_cons.1 h with rfl | h
    · exact List.mem_cons_self
    · exact List.mem_cons_of_mem d (ih (List.mem_filter.1 h).1)

theorem mem_keys_firstOfEach {k : κ} {found : List (κ × α)} :
    k ∈ (firstOfEach found).map Prod.fst ↔ k ∈ found.map Prod.fst := by
  induction found with
  | nil => rfl
  | cons d found ih =>
    by_cases hk : k = d.1
    · simp [firstOfEach, hk]
    · have hrest : k ∈ ((firstOfEach found).filter fun e => e.1 ≠ d.1).map Prod.fst ↔
          k ∈ (firstOfEach found).map Prod.fst := by
        simp only [List.mem_map, List.mem_filter]
        constructor
        · rintro ⟨e, ⟨he, -⟩, rfl⟩
          exact ⟨e, he, rfl⟩
        · rintro ⟨e, he, rfl⟩
          exact ⟨e, ⟨he, decide_eq_true hk⟩, rfl⟩
      rw [firstOfEach, List.map_cons, List.mem_cons, hrest, ih, List.map_cons, List.mem_cons]

end First

namespace Candidates

theorem entries_addAll_eq_take (candidates : Candidates) (found : List (Text × Text)) :
    (candidates.addAll found).entries =
      (firstOfEach (candidates.entries ++ found.filter fun e => !isPrimitive e.1)).take
        (max limit candidates.size) := by
  have hroom : max limit candidates.size - candidates.size = limit - candidates.size := by omega
  have hkept : candidates.entries.take (max limit candidates.size) = candidates.entries :=
    List.take_of_length_le (Nat.le_max_right _ _)
  rw [entries_addAll, firstOfEach_append candidates.nodup, List.take_append, hkept,
    ← OrderedMap.size, hroom]
  rfl

theorem contains_addAll_or_isFull (candidates : Candidates) {found : List (Text × Text)}
    {e : Text × Text} (he : e ∈ found) (hlabel : isPrimitive e.1 = false) :
    (candidates.addAll found).contains e.1 = true ∨ (candidates.addAll found).isFull = true := by
  have hentries := candidates.entries_addAll_eq_take found
  have hkey : e.1 ∈ (firstOfEach (candidates.entries ++
      found.filter fun e => !isPrimitive e.1)).map Prod.fst :=
    mem_keys_firstOfEach.2 (List.mem_map_of_mem (List.mem_append_right _
      (List.mem_filter.2 ⟨he, by simp [hlabel]⟩)))
  generalize firstOfEach (candidates.entries ++ found.filter fun e => !isPrimitive e.1) = labels
    at hentries hkey
  rcases Nat.le_total labels.length (max limit candidates.size) with hle | hle
  · left
    rw [List.take_of_length_le hle] at hentries
    rw [OrderedMap.contains_iff, OrderedMap.keys, hentries]
    exact hkey
  · right
    rw [isFull, OrderedMap.size, hentries, List.length_take, decide_eq_true_iff]
    omega

theorem entries_insertNew (candidates : Candidates) (found : List (Text × Text)) :
    (found.foldl (fun candidates e =>
        if candidates.contains e.1 then candidates else candidates.insert e.1 e.2)
      candidates).entries = firstOfEach (candidates.entries ++ found) := by
  induction found generalizing candidates with
  | nil => rw [firstOfEach_append candidates.nodup]; exact (List.append_nil _).symm
  | cons e found ih =>
    rw [List.foldl_cons, ih]
    split
    next hheld =>
      have hfound : (OrderedMap.find? e.1 candidates.entries).isNone = false := by
        rw [Option.isNone_eq_false_iff]
        exact hheld
      have hother : ∀ d : Text × Text, ((OrderedMap.find? d.1 candidates.entries).isNone &&
          decide (d.1 ≠ e.1)) = (OrderedMap.find? d.1 candidates.entries).isNone := by
        intro d
        by_cases hd : d.1 = e.1 <;> simp [hd, hfound]
      rw [firstOfEach_append candidates.nodup, firstOfEach_append candidates.nodup, firstOfEach,
        List.filter_cons, hfound, if_neg Bool.false_ne_true, List.filter_filter]
      simp only [hother]
    next hnew =>
      have hentries : (candidates.insert e.1 e.2).entries = candidates.entries ++ [e] :=
        OrderedMap.put_of_not_mem fun hkey => hnew (OrderedMap.contains_iff.2 hkey)
      rw [hentries, List.append_assoc, List.singleton_append]

end Candidates

namespace TypeRegistry

open Markup

section Spec

variable (registry : TypeRegistry)

/-- The properties of a type, those with primitive names left out; none if there is no such type. -/
def ownProperties (type : Text) : List (Text × Text) :=
  ((registry.get? type).map fun entry =>
    entry.properties.entries.filter fun p => !isPrimitive p.1).getD []

def supertype? (type : Text) : Option Text :=
  (registry.get? type).bind (·.supertype)

def completes (type : Text) : Bool :=
  registry.contains type && !isPrimitive type

/-- What a type offers below a path: its own name, and each of its properties at the end of the
path. -/
def offersBelow (path type : Text) : List (Text × Text) :=
  if registry.completes type then
    (type, type) :: (registry.ownProperties type).map fun q =>
      (path ++ '.' :: escapeAngles q.1, type ++ '.' :: q.1)
  else []

def offersAfter (type : Text) : List (Text × Text) :=
  if registry.completes type then
    (registry.ownProperties type).flatMap fun p =>
      (p.1, type ++ '.' :: p.1) :: registry.offersBelow p.1 p.2
  else []

def offersByName (type : Text) : List (Text × Text) :=
  if registry.completes type then
    ((registry.ownProperties type).map fun p => (p.1, type ++ '.' :: p.1)) ++
      ((registry.supertype? type).map (registry.offersBelow type)).getD []
  else []

def offersNamed (fragment : Text) : List (Text × Text) :=
  (registry.keys.filter (Text.startsWith fragment)).flatMap registry.offersByName

def offersLiterals (type : Text) : List (Text × Text) :=
  (((registry.get? type).map (·.literals)).getD []).map fun literal =>
    (literal ++ ['\x7d'], literal ++ ['\x7d'])

theorem ne_nil_of_not_isPrimitive {name : Text} (h : isPrimitive name = false) : name ≠ [] := by
  rintro rfl
  exact Bool.false_ne_true h.symm

theorem not_isPrimitive_of_completes {type : Text} (h : registry.completes type = true) :
    isPrimitive type = false := by
  rw [completes, Bool.and_eq_true, Bool.not_eq_true'] at h
  exact h.2

/-! The labels of an expansion, as the levels allow. -/

variable {depth : Int}

theorem flatMap_ownProperties {type : Text} {entry : TypeEntry}
    (hentry : registry.get? type = some entry) (htype : isPrimitive type = false)
    {f g : Text × Text → List (Text × Text)} (hf : ∀ p, isPrimitive p.1 = false → f p = g p) :
    (entry.properties.entries.flatMap fun p =>
        if isPrimitive p.1 ∨ isPrimitive type then [] else f p) =
      (registry.ownProperties type).flatMap g := by
  have hown : registry.ownProperties type =
      entry.properties.entries.filter fun p => !isPrimitive p.1 := by
    rw [ownProperties, hentry]
    rfl
  rw [hown]
  induction entry.properties.entries with
  | nil => rfl
  | cons p ps ih =>
    rw [List.flatMap_cons, ih, List.filter_cons]
    cases hp : isPrimitive p.1 with
    | true => simp
    | false => simp [htype, hf p hp]

/-- One level of an expansion: the properties of a type, each with what is two levels below it, and
the supertype one level below. -/
theorem typeLabels_of_le (h : depth ≤ 1) (path type : Text) :
    registry.typeLabels path type depth =
      if registry.completes type then
        (if -1 < depth ∧ path ≠ [] then [(type, type)] else []) ++
          ((registry.ownProperties type).flatMap fun p =>
            (propertyLabel path p.1, type ++ '.' :: p.1) ::
              registry.typeLabels (propertyLabel path p.1) p.2 (depth + 1 + 1)) ++
            ((registry.supertype? type).map fun supertype =>
              registry.typeLabels type supertype (depth + 1)).getD []
      else [] := by
  rw [typeLabels, completes, OrderedMap.contains, supertype?]
  cases htype : isPrimitive type with
  | true => simp
  | false =>
    cases hentry : registry.get? type with
    | none => simp
    | some entry =>
      have hproperties := registry.flatMap_ownProperties hentry htype (f := fun p =>
        (propertyLabel path p.1, type ++ '.' :: p.1) ::
          registry.typeLabels (propertyLabel path p.1) p.2 (depth + 1 + 1)) fun _ _ => rfl
      simp only [Bool.false_eq_true, Int.not_lt.2 h, or_self, if_false, Option.isSome_some,
        Bool.not_false, Bool.and_true, if_true, ← hproperties, htype, propertyLabels,
        Option.bind_some]
      cases entry.supertype <;> rfl

theorem typeLabels_one {path : Text} (hpath : path ≠ []) (type : Text) :
    registry.typeLabels path type 1 = registry.offersBelow path type := by
  have hlabel : ∀ property, propertyLabel path property = path ++ '.' :: escapeAngles property := by
    intro property
    simp [propertyLabel, hpath]
  have hdeep : ∀ path type, registry.typeLabels path type (1 + 1 + 1) = [] ∧
      registry.typeLabels path type (1 + 1) = [] := fun path type =>
    ⟨registry.typeLabels_of_deep (by decide) path type,
      registry.typeLabels_of_deep (by decide) path type⟩
  rw [registry.typeLabels_of_le (Int.le_refl 1), offersBelow]
  cases registry.completes type with
  | false => rfl
  | true =>
    simp only [if_true, hpath, hdeep, hlabel, ne_eq, not_false_eq_true, and_true,
      ← List.map_eq_flatMap]
    cases registry.supertype? type <;> simp

theorem typeLabels_zero (type : Text) :
    registry.typeLabels [] type 0 = registry.offersByName type := by
  have hdeep : ∀ path type, registry.typeLabels path type (0 + 1 + 1) = [] :=
    registry.typeLabels_of_deep (by decide)
  rw [registry.typeLabels_of_le (by decide), offersByName]
  cases hcompletes : registry.completes type with
  | false => rfl
  | true =>
    have htype := ne_nil_of_not_isPrimitive (registry.not_isPrimitive_of_completes hcompletes)
    have hbelow : (fun supertype => registry.typeLabels type supertype (0 + 1)) =
        registry.offersBelow type := funext fun supertype => registry.typeLabels_one htype supertype
    simp only [if_true, hdeep, hbelow, propertyLabel, ne_eq, not_true_eq_false, and_false, if_false,
      List.nil_append, List.isEmpty_nil, ← List.map_eq_flatMap]

theorem flatMap_propertyLabels {type : Text} {entry : TypeEntry}
    (hentry : registry.get? type = some entry) :
    (entry.properties.entries.flatMap fun p => registry.propertyLabels [] type p.1 p.2 0) =
      registry.offersAfter type := by
  rw [offersAfter, completes, OrderedMap.contains, hentry, Option.isSome_some, Bool.true_and]
  simp only [propertyLabels]
  by_cases htype : isPrimitive type = true
  · simp [htype]
  · rw [Bool.not_eq_true] at htype
    rw [if_pos (by simp [htype])]
    refine registry.flatMap_ownProperties hentry htype fun p hp => ?_
    rw [← registry.typeLabels_one (ne_nil_of_not_isPrimitive hp)]
    rfl

theorem expandType_eq_addAll (path type : Text) (candidates : Candidates) (depth : Int) :
    registry.expandType path type candidates depth =
      candidates.addAll (registry.typeLabels path type depth) :=
  registry.expandLevels_eq (levels depth) path type candidates rfl

theorem expandProperty_eq_addAll (path type property propertyType : Text) (candidates : Candidates)
    (depth : Int) :
    registry.expandProperty path type property propertyType candidates depth =
      candidates.addAll (registry.propertyLabels path type property propertyType depth) := by
  rw [expandProperty, propertyLabels, expandType_eq_addAll]
  simp only [Bool.or_eq_true]
  split <;> rfl

theorem ofPrevious_eq (type : Text) :
    registry.ofPrevious type = (∅ : Candidates).addAll (registry.offersAfter type) := by
  unfold ofPrevious
  cases hentry : registry.get? type with
  | none =>
    have hnone : registry.offersAfter type = [] := by
      simp [offersAfter, completes, OrderedMap.contains, hentry]
    rw [hnone]
    rfl
  | some entry =>
    simp only [expandProperty_eq_addAll]
    rw [← registry.flatMap_propertyLabels hentry, Candidates.addAll_flatMap]

theorem byName_eq (fragment : Text) (candidates : Candidates) :
    registry.byName fragment candidates =
      candidates.addAll (registry.offersNamed fragment) := by
  simp only [byName, expandType_eq_addAll, typeLabels_zero]
  rw [offersNamed, Candidates.addAll_flatMap]

theorem entries_literalCandidates (type : Text) :
    (registry.literalCandidates type).entries = firstOfEach (registry.offersLiterals type) := by
  rw [literalCandidates, offersLiterals]
  cases registry.get? type with
  | none => rfl
  | some entry =>
    have hall := Candidates.entries_insertNew ∅
      (entry.literals.map fun literal => (literal ++ ['\x7d'], literal ++ ['\x7d']))
    rw [List.foldl_map] at hall
    exact hall

theorem mem_ownProperties {type : Text} {p : Text × Text} :
    p ∈ registry.ownProperties type ↔ ∃ entry, registry.get? type = some entry ∧
      p ∈ entry.properties.entries ∧ isPrimitive p.1 = false := by
  unfold ownProperties
  cases registry.get? type <;> simp

inductive Label : Text → Prop
  | literal {type literal : Text} {entry : TypeEntry} : registry.get? type = some entry →
      literal ∈ entry.literals → Label (literal ++ ['\x7d'])
  | type {type : Text} : registry.completes type = true → Label type
  | property {type p t : Text} : (p, t) ∈ registry.ownProperties type → Label p
  | nested {type below p q t u : Text} : (p, t) ∈ registry.ownProperties type →
      (q, u) ∈ registry.ownProperties below → Label (p ++ '.' :: escapeAngles q)
  | inherited {type supertype q u : Text} : registry.completes type = true →
      (q, u) ∈ registry.ownProperties supertype → Label (type ++ '.' :: escapeAngles q)

theorem label_of_mem_offersLiterals {type : Text} {e : Text × Text}
    (h : e ∈ registry.offersLiterals type) : registry.Label e.1 := by
  unfold offersLiterals at h
  cases hentry : registry.get? type with
  | none => simp [hentry] at h
  | some entry =>
    rw [hentry] at h
    obtain ⟨literal, hliteral, rfl⟩ := List.mem_map.1 h
    exact .literal hentry hliteral

theorem mem_offersBelow {path type : Text} {e : Text × Text}
    (h : e ∈ registry.offersBelow path type) :
    registry.completes type = true ∧ e.1 = type ∨
      ∃ q ∈ registry.ownProperties type, e.1 = path ++ '.' :: escapeAngles q.1 := by
  unfold offersBelow at h
  split at h
  next hcompletes =>
    rcases List.mem_cons.1 h with rfl | h
    · exact .inl ⟨hcompletes, rfl⟩
    · obtain ⟨q, hq, rfl⟩ := List.mem_map.1 h
      exact .inr ⟨q, hq, rfl⟩
  next => cases h

theorem label_of_mem_offersAfter {type : Text} {e : Text × Text}
    (h : e ∈ registry.offersAfter type) : registry.Label e.1 := by
  unfold offersAfter at h
  split at h
  next =>
    obtain ⟨p, hp, h⟩ := List.mem_flatMap.1 h
    rcases List.mem_cons.1 h with rfl | h
    · exact .property hp
    rcases registry.mem_offersBelow h with ⟨hcompletes, heq⟩ | ⟨q, hq, heq⟩
    · exact heq ▸ .type hcompletes
    · exact heq ▸ .nested hp hq
  next => cases h

theorem label_of_mem_offersByName {type : Text} {e : Text × Text}
    (h : e ∈ registry.offersByName type) : registry.Label e.1 := by
  unfold offersByName at h
  split at h
  next htype =>
    rcases List.mem_append.1 h with h | h
    · obtain ⟨p, hp, rfl⟩ := List.mem_map.1 h
      exact .property hp
    cases hsupertype : registry.supertype? type with
    | none => simp [hsupertype] at h
    | some supertype =>
      rw [hsupertype] at h
      rcases registry.mem_offersBelow h with ⟨hcompletes, heq⟩ | ⟨q, hq, heq⟩
      · exact heq ▸ .type hcompletes
      · exact heq ▸ .inherited htype hq
  next => cases h

theorem isPrimitive_of_mark {name : Text} {c : Char} (hc : c = '.' ∨ c = '\x7d') (h : c ∈ name) :
    isPrimitive name = false := by
  rw [isPrimitive, List.contains_eq_mem, decide_eq_false_iff_not]
  intro hname
  have hnone : ∀ primitive ∈ ["".toList, "boolean".toList, "int".toList, "string".toList,
      "list".toList, TypeEntry.baseType], '.' ∉ primitive ∧ '\x7d' ∉ primitive := by
    decide
  rcases hc with rfl | rfl
  · exact (hnone name hname).1 h
  · exact (hnone name hname).2 h

theorem Label.not_isPrimitive {label : Text} (h : registry.Label label) :
    isPrimitive label = false := by
  cases h with
  | literal => exact isPrimitive_of_mark (.inr rfl) (by simp)
  | type hcompletes => exact registry.not_isPrimitive_of_completes hcompletes
  | property hp =>
    obtain ⟨_, -, -, hproperty⟩ := registry.mem_ownProperties.1 hp
    exact hproperty
  | nested => exact isPrimitive_of_mark (.inl rfl) (by simp)
  | inherited => exact isPrimitive_of_mark (.inl rfl) (by simp)

theorem entries_ofPrevious (type : Text) :
    (registry.ofPrevious type).entries =
      (firstOfEach (registry.offersAfter type)).take Candidates.limit := by
  have hlabels : (registry.offersAfter type).filter (fun e => !isPrimitive e.1) =
      registry.offersAfter type := by
    refine List.filter_eq_self.2 fun e he => ?_
    simp [(registry.label_of_mem_offersAfter he).not_isPrimitive]
  rw [ofPrevious_eq, Candidates.entries_addAll_eq_take, hlabels]
  rfl

theorem label_of_mem_offersNamed {fragment : Text} {e : Text × Text}
    (h : e ∈ registry.offersNamed fragment) : registry.Label e.1 := by
  obtain ⟨name, -, he⟩ := List.mem_flatMap.1 h
  exact registry.label_of_mem_offersByName he

theorem entries_byName (fragment : Text) (candidates : Candidates) :
    (registry.byName fragment candidates).entries =
      (firstOfEach (candidates.entries ++ registry.offersNamed fragment)).take
        (max Candidates.limit candidates.size) := by
  have hlabels : (registry.offersNamed fragment).filter (fun e => !isPrimitive e.1) =
      registry.offersNamed fragment := by
    refine List.filter_eq_self.2 fun e he => ?_
    simp [(registry.label_of_mem_offersNamed he).not_isPrimitive]
  rw [byName_eq, Candidates.entries_addAll_eq_take, hlabels]

/-- A path that ends in a type offers what stands after the type; a fragment offers, after the
literals that a brace asks for, what the types offer whose names begin with it. The first of each
label is offered, and no more than the limit unless there are more literals. -/
theorem resolve_offers (context : PathContext) :
    (registry.resolve context).entries =
      if context.previous ≠ [] ∧ context.previous.head? ≠ some '\x7b' then
        (firstOfEach (registry.offersAfter context.previous)).take Candidates.limit
      else if context.previous = [] ∧ context.current.length < leastFragment then []
      else
        let braced := Text.after? ['\x7b'] context.previous
        let literals := firstOfEach ((braced.map registry.offersLiterals).getD [])
        (firstOfEach (literals ++ registry.offersNamed context.current)).take
          (max Candidates.limit literals.length) := by
  have hempty : (∅ : Candidates).entries = [] := rfl
  obtain ⟨previous, current⟩ := context
  cases previous with
  | nil =>
    by_cases hshort : current.length < leastFragment
    · simp [resolve, hshort, hempty]
    · simp [resolve, hshort, entries_byName, hempty, Text.after?, OrderedMap.size, firstOfEach]
  | cons c type =>
    by_cases hbrace : c = '\x7b'
    · simp [resolve, hbrace, entries_byName, entries_literalCandidates, Text.after?,
        OrderedMap.size]
    · simp [resolve, hbrace, entries_ofPrevious]

def fleet : TypeRegistry :=
  (declareProperty ∅ "Ship".toList "cargo".toList (some "Hold".toList)).declareProperty
    "Hold".toList "amount".toList (some "int".toList)

example : (fleet.resolve ⟨"Ship".toList, []⟩).keys =
    ["cargo".toList, "Hold".toList, "cargo.amount".toList] := by
  decide +kernel

end Spec

end TypeRegistry

end ScriptLens
