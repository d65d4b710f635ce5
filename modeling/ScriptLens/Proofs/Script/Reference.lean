import ScriptLens.Proofs.Text
import ScriptLens.Script.Variable

/-!
Which parts of a value are variables, told for each place by the text on its two sides alone:
`references` lists them, and `inValue_eq_references` says that one pass over the value, which keeps
only the character before it and whether an `=` still counts, finds the same.
-/

namespace ScriptLens

def Text.cuts : Text → List (Text × Text)
  | [] => [([], [])]
  | c :: t => ([], c :: t) :: (cuts t).map fun (before, after) => (c :: before, after)

theorem Text.mem_cuts {t before after : Text} : (before, after) ∈ t.cuts ↔ t = before ++ after := by
  induction t generalizing before with
  | nil => cases before <;> simp [cuts]
  | cons c t ih =>
    cases before with
    | nil => simp [cuts, eq_comm]
    | cons d before =>
      simp only [cuts, List.mem_cons, List.mem_map, Prod.mk.injEq, Prod.exists]
      constructor
      · rintro (⟨h, _⟩ | ⟨l, r, hcut, ⟨rfl, rfl⟩, rfl⟩)
        · contradiction
        · simp [ih.1 hcut]
      · intro h
        obtain ⟨rfl, rfl⟩ := List.cons.inj h
        exact .inr ⟨before, after, ih.2 rfl, rfl, rfl⟩

namespace Occurrence

def BuildsTable (value : Text) : Prop :=
  ∃ l r, value = l ++ (tableMarker ++ r)

instance (value : Text) : Decidable (BuildsTable value) :=
  decidable_of_iff _ Text.contains_iff

theorem contains_tableMarker (value : Text) :
    Text.contains tableMarker value = decide (BuildsTable value) := by
  rw [Bool.eq_iff_iff, Text.contains_iff, decide_eq_true_iff]
  rfl

/-- An `=` after which there is neither a percent sign nor a comma. -/
def Assigns (before : Text) : Prop :=
  ∃ l r, before = l ++ '=' :: r ∧ '%' ∉ r ∧ ',' ∉ r

def admitted (value : Text) : List Char :=
  if BuildsTable value then [',', ' ', '['] else [',', '"', '[', '\x7b', '@', ' ', '.']

theorem assigns_cons {c : Char} {t : Text} :
    Assigns (c :: t) ↔ (c = '=' ∧ '%' ∉ t ∧ ',' ∉ t) ∨ Assigns t := by
  constructor
  · rintro ⟨l, r, h, hr⟩
    cases l with
    | nil =>
      obtain ⟨rfl, rfl⟩ := List.cons.inj h
      exact .inl ⟨rfl, hr⟩
    | cons d l =>
      obtain ⟨rfl, rfl⟩ := List.cons.inj h
      exact .inr ⟨l, r, rfl, hr⟩
  · rintro (⟨rfl, hr⟩ | ⟨l, r, rfl, hr⟩)
    · exact ⟨[], t, rfl, hr⟩
    · exact ⟨c :: l, r, rfl, hr⟩

theorem stillAssigned_iff {assigned : Bool} {c : Char} :
    stillAssigned assigned c = true ↔ c = '=' ∨ assigned = true ∧ c ≠ '%' ∧ c ≠ ',' := by
  by_cases he : c = '='
  · simp [stillAssigned, he]
  · by_cases hp : c = '%' <;> by_cases hc : c = ',' <;> simp_all [stillAssigned]

theorem foldl_stillAssigned {before : Text} {assigned : Bool} :
    before.foldl stillAssigned assigned = true ↔
      Assigns before ∨ assigned = true ∧ '%' ∉ before ∧ ',' ∉ before := by
  induction before generalizing assigned with
  | nil => simp [Assigns]
  | cons c t ih =>
    rw [List.foldl_cons, ih, stillAssigned_iff, assigns_cons]
    simp only [List.mem_cons, not_or, ne_eq, eq_comm (a := '%'), eq_comm (a := ',')]
    grind

instance (before : Text) : Decidable (Assigns before) :=
  decidable_of_iff (before.foldl stillAssigned false = true) (by simp [foldl_stillAssigned])

def IsIdentifier (name : Text) : Prop :=
  name.head?.any isIdentifierStart = true ∧ name.all isIdentifierPart = true

/-- The character before a place in a value, which is the quote if the value begins there. -/
def previous (a : Markup.Attribute) (before : Text) : Char :=
  before.getLast?.getD a.quote

def kindAt (a : Markup.Attribute) (before : Text) : VariableKind :=
  if ¬BuildsTable a.value ∧ previous a before = '.' ∨ BuildsTable a.value ∧ ¬Assigns before then
    .tableField
  else .plain

def reference (a : Markup.Attribute) (before name : Text) : Occurrence :=
  let start := a.valueStart + before.byteSize
  ⟨kindAt a before, name, start, start + 1 + name.byteSize⟩

def referenceAt? (a : Markup.Attribute) : (before after : Text) → Option Occurrence
  | _, [] => none
  | before, c :: t =>
    let name := t.takeWhile isIdentifierPart
    if c = '$' ∧ name.head?.any isIdentifierStart ∧ previous a before ∈ admitted a.value then
      some (reference a before name)
    else none

def references (a : Markup.Attribute) : List Occurrence :=
  a.value.cuts.filterMap fun (before, after) => referenceAt? a before after

theorem identifier_eq (t : Text) :
    identifier t =
      if (t.takeWhile isIdentifierPart).head?.any isIdentifierStart then
        t.takeWhile isIdentifierPart
      else [] := by
  cases t with
  | nil => rfl
  | cons c t =>
    by_cases hstart : isIdentifierStart c = true
    · have hpart : isIdentifierPart c = true := by simp [isIdentifierPart, hstart]
      simp [identifier, hstart, hpart]
    · by_cases hpart : isIdentifierPart c = true <;> simp [identifier, hstart, hpart]

theorem precedes_iff {value : Text} {c : Char} :
    precedes (Text.contains tableMarker value) c = true ↔ c ∈ admitted value := by
  rw [contains_tableMarker]
  by_cases h : BuildsTable value <;> simp [precedes, admitted, h, or_assoc]

theorem kind?_eq (a : Markup.Attribute) (before : Text) :
    kind? (Text.contains tableMarker a.value) (before.foldl stillAssigned false)
        (previous a before) =
      if previous a before ∈ admitted a.value then some (kindAt a before) else none := by
  unfold kind?
  by_cases hprevious : previous a before ∈ admitted a.value
  · rw [if_pos hprevious, if_pos (precedes_iff.2 hprevious)]
    have hassigned : before.foldl stillAssigned false = decide (Assigns before) := by
      rw [Bool.eq_iff_iff, foldl_stillAssigned]
      simp
    have hdot : BuildsTable a.value → previous a before ≠ '.' := by
      intro htable hdot
      simp [hdot, admitted, htable] at hprevious
    unfold kindAt
    rw [hassigned, contains_tableMarker]
    by_cases htable : BuildsTable a.value <;> by_cases hd : previous a before = '.' <;>
      by_cases ha : Assigns before <;> simp_all
  · rw [if_neg hprevious, if_neg (fun h => hprevious (precedes_iff.1 h))]

/-- What one pass over a value has found after the part `before` of it is what the cuts after that
part say. -/
theorem inValue_eq (a : Markup.Attribute) (before t : Text) :
    inValue (Text.contains tableMarker a.value) (a.valueStart + before.byteSize)
        (previous a before) (before.foldl stillAssigned false) t =
      t.cuts.filterMap fun (l, r) => referenceAt? a (before ++ l) r := by
  induction t generalizing before with
  | nil => simp [inValue, Text.cuts, referenceAt?]
  | cons c t ih =>
    have hothers := ih (before ++ [c])
    simp only [Text.byteSize_append, Text.byteSize_cons, Text.byteSize_nil, Nat.add_zero,
      List.foldl_append, List.foldl_cons, List.foldl_nil, List.append_assoc, List.cons_append,
      List.nil_append] at hothers
    rw [previous, List.getLast?_concat, Option.getD_some, ← Nat.add_assoc] at hothers
    rw [inValue, hothers, kind?_eq, identifier_eq, Text.cuts, List.filterMap_cons,
      List.filterMap_map]
    simp only [List.append_nil, referenceAt?, Function.comp_def]
    by_cases hname : (t.takeWhile isIdentifierPart).head?.any isIdentifierStart = true
    · have hne : t.takeWhile isIdentifierPart ≠ [] := by
        intro hnil
        simp [hnil] at hname
      by_cases hc : c = '$' <;> by_cases hp : previous a before ∈ admitted a.value <;>
        simp [hc, hp, hname, hne, reference]
    · simp [hname]

/-- A value holds a variable wherever `$name` stands in it at full length after an admitted
character, and nowhere else. -/
theorem mem_references {a : Markup.Attribute} {o : Occurrence} :
    o ∈ references a ↔
      ∃ before name after, a.value = before ++ '$' :: (name ++ after) ∧ IsIdentifier name ∧
        Stops isIdentifierPart after ∧ previous a before ∈ admitted a.value ∧
        o = reference a before name := by
  unfold references
  simp only [List.mem_filterMap, Prod.exists, Text.mem_cuts]
  constructor
  · rintro ⟨before, rest, hvalue, ho⟩
    cases rest with
    | nil => simp [referenceAt?] at ho
    | cons c t =>
      simp only [referenceAt?, Option.ite_none_right_eq_some, Option.some.injEq] at ho
      obtain ⟨⟨rfl, hname, hp⟩, rfl⟩ := ho
      refine ⟨before, t.takeWhile isIdentifierPart, t.dropWhile isIdentifierPart, ?_,
        ⟨hname, List.all_takeWhile⟩, ?_, hp, rfl⟩
      · rw [hvalue, List.takeWhile_append_dropWhile]
      · exact stops_dropWhile isIdentifierPart t
  · rintro ⟨before, name, after, hvalue, ⟨hstart, hall⟩, hstop, hp, rfl⟩
    refine ⟨before, '$' :: (name ++ after), hvalue, ?_⟩
    simp [referenceAt?, takeWhile_of_stops hall hstop, hstart, hp]

theorem inValue_eq_references (a : Markup.Attribute) :
    inValue (Text.contains tableMarker a.value) a.valueStart a.quote false a.value =
      references a :=
  inValue_eq a [] a.value

end Occurrence

end ScriptLens
