import ScriptLens.Proofs.Script.Reference

/-!
Texts cut into pieces, some of which are variables. A piece with a variable in it begins with the
character before the variable, so two variables are never next to each other. `Spelled` tells the
cuts of a value that are right; they are found again in the value (`Spelled.inValue_eq`), and every
value has one.
-/

namespace ScriptLens

open Occurrence

inductive Piece where
  | other (t : Text)
  /-- The name of a parameter with the quotes around it. -/
  | declared (quote : Char) (value : Text)
  | reference (previous : Char) (kind : VariableKind) (name : Text)

namespace Piece

def text : Piece → Text
  | .other t => t
  | .declared quote value => quote :: (value ++ [quote])
  | .reference previous _ name => previous :: '$' :: name

def Valid : Piece → Prop
  | .other _ => True
  | .declared quote _ => Markup.isQuote quote = true
  | .reference _ _ name => IsIdentifier name

def occurrence? (offset : Nat) : Piece → Option Occurrence
  | .other _ => none
  | .declared quote value =>
    let start := offset + quote.utf8Size
    some ⟨.plain, value, start, start + value.byteSize⟩
  | .reference previous kind name =>
    let start := offset + previous.utf8Size
    some ⟨kind, name, start, start + 1 + name.byteSize⟩

end Piece

def spell (pieces : List Piece) : Text :=
  pieces.flatMap Piece.text

@[simp] theorem spell_nil : spell [] = [] := rfl

@[simp] theorem spell_cons (p : Piece) (rest : List Piece) :
    spell (p :: rest) = p.text ++ spell rest := rfl

@[simp] theorem spell_append (pieces more : List Piece) :
    spell (pieces ++ more) = spell pieces ++ spell more := by
  simp [spell]

def occurrencesIn (offset : Nat) : List Piece → List Occurrence
  | [] => []
  | p :: rest => (p.occurrence? offset).toList ++ occurrencesIn (offset + p.text.byteSize) rest

theorem occurrencesIn_append (offset : Nat) (pieces more : List Piece) :
    occurrencesIn offset (pieces ++ more) =
      occurrencesIn offset pieces ++ occurrencesIn (offset + (spell pieces).byteSize) more := by
  induction pieces generalizing offset with
  | nil => simp [occurrencesIn]
  | cons p rest ih => simp [occurrencesIn, ih, Nat.add_assoc]

/-! What one pass over a value does at a character and at a name. -/

def Refers (t : Text) : Prop :=
  t.head? = some '$' ∧ t.tail.head?.any isIdentifierStart = true

section Pass

variable {isTable assigned : Bool} {previous c : Char} {t name rest : Text}

theorem identifier_ne_nil_iff : identifier t ≠ [] ↔ t.head?.any isIdentifierStart = true := by
  cases t with
  | nil => simp [identifier]
  | cons c t => by_cases h : isIdentifierStart c = true <;> simp [identifier, h]

theorem identifier_append (hname : IsIdentifier name) (hrest : Stops isIdentifierPart rest) :
    identifier (name ++ rest) = name := by
  obtain ⟨hstart, hall⟩ := hname
  rw [identifier_eq, takeWhile_of_stops hall hrest, if_pos hstart]

theorem ne_nil_of_isIdentifier (hname : IsIdentifier name) : name ≠ [] := by
  rintro rfl
  exact absurd hname.1 (by decide)

theorem isIdentifierPart_getLast (hname : IsIdentifier name) (c : Char) :
    isIdentifierPart (name.getLast?.getD c) = true := by
  have hne := ne_nil_of_isIdentifier hname
  rw [List.getLast?_eq_some_getLast hne, Option.getD_some]
  exact List.all_eq_true.1 hname.2 _ (List.getLast_mem hne)

theorem kind?_of_isIdentifierPart (h : isIdentifierPart c = true) :
    kind? isTable assigned c = none := by
  have hprecedes : precedes isTable c = false := by
    cases hp : precedes isTable c with
    | false => rfl
    | true =>
      cases isTable
      · simp only [precedes, Bool.false_eq_true, if_false, Bool.or_eq_true, beq_iff_eq] at hp
        rcases hp with (((((rfl | rfl) | rfl) | rfl) | rfl) | rfl) | rfl <;> revert h <;> decide
      · simp only [precedes, if_true, Bool.or_eq_true, beq_iff_eq] at hp
        rcases hp with (rfl | rfl) | rfl <;> revert h <;> decide
  simp [kind?, hprecedes]

theorem stillAssigned_of_isIdentifierPart (h : isIdentifierPart c = true) :
    stillAssigned assigned c = assigned := by
  have hequals : c ≠ '=' := by
    rintro rfl
    revert h
    decide
  have hpercent : c ≠ '%' := by
    rintro rfl
    revert h
    decide
  have hcomma : c ≠ ',' := by
    rintro rfl
    revert h
    decide
  simp [stillAssigned, hequals, hpercent, hcomma]

theorem inValue_cons (offset : Nat)
    (h : Refers (c :: t) → kind? isTable assigned previous = none) :
    inValue isTable offset previous assigned (c :: t) =
      inValue isTable (offset + c.utf8Size) c (stillAssigned assigned c) t := by
  rw [inValue]
  split
  next hc =>
    have hrefers : Refers (c :: t) := ⟨by simp [hc.1], identifier_ne_nil_iff.1 hc.2⟩
    rw [h hrefers]
  next => rfl

theorem inValue_name (offset : Nat) (hname : name.all isIdentifierPart = true) :
    inValue isTable offset previous assigned (name ++ rest) =
      inValue isTable (offset + name.byteSize) (name.getLast?.getD previous) assigned rest := by
  induction name generalizing offset previous with
  | nil => rfl
  | cons c name ih =>
    simp only [List.all_cons, Bool.and_eq_true] at hname
    have hdollar : ¬Refers (c :: (name ++ rest)) := by
      rintro ⟨hc, _⟩
      obtain rfl : c = '$' := by simpa using hc
      exact absurd hname.1 (by decide)
    rw [List.cons_append, inValue_cons offset fun h => absurd h hdollar,
      stillAssigned_of_isIdentifierPart hname.1, ih (offset + c.utf8Size) hname.2]
    simp [Nat.add_assoc, List.getLast?_cons]

theorem inValue_reference {kind : VariableKind} (offset : Nat) (hname : IsIdentifier name)
    (hrest : Stops isIdentifierPart rest)
    (hkind : kind? isTable assigned previous = some kind) :
    inValue isTable offset previous assigned ('$' :: (name ++ rest)) =
      ⟨kind, name, offset, offset + 1 + name.byteSize⟩ ::
        inValue isTable (offset + 1 + name.byteSize) (name.getLast?.getD '$') assigned rest := by
  have hne := ne_nil_of_isIdentifier hname
  have hassigned : stillAssigned assigned '$' = assigned := by
    simp [stillAssigned]
  have hsize : '$'.utf8Size = 1 := rfl
  rw [inValue, identifier_append hname hrest]
  simp only [true_and, hne, ne_eq, not_false_eq_true, if_true, hkind, hassigned, hsize]
  rw [inValue_name (offset + 1) hname.2]

end Pass

/-- Pieces that cut a value, its opening quote included, as a pass over the value does. Each is
told by whether an `=` counts before it and by how the next one begins. -/
inductive Spelled (isTable : Bool) : (assigned : Bool) → List Piece → Prop where
  | nil {assigned : Bool} : Spelled isTable assigned []
  | other {assigned : Bool} {c : Char} {rest : List Piece}
    (quiet : Refers (spell rest) → kind? isTable (stillAssigned assigned c) c = none)
    (others : Spelled isTable (stillAssigned assigned c) rest) :
    Spelled isTable assigned (.other [c] :: rest)
  | reference {assigned : Bool} {c : Char} {kind : VariableKind} {name : Text} {rest : List Piece}
    (admitted : kind? isTable (stillAssigned assigned c) c = some kind)
    (identifier : IsIdentifier name)
    (stops : Stops isIdentifierPart (spell rest))
    (others : Spelled isTable (stillAssigned assigned c) rest) :
    Spelled isTable assigned (.reference c kind name :: rest)

namespace Spelled

variable {isTable assigned : Bool} {pieces : List Piece}

theorem eq_nil_or_exists_cons (h : Spelled isTable assigned pieces) :
    pieces = [] ∨ ∃ c t, spell pieces = c :: t := by
  cases h with
  | nil => exact .inl rfl
  | other quiet others => exact .inr ⟨_, _, rfl⟩
  | reference admitted identifier stops others => exact .inr ⟨_, _, rfl⟩

theorem valid (h : Spelled isTable assigned pieces) : ∀ p ∈ pieces, p.Valid := by
  induction h with
  | nil => simp
  | other quiet others ih =>
    simp only [List.mem_cons, forall_eq_or_imp]
    exact ⟨trivial, ih⟩
  | reference admitted identifier stops others ih =>
    simp only [List.mem_cons, forall_eq_or_imp]
    exact ⟨identifier, ih⟩

/-- A pass over a value finds the variables of the pieces that spell it. -/
theorem inValue_eq (h : Spelled isTable assigned pieces) {c : Char} {t : Text}
    (ht : spell pieces = c :: t) (offset : Nat) :
    inValue isTable (offset + c.utf8Size) c (stillAssigned assigned c) t =
      occurrencesIn offset pieces := by
  induction h generalizing c t offset with
  | nil => simp at ht
  | @other assigned d rest quiet others ih =>
    obtain ⟨rfl, rfl⟩ : d = c ∧ spell rest = t := by simpa [Piece.text] using ht
    rcases others.eq_nil_or_exists_cons with rfl | ⟨e, u, hu⟩
    · rfl
    · have hrest := ih hu (offset + d.utf8Size)
      rw [hu] at quiet
      rw [hu, inValue_cons _ quiet, hrest]
      simp [occurrencesIn, Piece.occurrence?, Piece.text]
  | @reference assigned d kind name rest admitted identifier stops others ih =>
    obtain ⟨rfl, rfl⟩ : d = c ∧ '$' :: (name ++ spell rest) = t := by
      simpa [Piece.text] using ht
    obtain ⟨hstart, hall⟩ := identifier
    have hsize : '$'.utf8Size = 1 := rfl
    rw [inValue_reference _ ⟨hstart, hall⟩ stops admitted]
    simp only [occurrencesIn, Piece.occurrence?, Piece.text, Option.toList_some,
      List.singleton_append, List.cons.injEq, true_and]
    rcases others.eq_nil_or_exists_cons with rfl | ⟨e, u, hu⟩
    · rfl
    · -- After a name the previous character is a part of it, and no variable follows such a one.
      have hlast : kind? isTable (stillAssigned assigned d) (name.getLast?.getD '$') = none :=
        kind?_of_isIdentifierPart (isIdentifierPart_getLast ⟨hstart, hall⟩ '$')
      have hrest := ih hu (offset + d.utf8Size + 1 + name.byteSize)
      rw [hu, inValue_cons _ fun _ => hlast, hrest]
      simp [hsize, Nat.add_assoc]

theorem exists_pieces (isTable assigned : Bool) (c : Char) (t : Text) :
    ∃ pieces, spell pieces = c :: t ∧ Spelled isTable assigned pieces := by
  -- On the length, since a variable is cut off with the whole of its name.
  induction hn : t.length using Nat.strongRecOn generalizing assigned c t with
  | ind n ih =>
    have hmore : ∀ (counts : Bool) (u : Text), u.length ≤ n →
        ∃ pieces, spell pieces = u ∧ Spelled isTable counts pieces := by
      intro counts u hu
      cases u with
      | nil => exact ⟨[], rfl, .nil⟩
      | cons d u => exact ih u.length (Nat.lt_of_succ_le hu) counts d u rfl
    by_cases hquiet : Refers t → kind? isTable (stillAssigned assigned c) c = none
    · obtain ⟨rest, rfl, hrest⟩ := hmore (stillAssigned assigned c) t (Nat.le_of_eq hn)
      exact ⟨.other [c] :: rest, rfl, .other hquiet hrest⟩
    · obtain ⟨⟨hdollar, hname⟩, hkind⟩ := Classical.not_imp.1 hquiet
      obtain ⟨kind, hadmitted⟩ := Option.ne_none_iff_exists'.1 hkind
      obtain ⟨w, rfl⟩ := List.head?_eq_some_iff.1 hdollar
      have hidentifier : IsIdentifier (w.takeWhile isIdentifierPart) := by
        have hne := identifier_ne_nil_iff.2 hname
        rw [identifier_eq] at hne
        split at hne
        next hstart => exact ⟨hstart, List.all_takeWhile⟩
        next => contradiction
      have hlength : (w.dropWhile isIdentifierPart).length ≤ n := by
        have hle : (w.dropWhile isIdentifierPart).length ≤ w.length :=
          (List.dropWhile_sublist isIdentifierPart).length_le
        simp only [List.length_cons] at hn
        omega
      obtain ⟨rest, hspell, hrest⟩ := hmore (stillAssigned assigned c)
        (w.dropWhile isIdentifierPart) hlength
      refine ⟨.reference c kind (w.takeWhile isIdentifierPart) :: rest, ?_,
        .reference hadmitted hidentifier ?_ hrest⟩
      · simp [Piece.text, hspell]
      · rw [hspell]
        exact stops_dropWhile isIdentifierPart w

end Spelled

end ScriptLens
