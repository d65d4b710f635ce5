import ScriptLens.Proofs.Script.Piece
import ScriptLens.Script.VariableTable

/-!
Renaming a variable in a value. What makes the rest of the value mean what it did is that a name is
put for a name: the character after a variable, the equals signs and the table marker stay where
they are, as long as neither name ends as the marker begins.
-/

namespace ScriptLens

open Occurrence

def markerName : Text := "table".toList

/-- The variables of a kind and a bare name are to have a new name. -/
structure Renaming where
  kind : VariableKind
  old : Text
  new : Text
  identifier : IsIdentifier new
  oldEnding : Text.endsWith markerName old = false
  newEnding : Text.endsWith markerName new = false

namespace Renaming

def Concerns (r : Renaming) (kind : VariableKind) (name : Text) : Prop :=
  kind = r.kind ∧ bareName name = r.old

instance (r : Renaming) (kind : VariableKind) (name : Text) : Decidable (r.Concerns kind name) :=
  inferInstanceAs (Decidable (_ ∧ _))

/-- What is put for a text; a dollar sign before it stays. -/
def written (r : Renaming) (t : Text) : Text :=
  if Text.startsWith ['$'] t then '$' :: r.new else r.new

end Renaming

namespace Piece

def renamed (r : Renaming) : Piece → Piece
  | .other t => .other t
  | .declared quote value =>
    .declared quote (if r.Concerns .plain value then r.written value else value)
  | .reference previous kind name =>
    .reference previous kind (if r.Concerns kind name then r.new else name)

theorem Valid.renamed {p : Piece} (h : p.Valid) (r : Renaming) : (p.renamed r).Valid := by
  cases p with
  | other t => trivial
  | declared quote value => exact h
  | reference previous kind name =>
    change IsIdentifier (if r.Concerns kind name then r.new else name)
    split
    · exact r.identifier
    · exact h

end Piece

/-! The marker, told by the names before its bracket. -/

theorem bareName_of_isIdentifier {name : Text} (h : IsIdentifier name) : bareName name = name := by
  cases name with
  | nil => rfl
  | cons c t =>
    have hc : isIdentifierStart c = true := by simpa using h.1
    have hdollar : c ≠ '$' := by
      rintro rfl
      exact absurd hc (by decide)
    have hat : c ≠ '@' := by
      rintro rfl
      exact absurd hc (by decide)
    simp [bareName, hdollar, hat]

def marks : (run : Text) → Text → Bool
  | _, [] => false
  | run, c :: t =>
    (c == '[' && Text.endsWith markerName run) ||
      marks (if isIdentifierPart c then run ++ [c] else []) t

theorem tableMarker_eq : tableMarker = markerName ++ ['['] := by
  decide

theorem not_isIdentifierPart_bracket : isIdentifierPart '[' = false := by
  decide

/-- A bracket that follows no name ends the marker only if the name before it does not. -/
theorem marker_at_bracket {run l r t : Text} {c : Char} (hrun : run.all isIdentifierPart = true)
    (hc : isIdentifierPart c = false) (h : run ++ c :: t = l ++ (tableMarker ++ r)) :
    (c = '[' ∧ ∃ l', run = l' ++ markerName) ∨ ∃ l', t = l' ++ (tableMarker ++ r) := by
  have hall : markerName.all isIdentifierPart = true := by
    decide
  rw [tableMarker_eq, List.append_assoc, List.singleton_append] at h ⊢
  rcases List.append_eq_append_iff.1 h with ⟨a, rfl, ha⟩ | ⟨a, rfl, ha⟩
  · -- The marker begins after the name.
    cases a with
    | nil =>
      obtain ⟨rfl, _⟩ := List.cons.inj ha
      exact absurd hc (by decide)
    | cons d a =>
      obtain ⟨rfl, rfl⟩ := List.cons.inj ha
      exact .inr ⟨a, rfl⟩
  · -- The marker begins in the name, so it ends with the first character after it.
    rcases List.append_eq_append_iff.1 ha with ⟨b, rfl, hb⟩ | ⟨b, hname, hb⟩
    · cases b with
      | nil =>
        obtain ⟨rfl, _⟩ := List.cons.inj hb
        exact .inl ⟨rfl, l, by simp⟩
      | cons d b =>
        obtain ⟨rfl, _⟩ := List.cons.inj hb
        have hbracket := List.all_eq_true.1 hrun '['
          (List.mem_append_right l (List.mem_append_right markerName List.mem_cons_self))
        rw [not_isIdentifierPart_bracket] at hbracket
        contradiction
    · cases b with
      | nil =>
        obtain ⟨rfl, _⟩ := List.cons.inj hb
        rw [List.append_nil] at hname
        exact .inl ⟨rfl, l, by rw [hname]⟩
      | cons d b =>
        obtain ⟨rfl, _⟩ := List.cons.inj hb
        rw [hname] at hall
        have hpart := List.all_eq_true.1 hall c (List.mem_append_right a List.mem_cons_self)
        rw [hc] at hpart
        contradiction

theorem marks_iff {run t : Text} (hrun : run.all isIdentifierPart = true) :
    marks run t = true ↔ ∃ l r, run ++ t = l ++ (tableMarker ++ r) := by
  induction t generalizing run with
  | nil =>
    constructor
    · simp [marks]
    · rintro ⟨l, r, h⟩
      rw [List.append_nil] at h
      have hbracket := List.all_eq_true.1 hrun '[' (by simp [h, tableMarker_eq])
      rw [not_isIdentifierPart_bracket] at hbracket
      contradiction
  | cons c t ih =>
    by_cases hc : isIdentifierPart c = true
    · have hbracket : c ≠ '[' := by
        rintro rfl
        exact absurd hc (by decide)
      have hlonger : (run ++ [c]).all isIdentifierPart = true := by
        rw [List.all_append, hrun]
        simp [hc]
      have hrest := ih hlonger
      simpa [marks, hc, hbracket] using hrest
    · have hc' := eq_false_of_ne_true hc
      have hrest := @ih [] rfl
      rw [marks, if_neg hc, Bool.or_eq_true, hrest, Bool.and_eq_true, beq_iff_eq, Text.endsWith_iff]
      constructor
      · rintro (⟨rfl, l, rfl⟩ | ⟨l, r, h⟩)
        · exact ⟨l, t, by simp [tableMarker_eq]⟩
        · exact ⟨run ++ c :: l, r, by simpa using h⟩
      · rintro ⟨l, r, h⟩
        rcases marker_at_bracket hrun hc' h with hend | ⟨l', h'⟩
        · exact .inl hend
        · exact .inr ⟨l', r, h'⟩

theorem marks_name {run name rest : Text} (hname : name.all isIdentifierPart = true) :
    marks run (name ++ rest) = marks (run ++ name) rest := by
  induction name generalizing run with
  | nil => simp
  | cons c name ih =>
    simp only [List.all_cons, Bool.and_eq_true] at hname
    have hbracket : c ≠ '[' := by
      rintro rfl
      exact absurd hname.1 (by decide)
    simp [marks, hname.1, hbracket, ih hname.2]

theorem contains_tableMarker_eq_marks (t : Text) :
    Text.contains tableMarker t = marks [] t := by
  rw [Bool.eq_iff_iff, Text.contains_iff, marks_iff rfl]
  rfl

/-! A renamed value. -/

section Value

variable {isTable assigned : Bool} {pieces : List Piece} (r : Renaming)

theorem Spelled.head?_renamed (h : Spelled isTable assigned pieces) :
    (spell (pieces.map (Piece.renamed r))).head? = (spell pieces).head? := by
  cases h <;> rfl

theorem Spelled.refers_renamed (h : Spelled isTable assigned pieces) :
    Refers (spell (pieces.map (Piece.renamed r))) ↔ Refers (spell pieces) := by
  have htail : (spell (pieces.map (Piece.renamed r))).tail.head? = (spell pieces).tail.head? := by
    cases h with
    | nil => rfl
    | other quiet others => exact others.head?_renamed r
    | reference admitted identifier stops others => rfl
  unfold Refers
  rw [h.head?_renamed r, htail]

theorem Spelled.renamed (h : Spelled isTable assigned pieces) :
    Spelled isTable assigned (pieces.map (Piece.renamed r)) := by
  induction h with
  | nil => exact .nil
  | other quiet others ih =>
    refine .other (fun hrefers => ?_) ih
    exact quiet ((others.refers_renamed r).1 hrefers)
  | @reference _ previous kind name _ admitted identifier stops others ih =>
    have hvalid : (Piece.reference previous kind name).Valid := identifier
    refine .reference admitted (hvalid.renamed r) ?_ ih
    unfold Stops at stops ⊢
    rw [others.head?_renamed r, stops]

/-- Two names before a text make no difference to the marker if they are one, or if neither ends as
the marker begins and the text does not go on with them. -/
def Interchangeable (run run' t : Text) : Prop :=
  run' = run ∨ Text.endsWith markerName run = false ∧ Text.endsWith markerName run' = false ∧
    Stops isIdentifierPart t

theorem Interchangeable.marks_cons {run run' t t' : Text} {c : Char}
    (h : Interchangeable run run' (c :: t)) (ht : ∀ s, marks s t' = marks s t) :
    marks run' (c :: t') = marks run (c :: t) := by
  rcases h with rfl | ⟨hold, hnew, hstop⟩
  · rw [marks, marks, ht]
  · have hc : isIdentifierPart c = false := by simpa using hstop
    rw [marks, marks, hold, hnew, hc, ht]
    rfl

theorem Renaming.interchangeable {kind : VariableKind} {name t : Text} (hname : IsIdentifier name)
    (ht : Stops isIdentifierPart t) :
    Interchangeable name (if r.Concerns kind name then r.new else name) t := by
  split
  next hconcerns =>
    have hold : name = r.old := by
      rw [← hconcerns.2, bareName_of_isIdentifier hname]
    exact .inr ⟨hold ▸ r.oldEnding, r.newEnding, ht⟩
  next => exact .inl rfl

theorem Spelled.marks_renamed (h : Spelled isTable assigned pieces) {run run' : Text}
    (hrun : Interchangeable run run' (spell pieces)) :
    marks run' (spell (pieces.map (Piece.renamed r))) = marks run (spell pieces) := by
  induction h generalizing run run' with
  | nil => rfl
  | other quiet others ih => exact hrun.marks_cons fun s => ih (.inl rfl)
  | @reference _ previous kind name rest admitted identifier stops others ih =>
    have hnew : IsIdentifier (if r.Concerns kind name then r.new else name) :=
      Piece.Valid.renamed (p := .reference previous kind name) identifier r
    refine hrun.marks_cons fun s => ?_
    -- A dollar sign ends every name, so the marker cannot reach over it.
    have hdollar : ∀ t, marks s ('$' :: t) = marks [] t := by
      intro t
      rw [marks, if_neg (by decide)]
      rfl
    change marks s ('$' :: ((if r.Concerns kind name then r.new else name) ++
      spell (rest.map (Piece.renamed r)))) = marks s ('$' :: (name ++ spell rest))
    rw [hdollar, hdollar, marks_name hnew.2, marks_name identifier.2]
    exact ih (r.interchangeable identifier stops)

theorem Renaming.mem_written {c : Char} {t : Text} (h : c ∈ r.written t) :
    c ∈ t ∨ isIdentifierPart c = true := by
  have hnew : ∀ d ∈ r.new, isIdentifierPart d = true := List.all_eq_true.1 r.identifier.2
  unfold written at h
  split at h
  next hdollar =>
    rcases List.mem_cons.1 h with rfl | h
    · cases t with
      | nil => simp at hdollar
      | cons d t =>
        obtain rfl : '$' = d := by simpa using hdollar
        exact .inl List.mem_cons_self
    · exact .inr (hnew c h)
  next => exact .inr (hnew c h)

theorem mem_spell_renamed {c : Char} (h : c ∈ spell (pieces.map (Piece.renamed r))) :
    c ∈ spell pieces ∨ isIdentifierPart c = true := by
  obtain ⟨q, hq, hc⟩ := List.mem_flatMap.1 h
  obtain ⟨p, hp, rfl⟩ := List.mem_map.1 hq
  have hmem : ∀ t, t = p.text → c ∈ t → c ∈ spell pieces := by
    rintro t rfl ht
    exact List.mem_flatMap.2 ⟨p, hp, ht⟩
  cases p with
  | other t => exact .inl (hmem t rfl hc)
  | declared quote value =>
    by_cases hconcerns : r.Concerns .plain value
    · simp only [Piece.renamed, Piece.text, hconcerns, if_true, List.mem_cons, List.mem_append,
        List.not_mem_nil, or_false] at hc
      rcases hc with rfl | hc | rfl
      · exact .inl (hmem _ rfl (by simp [Piece.text]))
      · exact (r.mem_written hc).imp (fun hv => hmem _ rfl (by simp [Piece.text, hv])) id
      · exact .inl (hmem _ rfl (by simp [Piece.text]))
    · rw [Piece.renamed, if_neg hconcerns] at hc
      exact .inl (hmem _ rfl hc)
  | reference previous kind name =>
    by_cases hconcerns : r.Concerns kind name
    · simp only [Piece.renamed, Piece.text, hconcerns, if_true, List.mem_cons] at hc
      rcases hc with rfl | rfl | hc
      · exact .inl (hmem _ rfl (by simp [Piece.text]))
      · exact .inl (hmem _ rfl (by simp [Piece.text]))
      · exact .inr (List.all_eq_true.1 r.identifier.2 c hc)
    · rw [Piece.renamed, if_neg hconcerns] at hc
      exact .inl (hmem _ rfl hc)

theorem Spelled.mem_tail_renamed (h : Spelled isTable assigned pieces) {c : Char}
    (hc : c ∈ (spell (pieces.map (Piece.renamed r))).tail) :
    c ∈ (spell pieces).tail ∨ isIdentifierPart c = true := by
  cases h with
  | nil => simp at hc
  | other quiet others => exact mem_spell_renamed r hc
  | @reference _ previous kind name rest admitted identifier stops others =>
    have hnew : IsIdentifier (if r.Concerns kind name then r.new else name) :=
      Piece.Valid.renamed (p := .reference previous kind name) identifier r
    change c ∈ '$' :: ((if r.Concerns kind name then r.new else name) ++
      spell (rest.map (Piece.renamed r))) at hc
    change c ∈ '$' :: (name ++ spell rest) ∨ _
    rcases List.mem_cons.1 hc with rfl | hc
    · exact .inl List.mem_cons_self
    · rcases List.mem_append.1 hc with hc | hc
      · exact .inr (List.all_eq_true.1 hnew.2 c hc)
      · exact (mem_spell_renamed r hc).imp (fun h => by simp [h]) id

theorem marks_quote {quote : Char} (hquote : Markup.isQuote quote = true) (value : Text) :
    marks [] (quote :: value) = Text.contains tableMarker value := by
  have hpart : isIdentifierPart quote = false := by
    rcases Markup.isQuote_iff.1 hquote with rfl | rfl <;> decide
  have hempty : Text.endsWith markerName [] = false := by
    decide
  rw [contains_tableMarker_eq_marks, marks, hpart, hempty]
  simp

/-- A value in which a variable has a new name: it is spelled by the pieces that spelled it, and
nothing but names is new in it. -/
theorem exists_renamed_value {quote : Char} (hquote : Markup.isQuote quote = true) (value : Text) :
    ∃ (pieces : List Piece) (value' : Text),
      spell pieces = quote :: value ∧
        Spelled (Text.contains tableMarker value) false pieces ∧
        spell (pieces.map (Piece.renamed r)) = quote :: value' ∧
        Spelled (Text.contains tableMarker value') false (pieces.map (Piece.renamed r)) ∧
        ∀ c ∈ value', c ∈ value ∨ isIdentifierPart c = true := by
  obtain ⟨pieces, hspell, hspelled⟩ :=
    Spelled.exists_pieces (Text.contains tableMarker value) false quote value
  have hhead : (spell (pieces.map (Piece.renamed r))).head? = some quote := by
    rw [hspelled.head?_renamed r, hspell, List.head?_cons]
  obtain ⟨value', hspell'⟩ := List.head?_eq_some_iff.1 hhead
  have hmarker : Text.contains tableMarker value' = Text.contains tableMarker value := by
    rw [← marks_quote hquote, ← hspell', hspelled.marks_renamed r (.inl rfl), hspell,
      marks_quote hquote]
  refine ⟨pieces, value', hspell, hspelled, hspell', ?_, fun c hc => ?_⟩
  · rw [hmarker]
    exact hspelled.renamed r
  · have htail := hspelled.mem_tail_renamed r (c := c)
    rw [hspell', hspell] at htail
    exact htail hc

end Value

end ScriptLens
