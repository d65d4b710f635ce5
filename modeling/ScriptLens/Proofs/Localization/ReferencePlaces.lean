import ScriptLens.Localization.Reference
import ScriptLens.Proofs.Document.Run
import ScriptLens.Proofs.Template

/-!
References as they are written, and where they stand on a line. No reference begins inside another
one, so the leftmost one that a column touches is found; where two of them meet, a column between
them touches both.
-/

namespace ScriptLens

open Template Foreign

inductive WrittenReference where
  /-- The form `{page,id}`. -/
  | braces (beforePage : Spaces) (page : Digits) (afterPage beforeId : Spaces) (id : Digits)
    (afterId : Spaces)
  /-- The form `readtext.{page}.{id}`. -/
  | readtext (beforePage : Spaces) (page : Digits) (afterPage beforeId : Spaces) (id : Digits)
    (afterId : Spaces)
  /-- The form `page="page" line="id"`. -/
  | attributes (page : Digits) (between : Gap) (id : Digits)
  /-- The form `ReadText(page,id)`. -/
  | call (beforeList beforePage : Spaces) (page : Digits) (beforeId : Spaces) (id : Digits)
    (afterId : Spaces)

namespace WrittenReference

def references : WrittenReference → ReferenceSyntax
  | braces .. | readtext .. | attributes .. => .script
  | call .. => .lua

def page : WrittenReference → Text
  | braces _ page _ _ _ _ | readtext _ page _ _ _ _ | attributes page _ _ | call _ _ page _ _ _ =>
    page.text

def id : WrittenReference → Text
  | braces _ _ _ _ id _ | readtext _ _ _ _ id _ | attributes _ _ id | call _ _ _ _ id _ => id.text

def text : WrittenReference → Text
  | braces s₁ page s₂ s₃ id s₄ =>
    '\x7b' :: (s₁.text ++ (page.text ++ (s₂.text ++ ',' :: (s₃.text ++ (id.text ++
      (s₄.text ++ ['\x7d']))))))
  | readtext s₁ page s₂ s₃ id s₄ =>
    "readtext.".toList ++ ['\x7b'] ++ (s₁.text ++ (page.text ++ (s₂.text ++
      (['\x7d', '.', '\x7b'] ++ (s₃.text ++ (id.text ++ (s₄.text ++ ['\x7d'])))))))
  | attributes page between id =>
    "page=\"".toList ++ (page.text ++ '"' :: (between.text ++ ("line=\"".toList ++
      (id.text ++ ['"']))))
  | call s₁ s₂ page s₃ id s₄ =>
    "ReadText".toList ++ (s₁.text ++ '(' :: (s₂.text ++ (page.text ++ ',' :: (s₃.text ++
      (id.text ++ (s₄.text ++ [')']))))))

end WrittenReference

namespace ReferenceSyntax

/-! The forms of references as templates. -/

theorem exists_spells (w : WrittenReference) :
    ∃ form ∈ w.references.forms, form.Spells [w.page, w.id] w.text := by
  cases w with
  | braces s₁ page s₂ s₃ id s₄ =>
    refine ⟨_, List.mem_cons_self, ?_⟩
    exact ⟨_, rfl, s₁, _, rfl, page, _, _, rfl, rfl, s₂, _, rfl, _, rfl, s₃, _, rfl, id, _, _, rfl,
      rfl, s₄, _, rfl, _, rfl, rfl, rfl⟩
  | readtext s₁ page s₂ s₃ id s₄ =>
    refine ⟨_, List.mem_cons_of_mem _ List.mem_cons_self, ?_⟩
    exact ⟨_, rfl, s₁, _, rfl, page, _, _, rfl, rfl, s₂, _, rfl, _, rfl, s₃, _, rfl, id, _, _, rfl,
      rfl, s₄, _, rfl, _, rfl, rfl, rfl⟩
  | attributes page between id =>
    refine ⟨_, List.mem_cons_of_mem _ (List.mem_cons_of_mem _ List.mem_cons_self), ?_⟩
    exact ⟨_, rfl, page, _, _, rfl, rfl, _, rfl, between, _, rfl, _, rfl, id, _, _, rfl, rfl, _,
      rfl, rfl, rfl⟩
  | call s₁ s₂ page s₃ id s₄ =>
    refine ⟨_, List.mem_cons_self, ?_⟩
    exact ⟨_, rfl, s₁, _, rfl, _, rfl, s₂, _, rfl, page, _, _, rfl, rfl, _, rfl, s₃, _, rfl, id, _,
      _, rfl, rfl, s₄, _, rfl, _, rfl, rfl, rfl⟩

theorem exists_written {references : ReferenceSyntax} {form : Template}
    (hform : form ∈ references.forms) {numbers : List Text} {t : Text}
    (h : form.Spells numbers t) :
    ∃ w : WrittenReference, w.references = references ∧ numbers = [w.page, w.id] ∧ t = w.text := by
  cases references with
  | script =>
    simp only [forms, scriptForms, List.mem_cons, List.not_mem_nil, or_false] at hform
    rcases hform with rfl | rfl | rfl
    · obtain ⟨_, rfl, s₁, _, rfl, page, _, _, rfl, rfl, s₂, _, rfl, _, rfl, s₃, _, rfl, id, _, _,
        rfl, rfl, s₄, _, rfl, _, rfl, rfl, rfl⟩ := h
      exact ⟨.braces s₁ page s₂ s₃ id s₄, rfl, rfl, rfl⟩
    · obtain ⟨_, rfl, s₁, _, rfl, page, _, _, rfl, rfl, s₂, _, rfl, _, rfl, s₃, _, rfl, id, _, _,
        rfl, rfl, s₄, _, rfl, _, rfl, rfl, rfl⟩ := h
      exact ⟨.readtext s₁ page s₂ s₃ id s₄, rfl, rfl, rfl⟩
    · obtain ⟨_, rfl, page, _, _, rfl, rfl, _, rfl, between, _, rfl, _, rfl, id, _, _, rfl, rfl, _,
        rfl, rfl, rfl⟩ := h
      exact ⟨.attributes page between id, rfl, rfl, rfl⟩
  | lua =>
    obtain rfl := List.mem_singleton.1 hform
    obtain ⟨_, rfl, s₁, _, rfl, _, rfl, s₂, _, rfl, page, _, _, rfl, rfl, _, rfl, s₃, _, rfl, id, _,
      _, rfl, rfl, s₄, _, rfl, _, rfl, rfl, rfl⟩ := h
    exact ⟨.call s₁ s₂ page s₃ id s₄, rfl, rfl, rfl⟩

/-! No form begins inside another. -/

def bracesForm : Template := scriptForms[0]

def readtextForm : Template := scriptForms[1]

theorem match?_braces_of_closed (s : Spaces) (d : Digits) (s' : Spaces) (rest : Text) :
    match? bracesForm ('\x7b' :: (s.text ++ (d.text ++ (s'.text ++ '\x7d' :: rest)))) = none := by
  have hdigits : Stops isBlank (d.text ++ (s'.text ++ '\x7d' :: rest)) :=
    stops_of_all d.nonempty d.valid (fun _ => Stretch.isBlank_of_isDigit) _
  have hafter : Stops isDigit (s'.text ++ '\x7d' :: rest) := by
    have hspelled : Spells [.blanks, .literal ['\x7d']] [] (s'.text ++ ['\x7d']) :=
      ⟨s', _, rfl, [], rfl, rfl, rfl⟩
    have hstops := stops_of_avoids (s := .digits) (by decide) hspelled rest
    rwa [List.append_assoc] at hstops
  have hbrace : Stops isBlank ('\x7d' :: rest) := stops_cons.2 (by decide)
  change match? [.blanks, .number, .blanks, .literal [','], .blanks, .number, .blanks,
    .literal ['\x7d']] _ = none
  rw [match?, Text.trimStart, dropWhile_of_stops s.valid hdigits, match?,
    if_pos (head?_of_all d.nonempty d.valid _), dropWhile_of_stops d.valid hafter, match?,
    Text.trimStart, dropWhile_of_stops s'.valid hbrace]
  rfl

theorem eq_or_suffix_of_suffix {c : Char} {s t u : Text} (ht : c ∉ t)
    (h : c :: s <:+ t ++ c :: u) : s = u ∨ c :: s <:+ u := by
  induction t with
  | nil => exact (List.suffix_cons_iff.1 h).imp_left fun heq => (List.cons.inj heq).2
  | cons d t ih =>
    rcases List.suffix_cons_iff.1 h with heq | hlater
    · obtain rfl := (List.cons.inj heq).1
      exact absurd List.mem_cons_self ht
    · exact ih (fun hmem => ht (List.mem_cons_of_mem d hmem)) hlater

theorem eq_or_eq_of_suffix {c : Char} {s t u v : Text} (ht : c ∉ t) (hu : c ∉ u) (hv : c ∉ v)
    (h : c :: s <:+ t ++ c :: (u ++ c :: v)) : s = u ++ c :: v ∨ s = v := by
  refine (eq_or_suffix_of_suffix ht h).imp_right fun hlater => ?_
  refine (eq_or_suffix_of_suffix hu hlater).resolve_right fun hlast => ?_
  exact hv (hlast.subset List.mem_cons_self)

theorem match?_braces_inside_readtext {numbers : List Text} {w s : Text}
    (hw : readtextForm.Spells numbers w) (hs : s <:+ w) (hne : s ≠ []) (rest : Text) :
    match? bracesForm (s ++ rest) = none := by
  obtain ⟨c, s, rfl⟩ := List.exists_cons_of_ne_nil hne
  by_cases hc : c = '\x7b'
  · subst hc
    obtain ⟨_, rfl, s₁, _, rfl, page, _, _, rfl, rfl, s₂, _, rfl, _, rfl, s₃, _, rfl, id, _, _,
      rfl, rfl, s₄, _, rfl, _, rfl, rfl, rfl⟩ := hw
    have hblank : ∀ s : Spaces, '\x7b' ∉ s.text :=
      fun s => not_mem_of_all s.valid (by decide)
    have hdigit : ∀ d : Digits, '\x7b' ∉ d.text :=
      fun d => not_mem_of_all d.valid (by decide)
    have hinPage : '\x7b' ∉ s₁.text ++ (page.text ++ (s₂.text ++ ['\x7d', '.'])) := by
      simp [hblank, hdigit]
    have hinId : '\x7b' ∉ s₃.text ++ (id.text ++ (s₄.text ++ ['\x7d'])) := by
      simp [hblank, hdigit]
    have hplaces : '\x7b' :: s <:+ "readtext.".toList ++ '\x7b' ::
        ((s₁.text ++ (page.text ++ (s₂.text ++ ['\x7d', '.']))) ++ '\x7b' ::
          (s₃.text ++ (id.text ++ (s₄.text ++ ['\x7d'])))) := by
      simpa only [List.append_assoc, List.cons_append, List.nil_append] using hs
    -- The braces of the page and those of the text open at the only two places.
    rcases eq_or_eq_of_suffix (by decide) hinPage hinId hplaces with rfl | rfl
    · simpa only [List.append_assoc, List.cons_append, List.nil_append] using
        match?_braces_of_closed s₁ page s₂ _
    · simpa only [List.append_assoc, List.cons_append, List.nil_append] using
        match?_braces_of_closed s₃ id s₄ rest
  · have hinitial : bracesForm.initial? = some '\x7b' := rfl
    exact match?_of_initial?_ne hinitial hc (s ++ rest)

theorem separate_script : Separate scriptForms := by
  refine separate_of_initials (by decide +kernel) (by decide +kernel) (by decide +kernel) ?_
  have hout : ∀ form ∈ scriptForms, ∀ other ∈ scriptForms,
      form.keepsOut other = true ∨ form = readtextForm ∧ other = bracesForm := by
    decide +kernel
  intro form hform other hother
  refine (hout form hform other hother).imp_right ?_
  rintro ⟨rfl, rfl⟩ numbers w hw s hs hne _ rest
  exact match?_braces_inside_readtext hw hs hne rest

theorem separate_lua : Separate luaForms := by
  refine separate_of_initials (by decide +kernel) (by decide +kernel) (by decide +kernel) ?_
  have hout : ∀ form ∈ luaForms, ∀ other ∈ luaForms, form.keepsOut other = true := by
    decide +kernel
  exact fun form hform other hother => .inl (hout form hform other hother)

theorem separate_forms (references : ReferenceSyntax) : Separate references.forms := by
  cases references with
  | script => exact separate_script
  | lua => exact separate_lua

end ReferenceSyntax

structure ReferencePlace (references : ReferenceSyntax) (line : Text) where
  before : Text
  written : WrittenReference
  after : Text
  form : written.references = references
  laid : line = before ++ (written.text ++ after)

namespace ReferencePlace

variable {references : ReferenceSyntax} {line : Text}

def start (p : ReferencePlace references line) : Nat := p.before.byteSize

def stop (p : ReferencePlace references line) : Nat := p.start + p.written.text.byteSize

def Touches (p : ReferencePlace references line) (offset : Nat) : Prop :=
  p.start ≤ offset ∧ offset ≤ p.stop

structure IsLeftmostAt (p : ReferencePlace references line) (offset : Nat) : Prop where
  touches : p.Touches offset
  leftmost : ∀ other : ReferencePlace references line, other.Touches offset → p.start ≤ other.start

def reference (p : ReferencePlace references line) : TextReference :=
  ⟨p.written.page, p.written.id, p.start, p.stop⟩

def found (p : ReferencePlace references line) : Found :=
  ⟨p.start, p.stop, [p.written.page, p.written.id]⟩

theorem mem_all_iff {found : Found} :
    found ∈ all references.forms line ↔ ∃ p : ReferencePlace references line, p.found = found := by
  rw [Template.mem_all_iff references.separate_forms]
  constructor
  · rintro ⟨⟨before, form, numbers, body, after, hlisted, hspelled, hlaid⟩, rfl⟩
    obtain ⟨w, hform, rfl, rfl⟩ := ReferenceSyntax.exists_written hlisted hspelled
    refine ⟨⟨before, w, after, hform, hlaid⟩, ?_⟩
    simp only [ReferencePlace.found, start, stop, Place.found, Nat.zero_add]
  · rintro ⟨⟨before, w, after, rfl, hlaid⟩, rfl⟩
    obtain ⟨form, hlisted, hspelled⟩ := ReferenceSyntax.exists_spells w
    refine ⟨⟨before, form, _, _, after, hlisted, hspelled, hlaid⟩, ?_⟩
    simp only [ReferencePlace.found, start, stop, Place.found, Nat.zero_add]

/-! The search for the report that a byte offset falls into. -/

section Search

variable {cursor : Nat}

theorem found_touches (p : ReferencePlace references line) :
    (decide (p.found.start ≤ cursor) && decide (cursor ≤ p.found.stop)) = true ↔
      p.Touches cursor := by
  rw [Bool.and_eq_true, decide_eq_true_iff, decide_eq_true_iff]
  rfl

theorem find?_eq_some_iff {found : Found} :
    ((all references.forms line).find? fun f => f.start ≤ cursor && cursor ≤ f.stop) = some found ↔
      ∃ p : ReferencePlace references line, p.IsLeftmostAt cursor ∧ p.found = found := by
  rw [find?_all_eq_some_iff references.separate_forms]
  constructor
  · rintro ⟨hmem, hwanted, hleft⟩
    obtain ⟨p, rfl⟩ := mem_all_iff.1 hmem
    refine ⟨p, ⟨p.found_touches.1 hwanted, fun other hother => ?_⟩, rfl⟩
    exact hleft other.found (mem_all_iff.2 ⟨other, rfl⟩) (other.found_touches.2 hother)
  · rintro ⟨p, hp, rfl⟩
    refine ⟨mem_all_iff.2 ⟨p, rfl⟩, p.found_touches.2 hp.touches, fun f hf hwanted => ?_⟩
    obtain ⟨other, rfl⟩ := mem_all_iff.1 hf
    exact hp.leftmost other (other.found_touches.1 hwanted)

theorem find?_eq_none_iff :
    ((all references.forms line).find? fun f => f.start ≤ cursor && cursor ≤ f.stop) = none ↔
      ∀ p : ReferencePlace references line, ¬ p.Touches cursor := by
  rw [List.find?_eq_none]
  constructor
  · intro hnone p hp
    exact hnone p.found (mem_all_iff.2 ⟨p, rfl⟩) (p.found_touches.2 hp)
  · intro hnone f hf hwanted
    obtain ⟨p, rfl⟩ := mem_all_iff.1 hf
    exact hnone p (p.found_touches.1 hwanted)

end Search

end ReferencePlace

namespace TextReference

theorem ofFound?_found {references : ReferenceSyntax} {line : Text}
    (p : ReferencePlace references line) : ofFound? p.found = some p.reference := rfl

/-- The reference that a column touches is the leftmost one written where the column cuts the line,
and none is found exactly if no reference is. -/
theorem at?_leftmost (references : ReferenceSyntax) (line : Text) (column : Nat) :
    ∃ before after, CutAt column line before after ∧
      Text.columnOffset line column = before.byteSize ∧
      (∀ r, at? references line column = some r ↔
        ∃ p : ReferencePlace references line,
          p.IsLeftmostAt before.byteSize ∧ p.reference = r) ∧
      (at? references line column = none ↔
        ∀ p : ReferencePlace references line, ¬ p.Touches before.byteSize) := by
  refine ⟨_, _, cutAt_cutAtColumn column line, rfl, fun r => ?_, ?_⟩
  · rw [at?, Option.bind_eq_some_iff]
    constructor
    · rintro ⟨f, hfind, hr⟩
      obtain ⟨p, hp, rfl⟩ := ReferencePlace.find?_eq_some_iff.1 hfind
      exact ⟨p, hp, Option.some.inj hr⟩
    · rintro ⟨p, hp, rfl⟩
      exact ⟨p.found, ReferencePlace.find?_eq_some_iff.2 ⟨p, hp, rfl⟩, ofFound?_found p⟩
  · rw [at?, Option.bind_eq_none_iff]
    constructor
    · intro hnone
      refine ReferencePlace.find?_eq_none_iff.1 (Option.eq_none_iff_forall_ne_some.2 fun f hf => ?_)
      obtain ⟨p, -, rfl⟩ := ReferencePlace.find?_eq_some_iff.1 hf
      cases hnone p.found hf
    · intro hnone f hf
      rw [Text.columnOffset, ReferencePlace.find?_eq_none_iff.2 hnone] at hf
      cases hf

/-- Between two references the first is found. -/
example : at? .script "\x7b1,2\x7d\x7b3,4\x7d".toList 5 = some ⟨['1'], ['2'], 0, 5⟩ := by
  decide +kernel

end TextReference

end ScriptLens
