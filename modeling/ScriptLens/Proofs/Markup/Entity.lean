import ScriptLens.Markup.Entity
import ScriptLens.Proofs.Numeral
import ScriptLens.Proofs.Text

/-!
What is read as an entity, and what decoding gives. A name or a number stands for a character, and
neither holds a character of the markup, so an entity ends at the first semicolon and begins at the
last `&` before it. A text that is written character by character, each as itself or as any of its
entities, is therefore decoded to what was written (`unescape_of_encodedText`).
-/

namespace ScriptLens

namespace Markup

/-! What is read as an entity. -/

def namedEntities : List (Char × Text) :=
  [('<', "lt".toList), ('>', "gt".toList), ('&', "amp".toList), ('"', "quot".toList),
    ('\'', "apos".toList)]

/-- A number in base sixteen is not one in base ten. -/
theorem numbered?_eq_some_iff {entity : Text} {c : Char} :
    numbered? entity = some c ↔ ∃ digits n, ofNumber? n = some c ∧
      (entity = '#' :: 'x' :: digits ∧ Text.hex? digits = some n ∨
        entity = '#' :: digits ∧ Text.decimal? digits = some n) := by
  rw [numbered?, Option.bind_eq_some_iff]
  simp only [Option.orElse_eq_orElse, Option.orElse_eq_or, Option.or_eq_some_iff]
  constructor
  · rintro ⟨n, hhex | ⟨_, hdecimal⟩, hc⟩
    · obtain ⟨digits, hdigits, hn⟩ := Option.bind_eq_some_iff.1 hhex
      exact ⟨digits, n, hc, .inl ⟨Text.after?_eq_some_iff.1 hdigits, hn⟩⟩
    · obtain ⟨digits, hdigits, hn⟩ := Option.bind_eq_some_iff.1 hdecimal
      exact ⟨digits, n, hc, .inr ⟨Text.after?_eq_some_iff.1 hdigits, hn⟩⟩
  · rintro ⟨digits, n, hc, ⟨rfl, hn⟩ | ⟨rfl, hn⟩⟩
    · have hhex : Text.after? "#x".toList ('#' :: 'x' :: digits) = some digits :=
        Text.after?_append _ _
      exact ⟨n, .inl (by rw [hhex, Option.bind_some, hn]), hc⟩
    · have hx : 'x' ∉ digits := Text.not_mem_of_numeral? hn (by decide) (by decide)
      have hhex : Text.after? "#x".toList ('#' :: digits) = none := by
        refine Option.eq_none_iff_forall_ne_some.2 fun rest hrest => hx ?_
        have heq : '#' :: digits = '#' :: 'x' :: rest := Text.after?_eq_some_iff.1 hrest
        rw [(List.cons.inj heq).2]
        exact List.mem_cons_self
      have hdecimal : Text.after? "#".toList ('#' :: digits) = some digits :=
        Text.after?_append _ _
      exact ⟨n, .inr ⟨by rw [hhex, Option.bind_none], by rw [hdecimal, Option.bind_some, hn]⟩, hc⟩

theorem entity?_of_not_named {entity : Text} (h : ∀ p ∈ namedEntities, entity ≠ p.2) :
    entity? entity = numbered? entity := by
  simp only [namedEntities, List.forall_mem_cons] at h
  obtain ⟨hlt, hgt, hamp, hquot, hapos, _⟩ := h
  rw [entity?, if_neg hlt, if_neg hgt, if_neg hamp, if_neg hquot, if_neg hapos]

theorem entity?_eq_some_iff {entity : Text} {c : Char} :
    entity? entity = some c ↔ (c, entity) ∈ namedEntities ∨ numbered? entity = some c := by
  have hnames : ∀ p ∈ namedEntities, entity? p.2 = some p.1 := by decide
  constructor
  · intro h
    by_cases hnamed : ∃ p ∈ namedEntities, entity = p.2
    · obtain ⟨p, hp, rfl⟩ := hnamed
      obtain rfl : p.1 = c := Option.some.inj ((hnames p hp).symm.trans h)
      exact .inl hp
    · rw [entity?_of_not_named fun p hp heq => hnamed ⟨p, hp, heq⟩] at h
      exact .inr h
  · rintro (hnamed | hnumbered)
    · exact hnames _ hnamed
    · obtain ⟨rest, rfl⟩ : ∃ rest, entity = '#' :: rest := by
        obtain ⟨digits, _, _, ⟨rfl, _⟩ | ⟨rfl, _⟩⟩ := numbered?_eq_some_iff.1 hnumbered
        · exact ⟨'x' :: digits, rfl⟩
        · exact ⟨digits, rfl⟩
      have hnumber : ∀ p ∈ namedEntities, p.2.head? ≠ some '#' := by decide
      rwa [entity?_of_not_named fun p hp heq => hnumber p hp (by rw [← heq]; rfl)]

/-- The characters that no entity holds: those that begin one and end it, and angle brackets. -/
def isMarkup (c : Char) : Bool :=
  c == '&' || c == ';' || c == '<' || c == '>'

theorem digits_of_isMarkup {c : Char} (hc : isMarkup c = true) :
    c ≠ '#' ∧ c ≠ 'x' ∧ c ≠ '+' ∧ Text.decimalValue? c = none ∧ Text.hexValue? c = none := by
  simp only [isMarkup, Bool.or_eq_true, beq_iff_eq] at hc
  rcases hc with ((rfl | rfl) | rfl) | rfl <;> decide

theorem not_mem_of_entity? {entity : Text} {c d : Char} (h : entity? entity = some d)
    (hc : isMarkup c = true) : c ∉ entity := by
  rcases entity?_eq_some_iff.1 h with hnamed | hnumbered
  · have hnames : ∀ p ∈ namedEntities, p.2.all (!isMarkup ·) = true := by decide
    intro hmem
    have hplain := List.all_eq_true.1 (hnames _ hnamed) c hmem
    rw [hc] at hplain
    cases hplain
  · obtain ⟨hnumber, hx, hplus, hdecimal, hhex⟩ := digits_of_isMarkup hc
    obtain ⟨digits, n, _, ⟨rfl, hn⟩ | ⟨rfl, hn⟩⟩ := numbered?_eq_some_iff.1 hnumbered
    · have hdigits : c ∉ digits := Text.not_mem_of_numeral? hn hplus hhex
      simp [hnumber, hx, hdigits]
    · have hdigits : c ∉ digits := Text.not_mem_of_numeral? hn hplus hdecimal
      simp [hnumber, hdigits]

/-! What is decoded. -/

theorem leadingEntity?_append {entity : Text} (hend : ';' ∉ entity) (rest : Text) :
    leadingEntity? (entity ++ ';' :: rest) = (entity? entity).map fun c => (c, rest) := by
  have hsplit : Text.splitFirst? (· == ';') (entity ++ ';' :: rest) = some (entity, rest) := by
    refine Text.splitFirst?_append rest (fun c hc => beq_false_of_ne ?_) rfl
    rintro rfl
    exact hend hc
  rw [leadingEntity?, hsplit, Option.bind_some]

theorem unescape_cons {c : Char} (hc : c ≠ '&') (t : Text) :
    unescape (c :: t) = c :: unescape t := by
  rw [unescape, if_neg hc]

theorem unescape_ampersand (t : Text) :
    unescape ('&' :: t) = match leadingEntity? t with
      | some (c, rest) => c :: unescape rest
      | none => '&' :: unescape t := by
  rw [unescape, if_pos rfl]
  split
  next h => rw [h]
  next h => rw [h]

theorem unescape_entity {entity : Text} {c : Char} (h : entity? entity = some c) (rest : Text) :
    unescape ('&' :: (entity ++ ';' :: rest)) = c :: unescape rest := by
  rw [unescape_ampersand, leadingEntity?_append (not_mem_of_entity? h rfl), h]
  rfl

/-! Texts written character by character. -/

/-- What stands for a character: itself, its name, or its number in base ten or sixteen. -/
inductive EncodedChar (c : Char) : Text → Prop
  | plain (h : c ≠ '&') : EncodedChar c [c]
  | named {name : Text} (h : (c, name) ∈ namedEntities) : EncodedChar c ('&' :: (name ++ [';']))
  | decimal {digits : Text} (h : Text.IsNumeral 10 c.toNat digits) :
    EncodedChar c ("&#".toList ++ (digits ++ [';']))
  | hex {digits : Text} (h : Text.IsNumeral 16 c.toNat digits) :
    EncodedChar c ("&#x".toList ++ (digits ++ [';']))

inductive EncodedText : (t written : Text) → Prop
  | nil : EncodedText [] []
  | cons {c : Char} {t first rest : Text} (h : EncodedChar c first) (hrest : EncodedText t rest) :
    EncodedText (c :: t) (first ++ rest)

theorem ofNumber?_toNat (c : Char) : ofNumber? c.toNat = some c := by
  have hvalid : c.toNat.isValidChar := c.valid
  rw [ofNumber?, if_pos hvalid, Char.ofNat_toNat]

theorem entity?_decimal {c : Char} {digits : Text} (h : Text.IsNumeral 10 c.toNat digits) :
    entity? ('#' :: digits) = some c :=
  entity?_eq_some_iff.2 <| .inr <| numbered?_eq_some_iff.2 ⟨digits, c.toNat, ofNumber?_toNat c,
    .inr ⟨rfl, Text.numeral?_of_isNumeral Text.readsDigits_decimal h⟩⟩

theorem entity?_hex {c : Char} {digits : Text} (h : Text.IsNumeral 16 c.toNat digits) :
    entity? ('#' :: 'x' :: digits) = some c :=
  entity?_eq_some_iff.2 <| .inr <| numbered?_eq_some_iff.2 ⟨digits, c.toNat, ofNumber?_toNat c,
    .inl ⟨rfl, Text.numeral?_of_isNumeral Text.readsDigits_hex h⟩⟩

theorem unescape_encodedChar {c : Char} {written : Text} (h : EncodedChar c written) (rest : Text) :
    unescape (written ++ rest) = c :: unescape rest := by
  have hentity : ∀ entity : Text, entity? entity = some c →
      unescape ('&' :: (entity ++ [';']) ++ rest) = c :: unescape rest := by
    intro entity he
    rw [List.cons_append, List.append_assoc]
    exact unescape_entity he rest
  cases h with
  | plain h => exact unescape_cons h rest
  | named h => exact hentity _ (entity?_eq_some_iff.2 (.inl h))
  | decimal h => exact hentity _ (entity?_decimal h)
  | hex h => exact hentity _ (entity?_hex h)

theorem unescape_of_encodedText {t written : Text} (h : EncodedText t written) :
    unescape written = t := by
  induction h with
  | nil => rw [unescape]
  | cons h _ ih => rw [unescape_encodedChar h, ih]

theorem unescape_of_mixedForms :
    EncodedText "&lt;é'".toList "&amp;lt;&#x00E9;&apos;".toList ∧
      unescape "&amp;lt;&#x00E9;&apos;".toList = "&lt;é'".toList := by
  have hencoded : EncodedText "&lt;é'".toList "&amp;lt;&#x00E9;&apos;".toList :=
    .cons (@EncodedChar.named _ "amp".toList (by decide)) <| .cons (.plain (by decide)) <|
      .cons (.plain (by decide)) <| .cons (.plain (by decide)) <|
      .cons (@EncodedChar.hex _ "00E9".toList ⟨2, by decide⟩) <|
      .cons (@EncodedChar.named _ "apos".toList (by decide)) .nil
  exact ⟨hencoded, unescape_of_encodedText hencoded⟩

end Markup

end ScriptLens
