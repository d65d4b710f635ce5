import ScriptLens.Markup.Event
import ScriptLens.Proofs.Text

/-!
What the text of a token is. `Token.Spells` is the grammar of the tokens, with the offsets at which a
tag and a value say that they begin; whatever is read in a text is spelled so, after a part that
leaves no token (`next_spelled`).
-/

namespace ScriptLens.Markup

def Cursor.Passes (s : Cursor) (taken : Text) (s' : Cursor) : Prop :=
  s.rest = taken ++ s'.rest ∧ s'.offset = s.offset + taken.byteSize

theorem Cursor.Passes.trans {s s' s'' : Cursor} {t u : Text} (h : s.Passes t s')
    (h' : s'.Passes u s'') : s.Passes (t ++ u) s'' := by
  refine ⟨by rw [h.1, h'.1, List.append_assoc], ?_⟩
  rw [h'.2, h.2, Text.byteSize_append, Nat.add_assoc]

def Attribute.quoted (a : Attribute) : Text :=
  a.quote :: (a.value ++ [a.quote])

/-- How a name is written: a colon in front of it is dropped. -/
def WrittenName (name written : Text) : Prop :=
  written = name ∨ written = ':' :: name

inductive Token.Spells : (offset : Nat) → (text : Text) → Token → Prop
  | tagStart {offset : Nat} {name written : Text} (h : WrittenName name written) :
    Spells offset ('<' :: written) (.tagStart name offset)
  | attributePart {offset : Nat} {a : Attribute} {written gap : Text} (h : WrittenName a.name written)
    (quote : isQuote a.quote = true)
    (start : a.valueStart = offset + (written ++ (gap ++ [a.quote])).byteSize) :
    Spells offset (written ++ (gap ++ a.quoted)) (.attribute a)
  | tagEnd {offset : Nat} : Spells offset ['>'] .tagEnd
  | emptyTagEnd {offset : Nat} : Spells offset ['/', '>'] .emptyTagEnd
  | closeTag {offset : Nat} {name written gap : Text} (h : WrittenName name written) :
    Spells offset ("</".toList ++ (written ++ (gap ++ ['>']))) (.closeTag name)
  | text {offset : Nat} {content : Text} : Spells offset content (.text content)
  | cdata {offset : Nat} {content : Text} :
    Spells offset ("<![CDATA[".toList ++ (content ++ "]]>".toList)) (.cdata content)
  | aside {offset : Nat} {t : Text} : Spells offset t .aside

def Token.Spelled (t : Token) (s s' : Cursor) : Prop :=
  ∃ lead taken, s.Passes (lead ++ taken) s' ∧ t.Spells (s.offset + lead.byteSize) taken

theorem Token.Spelled.of_reaches {t : Token} {s s₁ s' : Cursor} (hs : s.Reaches s₁)
    (h : t.Spelled s₁ s') : t.Spelled s s' := by
  obtain ⟨passed, hpassed⟩ := hs
  obtain ⟨lead, taken, hpasses, hspells⟩ := h
  refine ⟨passed ++ lead, taken, ?_, ?_⟩
  · rw [List.append_assoc]
    exact Cursor.Passes.trans hpassed hpasses
  · rw [hpassed.2, Nat.add_assoc, ← Text.byteSize_append] at hspells
    exact hspells

theorem Token.Spells.spelled {t : Token} {s s' : Cursor} {taken : Text}
    (h : t.Spells s.offset taken) (hpasses : s.Passes taken s') : t.Spelled s s' :=
  ⟨[], taken, hpasses, h⟩

/-! What the readers of single parts take. -/

section Readers

open Reader

variable {s s' : Cursor}

theorem one_passes {accepts : Char → Bool} {cause : Char → Nat → Cause} {c : Char}
    (h : one accepts cause s = .ok (c, s')) : accepts c = true ∧ s.Passes [c] s' := by
  unfold one at h
  split at h
  next => cases h
  next d rest hs =>
    split at h
    next hd =>
      cases h
      exact ⟨hd, by simp [hs, Cursor.past], rfl⟩
    next => cases h

theorem char_passes {expected : Char} {u : Unit} (h : char expected s = .ok (u, s')) :
    s.Passes [expected] s' := by
  obtain ⟨c, t, hone, hpure⟩ := bind_eq_ok.1 h
  cases hpure
  obtain ⟨hc, hpasses⟩ := one_passes hone
  rwa [beq_iff_eq.1 hc] at hpasses

theorem literal_passes {expected : Text} {u : Unit} (h : literal expected s = .ok (u, s')) :
    s.Passes expected s' := by
  unfold literal at h
  split at h
  next t ht =>
    cases h
    obtain ⟨rest, hrest, rfl⟩ := Option.map_eq_some_iff.1 ht
    exact ⟨Text.after?_eq_some_iff.1 hrest, rfl⟩
  next => cases h

theorem charsUntil_passes {stop : Text → Bool} {taken : Text}
    (h : charsUntil stop s = .ok (taken, s')) : s.Passes taken s' := by
  have hs := Reads.append_spanUntil (fun t => atForbidden t || stop t) s.rest
  unfold charsUntil at h
  split at h
  next u rest he =>
    rw [he] at hs
    split at h
    · cases h; exact ⟨hs.symm, rfl⟩
    · split at h
      · cases h; exact ⟨hs.symm, rfl⟩
      · cases h

theorem writtenName_of_splitName {name written : Text}
    (h : splitName (written.fields ':') = some name) : WrittenName name written := by
  by_cases hcolon : ':' ∈ written
  · obtain ⟨scope, base, rfl, hscope⟩ := List.eq_append_cons_of_mem hcolon
    rw [Text.fields_append hscope] at h
    by_cases hmore : ':' ∈ base
    · -- two colons: there are three pieces at least
      obtain ⟨part, other, rfl, hpart⟩ := List.eq_append_cons_of_mem hmore
      rw [Text.fields_append hpart] at h
      cases hother : Text.fields ':' other with
      | nil => exact absurd hother (Text.fields_ne_nil _ _)
      | cons piece more => simp [hother, splitName] at h
    · rw [Text.fields_of_not_mem hmore, splitName] at h
      split at h
      next =>
        cases scope with
        | nil => exact .inr (by simpa using h)
        | cons c scope => exact .inl (by simpa using h)
      next => cases h
  · rw [Text.fields_of_not_mem hcolon, splitName] at h
    split at h
    next => exact .inl (Option.some.inj h)
    next => cases h

theorem qualifiedName_passes {name : Text} (h : qualifiedName s = .ok (name, s')) :
    ∃ written, WrittenName name written ∧ s.Passes written s' := by
  obtain ⟨written, t, htake, hname⟩ := bind_eq_ok.1 h
  have hpasses : s.Passes written t := by
    cases htake
    exact ⟨List.takeWhile_append_dropWhile.symm, rfl⟩
  cases hsplit : splitName (Text.fields ':' written) with
  | none => rw [hsplit] at hname; cases hname
  | some result =>
    rw [hsplit] at hname
    cases hname
    exact ⟨written, writtenName_of_splitName hsplit, hpasses⟩

end Readers

/-! What the readers of tokens take. -/

/-- A reader whose tokens are spelled by what it takes, but for something in front of them. -/
def Spelling (r : Reader Token) : Prop :=
  ∀ ⦃s t s'⦄, r s = .ok (t, s') → t.Spelled s s'

namespace Spelling

open Reader

theorem bind {α : Type} {r : Reader α} {f : α → Reader Token} (hr : Reads r)
    (hf : ∀ a, Spelling (f a)) : Spelling (r >>= f) := by
  intro s t s' h
  obtain ⟨a, s₁, ha, ht⟩ := bind_eq_ok.1 h
  exact .of_reaches (hr ha) (hf a ht)

theorem fail (cause : Cause) : Spelling (Reader.fail cause) := by
  intro s t s' h
  cases h

theorem ite {c : Prop} [Decidable c] {r r' : Reader Token} (h : Spelling r) (h' : Spelling r') :
    Spelling (if c then r else r') := by
  split
  · exact h
  · exact h'

theorem tagStart : Spelling Reader.tagStart := by
  intro s t s' h
  obtain ⟨_, _, hhere, h⟩ := bind_eq_ok.1 h
  cases hhere
  obtain ⟨_, s₁, hangle, h⟩ := bind_eq_ok.1 h
  obtain ⟨name, s₂, hname, hpure⟩ := bind_eq_ok.1 h
  cases hpure
  obtain ⟨written, hwritten, hpasses⟩ := qualifiedName_passes hname
  exact (Token.Spells.tagStart hwritten).spelled ((literal_passes hangle).trans hpasses)

theorem closeTag : Spelling Reader.closeTag := by
  intro s t s' h
  obtain ⟨_, s₁, hangle, h⟩ := bind_eq_ok.1 h
  obtain ⟨name, s₂, hname, h⟩ := bind_eq_ok.1 h
  obtain ⟨_, s₃, hspaces, h⟩ := bind_eq_ok.1 h
  obtain ⟨_, s₄, hclose, hpure⟩ := bind_eq_ok.1 h
  cases hpure
  obtain ⟨written, hwritten, hpasses⟩ := qualifiedName_passes hname
  obtain ⟨gap, hgap⟩ := Reads.skipSpaces hspaces
  have htaken := (literal_passes hangle).trans (hpasses.trans (.trans hgap (char_passes hclose)))
  exact (Token.Spells.closeTag hwritten).spelled htaken

theorem attributePart : Spelling Reader.attributePart := by
  intro s t s' h
  obtain ⟨name, s₁, hname, h⟩ := bind_eq_ok.1 h
  obtain ⟨_, s₂, hequals, h⟩ := bind_eq_ok.1 h
  obtain ⟨q, s₃, hquote, h⟩ := bind_eq_ok.1 h
  obtain ⟨_, _, hhere, h⟩ := bind_eq_ok.1 h
  cases hhere
  obtain ⟨value, s₄, hvalue, h⟩ := bind_eq_ok.1 h
  obtain ⟨_, s₅, hclose, hpure⟩ := bind_eq_ok.1 h
  cases hpure
  obtain ⟨written, hwritten, hpasses⟩ := qualifiedName_passes hname
  obtain ⟨gap, hgap⟩ := Reads.equals hequals
  obtain ⟨hq, hopen⟩ := one_passes hquote
  have hvalueStart := hpasses.trans (.trans hgap hopen)
  have htaken := hpasses.trans (.trans hgap (hopen.trans ((charsUntil_passes hvalue).trans
    (char_passes hclose))))
  exact (Token.Spells.attributePart hwritten hq hvalueStart.2).spelled htaken

theorem tagEnd : Spelling Reader.tagEnd := by
  intro s t s' h
  obtain ⟨_, s₁, hclose, hpure⟩ := bind_eq_ok.1 h
  cases hpure
  exact Token.Spells.tagEnd.spelled (char_passes hclose)

theorem emptyTagEnd : Spelling Reader.emptyTagEnd := by
  intro s t s' h
  obtain ⟨_, s₁, hslash, h⟩ := bind_eq_ok.1 h
  obtain ⟨_, s₂, hclose, hpure⟩ := bind_eq_ok.1 h
  cases hpure
  exact Token.Spells.emptyTagEnd.spelled ((char_passes hslash).trans (char_passes hclose))

theorem tagPart : Spelling Reader.tagPart :=
  .bind Reads.here fun _ => .bind Reads.skipSpaces fun _ => .bind Reads.here fun s => by
    split
    · exact .ite attributePart (.fail _)
    · exact .ite emptyTagEnd (.ite tagEnd (.ite attributePart (.fail _)))

theorem text : Spelling Reader.text := by
  intro s t s' h
  obtain ⟨content, s₁, hcontent, h⟩ := bind_eq_ok.1 h
  split at h
  next => cases h
  next =>
    cases h
    exact Token.Spells.text.spelled (charsUntil_passes hcontent)

theorem spelled_cdata {s s' : Cursor} {content : Text} (h : Reader.cdata s = .ok (content, s')) :
    (Token.cdata content).Spelled s s' := by
  obtain ⟨_, s₁, hopen, h⟩ := bind_eq_ok.1 h
  obtain ⟨_, s₂, hcontent, h⟩ := bind_eq_ok.1 h
  obtain ⟨_, s₃, hclose, hpure⟩ := bind_eq_ok.1 h
  cases hpure
  have htaken := (literal_passes hopen).trans ((charsUntil_passes hcontent).trans
    (literal_passes hclose))
  exact Token.Spells.cdata.spelled htaken

end Spelling

namespace Step

def Spells (s : Cursor) : Step → Prop
  | .token t _ s' => t.Spelled s s'
  | _ => True

variable {s : Cursor} {m : Mode}

theorem reading_spells {α : Type} {construct : Construct} {r : Reader α} {token : α → Token}
    {mode : α → Mode} (h : ∀ ⦃a s'⦄, r s = .ok (a, s') → (token a).Spelled s s') :
    (reading construct s r token mode).Spells s := by
  unfold reading
  split
  next a s' hr => exact h hr
  next => trivial

theorem reading_aside_spells {α : Type} {construct : Construct} {r : Reader α} {mode : α → Mode}
    (hr : Reads r) : (reading construct s r (fun _ => .aside) mode).Spells s := by
  refine reading_spells fun a s' h => ?_
  obtain ⟨taken, htaken⟩ := hr h
  exact Token.Spells.aside.spelled htaken

theorem aside_spells {step : Step} (h : aside? m s = some step) : step.Spells s := by
  rcases aside_cases h with rfl | rfl | rfl
  · exact reading_aside_spells Consumes.comment.reads
  · trivial
  · exact reading_aside_spells Consumes.instruction.reads

theorem aside_or_gap_spells {step : Step} (h : (aside? m s <|> gap? m s) = some step) :
    step.Spells s := by
  rcases aside_or_gap h with ha | hg
  · exact aside_spells ha
  · obtain ⟨s', -, -, rfl⟩ := gap_cases hg
    trivial

end Step

open Step in
theorem step_spells (m : Mode) (s : Cursor) : (step m s).Spells s := by
  have htag : (tagStep m s).Spells s := reading_spells fun _ _ h => Spelling.tagStart h
  unfold step
  split
  next => trivial
  next => exact of_ite (reading_aside_spells Consumes.declaration.reads) trivial
  next =>
    exact of_ite (reading_aside_spells Consumes.doctype.reads)
      (of_getD (fun _ => aside_or_gap_spells) trivial)
  next =>
    refine of_ite (reading_aside_spells Consumes.entity.reads)
      (of_ite (reading_aside_spells Consumes.doctypeEnd.reads) ?_)
    split
    · split <;> trivial
    · exact of_getD (fun _ => aside_or_gap_spells) trivial
  next => exact of_getD (fun _ => aside_or_gap_spells) (of_ite htag trivial)
  next =>
    exact of_getD (fun _ => aside_spells)
      (of_ite (reading_spells fun _ _ h => Spelling.spelled_cdata h) (of_ite trivial
        (of_ite (reading_spells fun _ _ h => Spelling.closeTag h) (of_ite trivial
          (of_ite htag (reading_spells fun _ _ h => Spelling.text h))))))
  next => exact reading_spells fun _ _ h => Spelling.tagPart h
  next => exact of_getD (fun _ => aside_or_gap_spells) trivial

theorem next_spelled {m m' : Mode} {s s' : Cursor} {t : Token} (h : next m s = .token t m' s') :
    t.Spelled s s' := by
  fun_induction next m s with
  | case1 => cases h
  | case2 m s hs m₁ s₁ hstep ih =>
    have hadvances := step_advances (m := m) hs
    rw [hstep] at hadvances
    exact .of_reaches hadvances.1 (ih h)
  | case3 m s hs t₁ m₁ s₁ hstep =>
    have hspells := step_spells m s
    rw [hstep] at hspells
    cases h
    exact hspells
  | case4 => cases h

end ScriptLens.Markup
