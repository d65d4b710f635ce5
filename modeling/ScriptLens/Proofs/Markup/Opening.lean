import ScriptLens.Proofs.Markup.Attributes

/-!
Every tag that is begun, and what becomes of it. The lexemes of a text tell for each tag the
attributes that are read before it ends, a fault breaks it off or the text runs out. As the parts of
a tag come one after another (`orderly_lexemesFrom`), a scan reports each tag once, in order and
with just these attributes (`opened_reports_started`): all but one that the text ends in, which it
drops.
-/

namespace ScriptLens.Markup

/-! The tags that lexemes begin. -/

def Lexeme.tagStop? : Lexeme → Option Nat
  | .token .tagEnd stop => some stop
  | .token .emptyTagEnd stop => some stop
  | .token _ _ => none
  | .fault _ _ stop => some stop

/-- A tag that is begun. It has no end if the text runs out before. -/
structure StartedTag where
  name : Text
  start : Nat
  attributes : List Attribute
  stop? : Option Nat
  deriving DecidableEq, Repr

def attributesAhead (ls : List Lexeme) : List Attribute :=
  (ls.takeWhile (·.tagStop?.isNone)).filterMap Lexeme.attribute?

def stopAhead? (ls : List Lexeme) : Option Nat :=
  ls.findSome? Lexeme.tagStop?

/-- A tag for each beginning of one among the lexemes, in order. -/
def startedTags : List Lexeme → List StartedTag
  | [] => []
  | .token (.tagStart name start) _ :: rest =>
    ⟨name, start, attributesAhead rest, stopAhead? rest⟩ :: startedTags rest
  | _ :: rest => startedTags rest

def StartedTag.ended? (s : StartedTag) : Option Tag :=
  s.stop?.map fun stop => ⟨s.name, s.start, stop, s.attributes⟩

def Event.opened? : Event → Option Tag
  | .opened tag => some tag
  | _ => none

/-! The parts of a tag come together. -/

namespace Token

def isTagPart : Token → Bool
  | .attribute _ => true
  | .tagEnd => true
  | .emptyTagEnd => true
  | _ => false

def staysInTag : Token → Bool
  | .tagStart _ _ => true
  | .attribute _ => true
  | _ => false

end Token

def Mode.inTag (m : Mode) : Bool :=
  m.stage = .tag

/-- Parts of tags stand where a tag is begun and only there. -/
def Orderly : (inTag : Bool) → List Lexeme → Prop
  | _, [] => True
  | inTag, .token t _ :: rest => t.isTagPart = inTag ∧ Orderly t.staysInTag rest
  | _, .fault _ _ _ :: rest => Orderly false rest

def Yields (p : Token → Prop) (r : Reader Token) : Prop :=
  ∀ ⦃s t s'⦄, r s = .ok (t, s') → p t

namespace Yields

open Reader

variable {p : Token → Prop}

theorem bind {α : Type} {r : Reader α} {f : α → Reader Token} (hf : ∀ a, Yields p (f a)) :
    Yields p (r >>= f) := by
  intro s t s' h
  obtain ⟨a, u, -, ha⟩ := bind_eq_ok.1 h
  exact hf a ha

theorem pure {t : Token} (h : p t) : Yields p (Pure.pure t) := by
  intro s t' s' hr
  cases hr
  exact h

theorem fail (cause : Cause) : Yields p (Reader.fail cause) := by
  intro s t s' h
  cases h

theorem ite {c : Prop} [Decidable c] {r r' : Reader Token} (h : Yields p r) (h' : Yields p r') :
    Yields p (if c then r else r') := by
  split
  · exact h
  · exact h'

theorem tagPart : Yields (fun t => t.isTagPart = true) Reader.tagPart := by
  have hattribute : Yields (fun t => t.isTagPart = true) Reader.attributePart :=
    .bind fun _ => .bind fun _ => .bind fun _ => .bind fun _ => .bind fun _ => .bind fun _ =>
      .pure rfl
  have hempty : Yields (fun t => t.isTagPart = true) Reader.emptyTagEnd :=
    .bind fun _ => .bind fun _ => .pure rfl
  have hend : Yields (fun t => t.isTagPart = true) Reader.tagEnd :=
    .bind fun _ => .pure rfl
  refine .bind fun _ => .bind fun _ => .bind fun s => ?_
  split
  · exact .ite hattribute (.fail _)
  · exact .ite hempty (.ite hend (.ite hattribute (.fail _)))

theorem tagStart : Yields (fun t => t.isTagPart = false ∧ t.staysInTag = true) Reader.tagStart :=
  .bind fun _ => .bind fun _ => .bind fun _ => .pure ⟨rfl, rfl⟩

theorem closeTag : Yields (fun t => t.isTagPart = false ∧ t.staysInTag = false) Reader.closeTag :=
  .bind fun _ => .bind fun _ => .bind fun _ => .bind fun _ => .pure ⟨rfl, rfl⟩

theorem text : Yields (fun t => t.isTagPart = false ∧ t.staysInTag = false) Reader.text :=
  .bind fun _ => .ite (.fail _) (.pure ⟨rfl, rfl⟩)

end Yields

theorem Mode.inTag_leave (m : Mode) : m.leave.inTag = false := by
  unfold leave inTag enter
  split <;> rfl

theorem Mode.inTag_afterPart {m : Mode} (hm : m.inTag = true) {t : Token}
    (ht : t.isTagPart = true) : (m.afterPart t).inTag = t.staysInTag := by
  rcases t with _ | a | _ | _ | _ | _ | _ | _ <;> try cases ht
  · exact hm
  · exact inTag_leave _
  · exact inTag_leave _

namespace Step

def KeepsOrder (m : Mode) : Step → Prop
  | .skip m' _ => m.inTag = false ∧ m'.inTag = false
  | .token t m' _ => t.isTagPart = m.inTag ∧ t.staysInTag = m'.inTag
  | .fail _ => True

variable {m : Mode} {s : Cursor}

theorem reading_keepsOrder {α : Type} {construct : Construct} {r : Reader α} {token : α → Token}
    {mode : α → Mode}
    (h : ∀ a s', r s = .ok (a, s') → (Step.token (token a) (mode a) s').KeepsOrder m) :
    (reading construct s r token mode).KeepsOrder m := by
  unfold reading
  split
  next a s' hr => exact h a s' hr
  next => trivial

theorem reading_other_keepsOrder {α : Type} {construct : Construct} {r : Reader α} {token : α → Token}
    {mode : α → Mode} (hm : m.inTag = false) (hmode : ∀ a, (mode a).inTag = false)
    (htoken : ∀ a s', r s = .ok (a, s') → (token a).isTagPart = false ∧ (token a).staysInTag = false) :
    (reading construct s r token mode).KeepsOrder m := by
  refine reading_keepsOrder fun a s' hr => ?_
  obtain ⟨hpart, hstays⟩ := htoken a s' hr
  exact ⟨hpart.trans hm.symm, hstays.trans (hmode a).symm⟩

theorem aside_keepsOrder (hm : m.inTag = false) {step : Step} (h : aside? m s = some step) :
    step.KeepsOrder m := by
  rcases aside_cases h with rfl | rfl | rfl
  · exact reading_other_keepsOrder hm (fun _ => hm) fun _ _ _ => ⟨rfl, rfl⟩
  · trivial
  · exact reading_other_keepsOrder hm (fun _ => hm) fun _ _ _ => ⟨rfl, rfl⟩

theorem aside_or_gap_keepsOrder (hm : m.inTag = false) {step : Step}
    (h : (aside? m s <|> gap? m s) = some step) : step.KeepsOrder m := by
  rcases aside_or_gap h with ha | hg
  · exact aside_keepsOrder hm ha
  · obtain ⟨s', -, -, rfl⟩ := gap_cases hg
    exact ⟨hm, hm⟩

end Step

open Step in
theorem step_keepsOrder (m : Mode) (s : Cursor) : (step m s).KeepsOrder m := by
  have htag (hm : m.inTag = false) : (tagStep m s).KeepsOrder m :=
    reading_keepsOrder fun t s' hr => ⟨(Yields.tagStart hr).1.trans hm.symm, (Yields.tagStart hr).2⟩
  unfold step
  split
  next h => exact ⟨by simp [Mode.inTag, h], rfl⟩
  next h =>
    have hm : m.inTag = false := by simp [Mode.inTag, h]
    exact of_ite
      (reading_other_keepsOrder hm (fun _ => rfl) fun _ _ _ => ⟨rfl, rfl⟩) ⟨hm, rfl⟩
  next h =>
    have hm : m.inTag = false := by simp [Mode.inTag, h]
    refine of_ite (reading_other_keepsOrder hm (fun opened => ?_) fun _ _ _ => ⟨rfl, rfl⟩)
      (of_getD (fun _ => aside_or_gap_keepsOrder hm) ⟨hm, rfl⟩)
    cases opened <;> rfl
  next h =>
    have hm : m.inTag = false := by simp [Mode.inTag, h]
    refine of_ite (reading_other_keepsOrder hm (fun _ => hm) fun _ _ _ => ⟨rfl, rfl⟩)
      (of_ite (reading_other_keepsOrder hm (fun _ => rfl) fun _ _ _ => ⟨rfl, rfl⟩) ?_)
    split
    · split
      · exact ⟨hm, hm⟩
      · trivial
    · exact of_getD (fun _ => aside_or_gap_keepsOrder hm) trivial
  next h =>
    have hm : m.inTag = false := by simp [Mode.inTag, h]
    exact of_getD (fun _ => aside_or_gap_keepsOrder hm) (of_ite (htag hm) trivial)
  next h =>
    have hm : m.inTag = false := by simp [Mode.inTag, h]
    refine of_getD (fun _ => aside_keepsOrder hm)
      (of_ite (reading_other_keepsOrder hm (fun _ => hm) fun _ _ _ => ⟨rfl, rfl⟩)
        (of_ite trivial (of_ite ?_ (of_ite trivial
          (of_ite (htag hm) ?_)))))
    · exact reading_other_keepsOrder hm (fun _ => Mode.inTag_leave _) fun _ _ hr =>
        Yields.closeTag hr
    · exact reading_other_keepsOrder hm (fun _ => hm) fun _ _ hr => Yields.text hr
  next h =>
    have hm : m.inTag = true := by simp [Mode.inTag, h]
    refine reading_keepsOrder fun t s' hr => ?_
    have hpart := Yields.tagPart hr
    exact ⟨hpart.trans hm.symm, (Mode.inTag_afterPart hm hpart).symm⟩
  next h =>
    have hm : m.inTag = false := by simp [Mode.inTag, h]
    exact of_getD (fun _ => aside_or_gap_keepsOrder hm) trivial

theorem next_keepsOrder {m m' : Mode} {s s' : Cursor} {t : Token}
    (h : next m s = .token t m' s') : t.isTagPart = m.inTag ∧ t.staysInTag = m'.inTag := by
  fun_induction next m s with
  | case1 => cases h
  | case2 m s hs m₁ s₁ hstep ih =>
    have hkeeps := step_keepsOrder m s
    rw [hstep] at hkeeps
    obtain ⟨hpart, hstays⟩ := ih h
    exact ⟨hpart.trans (hkeeps.2.trans hkeeps.1.symm), hstays⟩
  | case3 m s hs t₁ m₁ s₁ hstep =>
    have hkeeps := step_keepsOrder m s
    rw [hstep] at hkeeps
    cases h
    exact hkeeps
  | case4 => cases h

theorem orderly_lexemesFrom (m : Mode) (s : Cursor) : Orderly m.inTag (lexemesFrom m s) := by
  fun_induction lexemesFrom m s with
  | case1 => trivial
  | case2 m s t m' s' hnext ih =>
    obtain ⟨hpart, hstays⟩ := next_keepsOrder hnext
    exact ⟨hpart, hstays ▸ ih⟩
  | case3 m s f hnext ih => exact ih

/-! What is reported. -/

def Tag.completed? (tag : Tag) (ls : List Lexeme) : Option Tag :=
  (stopAhead? ls).map fun stop =>
    { tag with stop, attributes := tag.attributes ++ attributesAhead ls }

theorem opened_finishPending (pending : Option Tag) (stop : Nat) (isEmpty : Bool) :
    (finishPending pending stop isEmpty).filterMap Event.opened? =
      (pending.map fun tag => { tag with stop }).toList := by
  cases pending with
  | none => rfl
  | some tag => cases isEmpty <;> rfl

theorem completed?_attribute (tag : Tag) (a : Attribute) (stop : Nat) (rest : List Lexeme) :
    tag.completed? (.token (.attribute a) stop :: rest) = (tag.push a).completed? rest := by
  have hstop : stopAhead? (.token (.attribute a) stop :: rest) = stopAhead? rest := rfl
  have hahead : attributesAhead (.token (.attribute a) stop :: rest) = a :: attributesAhead rest := rfl
  simp [Tag.completed?, hstop, hahead, Tag.push]

theorem completed?_of_tagStop? (pending : Option Tag) {l : Lexeme} {stop : Nat}
    (h : l.tagStop? = some stop) (rest : List Lexeme) :
    (pending.bind (·.completed? (l :: rest))) = pending.map fun tag => { tag with stop } := by
  cases pending <;> simp [Tag.completed?, stopAhead?, attributesAhead, h]

/-- The lexeme that ends a tag has it reported, and what follows is read without it. -/
theorem opened_of_tagStop? (pending : Option Tag) {l : Lexeme} {stop : Nat} {isEmpty : Bool}
    {rest : List Lexeme} (h : l.tagStop? = some stop)
    (hrest : (events none rest).filterMap Event.opened? =
      (startedTags rest).filterMap StartedTag.ended?) :
    (finishPending pending stop isEmpty ++ events none rest).filterMap Event.opened? =
      (pending.bind (·.completed? (l :: rest))).toList ++
        (startedTags rest).filterMap StartedTag.ended? := by
  rw [List.filterMap_append, opened_finishPending, hrest, completed?_of_tagStop? pending h]

theorem opened_events (pending : Option Tag) {ls : List Lexeme} (h : Orderly pending.isSome ls) :
    (events pending ls).filterMap Event.opened? =
      (pending.bind (·.completed? ls)).toList ++ (startedTags ls).filterMap StartedTag.ended? := by
  induction ls generalizing pending with
  | nil => cases pending <;> rfl
  | cons l rest ih =>
    cases l with
    | fault f skipped stop => exact opened_of_tagStop? pending rfl (ih none h)
    | token t stop =>
      obtain ⟨hpart, hrest⟩ := h
      rcases t with ⟨name, start⟩ | a | _ | _ | name | content | content | _
      · obtain rfl : pending = none := by simpa [Token.isTagPart] using hpart.symm
        have hnew := ih (some ⟨name, start, stop, []⟩) hrest
        rw [events, hnew, Option.bind_some, startedTags, List.filterMap_cons]
        cases hstop : stopAhead? rest <;> simp [Tag.completed?, StartedTag.ended?, hstop]
      · obtain ⟨tag, rfl⟩ := Option.isSome_iff_exists.1 hpart.symm
        have hpushed := ih (some (tag.push a)) hrest
        rw [Option.bind_some, completed?_attribute]
        exact hpushed
      · exact opened_of_tagStop? pending rfl (ih none hrest)
      · exact opened_of_tagStop? pending rfl (ih none hrest)
      all_goals
        obtain rfl : pending = none := by simpa [Token.isTagPart] using hpart.symm
        exact ih none hrest

theorem startedTags_of_endless {ls : List Lexeme} (h : Orderly true ls)
    (hendless : stopAhead? ls = none) : startedTags ls = [] := by
  induction ls with
  | nil => rfl
  | cons l rest ih =>
    obtain ⟨hnone, hrest⟩ : l.tagStop? = none ∧ stopAhead? rest = none := by
      simpa [stopAhead?] using hendless
    cases l with
    | fault f skipped stop => cases hnone
    | token t stop =>
      obtain ⟨hpart, hstays⟩ := h
      rcases t with _ | a | _ | _ | _ | _ | _ | _ <;> try cases hpart
      · exact ih hstays hrest
      · cases hnone
      · cases hnone

theorem isSome_stop?_of_mem_dropLast (inTag : Bool) {ls : List Lexeme} (h : Orderly inTag ls) :
    ∀ s ∈ (startedTags ls).dropLast, s.stop?.isSome = true := by
  induction ls generalizing inTag with
  | nil => simp [startedTags]
  | cons l rest ih =>
    cases l with
    | fault f skipped stop => exact ih false h
    | token t stop =>
      rcases t with ⟨name, start⟩ | _ | _ | _ | _ | _ | _ | _
      · intro s hs
        by_cases hlater : startedTags rest = []
        · simp [startedTags, hlater] at hs
        · rw [startedTags, List.dropLast_cons_of_ne_nil hlater, List.mem_cons] at hs
          rcases hs with rfl | hs
          · refine Option.isSome_iff_ne_none.2 fun hendless => hlater ?_
            exact startedTags_of_endless h.2 hendless
          · exact ih true h.2 s hs
      all_goals exact ih _ h.2

/-- Every tag that is begun is reported as one opened tag, in order and with the attributes that are
read before it ends or breaks off, but for a last tag that has no end before the text runs out. -/
theorem opened_reports_started (t : Text) :
    (scan t).filterMap Event.opened? = (startedTags (lexemes t)).filterMap StartedTag.ended? ∧
      ∀ s ∈ (startedTags (lexemes t)).dropLast, s.stop?.isSome = true := by
  have horderly : Orderly false (lexemes t) := orderly_lexemesFrom .document ⟨0, t⟩
  exact ⟨opened_events none horderly, isSome_stop?_of_mem_dropLast false horderly⟩

theorem unended_tag_dropped :
    startedTags (lexemes "<a x=\"1\"".toList) = [⟨['a'], 0, [⟨['x'], '"', ['1'], 6⟩], none⟩] ∧
      scan "<a x=\"1\"".toList = [] ∧
      (scan "<a x=\"1\" ".toList).filterMap Event.opened? =
        [⟨['a'], 0, 9, [⟨['x'], '"', ['1'], 6⟩]⟩] := by
  decide +kernel

end ScriptLens.Markup
