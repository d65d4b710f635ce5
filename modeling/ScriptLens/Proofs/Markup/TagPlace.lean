import ScriptLens.Proofs.Markup.Opening
import ScriptLens.Proofs.Markup.Recovery

/-!
Where the tags of a text stand, whatever its faults. A tag that is begun takes up the text from its
`<` on, with its attributes in it (`Tag.BegunIn`), and nothing that is read takes a part of it back;
so the tags that a scan reports stand in the text one after another (`tagsLaid_scan`), also those
that a fault broke off.
-/

namespace ScriptLens.Markup

def Tag.BegunIn (tag : Tag) (t : Text) (s : Cursor) : Prop :=
  ∃ (first : Cursor) (body : Text), Cursor.Reaches ⟨0, t⟩ first ∧ tag.start = first.offset ∧
    first.Passes ('<' :: body) s ∧ Laid (first.offset + 1) body tag.attributes

/-- A tag ends behind a `>`, or before a `<`, or with the text. -/
def Cursor.EndsTag (s : Cursor) (t : Text) : Prop :=
  (∃ before, t = before ++ '>' :: s.rest) ∨ (∃ after, s.rest = '<' :: after) ∨ s.rest = []

def Tag.LiesIn (tag : Tag) (t : Text) : Prop :=
  ∃ s : Cursor, tag.BegunIn t s ∧ tag.stop = s.offset ∧ s.EndsTag t

inductive TagsLaid (t : Text) : (offset : Nat) → List Tag → Prop
  | nil {offset : Nat} : TagsLaid t offset []
  | cons {offset : Nat} {tag : Tag} {tags : List Tag} (lies : tag.LiesIn t)
    (start : offset ≤ tag.start) (others : TagsLaid t tag.stop tags) :
    TagsLaid t offset (tag :: tags)

namespace Tag.BegunIn

variable {tag : Tag} {t : Text} {s s' : Cursor}

theorem of_reaches (h : tag.BegunIn t s) (hs : s.Reaches s') : tag.BegunIn t s' := by
  obtain ⟨first, body, hfirst, hstart, hpasses, hlaid⟩ := h
  obtain ⟨taken, htaken⟩ := hs
  refine ⟨first, body ++ taken, hfirst, hstart, hpasses.trans htaken, ?_⟩
  have hbare := hlaid.append (Laid.nil (t := taken))
  rwa [List.append_nil] at hbare

theorem push {a : Attribute} (h : tag.BegunIn t s) (ha : a.ReadBetween s s') :
    (tag.push a).BegunIn t s' := by
  obtain ⟨first, body, hfirst, hstart, hpasses, hlaid⟩ := h
  obtain ⟨hquote, lead, htaken, hvalue⟩ := ha
  refine ⟨first, body ++ (lead ++ a.quoted), hfirst, hstart, hpasses.trans htaken, ?_⟩
  refine hlaid.append ?_
  have hoffset : s.offset = first.offset + 1 + body.byteSize := by
    have hangle : '<'.utf8Size = 1 := rfl
    rw [hpasses.2, Text.byteSize_cons, hangle, Nat.add_assoc]
  rw [hoffset] at hvalue
  have hone := Laid.cons hquote hvalue (Laid.nil (t := []))
  rwa [List.append_nil] at hone

end Tag.BegunIn

/-! The tags that are reported. -/

section Reported

variable {t : Text} {s s' : Cursor} {pending : Option Tag} {offset : Nat}

theorem begunIn_of_tagStart {name : Text} {start : Nat} (stop : Nat)
    (hs : Cursor.Reaches ⟨0, t⟩ s) (h : (Token.tagStart name start).Spelled s s') :
    Tag.BegunIn ⟨name, start, stop, []⟩ t s' ∧ s.offset ≤ start := by
  obtain ⟨lead, taken, hpasses, hspells⟩ := h
  cases hspells with
  | @tagStart _ written _ =>
    let first : Cursor := ⟨s.offset + lead.byteSize, '<' :: written ++ s'.rest⟩
    have hfirst : s.Reaches first := ⟨lead, by rw [hpasses.1, List.append_assoc], rfl⟩
    refine ⟨⟨first, written, hs.trans hfirst, rfl, ⟨rfl, ?_⟩, .nil⟩, Nat.le_add_right _ _⟩
    rw [hpasses.2, Text.byteSize_append, ← Nat.add_assoc]

theorem endsTag_of_spelled {token : Token} (hs : Cursor.Reaches ⟨0, t⟩ s)
    (h : token.Spelled s s') (htoken : token = .tagEnd ∨ token = .emptyTagEnd) : s'.EndsTag t := by
  obtain ⟨before, htext, -⟩ := hs
  obtain ⟨lead, taken, hpasses, hspells⟩ := h
  dsimp only at htext
  rw [hpasses.1] at htext
  rcases htoken with rfl | rfl
  · cases hspells
    exact .inl ⟨before ++ lead, by simp [htext]⟩
  · cases hspells
    exact .inl ⟨before ++ (lead ++ ['/']), by simp [htext]⟩

theorem TagsLaid.finishPending {isEmpty : Bool} {tags : List Tag}
    (hbegun : ∀ tag ∈ pending, tag.BegunIn t s' ∧ offset ≤ tag.start) (hends : s'.EndsTag t)
    (hoffset : offset ≤ s'.offset)
    (h : ∀ next ≤ s'.offset, TagsLaid t next tags) :
    TagsLaid t offset
      ((Markup.finishPending pending s'.offset isEmpty).filterMap Event.opened? ++ tags) := by
  rw [opened_finishPending]
  cases pending with
  | none => exact h offset hoffset
  | some tag =>
    obtain ⟨htag, hstart⟩ := hbegun tag rfl
    exact .cons ⟨s', htag, rfl, hends⟩ hstart (h s'.offset (Nat.le_refl _))

theorem tagsLaid_events (m : Mode) (hs : Cursor.Reaches ⟨0, t⟩ s) (hoffset : offset ≤ s.offset)
    (hbegun : ∀ tag ∈ pending, tag.BegunIn t s ∧ offset ≤ tag.start) :
    TagsLaid t offset ((events pending (lexemesFrom m s)).filterMap Event.opened?) := by
  fun_induction lexemesFrom m s generalizing pending offset with
  | case1 => exact .nil
  | case2 m s token m' s' hnext ih =>
    have hreaches := (next_token hnext).1
    have hspelled := next_spelled hnext
    have hs' := hs.trans hreaches
    have hoffset' : offset ≤ s'.offset :=
      hoffset.trans (hreaches.offset_lt (next_token hnext).2).le
    have hbegun' : ∀ tag ∈ pending, tag.BegunIn t s' ∧ offset ≤ tag.start :=
      fun tag htag => ⟨(hbegun tag htag).1.of_reaches hreaches, (hbegun tag htag).2⟩
    have hothers : ∀ next ≤ s'.offset,
        TagsLaid t next ((events none (lexemesFrom m' s')).filterMap Event.opened?) :=
      fun next hnext => ih hs' hnext (by simp)
    rcases token with ⟨name, start⟩ | a | _ | _ | name | content | content | _
    · obtain ⟨hstarted, hstart⟩ := begunIn_of_tagStart s'.offset hs hspelled
      refine ih hs' hoffset' fun tag htag => ?_
      obtain rfl := Option.some.inj htag
      exact ⟨hstarted, hoffset.trans hstart⟩
    · refine ih hs' hoffset' fun tag htag => ?_
      obtain ⟨earlier, hearlier, rfl⟩ := Option.map_eq_some_iff.1 htag
      obtain ⟨hstarted, hstart⟩ := hbegun earlier hearlier
      exact ⟨hstarted.push (next_locates hnext), hstart⟩
    · rw [events, List.filterMap_append]
      exact .finishPending hbegun' (endsTag_of_spelled hs hspelled (.inl rfl)) hoffset' hothers
    · rw [events, List.filterMap_append]
      exact .finishPending hbegun' (endsTag_of_spelled hs hspelled (.inr rfl)) hoffset' hothers
    all_goals exact ih hs' hoffset' hbegun'
  | case3 m s f hnext ih =>
    have hreaches := s.reaches_resumption
    have hs' := hs.trans hreaches
    have hshorter := Cursor.length_resumption_lt (next_fail hnext)
    have hoffset' : offset ≤ s.resumption.offset :=
      hoffset.trans (hreaches.offset_lt hshorter).le
    have hends : s.resumption.EndsTag t := by
      by_cases hend : s.resumption.rest = []
      · exact .inr (.inr hend)
      · exact .inr (.inl (exists_cons_resumption hend))
    rw [events, List.cons_append, List.filterMap_cons_none rfl, List.filterMap_append]
    exact .finishPending (fun tag htag => ⟨(hbegun tag htag).1.of_reaches hreaches,
      (hbegun tag htag).2⟩) hends hoffset' fun next hnext => ih hs' hnext (by simp)

theorem tagsLaid_scan (t : Text) : TagsLaid t 0 ((scan t).filterMap Event.opened?) :=
  tagsLaid_events .document (.refl _) (Nat.le_refl 0) (by simp)

end Reported

/-! What is said of tags by their offsets. -/

section Offsets

variable {t : Text} {offset : Nat} {tag : Tag} {tags : List Tag}

theorem Tag.LiesIn.exists_slice (h : tag.LiesIn t) :
    ∃ body : Text, t.slice? tag.start tag.stop = some ('<' :: body) ∧
      Laid (tag.start + 1) body tag.attributes := by
  obtain ⟨s, ⟨first, body, hfirst, hstart, hpasses, hlaid⟩, hstop, -⟩ := h
  rw [← hstart] at hlaid
  refine ⟨body, ?_, hlaid⟩
  rw [hstart, hstop]
  exact slice?_of_passes hfirst hpasses

theorem Tag.LiesIn.start_lt (h : tag.LiesIn t) : tag.start < tag.stop := by
  obtain ⟨body, hslice, -⟩ := h.exists_slice
  obtain ⟨before, after, -, hstart, hstop⟩ := Text.slice?_eq_some_iff.1 hslice
  have hangle : '<'.utf8Size = 1 := rfl
  rw [Text.byteSize_cons, hangle] at hstop
  omega

theorem TagsLaid.lies (h : TagsLaid t offset tags) :
    ∀ tag ∈ tags, tag.LiesIn t ∧ offset ≤ tag.start := by
  induction h with
  | nil => simp
  | cons lies start others ih =>
    intro tag htag
    rcases List.mem_cons.1 htag with rfl | htag
    · exact ⟨lies, start⟩
    · obtain ⟨hlies, hstart⟩ := ih tag htag
      have hfirst := lies.start_lt
      exact ⟨hlies, by omega⟩

theorem TagsLaid.pairwise (h : TagsLaid t offset tags) :
    tags.Pairwise fun a b => a.stop ≤ b.start := by
  induction h with
  | nil => exact .nil
  | cons lies start others ih => exact .cons (fun tag htag => (others.lies tag htag).2) ih

theorem Tag.LiesIn.value (h : tag.LiesIn t) {a : Attribute} (ha : a ∈ tag.attributes) :
    t.slice? a.valueStart (a.valueStart + a.value.byteSize) = some a.value ∧
      tag.start < a.valueStart ∧ a.valueStart + a.value.byteSize < tag.stop := by
  obtain ⟨body, hslice, hlaid⟩ := h.exists_slice
  obtain ⟨before, after, rfl, hstart, hstop⟩ := Text.slice?_eq_some_iff.1 hslice
  obtain ⟨left, right, rfl, hvalue⟩ := hlaid.exists_value ha
  have hangle : '<'.utf8Size = 1 := rfl
  have hquote := a.quote.utf8Size_pos
  refine ⟨Text.slice?_eq_some_iff.2 ⟨before ++ '<' :: left, a.quote :: right ++ after, ?_, ?_, ?_⟩,
    ?_, ?_⟩
  · simp
  · simp only [hvalue, hstart, Text.byteSize_append, Text.byteSize_cons, hangle]
    omega
  · simp only [hvalue, hstart, Text.byteSize_append, Text.byteSize_cons, hangle]
    omega
  · omega
  · simp only [hvalue, hstart, hstop, Text.byteSize_append, Text.byteSize_cons, hangle]
    omega

end Offsets

/-- Whatever a text is, the opened tags that a scan reports are slices of it that begin with `<` and
stand one after another without overlap. The value of each of their attributes is the slice of the
text at the offset that the attribute tells, and the values of a tag stand in it, in order and
apart. -/
theorem opened_spans (t : Text) :
    (∀ tag ∈ (scan t).filterMap Event.opened?,
        (∃ body : Text, t.slice? tag.start tag.stop = some ('<' :: body)) ∧
          (∀ a ∈ tag.attributes,
            t.slice? a.valueStart (a.valueStart + a.value.byteSize) = some a.value ∧
              tag.start < a.valueStart ∧ a.valueStart + a.value.byteSize < tag.stop) ∧
          tag.attributes.Pairwise fun a b => a.valueStart + a.value.byteSize < b.valueStart) ∧
      ((scan t).filterMap Event.opened?).Pairwise fun a b => a.start < a.stop ∧ a.stop ≤ b.start := by
  have hlaid := tagsLaid_scan t
  constructor
  · intro tag htag
    have hlies := (hlaid.lies tag htag).1
    obtain ⟨body, hslice, hattributes⟩ := hlies.exists_slice
    exact ⟨⟨body, hslice⟩, fun a ha => hlies.value ha, hattributes.apart.2⟩
  · refine hlaid.pairwise.imp_of_mem fun {a b} ha _ hle => ?_
    exact ⟨(hlaid.lies a ha).1.start_lt, hle⟩

example : ((scan "<a x='1' <b/>".toList).filterMap Event.opened?).map (fun tag => (tag.start, tag.stop)) =
    [(0, 9), (9, 13)] := by
  decide +kernel

end ScriptLens.Markup
