import Mathlib.Data.List.Nodup
import ScriptLens.Proofs.Document.Slicing
import ScriptLens.Proofs.OrderedMap
import ScriptLens.Schema.Index

/-!
Where the entry of a name is defined. Each entry that is read is taken together with the tag that it
began with. A lookup by name finds the first entry of its kind, while the place that is stored under
a name is that of the last tag with this key, also if that tag begins another entry, an entry that
is never closed, or a property. So the place is the entry's own exactly if no such tag comes later.
-/

namespace ScriptLens

namespace SchemaEntry

theorem keyword?_eq_some_iff (entry : SchemaEntry) (k : Keyword) :
    entry.keyword? = some k ↔ entry = .keyword k := by
  cases entry <;> simp

theorem datatype?_eq_some_iff (entry : SchemaEntry) (d : Datatype) :
    entry.datatype? = some d ↔ entry = .datatype d := by
  cases entry <;> simp

theorem exists_keyword {entry : SchemaEntry} (h : entry.isKeyword = true) :
    ∃ k, entry = .keyword k := by
  cases entry with
  | keyword k => exact ⟨k, rfl⟩
  | datatype d => cases h

theorem exists_datatype {entry : SchemaEntry} (h : entry.isKeyword = false) :
    ∃ d, entry = .datatype d := by
  cases entry with
  | keyword k => cases h
  | datatype d => exact ⟨d, rfl⟩

end SchemaEntry

namespace SchemaText

open Markup

/-- An entry with the tag that it began with. -/
structure Definition where
  tag : Tag
  entry : SchemaEntry
  deriving DecidableEq, Repr

namespace Definition

def span (d : Definition) : SchemaSpan :=
  ⟨d.entry.name, d.tag.start, d.tag.stop⟩

def IsFirst (d : Definition) (definitions : List Definition) : Prop :=
  ∃ before after, definitions = before ++ d :: after ∧
    ∀ earlier ∈ before, earlier.entry.isKeyword = d.entry.isKeyword →
      earlier.entry.name ≠ d.entry.name

end Definition

def entryTag (held : Option Tag) : Event → Option Tag
  | .opened tag => if isEntryTag tag.name then some tag else held
  | _ => held

def definitionsFrom (s : State) (held : Option Tag) : List Event → List Definition
  | [] => []
  | e :: es =>
    ((completed? s e).bind fun entry => held.map fun tag => ⟨tag, entry⟩).toList ++
      definitionsFrom (s.step e) (entryTag held e) es

def definitions (t : Text) : List Definition :=
  definitionsFrom .start none (scan t)

/-- An entry that is open began with the last tag that began one, and has its name. -/
def Began (s : State) (held : Option Tag) : Prop :=
  ∀ entry, s.entry = some entry →
    ∃ tag, held = some tag ∧ isEntryTag tag.name = true ∧
      tag.value? "name".toList = some entry.name

section Run

variable {s : State} {held : Option Tag} {e : Event} {es : List Event} {d : Definition}

theorem name_newEntry (tag : Tag) (name : Text) : (newEntry tag name).name = name := by
  unfold newEntry
  split <;> rfl

theorem entryTag_cases (held : Option Tag) (e : Event) :
    (∃ tag, e = .opened tag ∧ isEntryTag tag.name = true ∧ entryTag held e = some tag) ∨
      (∀ tag, e = .opened tag → isEntryTag tag.name = false) ∧ entryTag held e = held := by
  cases e with
  | opened tag =>
    cases htag : isEntryTag tag.name with
    | true => exact .inl ⟨tag, rfl, htag, if_pos htag⟩
    | false => exact .inr ⟨by rintro _ ⟨⟩; exact htag, if_neg (by simp [htag])⟩
  | closed | text | fault => exact .inr ⟨fun _ he => (nomatch he), rfl⟩

theorem exists_entry_of_step {entry : SchemaEntry}
    (h : ∀ tag, e = .opened tag → isEntryTag tag.name = false)
    (hentry : (s.step e).entry = some entry) :
    ∃ earlier, s.entry = some earlier ∧ earlier.name = entry.name := by
  cases e with
  | opened tag =>
    simp only [State.step, State.open, h tag rfl, Bool.false_eq_true, if_false] at hentry
    split at hentry
    · split at hentry
      next earlier hearlier =>
        split at hentry
        · cases hentry
          exact ⟨earlier, hearlier, (earlier.name_setImport _).symm⟩
        · exact ⟨entry, hentry, rfl⟩
      next => exact ⟨entry, hentry, rfl⟩
    · split at hentry
      · split at hentry
        · obtain ⟨earlier, hearlier, rfl⟩ := Option.map_eq_some_iff.1 hentry
          refine ⟨earlier, hearlier, ?_⟩
          split <;> simp
        · exact ⟨entry, hentry, rfl⟩
      · exact ⟨entry, hentry, rfl⟩
  | closed name =>
    simp only [State.step, State.close] at hentry
    split at hentry
    · cases hentry
    · split at hentry <;> exact ⟨entry, hentry, rfl⟩
  | text | fault => exact ⟨entry, hentry, rfl⟩

theorem began_start : Began .start none := fun _ hentry => nomatch hentry

theorem Began.step (h : Began s held) (e : Event) : Began (s.step e) (entryTag held e) := by
  intro entry hentry
  rcases entryTag_cases held e with ⟨tag, rfl, htag, hheld⟩ | ⟨hother, hheld⟩
  · have hopen : (tag.value? "name".toList).map (newEntry tag) = some entry := by
      rwa [State.step, State.open, if_pos htag] at hentry
    obtain ⟨name, hname, rfl⟩ := Option.map_eq_some_iff.1 hopen
    exact ⟨tag, hheld, htag, by rw [hname, name_newEntry]⟩
  · obtain ⟨earlier, hearlier, hname⟩ := exists_entry_of_step hother hentry
    rw [hheld, ← hname]
    exact h earlier hearlier

theorem entry_of_completed {entry : SchemaEntry} (h : completed? s e = some entry) :
    s.entry = some entry := by
  cases e with
  | closed name =>
    rw [completed?, closedEntry?] at h
    split at h
    · exact h
    · cases h
  | opened | text | fault => cases h

theorem map_entry_definitionsFrom (h : Began s held) (es : List Event) :
    (definitionsFrom s held es).map (·.entry) = entries s es := by
  induction es generalizing s held with
  | nil => rfl
  | cons e es ih =>
    rw [definitionsFrom, entries, List.map_append, ih (h.step e)]
    cases hentry : completed? s e with
    | none => rfl
    | some entry =>
      obtain ⟨tag, rfl, -⟩ := h entry (entry_of_completed hentry)
      rfl

/-- A definition's tag either began before the events or is one of the places that they mark. -/
theorem span_mem_marks (h : Began s held) (hd : d ∈ definitionsFrom s held es) :
    isEntryTag d.tag.name = true ∧ d.tag.value? "name".toList = some d.entry.name ∧
      (held = some d.tag ∨ d.span ∈ marks s es) := by
  induction es generalizing s held with
  | nil => cases hd
  | cons e es ih =>
    rcases List.mem_append.1 hd with hd | hd
    · obtain ⟨entry, hentry, hheld⟩ := Option.bind_eq_some_iff.1 (Option.mem_toList.1 hd)
      obtain ⟨tag, rfl, rfl⟩ := Option.map_eq_some_iff.1 hheld
      obtain ⟨tag', htag', hkind, hname⟩ := h entry (entry_of_completed hentry)
      obtain rfl := Option.some.inj htag'
      exact ⟨hkind, hname, .inl rfl⟩
    · obtain ⟨hkind, hname, hplace⟩ := ih (h.step e) hd
      refine ⟨hkind, hname, ?_⟩
      -- A tag that is held after this event either began at it, and so is marked here, or before.
      rcases hplace with hlast | hmarked
      · rcases entryTag_cases held e with ⟨tag, rfl, htag, hheld⟩ | ⟨-, hheld⟩
        · obtain rfl := Option.some.inj (hheld.symm.trans hlast)
          exact .inr (List.mem_append_left _ (Option.mem_toList.2 (spanOf?_entry s htag hname)))
        · exact .inl (hheld.symm.trans hlast)
      · exact .inr (List.mem_append_right _ hmarked)

theorem starts_marks_sublist (s : State) (es : List Event) :
    ((marks s es).map (·.start)).Sublist ((es.filterMap Event.opened?).map (·.start)) := by
  induction es generalizing s with
  | nil => exact .slnil
  | cons e es ih =>
    cases e with
    | opened tag =>
      rw [marks, marked?, List.filterMap_cons_some (f := Event.opened?) rfl, List.map_append,
        List.map_cons]
      cases hspan : spanOf? s tag with
      | none => exact (ih _).cons _
      | some span =>
        rw [← (spanOf?_eq_some hspan).1]
        exact (ih _).cons_cons _
    | closed | text | fault => exact ih _

end Run

/-- What is read of a text are the entries of its definitions, and the places that they mark. -/
theorem ofText_eq_definitions (t : Text) :
    ofText t =
      ⟨(definitions t).filterMap (·.entry.keyword?), (definitions t).filterMap (·.entry.datatype?),
        marks .start (scan t)⟩ := by
  rw [ofText_eq, ← map_entry_definitionsFrom began_start, List.filterMap_map, List.filterMap_map]
  rfl

theorem span_mem_spans {t : Text} {d : Definition} (h : d ∈ definitions t) :
    d.span ∈ (ofText t).spans := by
  rw [ofText_eq]
  exact (span_mem_marks began_start h).2.2.resolve_left (fun hnone => nomatch hnone)

theorem starts_increase (t : Text) : ((ofText t).spans.map (·.start)).Pairwise (· < ·) := by
  rw [ofText_eq]
  refine .sublist (starts_marks_sublist .start (scan t)) (List.pairwise_map.2 ?_)
  exact (opened_spans t).2.imp fun h => h.1.trans_le h.2

end SchemaText

theorem Markup.Tag.LiesIn.offset?_start {d : Document} {tag : Markup.Tag} (h : tag.LiesIn d.text) :
    d.offset? (d.positionAt tag.start) = some tag.start := by
  obtain ⟨s, ⟨first, body, ⟨before, htext, hbefore⟩, hstart, ⟨hrest, -⟩, -⟩, -⟩ := h
  dsimp only at htext hbefore
  rw [Nat.zero_add] at hbefore
  rw [hrest] at htext
  rw [hstart, hbefore, Document.positionAt_append htext]
  exact Document.offset?_after htext (parted_cons (by decide))

namespace SchemaSpan

def withKey (key : Text) (spans : List SchemaSpan) : List SchemaSpan :=
  spans.filter fun span => Markup.escapeAngles span.key = key

/-- The last of the places that are stored under a key. -/
structure IsLast (span : SchemaSpan) (key : Text) (spans : List SchemaSpan) : Prop where
  mem : span ∈ withKey key spans
  last : ∀ other ∈ withKey key spans, other.start ≤ span.start

variable {spans : List SchemaSpan} {span other : SchemaSpan} {key : Text}

theorem mem_withKey : span ∈ withKey key spans ↔
    span ∈ spans ∧ Markup.escapeAngles span.key = key := by
  simp [withKey]

theorem eq_of_start (hspans : (spans.map (·.start)).Pairwise (· < ·)) (hspan : span ∈ spans)
    (hother : other ∈ spans) (h : span.start = other.start) : span = other :=
  List.inj_on_of_nodup_map (hspans.imp Nat.ne_of_lt) hspan hother h

theorem isLast_of_getLast? (hspans : (spans.map (·.start)).Pairwise (· < ·))
    (h : (withKey key spans).getLast? = some span) : span.IsLast key spans := by
  have hsorted : (withKey key spans).Pairwise fun a b => a.start < b.start :=
    (List.pairwise_map.1 hspans).filter _
  obtain ⟨before, hsplit⟩ := List.getLast?_eq_some_iff.1 h
  refine ⟨List.mem_of_getLast? h, fun other hother => ?_⟩
  rw [hsplit] at hsorted hother
  rcases List.mem_append.1 hother with hbefore | hspan
  · exact ((List.pairwise_append.1 hsorted).2.2 other hbefore span (by simp)).le
  · exact (congrArg SchemaSpan.start (List.mem_singleton.1 hspan)).le

theorem getLast?_eq_some_iff (hspans : (spans.map (·.start)).Pairwise (· < ·)) :
    (withKey key spans).getLast? = some span ↔ span.IsLast key spans := by
  refine ⟨isLast_of_getLast? hspans, fun h => ?_⟩
  have hstored := List.getLast?_eq_some_getLast (List.ne_nil_of_mem h.mem)
  have hlast := isLast_of_getLast? hspans hstored
  have hstart := Nat.le_antisymm (h.last _ hlast.mem) (hlast.last span h.mem)
  rw [hstored, eq_of_start hspans (mem_withKey.1 hlast.mem).1 (mem_withKey.1 h.mem).1 hstart]

end SchemaSpan

namespace Schema

open SchemaText

theorem exists_isFirst_of_find? {α : Type} {kind? : SchemaEntry → Option α}
    {ofKind : α → SchemaEntry} {ds : List Definition} {name : Text} {a : α}
    (hkind : ∀ entry a, kind? entry = some a ↔ entry = ofKind a)
    (hsame : ∀ entry a, entry.isKeyword = (ofKind a).isKeyword → ∃ b, entry = ofKind b)
    (h : (ds.filterMap (kind? ·.entry)).find? (fun a => (ofKind a).name = name) = some a) :
    ∃ d : Definition, d.IsFirst ds ∧ d.entry = ofKind a ∧ (ofKind a).name = name := by
  rw [List.find?_filterMap] at h
  obtain ⟨d, hd, ha⟩ := Option.bind_eq_some_iff.1 h
  obtain ⟨hp, before, after, hsplit, hbefore⟩ := List.find?_eq_some_iff_append.1 hd
  have hentry := (hkind _ _).1 ha
  have hname : (ofKind a).name = name := by simpa [ha] using hp
  refine ⟨d, ⟨before, after, hsplit, fun earlier hearlier hkeyword hequal => ?_⟩, hentry, hname⟩
  rw [hentry] at hkeyword hequal
  obtain ⟨b, hb⟩ := hsame _ _ hkeyword
  have hother := hbefore earlier hearlier
  rw [(hkind _ _).2 hb, Option.any_some, ← hb, hequal, hname] at hother
  simp at hother

theorem exists_isFirst {ds : List Definition} {name : Text} {entry : SchemaEntry}
    (h : entry? ⟨ds.filterMap (·.entry.keyword?), ds.filterMap (·.entry.datatype?)⟩ name =
      some entry) :
    ∃ d : Definition, d.IsFirst ds ∧ d.entry = entry ∧ entry.name = name := by
  unfold entry? at h
  split at h
  next k hk =>
    obtain rfl := Option.some.inj h
    exact exists_isFirst_of_find? SchemaEntry.keyword?_eq_some_iff
      (fun _ _ hkeyword => SchemaEntry.exists_keyword hkeyword) (Option.filter_eq_some_iff.1 hk).1
  next =>
    obtain ⟨d, hd, rfl⟩ := Option.map_eq_some_iff.1 h
    exact exists_isFirst_of_find? SchemaEntry.datatype?_eq_some_iff
      (fun _ _ hkeyword => SchemaEntry.exists_datatype hkeyword) hd

end Schema

namespace SchemaIndex

open SchemaText

theorem get?_locationsOf (uri t : Text) (spans : List SchemaSpan) (key : Text) :
    (locationsOf uri t spans).get? key = (SchemaSpan.withKey key spans).getLast?.map fun span =>
      ⟨uri, Document.rangeOf ⟨t, .markup⟩ span.start span.stop⟩ := by
  rw [locationsOf, OrderedMap.get?_ofList, ← List.getLast?_map]
  simp only [under, SchemaSpan.withKey, List.filter_map, List.map_map, Function.comp_def]

theorem eq_of_rangeOf {t : Text} {span other : SchemaSpan} (hspan : span ∈ (ofText t).spans)
    (hother : other ∈ (ofText t).spans)
    (h : Document.rangeOf ⟨t, .markup⟩ span.start span.stop =
      Document.rangeOf ⟨t, .markup⟩ other.start other.stop) : span = other := by
  have hback : ∀ place ∈ (ofText t).spans,
      Document.offset? ⟨t, .markup⟩ (Document.positionAt ⟨t, .markup⟩ place.start) =
        some place.start := by
    intro place hplace
    rw [ofText_eq] at hplace
    obtain ⟨tag, htag, hstart, -⟩ := exists_opened_of_mem_marks hplace
    have hopened : tag ∈ (Markup.scan t).filterMap Markup.Event.opened? :=
      List.mem_filterMap.2 ⟨_, htag, rfl⟩
    rw [hstart]
    exact ((Markup.tagsLaid_scan t).lies tag hopened).1.offset?_start (d := ⟨t, .markup⟩)
  have hposition : Document.positionAt ⟨t, .markup⟩ span.start =
      Document.positionAt ⟨t, .markup⟩ other.start := congrArg Range.start h
  have hstart := hback span hspan
  rw [hposition, hback other hother] at hstart
  exact SchemaSpan.eq_of_start (starts_increase t) hspan hother (Option.some.inj hstart).symm

/-- The entry that a name is found by is the first definition of its kind and name. The place stored
under the name is that of the last definition with this key. So it is where the entry's own tag is
exactly if no definition with this key comes after that tag. -/
theorem location_of_entry {t uri name : Text} {literals? : KeywordImport → Option (List Text)}
    {entry : SchemaEntry}
    (h : (build (.ofText t) (some uri) t literals?).schema.entry? name = some entry) :
    ∃ d : Definition, d.IsFirst (definitions t) ∧ d.entry = entry ∧ d.span ∈ (ofText t).spans ∧
      (∃ last : SchemaSpan, last.IsLast (Markup.escapeAngles name) (ofText t).spans ∧
        (build (.ofText t) (some uri) t literals?).locations.get? (Markup.escapeAngles name) =
          some ⟨uri, Document.rangeOf ⟨t, .markup⟩ last.start last.stop⟩) ∧
      ((build (.ofText t) (some uri) t literals?).locations.get? (Markup.escapeAngles name) =
          some ⟨uri, Document.rangeOf ⟨t, .markup⟩ d.tag.start d.tag.stop⟩ ↔
        d.span.IsLast (Markup.escapeAngles name) (ofText t).spans) := by
  have hentry : Schema.entry? ⟨(definitions t).filterMap (·.entry.keyword?),
      (definitions t).filterMap (·.entry.datatype?)⟩ name = some entry := by
    rwa [build, ofText_eq_definitions] at h
  obtain ⟨d, hfirst, rfl, hname⟩ := Schema.exists_isFirst hentry
  have hdefined : d ∈ definitions t := by
    obtain ⟨before, after, hsplit, -⟩ := hfirst
    exact hsplit ▸ List.mem_append_right before List.mem_cons_self
  have hspan := span_mem_spans hdefined
  have hkey : d.span ∈ SchemaSpan.withKey (Markup.escapeAngles name) (ofText t).spans :=
    SchemaSpan.mem_withKey.2 ⟨hspan, congrArg Markup.escapeAngles hname⟩
  obtain ⟨last, hlast⟩ :=
    Option.isSome_iff_exists.1 (List.getLast?_isSome.2 (List.ne_nil_of_mem hkey))
  have hstored : (build (.ofText t) (some uri) t literals?).locations.get?
      (Markup.escapeAngles name) =
        some ⟨uri, Document.rangeOf ⟨t, .markup⟩ last.start last.stop⟩ := by
    change (locationsOf uri t (ofText t).spans).get? _ = _
    rw [get?_locationsOf, hlast, Option.map_some]
  have hislast := SchemaSpan.isLast_of_getLast? (starts_increase t) hlast
  refine ⟨d, hfirst, rfl, hspan, ⟨last, hislast, hstored⟩, ?_⟩
  rw [hstored]
  constructor
  · intro hsame
    have hrange : Document.rangeOf ⟨t, .markup⟩ last.start last.stop =
        Document.rangeOf ⟨t, .markup⟩ d.tag.start d.tag.stop :=
      congrArg Location.range (Option.some.inj hsame)
    have hequal : last = d.span :=
      eq_of_rangeOf (SchemaSpan.mem_withKey.1 hislast.mem).1 hspan hrange
    exact hequal ▸ hislast
  · intro hown
    rw [← SchemaSpan.getLast?_eq_some_iff (starts_increase t), hlast] at hown
    obtain rfl := Option.some.inj hown
    rfl

section Repeated

def repeatedKeyword : Text :=
  "<s><keyword name=\"a\"><property name=\"p\"/></keyword>".toList ++
    "<keyword name=\"a\"><property name=\"q\"/></keyword></s>".toList

def repeatedIndex : SchemaIndex :=
  build (.ofText repeatedKeyword) (some "file:///s.xml".toList) repeatedKeyword fun _ => none

def firstDefinition : Definition where
  tag := ⟨"keyword".toList, 3, 21, [⟨"name".toList, '"', "a".toList, 18⟩]⟩
  entry := .keyword
    ⟨"a".toList, none, none, none, none, none, [⟨"p".toList, none, none⟩], none⟩

theorem repeatedKeyword_location :
    repeatedIndex.schema.entry? "a".toList = some firstDefinition.entry ∧
      ∃ d : Definition, d.IsFirst (definitions repeatedKeyword) ∧ d.entry = firstDefinition.entry ∧
        (∃ last : SchemaSpan,
          last.IsLast (Markup.escapeAngles "a".toList) (ofText repeatedKeyword).spans ∧
          repeatedIndex.locations.get? (Markup.escapeAngles "a".toList) =
            some ⟨"file:///s.xml".toList,
              Document.rangeOf ⟨repeatedKeyword, .markup⟩ last.start last.stop⟩) := by
  have hentry : repeatedIndex.schema.entry? "a".toList = some firstDefinition.entry := by
    decide +kernel
  obtain ⟨d, hfirst, hd, -, hlast, -⟩ := location_of_entry hentry
  exact ⟨hentry, d, hfirst, hd, hlast⟩

theorem repeatedKeyword_place_differs :
    firstDefinition.IsFirst (definitions repeatedKeyword) ∧
      repeatedIndex.schema.entry? "a".toList = some firstDefinition.entry ∧
      repeatedIndex.locations.get? "a".toList ≠
        some ⟨"file:///s.xml".toList, Document.rangeOf ⟨repeatedKeyword, .markup⟩
          firstDefinition.tag.start firstDefinition.tag.stop⟩ := by
  refine ⟨⟨[], (definitions repeatedKeyword).tail, by decide +kernel, by simp⟩, ?_, ?_⟩
  · decide +kernel
  · decide +kernel

end Repeated

end SchemaIndex

end ScriptLens
