import ScriptLens.Proofs.Markup.Escaping
import ScriptLens.Proofs.Markup.Report

/-!
Documents that are written tag by tag. A layout says what stands between the tags and between the
parts of a tag, and the tags themselves are a list of pieces, of which those that open an element
may have a label. If the pieces nest, the document is the text of a tree, so a scan reports each
piece at the place where the layout put it.
-/

namespace ScriptLens.Markup

structure Layout where
  /-- Stands before each attribute. -/
  gap : Gap
  beforeEquals : Spaces
  afterEquals : Spaces
  /-- Stands at the end of an opening tag. -/
  inOpening : Spaces
  inClosing : Spaces
  /-- Stands before each tag in the root. -/
  between : CharData
  /-- Whether an element with nothing in it is written as one tag. -/
  short : Bool
  prolog : Prolog
  tail : Spaces

inductive TagPiece where
  | opening (tag : StartTag) (label : Option Text)
  | single (tag : StartTag) (label : Option Text)
  | closing (tag : StartTag)

namespace TagPiece

def label? : TagPiece → Option Text
  | opening _ label => label
  | single _ label => label
  | closing _ => none

def events (offset : Nat) : TagPiece → List Event
  | opening tag _ => [.opened (tag.placed false offset)]
  | single tag _ => [.opened (tag.placed true offset), .closed tag.name.text]
  | closing tag => [.closed tag.name.text]

/-- Whatever is opened is closed, in the order in which it nests. -/
inductive Nested : List TagPiece → Prop
  | nil : Nested []
  | single {rest : List TagPiece} (tag : StartTag) (label : Option Text) (hrest : Nested rest) :
    Nested (single tag label :: rest)
  | paired {inner rest : List TagPiece} (tag : StartTag) (label : Option Text)
    (hinner : Nested inner) (hrest : Nested rest) : Nested (opening tag label :: (inner ++ closing tag :: rest))

theorem Nested.append {ps qs : List TagPiece} (hp : Nested ps) (hq : Nested qs) :
    Nested (ps ++ qs) := by
  induction hp with
  | nil => exact hq
  | single tag label _ ih => exact ih.single tag label
  | paired tag label hinner _ _ ih => simpa using hinner.paired tag label ih

theorem Nested.flatMap {α : Type} {f : α → List TagPiece} (h : ∀ a, Nested (f a)) (as : List α) :
    Nested (as.flatMap f) := by
  induction as with
  | nil => exact .nil
  | cons a as ih => exact (h a).append ih

end TagPiece

structure TagPlace where
  label : Text
  start : Nat
  stop : Nat

/-- What a tag is to say: fields with names of their own, each of which may have a value. -/
structure Fields where
  list : List (PlainName × Option Text)
  distinct : (list.map (·.1.text)).Nodup

def Tag.Tells (tag : Tag) (fields : Fields) : Prop :=
  ∀ f ∈ fields.list, tag.value? f.1.text = f.2

def Legible (fields : List (PlainName × Option Text)) : Prop :=
  ∀ f ∈ fields, ∀ v ∈ f.2, v.all isAllowed = true

instance (fields : List (PlainName × Option Text)) : Decidable (Legible fields) :=
  inferInstanceAs (Decidable (∀ f ∈ fields, ∀ v ∈ f.2, v.all isAllowed = true))

theorem legible_append {as bs : List (PlainName × Option Text)} :
    Legible (as ++ bs) ↔ Legible as ∧ Legible bs :=
  List.forall_mem_append

theorem legible_flatMap {α : Type} {f : α → List (PlainName × Option Text)} {as : List α} :
    Legible (as.flatMap f) ↔ ∀ a ∈ as, Legible (f a) :=
  List.forall_mem_flatMap

section Present

variable {fields : List (PlainName × Option Text)}

def present (fields : List (PlainName × Option Text)) : List (PlainName × Text) :=
  fields.filterMap fun f => f.2.map fun v => (f.1, v)

theorem present_cons (f : PlainName × Option Text) (fields : List (PlainName × Option Text)) :
    present (f :: fields) = (f.2.map fun v => (f.1, v)).toList ++ present fields := by
  cases h : f.2 <;> simp [present, h]

theorem Legible.present (h : Legible fields) : ∀ a ∈ present fields, a.2.all isAllowed = true := by
  intro a ha
  obtain ⟨f, hf, hvalue⟩ := List.mem_filterMap.1 ha
  obtain ⟨v, hv, rfl⟩ := Option.map_eq_some_iff.1 hvalue
  exact h f hf v hv

theorem name_mem_of_present {a : PlainName × Text} (h : a ∈ present fields) :
    a.1.text ∈ fields.map (·.1.text) := by
  obtain ⟨f, hf, hvalue⟩ := List.mem_filterMap.1 h
  obtain ⟨v, -, rfl⟩ := Option.map_eq_some_iff.1 hvalue
  exact List.mem_map_of_mem hf

theorem find?_present (hdistinct : (fields.map (·.1.text)).Nodup) {key : PlainName}
    {value : Option Text} (hmem : (key, value) ∈ fields) :
    ((present fields).find? (·.1.text = key.text)).map (·.2) = value := by
  induction fields with
  | nil => cases hmem
  | cons f fields ih =>
    obtain ⟨hnew, hdistinct⟩ := List.nodup_cons.1 hdistinct
    have hnew : ∀ t ∈ fields.map (·.1.text), t ≠ f.1.text := by
      rintro t ht rfl
      exact hnew ht
    rw [present_cons]
    rcases List.mem_cons.1 hmem with rfl | hmem
    · cases value with
      | some v => simp
      | none =>
        have hnone : (present fields).find? (·.1.text = key.text) = none :=
          List.find?_eq_none.2 fun a ha => by simpa using hnew _ (name_mem_of_present ha)
        simp [hnone]
    · have hne : f.1.text ≠ key.text := (hnew _ (List.mem_map_of_mem hmem)).symm
      have hrest := ih hdistinct hmem
      cases f.2 with
      | none => simpa using hrest
      | some v => simpa [hne] using hrest

end Present

namespace Layout

variable (l : Layout)

/-! How tags are written. -/

def assignment (a : PlainName × Text) : WrittenAttribute where
  gap := l.gap
  name := ⟨none, a.1⟩
  quoting := ⟨l.beforeEquals, l.afterEquals, '"', Quoting.isQuote_double⟩
  value := escapeValue a.2
  valid := isQuotable_escapeValue a.2

def tag (name : PlainName) (fields : Fields) : StartTag :=
  ⟨⟨none, name⟩, (present fields.list).map l.assignment, l.inOpening⟩

theorem find?_placeAll (as : List (PlainName × Text)) (key : Text) (offset : Nat)
    (h : ∀ a ∈ as, a.2.all isAllowed = true) :
    ((WrittenAttribute.placeAll offset (as.map l.assignment)).find? (·.name = key)).map
        Attribute.decoded =
      (as.find? (·.1.text = key)).map (·.2) := by
  induction as generalizing offset with
  | nil => rfl
  | cons a as ih =>
    obtain ⟨ha, has⟩ := List.forall_mem_cons.1 h
    simp only [List.map_cons, WrittenAttribute.placeAll, List.find?_cons]
    by_cases hkey : a.1.text = key
    · simp [hkey, WrittenAttribute.placed, assignment, QualifiedName.text, Attribute.decoded,
        unescape_escapeValue ha]
    · simpa [hkey, WrittenAttribute.placed, assignment, QualifiedName.text] using ih _ has

theorem tells_placed (name : PlainName) {fields : Fields} (h : Legible fields.list)
    (isEmpty : Bool) (offset : Nat) : ((l.tag name fields).placed isEmpty offset).Tells fields :=
  fun f hf => (l.find?_placeAll (present fields.list) f.1.text _ h.present).trans
    (find?_present fields.distinct hf)

def element (tag : StartTag) (label : Option Text) (inner : List TagPiece) : List TagPiece :=
  if l.short && inner.isEmpty then [.single tag label]
  else .opening tag label :: (inner ++ [.closing tag])

theorem nested_element {inner : List TagPiece} (tag : StartTag) (label : Option Text)
    (h : TagPiece.Nested inner) : TagPiece.Nested (l.element tag label inner) := by
  unfold element
  split
  · exact .single tag label .nil
  · exact h.paired tag label .nil

theorem labels_element (tag : StartTag) (label : Option Text) (inner : List TagPiece) :
    (l.element tag label inner).filterMap TagPiece.label? =
      label.toList ++ inner.filterMap TagPiece.label? := by
  unfold element
  split
  next h =>
    obtain rfl : inner = [] := by simpa using (Bool.and_eq_true_iff.1 h).2
    cases label <;> rfl
  next => cases label <;> simp [TagPiece.label?, List.filterMap_cons]

/-! How pieces are put one after another. -/

def markup : TagPiece → Text
  | .opening tag _ => tag.render false
  | .single tag _ => tag.render true
  | .closing tag => tag.closing l.inClosing

def text (ps : List TagPiece) : Text :=
  ps.flatMap fun p => l.between.text ++ l.markup p

@[simp] theorem text_cons (p : TagPiece) (ps : List TagPiece) :
    l.text (p :: ps) = l.between.text ++ l.markup p ++ l.text ps := rfl

@[simp] theorem text_append (ps qs : List TagPiece) : l.text (ps ++ qs) = l.text ps ++ l.text qs :=
  List.flatMap_append

def startOf (offset : Nat) : Nat :=
  offset + l.between.text.byteSize

def stopOf (offset : Nat) (p : TagPiece) : Nat :=
  l.startOf offset + (l.markup p).byteSize

def events (offset : Nat) : List TagPiece → List Event
  | [] => []
  | p :: ps => l.between.events ++ p.events (l.startOf offset) ++ events (l.stopOf offset p) ps

def places (offset : Nat) : List TagPiece → List TagPlace
  | [] => []
  | p :: ps =>
    (p.label?.map fun label => ⟨label, l.startOf offset, l.stopOf offset p⟩).toList ++
      places (l.stopOf offset p) ps

theorem events_append (offset : Nat) (ps qs : List TagPiece) :
    l.events offset (ps ++ qs) =
      l.events offset ps ++ l.events (offset + (l.text ps).byteSize) qs := by
  induction ps generalizing offset with
  | nil => rfl
  | cons p ps ih => simp [events, ih, stopOf, startOf, Nat.add_assoc]

theorem places_append (offset : Nat) (ps qs : List TagPiece) :
    l.places offset (ps ++ qs) =
      l.places offset ps ++ l.places (offset + (l.text ps).byteSize) qs := by
  induction ps generalizing offset with
  | nil => rfl
  | cons p ps ih => simp [places, ih, stopOf, startOf, Nat.add_assoc]

theorem labels_places (offset : Nat) (ps : List TagPiece) :
    (l.places offset ps).map TagPlace.label = ps.filterMap TagPiece.label? := by
  induction ps generalizing offset with
  | nil => rfl
  | cons p ps ih => cases h : p.label? <;> simp [places, h, ih]

theorem slice?_places (before after : Text) (ps : List TagPiece) :
    ∀ place ∈ l.places before.byteSize ps, ∃ p ∈ ps, p.label? = some place.label ∧
      (before ++ (l.text ps ++ after)).slice? place.start place.stop = some (l.markup p) := by
  induction ps generalizing before with
  | nil => simp [places]
  | cons p ps ih =>
    intro place hplace
    rcases List.mem_append.1 hplace with hplace | hplace
    · obtain ⟨label, hlabel, rfl⟩ := by simpa using hplace
      have hcut := Text.slice?_append (before ++ l.between.text) (l.markup p) (l.text ps ++ after)
      refine ⟨p, List.mem_cons_self, hlabel, ?_⟩
      simpa [startOf, stopOf] using hcut
    · have hoffset : l.stopOf before.byteSize p =
          Text.byteSize (before ++ (l.between.text ++ l.markup p)) := by
        simp [stopOf, startOf, Nat.add_assoc]
      rw [hoffset] at hplace
      obtain ⟨q, hq, hlabel, hcut⟩ := ih _ place hplace
      exact ⟨q, List.mem_cons_of_mem p hq, hlabel, by simpa using hcut⟩

/-! The document. -/

def rootTag (root : PlainName) : StartTag :=
  l.tag root ⟨[], List.nodup_nil⟩

theorem exists_content {ps : List TagPiece} (h : TagPiece.Nested ps) (c : Content) :
    ∃ c' : Content, c'.render = l.text ps ++ c.render ∧
      ∀ offset, c'.events offset =
        l.events offset ps ++ c.events (offset + (l.text ps).byteSize) := by
  induction h generalizing c with
  | nil => exact ⟨c, rfl, fun offset => rfl⟩
  | single tag label _ ih =>
    obtain ⟨rest, hrender, hevents⟩ := ih c
    refine ⟨.leaf l.between (.empty tag) rest, ?_, fun offset => ?_⟩
    · simp [Content.render, Leaf.render, markup, hrender]
    · simp [Content.events, Leaf.render, Leaf.events, events, TagPiece.events, markup, startOf,
        stopOf, hevents, Nat.add_assoc]
  | paired tag label _ _ ihInner ihRest =>
    obtain ⟨inner, hinner, hinnerEvents⟩ := ihInner (.last l.between)
    obtain ⟨rest, hrest, hrestEvents⟩ := ihRest c
    refine ⟨.element l.between tag inner l.inClosing rest, ?_, fun offset => ?_⟩
    · simp [Content.render, markup, hinner, hrest]
    · simp [Content.events, Content.render, events, events_append, TagPiece.events, markup, startOf,
        stopOf, hinner, hinnerEvents, hrestEvents, Nat.add_assoc]

def document (root : PlainName) (ps : List TagPiece) : Text :=
  l.prolog.render ++ ((l.rootTag root).render false ++ (l.text ps ++ l.between.text) ++
    (l.rootTag root).closing l.inClosing) ++ l.tail.text

def inside (root : PlainName) : Nat :=
  l.prolog.render.byteSize + ((l.rootTag root).render false).byteSize

theorem slice?_document (root : PlainName) (ps : List TagPiece) :
    ∀ place ∈ l.places (l.inside root) ps, ∃ p ∈ ps, p.label? = some place.label ∧
      (l.document root ps).slice? place.start place.stop = some (l.markup p) := by
  have hslice := l.slice?_places (l.prolog.render ++ (l.rootTag root).render false)
    (l.between.text ++ (l.rootTag root).closing l.inClosing ++ l.tail.text) ps
  rw [Text.byteSize_append] at hslice
  simpa [document, inside] using hslice

theorem scan_document (root : PlainName) {ps : List TagPiece} (h : TagPiece.Nested ps) :
    scan (l.document root ps) =
      .opened ((l.rootTag root).placed false l.prolog.render.byteSize) ::
        (l.events (l.inside root) ps ++ l.between.events) ++ [.closed root.text] := by
  obtain ⟨inner, hinner, hevents⟩ := l.exists_content h (.last l.between)
  have hscan := scan_eq_events ⟨l.prolog, .paired (l.rootTag root) inner l.inClosing, l.tail⟩
  simp only [Tree.render, Tree.events, Element.render, Element.events, hinner, hevents] at hscan
  exact hscan

end Layout

end ScriptLens.Markup
