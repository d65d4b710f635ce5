import ScriptLens.Proofs.Markup.Layout
import ScriptLens.Proofs.Schema.Reading

/-!
Schemas that are written as documents are read back as they were. Reading an element is reading its
opening tag, what is in it, and its closing tag (`Reads.element`), however the layout writes them.
-/

namespace ScriptLens

open Markup

namespace SchemaEntry

def extend (entry : SchemaEntry) (ps : List SchemaProperty) : SchemaEntry :=
  ps.foldl (fun e p => e.addProperty p) entry

theorem extend_keyword (k : Keyword) (ps : List SchemaProperty) :
    (keyword k).extend ps = keyword { k with properties := k.properties ++ ps } := by
  induction ps generalizing k with
  | nil => simp [extend]
  | cons p ps ih =>
    simpa [extend, addProperty] using ih { k with properties := k.properties ++ [p] }

theorem extend_datatype (d : Datatype) (ps : List SchemaProperty) :
    (datatype d).extend ps = datatype { d with properties := d.properties ++ ps } := by
  induction ps generalizing d with
  | nil => simp [extend]
  | cons p ps ih =>
    simpa [extend, addProperty] using ih { d with properties := d.properties ++ [p] }

end SchemaEntry

def SchemaSpan.ofPlace (place : TagPlace) : SchemaSpan :=
  ⟨place.label, place.start, place.stop⟩

namespace SchemaText

/-- An opening tag leads from one state to another, and its label is the key that it defines. -/
structure Opens (s s' : State) (tag : StartTag) (label : Option Text) : Prop where
  leads : ∀ isEmpty offset, s.open (tag.placed isEmpty offset) = s'
  defines : ∀ isEmpty offset, spanOf? s (tag.placed isEmpty offset) =
    label.map fun key => ⟨key, offset, offset + (tag.render isEmpty).byteSize⟩

/-- Pieces lead from one state to another and complete some entries, and their labels are the keys
that they define. -/
structure Reads (l : Layout) (s s' : State) (ps : List TagPiece) (done : List SchemaEntry) :
    Prop where
  leads : ∀ offset, s.run (l.events offset ps) = s'
  completes : ∀ offset, entries s (l.events offset ps) = done
  defines : ∀ offset, marks s (l.events offset ps) = (l.places offset ps).map SchemaSpan.ofPlace

section Between

variable (s : State) (t : CharData)

@[simp] theorem run_charData : s.run t.events = s := by
  unfold CharData.events
  split <;> rfl

@[simp] theorem entries_charData : entries s t.events = [] := by
  unfold CharData.events
  split <;> rfl

@[simp] theorem marks_charData : marks s t.events = [] := by
  unfold CharData.events
  split <;> rfl

end Between

namespace Reads

variable {l : Layout} {s s' s'' : State} {ps qs : List TagPiece} {done more : List SchemaEntry}
  {tag : StartTag} {label : Option Text}

theorem nil (l : Layout) (s : State) : Reads l s s [] [] :=
  ⟨fun _ => rfl, fun _ => rfl, fun _ => rfl⟩

theorem append (h : Reads l s s' ps done) (h' : Reads l s' s'' qs more) :
    Reads l s s'' (ps ++ qs) (done ++ more) := by
  constructor
  · intro offset
    rw [l.events_append, State.run_append, h.leads, h'.leads]
  · intro offset
    rw [l.events_append, entries_append, h.leads, h.completes, h'.completes]
  · intro offset
    rw [l.events_append, marks_append, h.leads, h.defines, h'.defines, l.places_append,
      List.map_append]

theorem opening (h : Opens s s' tag label) : Reads l s s' [.opening tag label] [] := by
  constructor
  · intro offset
    simp [Layout.events, TagPiece.events, State.step, h.leads]
  · intro offset
    simp [Layout.events, TagPiece.events, entries_append, entries, completed?]
  · intro offset
    cases label <;> simp [Layout.events, Layout.places, TagPiece.events, TagPiece.label?,
      marks_append, marks, marked?, h.defines, SchemaSpan.ofPlace, Layout.startOf, Layout.stopOf,
      Layout.markup]

theorem closing (tag : StartTag) :
    Reads l s (s.close tag.name.text) [.closing tag]
      (completed? s (.closed tag.name.text)).toList := by
  constructor
  · intro offset
    simp [Layout.events, TagPiece.events, State.step]
  · intro offset
    simp [Layout.events, TagPiece.events, entries_append, entries]
  · intro offset
    simp [Layout.events, Layout.places, TagPiece.events, TagPiece.label?, marks_append, marks,
      marked?]

theorem single (h : Opens s s' tag label) :
    Reads l s (s'.close tag.name.text) [.single tag label]
      (completed? s' (.closed tag.name.text)).toList := by
  constructor
  · intro offset
    simp [Layout.events, TagPiece.events, State.step, h.leads]
  · intro offset
    simp [Layout.events, TagPiece.events, State.step, entries_append, entries, completed?, h.leads]
  · intro offset
    cases label <;> simp [Layout.events, Layout.places, TagPiece.events, TagPiece.label?,
      marks_append, marks, marked?, h.defines, SchemaSpan.ofPlace, Layout.startOf, Layout.stopOf,
      Layout.markup]

theorem element (hopen : Opens s s' tag label) (hinner : Reads l s' s'' ps done) :
    Reads l s (s''.close tag.name.text) (l.element tag label ps)
      (done ++ (completed? s'' (.closed tag.name.text)).toList) := by
  unfold Layout.element
  split
  next h =>
    -- A single tag has nothing in it, so reading its inside led nowhere.
    obtain rfl : ps = [] := by simpa using (Bool.and_eq_true_iff.1 h).2
    obtain rfl : s' = s'' := hinner.leads 0
    obtain rfl : [] = done := hinner.completes 0
    exact single hopen
  next => exact (opening hopen).append (hinner.append (closing tag))

end Reads

end SchemaText

/-! How a schema is written. -/

namespace SchemaWord

def root : PlainName := ⟨"scriptproperties".toList, by decide, by decide⟩

def keyword : PlainName := ⟨"keyword".toList, by decide, by decide⟩

def datatype : PlainName := ⟨"datatype".toList, by decide, by decide⟩

def property : PlainName := ⟨"property".toList, by decide, by decide⟩

def imported : PlainName := ⟨"import".toList, by decide, by decide⟩

def name : PlainName := ⟨"name".toList, by decide, by decide⟩

def type : PlainName := ⟨"type".toList, by decide, by decide⟩

def pseudo : PlainName := ⟨"pseudo".toList, by decide, by decide⟩

def description : PlainName := ⟨"description".toList, by decide, by decide⟩

def result : PlainName := ⟨"result".toList, by decide, by decide⟩

def suffix : PlainName := ⟨"suffix".toList, by decide, by decide⟩

def source : PlainName := ⟨"source".toList, by decide, by decide⟩

def select : PlainName := ⟨"select".toList, by decide, by decide⟩

end SchemaWord

def SchemaProperty.fields (p : SchemaProperty) : Fields where
  list := [(SchemaWord.name, p.name), (SchemaWord.result, p.result), (SchemaWord.type, p.type)]
  distinct :=
    (by decide : ([SchemaWord.name, SchemaWord.result, SchemaWord.type].map (·.text)).Nodup)

def KeywordImport.fields (s : KeywordImport) : Fields where
  list := [(SchemaWord.source, s.source), (SchemaWord.select, s.select)]
  distinct := (by decide : ([SchemaWord.source, SchemaWord.select].map (·.text)).Nodup)

def KeywordImport.targetFields (s : KeywordImport) : Fields where
  list := [(SchemaWord.name, s.target)]
  distinct := List.pairwise_singleton _ _

def Keyword.fields (k : Keyword) : Fields where
  list :=
    [(SchemaWord.name, k.name), (SchemaWord.type, k.type), (SchemaWord.pseudo, k.pseudo),
      (SchemaWord.description, k.description), (SchemaWord.result, k.result),
      (SchemaWord.suffix, k.suffix)]
  distinct := (by decide : ([SchemaWord.name, SchemaWord.type, SchemaWord.pseudo,
    SchemaWord.description, SchemaWord.result, SchemaWord.suffix].map (·.text)).Nodup)

def Datatype.fields (d : Datatype) : Fields where
  list := [(SchemaWord.name, d.name), (SchemaWord.type, d.type), (SchemaWord.suffix, d.suffix)]
  distinct :=
    (by decide : ([SchemaWord.name, SchemaWord.type, SchemaWord.suffix].map (·.text)).Nodup)

namespace SchemaEntry

def allFields : SchemaEntry → List (PlainName × Option Text)
  | keyword k =>
    k.fields.list ++ k.properties.flatMap (·.fields.list) ++
      k.source?.toList.flatMap fun s => s.fields.list ++ s.targetFields.list
  | datatype d => d.fields.list ++ d.properties.flatMap (·.fields.list)

def keys (entry : SchemaEntry) : List Text :=
  entry.name :: entry.properties.map fun p => entry.name ++ '.' :: p.name

end SchemaEntry

structure SchemaLayout extends Layout where
  /-- How many properties of a keyword stand before its import. -/
  importAfter : Keyword → Nat

namespace SchemaLayout

variable (l : SchemaLayout)

def property (owner : Text) (p : SchemaProperty) : List TagPiece :=
  l.element (l.tag SchemaWord.property p.fields) (some (owner ++ '.' :: p.name)) []

def properties (owner : Text) (ps : List SchemaProperty) : List TagPiece :=
  ps.flatMap (l.property owner)

/-- A nested property tells the target of an import. -/
def source (s : KeywordImport) : List TagPiece :=
  l.element (l.tag SchemaWord.imported s.fields) none
    (l.element (l.tag SchemaWord.property s.targetFields) none [])

def keyword (k : Keyword) : List TagPiece :=
  l.element (l.tag SchemaWord.keyword k.fields) (some k.name)
    (l.properties k.name (k.properties.take (l.importAfter k)) ++
      (k.source?.toList.flatMap l.source ++
        l.properties k.name (k.properties.drop (l.importAfter k))))

def datatype (d : Datatype) : List TagPiece :=
  l.element (l.tag SchemaWord.datatype d.fields) (some d.name) (l.properties d.name d.properties)

def entry : SchemaEntry → List TagPiece
  | .keyword k => l.keyword k
  | .datatype d => l.datatype d

def pieces (entries : List SchemaEntry) : List TagPiece :=
  entries.flatMap l.entry

def write (entries : List SchemaEntry) : Text :=
  l.document SchemaWord.root (l.pieces entries)

theorem nested_pieces (entries : List SchemaEntry) : TagPiece.Nested (l.pieces entries) := by
  have hproperties (owner : Text) (ps : List SchemaProperty) :
      TagPiece.Nested (l.properties owner ps) :=
    .flatMap (fun _ => l.nested_element _ _ .nil) ps
  refine .flatMap (fun entry => ?_) entries
  cases entry with
  | keyword k =>
    exact l.nested_element _ _ ((hproperties _ _).append
      ((TagPiece.Nested.flatMap (fun _ => l.nested_element _ _ (l.nested_element _ _ .nil)) _).append
        (hproperties _ _)))
  | datatype d => exact l.nested_element _ _ (hproperties _ _)

theorem labels_properties (owner : Text) (ps : List SchemaProperty) :
    (l.properties owner ps).filterMap TagPiece.label? = ps.map fun p => owner ++ '.' :: p.name := by
  induction ps with
  | nil => rfl
  | cons p ps ih =>
    rw [properties, List.flatMap_cons, ← properties, List.filterMap_append, ih, property,
      Layout.labels_element]
    rfl

theorem labels_pieces (entries : List SchemaEntry) :
    (l.pieces entries).filterMap TagPiece.label? = entries.flatMap SchemaEntry.keys := by
  rw [pieces, List.filterMap_flatMap]
  congr 1
  funext entry
  cases entry with
  | datatype d =>
    rw [SchemaLayout.entry, datatype, Layout.labels_element, labels_properties]
    rfl
  | keyword k =>
    have hsource : (k.source?.toList.flatMap l.source).filterMap TagPiece.label? = [] := by
      cases k.source? <;> simp [source, Layout.labels_element]
    rw [SchemaLayout.entry, keyword, Layout.labels_element, List.filterMap_append,
      List.filterMap_append, hsource, labels_properties, labels_properties, List.nil_append,
      ← List.map_append, List.take_append_drop]
    rfl

end SchemaLayout

namespace SchemaText

variable {l : SchemaLayout}

/-! What the tags of a schema do. -/

section Tags

variable {tag : Tag} {name : Text}

theorem open_property (s : State) (htag : isPropertyTag tag.name = true)
    (hname : tag.value? "name".toList = some name) :
    s.open tag =
      { s with entry := s.entry.map (if s.inImport then SchemaEntry.setTarget name
          else SchemaEntry.addProperty (newProperty tag name)) } := by
  obtain ⟨hentry, himport⟩ := other_of_isPropertyTag htag
  simp only [State.open, hentry, himport, htag, hname, Bool.false_eq_true, if_false, if_true]

theorem spanOf?_property (s : State) (htag : isPropertyTag tag.name = true)
    (hname : tag.value? "name".toList = some name) :
    spanOf? s tag = if s.inImport then none
      else s.entry.map fun entry => ⟨entry.name ++ '.' :: name, tag.start, tag.stop⟩ := by
  obtain ⟨hentry, -⟩ := other_of_isPropertyTag htag
  rw [spanOf?, hname, Option.bind_some]
  cases h : s.inImport <;> simp [hentry, htag]

theorem spanOf?_other (s : State) (hentry : isEntryTag tag.name = false)
    (hproperty : isPropertyTag tag.name = false) : spanOf? s tag = none := by
  cases h : tag.value? "name".toList with
  | none => rw [spanOf?, h, Option.bind_none]
  | some name =>
    rw [spanOf?, h, Option.bind_some]
    simp [hentry, hproperty]

theorem open_import (k : Keyword) (flag : Bool) (htag : isImportTag tag.name = true) :
    State.open ⟨some (.keyword k), flag⟩ tag =
      ⟨some (.keyword { k with source? := some (newImport tag) }), true⟩ := by
  simp [State.open, isEntryTag_of_isImportTag htag, htag, SchemaEntry.isKeyword,
    SchemaEntry.setImport]

theorem newProperty_tells {p : SchemaProperty} (h : tag.Tells p.fields) :
    newProperty tag p.name = p := by
  simp only [Tag.Tells, SchemaProperty.fields, List.forall_mem_cons] at h
  obtain ⟨-, hresult, htype, -⟩ := h
  have hproperty : newProperty tag p.name =
      ⟨p.name, tag.value? SchemaWord.result.text, tag.value? SchemaWord.type.text⟩ := rfl
  rw [hproperty, hresult, htype]

theorem newImport_tells {s : KeywordImport} (h : tag.Tells s.fields) :
    newImport tag = { s with target := [] } := by
  simp only [Tag.Tells, KeywordImport.fields, List.forall_mem_cons] at h
  obtain ⟨hsource, hselect, -⟩ := h
  have himport : newImport tag = ⟨(tag.value? SchemaWord.source.text).getD [],
      (tag.value? SchemaWord.select.text).getD [], []⟩ := rfl
  rw [himport, hsource, hselect]
  rfl

theorem newEntry_keyword {k : Keyword} (htag : tag.name = SchemaWord.keyword.text)
    (h : tag.Tells k.fields) :
    newEntry tag k.name = .keyword { k with properties := [], source? := none } := by
  simp only [Tag.Tells, Keyword.fields, List.forall_mem_cons] at h
  obtain ⟨-, htype, hpseudo, hdescription, hresult, hsuffix, -⟩ := h
  have hkeyword : newEntry tag k.name = .keyword
      { name := k.name
        type := tag.value? SchemaWord.type.text
        pseudo := tag.value? SchemaWord.pseudo.text
        description := tag.value? SchemaWord.description.text
        result := tag.value? SchemaWord.result.text
        suffix := tag.value? SchemaWord.suffix.text
        properties := []
        source? := none } := if_pos htag
  rw [hkeyword, htype, hpseudo, hdescription, hresult, hsuffix]

theorem newEntry_datatype {d : Datatype} (htag : tag.name = SchemaWord.datatype.text)
    (h : tag.Tells d.fields) :
    newEntry tag d.name = .datatype { d with properties := [] } := by
  simp only [Tag.Tells, Datatype.fields, List.forall_mem_cons] at h
  obtain ⟨-, htype, hsuffix, -⟩ := h
  have hother : tag.name ≠ SchemaWord.keyword.text := by
    rw [htag]
    decide
  have hdatatype : newEntry tag d.name = .datatype
      { name := d.name
        type := tag.value? SchemaWord.type.text
        suffix := tag.value? SchemaWord.suffix.text
        properties := [] } := if_neg hother
  rw [hdatatype, htype, hsuffix]

end Tags

section Openings

variable (l)

theorem opens_property (entry : SchemaEntry) {p : SchemaProperty} (h : Legible p.fields.list) :
    Opens ⟨some entry, false⟩ ⟨some (entry.addProperty p), false⟩
      (l.tag SchemaWord.property p.fields) (some (entry.name ++ '.' :: p.name)) := by
  have htells := l.tells_placed SchemaWord.property h
  constructor <;> intro isEmpty offset
  · rw [open_property _ rfl (htells _ _ _ (.head _)), newProperty_tells (htells _ _)]
    rfl
  · rw [spanOf?_property _ rfl (htells _ _ _ (.head _))]
    rfl

theorem opens_target (entry : SchemaEntry) {s : KeywordImport} (h : Legible s.targetFields.list) :
    Opens ⟨some entry, true⟩ ⟨some (entry.setTarget s.target), true⟩
      (l.tag SchemaWord.property s.targetFields) none := by
  have htells := l.tells_placed SchemaWord.property h
  constructor <;> intro isEmpty offset
  · rw [open_property _ rfl (htells _ _ _ (.head _))]
    rfl
  · rw [spanOf?_property _ rfl (htells _ _ _ (.head _))]
    rfl

theorem opens_import (k : Keyword) {s : KeywordImport} (h : Legible s.fields.list) :
    Opens ⟨some (.keyword k), false⟩
      ⟨some (.keyword { k with source? := some { s with target := [] } }), true⟩
      (l.tag SchemaWord.imported s.fields) none := by
  have htells := l.tells_placed SchemaWord.imported h
  constructor <;> intro isEmpty offset
  · rw [open_import _ _ rfl, newImport_tells (htells _ _)]
  · exact spanOf?_other _ rfl rfl

theorem opens_keyword {k : Keyword} (h : Legible k.fields.list) :
    Opens .start ⟨some (.keyword { k with properties := [], source? := none }), false⟩
      (l.tag SchemaWord.keyword k.fields) (some k.name) := by
  have htells := l.tells_placed SchemaWord.keyword h
  constructor <;> intro isEmpty offset
  · rw [open_entry _ rfl (htells _ _ _ (.head _)), newEntry_keyword rfl (htells _ _)]
    rfl
  · rw [spanOf?_entry _ rfl (htells _ _ _ (.head _))]
    rfl

theorem opens_datatype {d : Datatype} (h : Legible d.fields.list) :
    Opens .start ⟨some (.datatype { d with properties := [] }), false⟩
      (l.tag SchemaWord.datatype d.fields) (some d.name) := by
  have htells := l.tells_placed SchemaWord.datatype h
  constructor <;> intro isEmpty offset
  · rw [open_entry _ rfl (htells _ _ _ (.head _)), newEntry_datatype rfl (htells _ _)]
    rfl
  · rw [spanOf?_entry _ rfl (htells _ _ _ (.head _))]
    rfl

end Openings

/-! What the elements of a schema do. -/

section Elements

variable (l)

theorem reads_property (entry : SchemaEntry) {p : SchemaProperty} (h : Legible p.fields.list) :
    Reads l.toLayout ⟨some entry, false⟩ ⟨some (entry.addProperty p), false⟩
      (l.property entry.name p) [] :=
  Reads.element (opens_property l entry h) (.nil _ _)

theorem reads_properties (entry : SchemaEntry) {ps : List SchemaProperty}
    (h : ∀ p ∈ ps, Legible p.fields.list) :
    Reads l.toLayout ⟨some entry, false⟩ ⟨some (entry.extend ps), false⟩
      (l.properties entry.name ps) [] := by
  induction ps generalizing entry with
  | nil => exact .nil _ _
  | cons p ps ih =>
    obtain ⟨hp, hps⟩ := List.forall_mem_cons.1 h
    have hrest := ih (entry.addProperty p) hps
    rw [entry.name_addProperty] at hrest
    exact (reads_property l entry hp).append hrest

theorem reads_source (k : Keyword) {s : KeywordImport} (hs : Legible s.fields.list)
    (ht : Legible s.targetFields.list) :
    Reads l.toLayout ⟨some (.keyword k), false⟩
      ⟨some (.keyword { k with source? := some s }), false⟩ (l.source s) [] :=
  Reads.element (opens_import l k hs) (Reads.element (opens_target l _ ht) (.nil _ _))

theorem reads_source? {k : Keyword} (hk : k.source? = none) {source? : Option KeywordImport}
    (h : Legible (source?.toList.flatMap fun s => s.fields.list ++ s.targetFields.list)) :
    Reads l.toLayout ⟨some (.keyword k), false⟩ ⟨some (.keyword { k with source? }), false⟩
      (source?.toList.flatMap l.source) [] := by
  cases source? with
  | none =>
    have hsame : { k with source? := none } = k := by rw [← hk]
    rw [hsame]
    exact .nil _ _
  | some s =>
    obtain ⟨hs, ht⟩ := legible_append.1 (legible_flatMap.1 h s (List.mem_singleton_self s))
    simpa using reads_source l k hs ht

theorem reads_keyword {k : Keyword} (h : Legible (SchemaEntry.keyword k).allFields) :
    Reads l.toLayout .start .start (l.keyword k) [.keyword k] := by
  obtain ⟨hfields, hsource⟩ := legible_append.1 h
  obtain ⟨hfields, hproperties⟩ := legible_append.1 hfields
  have hproperties := legible_flatMap.1 hproperties
  let begun : Keyword := { k with properties := [], source? := none }
  let filled : Keyword := { begun with properties := k.properties.take (l.importAfter k) }
  have htake : ∀ p ∈ k.properties.take (l.importAfter k), Legible p.fields.list :=
    fun p hp => hproperties p (List.mem_of_mem_take hp)
  have hdrop : ∀ p ∈ k.properties.drop (l.importAfter k), Legible p.fields.list :=
    fun p hp => hproperties p (List.mem_of_mem_drop hp)
  have hbefore := reads_properties l (.keyword begun) htake
  have hafter := reads_properties l (.keyword { filled with source? := k.source? }) hdrop
  rw [SchemaEntry.extend_keyword] at hbefore hafter
  have hinner := hbefore.append ((reads_source? l (k := filled) rfl hsource).append hafter)
  have hread := Reads.element (opens_keyword l hfields) hinner
  rw [List.take_append_drop] at hread
  exact hread

theorem reads_datatype {d : Datatype} (h : Legible (SchemaEntry.datatype d).allFields) :
    Reads l.toLayout .start .start (l.datatype d) [.datatype d] := by
  obtain ⟨hfields, hproperties⟩ := legible_append.1 h
  have hinner := reads_properties l (.datatype { d with properties := [] })
    (legible_flatMap.1 hproperties)
  rw [SchemaEntry.extend_datatype] at hinner
  exact Reads.element (opens_datatype l hfields) hinner

theorem reads_pieces {es : List SchemaEntry} (h : ∀ entry ∈ es, Legible entry.allFields) :
    Reads l.toLayout .start .start (l.pieces es) es := by
  induction es with
  | nil => exact .nil _ _
  | cons entry es ih =>
    obtain ⟨hentry, hes⟩ := List.forall_mem_cons.1 h
    have hrest := ih hes
    cases entry with
    | keyword k => exact (reads_keyword l hentry).append hrest
    | datatype d => exact (reads_datatype l hentry).append hrest

end Elements

/-! The whole document. -/

theorem reads_root (s : State) {tag : Tag} (htag : tag.name = SchemaWord.root.text) :
    s.open tag = s ∧ spanOf? s tag = none := by
  obtain ⟨hentry, himport, hproperty⟩ : isEntryTag tag.name = false ∧
      isImportTag tag.name = false ∧ isPropertyTag tag.name = false := by
    rw [htag]
    decide
  refine ⟨?_, spanOf?_other s hentry hproperty⟩
  simp [State.open, hentry, himport, hproperty]

theorem ofText_document {l : Layout} {ps : List TagPiece} {es : List SchemaEntry}
    (hnested : TagPiece.Nested ps) (h : Reads l .start .start ps es) :
    ofText (l.document SchemaWord.root ps) =
      ⟨es.filterMap SchemaEntry.keyword?, es.filterMap SchemaEntry.datatype?,
        (l.places (l.inside SchemaWord.root) ps).map SchemaSpan.ofPlace⟩ := by
  let tag := (l.rootTag SchemaWord.root).placed false l.prolog.render.byteSize
  obtain ⟨hopen, hspan⟩ : State.start.open tag = .start ∧ spanOf? .start tag = none :=
    reads_root .start rfl
  have hclosed : closedEntry? .start SchemaWord.root.text = none := rfl
  have hentries : entries .start (scan (l.document SchemaWord.root ps)) = es := by
    rw [l.scan_document SchemaWord.root hnested]
    simp [entries, entries_append, completed?, State.step, hopen, h.completes, h.leads, hclosed,
      tag]
  have hmarks : marks .start (scan (l.document SchemaWord.root ps)) =
      (l.places (l.inside SchemaWord.root) ps).map SchemaSpan.ofPlace := by
    rw [l.scan_document SchemaWord.root hnested]
    simp [marks, marks_append, marked?, State.step, hopen, hspan, h.defines, tag]
  rw [ofText_eq, hentries, hmarks]

/-- A schema that is written as a document in any layout is read back as it was: the entries in
their order, and the places of the tags that define their keys. -/
theorem read_written (l : SchemaLayout) {es : List SchemaEntry}
    (h : ∀ entry ∈ es, Legible entry.allFields) :
    ofText (l.write es) =
        ⟨es.filterMap SchemaEntry.keyword?, es.filterMap SchemaEntry.datatype?,
          (l.places (l.inside SchemaWord.root) (l.pieces es)).map SchemaSpan.ofPlace⟩ ∧
      (ofText (l.write es)).spans.map SchemaSpan.key = es.flatMap SchemaEntry.keys ∧
      ∀ span ∈ (ofText (l.write es)).spans, ∃ p ∈ l.pieces es, p.label? = some span.key ∧
        (l.write es).slice? span.start span.stop = some (l.markup p) := by
  have hread := ofText_document (l.nested_pieces es) (reads_pieces l h)
  have hspans : (ofText (l.write es)).spans =
      (l.places (l.inside SchemaWord.root) (l.pieces es)).map SchemaSpan.ofPlace := by
    rw [SchemaLayout.write, hread]
  refine ⟨hread, ?_, ?_⟩
  · rw [hspans, List.map_map, ← l.labels_pieces, ← l.labels_places]
    rfl
  · rw [hspans]
    intro span hspan
    obtain ⟨place, hplace, rfl⟩ := List.mem_map.1 hspan
    exact l.slice?_document SchemaWord.root (l.pieces es) place hplace

def plainLayout : SchemaLayout where
  gap := ⟨⟨" ".toList, by decide⟩, by decide⟩
  beforeEquals := ⟨[], List.all_nil⟩
  afterEquals := ⟨[], List.all_nil⟩
  inOpening := ⟨[], List.all_nil⟩
  inClosing := ⟨[], List.all_nil⟩
  between := ⟨"\n".toList, by decide, by decide⟩
  short := true
  prolog := ⟨none, ⟨[], List.all_nil⟩, []⟩
  tail := ⟨"\n".toList, by decide⟩
  importAfter := fun _ => 0

def smallSchema : List SchemaEntry :=
  [.keyword
      { name := "class".toList
        type := none
        pseudo := none
        description := some "\"A\" & <B>".toList
        result := none
        suffix := none
        properties := []
        source? := some ⟨"classes.xml".toList, "/classes/class".toList, "@name".toList⟩ },
    .datatype
      { name := "a<b".toList
        type := none
        suffix := none
        properties := [⟨"p".toList, none, some "timer".toList⟩] }]

theorem smallSchema_read :
    plainLayout.write smallSchema =
        ("<scriptproperties>\n" ++
          "<keyword name=\"class\" description=\"&quot;A&quot; &amp; &lt;B&gt;\">\n" ++
          "<import source=\"classes.xml\" select=\"/classes/class\">\n" ++
          "<property name=\"@name\"/>\n</import>\n</keyword>\n" ++
          "<datatype name=\"a&lt;b\">\n<property name=\"p\" type=\"timer\"/>\n</datatype>\n" ++
          "</scriptproperties>\n").toList ∧
      ofText (plainLayout.write smallSchema) =
        ⟨smallSchema.filterMap SchemaEntry.keyword?, smallSchema.filterMap SchemaEntry.datatype?,
          [⟨"class".toList, 19, 85⟩, ⟨"a<b".toList, 186, 210⟩, ⟨"a<b.p".toList, 211, 244⟩]⟩ := by
  have hlegible : ∀ entry ∈ smallSchema, Legible entry.allFields := by decide
  exact ⟨by decide +kernel, (read_written plainLayout hlegible).1.trans (by decide +kernel)⟩

end SchemaText

end ScriptLens
