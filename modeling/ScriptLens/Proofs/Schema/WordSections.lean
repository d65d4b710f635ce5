import Mathlib.Data.List.Permutation
import ScriptLens.Proofs.Markup.Angles
import ScriptLens.Proofs.Ordering
import ScriptLens.Proofs.Text
import ScriptLens.Schema.Hover

/-!
What is said of a word is a section for each name that has a property for it, in the order of the
names, with a line for each of these properties. Sections and lines are sorted and stand once, so
the order in which a schema lists its entries and their properties makes no difference.
-/

namespace ScriptLens

namespace SchemaEntry

def withProperties (properties : List SchemaProperty) : SchemaEntry → SchemaEntry
  | .keyword k => .keyword { k with properties }
  | .datatype d => .datatype { d with properties }

def Reordered (e e' : SchemaEntry) : Prop :=
  ∃ properties, e.properties.Perm properties ∧ e' = e.withProperties properties

def description? : SchemaEntry → Option Text
  | .keyword k => k.description
  | .datatype _ => none

def type? : SchemaEntry → Option Text
  | .keyword k => k.type
  | .datatype d => d.type

def pseudo? : SchemaEntry → Option Text
  | .keyword k => k.pseudo
  | .datatype _ => none

/-- Only the suffixes of datatypes are told in a section. -/
def toldSuffix? : SchemaEntry → Option Text
  | .keyword _ => none
  | .datatype d => d.suffix

namespace Reordered

variable {e e' : SchemaEntry}

theorem properties (h : e.Reordered e') : e.properties.Perm e'.properties := by
  obtain ⟨ps, hps, rfl⟩ := h
  cases e <;> exact hps

theorem symm (h : e.Reordered e') : e'.Reordered e := by
  refine ⟨e.properties, h.properties.symm, ?_⟩
  obtain ⟨ps, -, rfl⟩ := h
  cases e <;> rfl

theorem name (h : e.Reordered e') : e.name = e'.name := by
  obtain ⟨ps, -, rfl⟩ := h
  cases e <;> rfl

theorem details (h : e.Reordered e') :
    e.description? = e'.description? ∧ e.type? = e'.type? ∧ e.pseudo? = e'.pseudo? ∧
      e.toldSuffix? = e'.toldSuffix? := by
  obtain ⟨ps, -, rfl⟩ := h
  cases e <;> exact ⟨rfl, rfl, rfl, rfl⟩

end Reordered

def Covered (es es' : List SchemaEntry) : Prop :=
  ∀ e ∈ es, ∃ e' ∈ es', e.Reordered e'

def Rearranged (es es' : List SchemaEntry) : Prop :=
  ∃ fs, es.Perm fs ∧ fs.Forall₂ Reordered es'

section Covered

variable {es es' fs fs' : List SchemaEntry}

theorem covered_of_forall₂ (h : es.Forall₂ Reordered es') : Covered es es' := by
  induction h with
  | nil => exact fun e he => absurd he List.not_mem_nil
  | cons hee' _ ih =>
    intro e he
    rcases List.mem_cons.1 he with rfl | he
    · exact ⟨_, List.mem_cons_self, hee'⟩
    · obtain ⟨e', he', h⟩ := ih e he
      exact ⟨e', List.mem_cons_of_mem _ he', h⟩

theorem Rearranged.covered (h : Rearranged es es') : Covered es es' := by
  obtain ⟨fs, hperm, hrel⟩ := h
  exact fun e he => covered_of_forall₂ hrel e (hperm.mem_iff.1 he)

theorem Rearranged.covers (h : Rearranged es es') : Covered es' es := by
  obtain ⟨fs, hperm, hrel⟩ := h
  have hback : es'.Forall₂ Reordered fs := (hrel.imp fun _ _ h => h.symm).flip
  intro e he
  obtain ⟨e', he', hee'⟩ := covered_of_forall₂ hback e he
  exact ⟨e', hperm.mem_iff.2 he', hee'⟩

theorem Covered.append (h : Covered es es') (h' : Covered fs fs') :
    Covered (es ++ fs) (es' ++ fs') := by
  intro e he
  rcases List.mem_append.1 he with he | he
  · obtain ⟨e', he', hee'⟩ := h e he
    exact ⟨e', List.mem_append_left _ he', hee'⟩
  · obtain ⟨e', he', hee'⟩ := h' e he
    exact ⟨e', List.mem_append_right _ he', hee'⟩

theorem Covered.filter (h : Covered es es') {keep : SchemaEntry → Bool}
    (hkeep : ∀ e e', e.Reordered e' → keep e = keep e') :
    Covered (es.filter keep) (es'.filter keep) := by
  intro e he
  obtain ⟨hmem, hkept⟩ := List.mem_filter.1 he
  obtain ⟨e', hmem', hee'⟩ := h e hmem
  exact ⟨e', List.mem_filter.2 ⟨hmem', hkeep e e' hee' ▸ hkept⟩, hee'⟩

theorem Covered.flatMap_subset (h : Covered es es') {f : SchemaEntry → List Text}
    (hf : ∀ e e', e.Reordered e' → f e ⊆ f e') : es.flatMap f ⊆ es'.flatMap f := by
  intro t ht
  obtain ⟨e, he, hte⟩ := List.mem_flatMap.1 ht
  obtain ⟨e', he', hee'⟩ := h e he
  exact List.mem_flatMap.2 ⟨e', he', hf e e' hee' hte⟩

theorem sortedDistinct_flatMap (h : Covered es es') (h' : Covered es' es)
    {f : SchemaEntry → List Text} (hf : ∀ e e', e.Reordered e' → f e ⊆ f e') :
    Text.sortedDistinct (es.flatMap f) = Text.sortedDistinct (es'.flatMap f) :=
  Text.sortedDistinct_congr fun _ =>
    ⟨fun ht => h.flatMap_subset hf ht, fun ht => h'.flatMap_subset hf ht⟩

end Covered

end SchemaEntry

/-- A section of what is said of a word: the entries of one name, with lines of properties. -/
structure WordSection where
  owner : Text
  details : Text
  lines : List Text

namespace WordSection

def text (s : WordSection) : Text :=
  s.owner ++ s.details ++ '\n' :: List.intercalate ['\n'] s.lines

def shown (s : WordSection) : Text :=
  Markup.escapeAngles (s.owner ++ s.details) ++
    '\n' :: List.intercalate ['\n'] (s.lines.map Markup.escapeAngles)

end WordSection

namespace Schema

def entriesOf (ks : List Keyword) (ds : List Datatype) : List SchemaEntry :=
  ks.map .keyword ++ ds.map .datatype

def entries (schema : Schema) : List SchemaEntry :=
  entriesOf schema.keywords schema.datatypes

/-- The same keywords and the same datatypes in another order, with the properties of each in
another order. -/
structure Reordered (schema other : Schema) : Prop where
  keywords : SchemaEntry.Rearranged (schema.keywords.map .keyword) (other.keywords.map .keyword)
  datatypes : SchemaEntry.Rearranged (schema.datatypes.map .datatype)
    (other.datatypes.map .datatype)

def mentioning (schema : Schema) (word owner : Text) : List SchemaEntry :=
  (schema.entries.filter fun e => mentioned word e.name e.properties).filter (·.name = owner)

def sectionDetails (es : List SchemaEntry) : Text :=
  labelled ": ".toList (es.filterMap (·.description?)) [] ++
    labelled " (type: ".toList (es.filterMap (·.type?)) [')'] ++
    labelled " (pseudo: ".toList (es.filterMap (·.pseudo?)) [')'] ++
    labelled " (suffix: ".toList (es.filterMap (·.toldSuffix?)) [')']

def ownLines (word owner : Text) (es : List SchemaEntry) : List Text :=
  Text.sortedDistinct (es.flatMap fun e => wordLines word owner e.properties)

def sectionOf? (word owner : Text) (es : List SchemaEntry) : Option WordSection :=
  match ownLines word owner es with
  | [] => none
  | lines => some ⟨owner, sectionDetails es, lines⟩

def owners (schema : Schema) (word : Text) : List Text :=
  Text.sortedDistinct ((schema.entries.filter fun e =>
    mentioned word e.name e.properties).map (·.name))

def wordSections (schema : Schema) (word : Text) : List WordSection :=
  (schema.owners word).filterMap fun owner => sectionOf? word owner (schema.mentioning word owner)

def sectionsText (word : Text) (sections : List WordSection) : Text :=
  if sections.isEmpty then []
  else "\n\nMatches for '".toList ++ word ++ "':\n\n".toList ++
    List.intercalate ['\n', '\n'] (sections.map (·.shown))

section Sections

variable (ks : List Keyword) (ds : List Datatype) (schema : Schema) (word : Text)

theorem filter_entriesOf (keep : SchemaEntry → Bool) :
    (entriesOf ks ds).filter keep =
      entriesOf (ks.filter fun k => keep (.keyword k)) (ds.filter fun d => keep (.datatype d)) := by
  rw [entriesOf, List.filter_append, List.filter_map, List.filter_map]
  rfl

theorem map_name_entriesOf :
    (entriesOf ks ds).map (·.name) = ks.map (·.name) ++ ds.map (·.name) := by
  rw [entriesOf, List.map_append, List.map_map, List.map_map]
  rfl

theorem flatMap_entriesOf (f : List SchemaProperty → List Text) :
    ((entriesOf ks ds).flatMap fun e => f e.properties) =
      ks.flatMap (fun k => f k.properties) ++ ds.flatMap fun d => f d.properties := by
  rw [entriesOf, List.flatMap_append, List.flatMap_map, List.flatMap_map]
  rfl

theorem sectionDetails_entriesOf :
    sectionDetails (entriesOf ks ds) =
      labelled ": ".toList (ks.filterMap (·.description)) [] ++
        labelled " (type: ".toList (ks.filterMap (·.type) ++ ds.filterMap (·.type)) [')'] ++
        labelled " (pseudo: ".toList (ks.filterMap (·.pseudo)) [')'] ++
        labelled " (suffix: ".toList (ds.filterMap (·.suffix)) [')'] := by
  simp [sectionDetails, entriesOf, List.filterMap_append, List.filterMap_map,
    SchemaEntry.description?, SchemaEntry.type?, SchemaEntry.pseudo?, SchemaEntry.toldSuffix?]

theorem nameSection?_eq (owner : Text) :
    nameSection? word owner ks ds =
      (sectionOf? word owner (entriesOf ks ds)).map (·.text) := by
  rw [nameSection?, sectionOf?, ownLines, sectionDetails_entriesOf, flatMap_entriesOf]
  cases Text.sortedDistinct (ks.flatMap (fun k => wordLines word owner k.properties) ++
    ds.flatMap fun d => wordLines word owner d.properties) with
  | nil => rfl
  | cons line lines => simp [WordSection.text]

theorem sections_eq : schema.sections word = (schema.wordSections word).map (·.text) := by
  rw [wordSections, List.map_filterMap, sections, owners, entries, filter_entriesOf,
    map_name_entriesOf]
  refine List.filterMap_congr fun owner _ => ?_
  rw [nameSection?_eq, mentioning, entries, filter_entriesOf, filter_entriesOf]
  rfl

theorem escapeAngles_intercalate {separator : Text}
    (h : Markup.escapeAngles separator = separator) (ts : List Text) :
    Markup.escapeAngles (List.intercalate separator ts) =
      List.intercalate separator (ts.map Markup.escapeAngles) := by
  induction ts with
  | nil => rfl
  | cons t ts ih =>
    cases ts with
    | nil => simp
    | cons u ts =>
      rw [List.intercalate_cons_cons, Markup.escapeAngles_append, Markup.escapeAngles_append, ih, h]
      simp only [List.map_cons, List.intercalate_cons_cons]

theorem shown_eq (s : WordSection) : s.shown = Markup.escapeAngles s.text := by
  have hfeed : Markup.escapeAngles ('\n' :: List.intercalate ['\n'] s.lines) =
      '\n' :: Markup.escapeAngles (List.intercalate ['\n'] s.lines) := rfl
  rw [WordSection.text, Markup.escapeAngles_append, hfeed, escapeAngles_intercalate (by decide)]
  rfl

theorem wordText_eq (hword : word ≠ []) :
    schema.wordText word = sectionsText word (schema.wordSections word) := by
  have hempty : word.isEmpty = false := List.isEmpty_eq_false_iff.2 hword
  have hshown : (schema.wordSections word).map (·.shown) =
      ((schema.wordSections word).map (·.text)).map Markup.escapeAngles := by
    rw [List.map_map]
    exact List.map_congr_left fun s _ => shown_eq s
  rw [wordText, hempty, sections_eq, sectionsText, hshown]
  cases schema.wordSections word with
  | nil => rfl
  | cons s sections =>
    rw [← escapeAngles_intercalate (by decide)]
    rfl

end Sections

/-- The line of a property that a word could mean: one with the word in its name, or any property
of an entry that the word names. -/
def LineOf (schema : Schema) (word owner line : Text) : Prop :=
  ∃ e ∈ schema.entries, e.name = owner ∧ ∃ p ∈ e.properties,
    (owner = word ∨ word <:+: p.name) ∧ ∃ result, p.result = some result ∧
      line = "- ".toList ++ owner ++ '.' :: p.name ++ ": ".toList ++ result

theorem mem_wordLines_iff {word owner line : Text} {properties : List SchemaProperty} :
    line ∈ wordLines word owner properties ↔ ∃ p ∈ properties, (owner = word ∨ word <:+: p.name) ∧
      ∃ result, p.result = some result ∧
        line = "- ".toList ++ owner ++ '.' :: p.name ++ ": ".toList ++ result := by
  simp only [wordLines, List.mem_filterMap, List.mem_filter, propertyLine, Option.map_eq_some_iff,
    Bool.or_eq_true, decide_eq_true_eq, Text.contains_iff_isInfix, and_assoc, eq_comm (b := line)]

theorem mentioned_of_mem_wordLines {word line : Text} {e : SchemaEntry}
    (h : line ∈ wordLines word e.name e.properties) :
    mentioned word e.name e.properties = true := by
  obtain ⟨p, hp, hmeant, -⟩ := mem_wordLines_iff.1 h
  rw [mentioned, Bool.or_eq_true, List.any_eq_true, Text.contains_iff_isInfix]
  rcases hmeant with hname | hname
  · exact .inl (hname ▸ List.infix_refl _)
  · exact .inr ⟨p, hp, Text.contains_iff_isInfix.2 hname⟩

theorem mem_mentioning_iff {schema : Schema} {word owner : Text} {e : SchemaEntry} :
    e ∈ schema.mentioning word owner ↔
      e ∈ schema.entries ∧ mentioned word e.name e.properties = true ∧ e.name = owner := by
  simp only [mentioning, List.mem_filter, decide_eq_true_eq, and_assoc]

theorem mem_ownLines_iff {schema : Schema} {word owner line : Text} :
    line ∈ ownLines word owner (schema.mentioning word owner) ↔
      schema.LineOf word owner line := by
  rw [ownLines, Text.mem_sortedDistinct, List.mem_flatMap]
  constructor
  · rintro ⟨e, he, hline⟩
    obtain ⟨hmem, -, hname⟩ := mem_mentioning_iff.1 he
    exact ⟨e, hmem, hname, mem_wordLines_iff.1 hline⟩
  · rintro ⟨e, hmem, rfl, hp⟩
    have hline := mem_wordLines_iff.2 hp
    exact ⟨e, mem_mentioning_iff.2 ⟨hmem, mentioned_of_mem_wordLines hline, rfl⟩, hline⟩

theorem sectionOf?_eq_some_iff {word owner : Text} {es : List SchemaEntry} {s : WordSection} :
    sectionOf? word owner es = some s ↔
      ownLines word owner es ≠ [] ∧ s = ⟨owner, sectionDetails es, ownLines word owner es⟩ := by
  unfold sectionOf?
  cases ownLines word owner es with
  | nil => simp
  | cons line lines => simp [eq_comm]

theorem mem_wordSections_iff {schema : Schema} {word : Text} {s : WordSection} :
    s ∈ schema.wordSections word ↔
      s.lines ≠ [] ∧ s.lines = ownLines word s.owner (schema.mentioning word s.owner) ∧
        s.details = sectionDetails (schema.mentioning word s.owner) := by
  rw [wordSections, List.mem_filterMap]
  constructor
  · rintro ⟨owner, -, hs⟩
    obtain ⟨hlines, rfl⟩ := sectionOf?_eq_some_iff.1 hs
    exact ⟨hlines, rfl, rfl⟩
  · obtain ⟨owner, details, lines⟩ := s
    rintro ⟨hsome, hlines, hdetails⟩
    dsimp only at hsome hlines hdetails
    subst hlines hdetails
    refine ⟨owner, ?_, sectionOf?_eq_some_iff.2 ⟨hsome, rfl⟩⟩
    obtain ⟨line, hline⟩ := List.exists_mem_of_ne_nil _ hsome
    rw [ownLines, Text.mem_sortedDistinct, List.mem_flatMap] at hline
    obtain ⟨e, he, -⟩ := hline
    obtain ⟨hmem, hmentioned, hname⟩ := mem_mentioning_iff.1 he
    rw [owners, Text.mem_sortedDistinct]
    exact List.mem_map.2 ⟨e, List.mem_filter.2 ⟨hmem, hmentioned⟩, hname⟩

theorem pairwise_wordSections (schema : Schema) (word : Text) :
    (schema.wordSections word).Pairwise fun s s' => s.owner.bytes < s'.owner.bytes := by
  refine List.pairwise_filterMap.2 ((Text.pairwise_sortedDistinct _).imp ?_)
  intro owner owner' hlt s hs s' hs'
  obtain ⟨-, rfl⟩ := sectionOf?_eq_some_iff.1 hs
  obtain ⟨-, rfl⟩ := sectionOf?_eq_some_iff.1 hs'
  exact hlt

theorem exists_section_iff {schema : Schema} {word owner line : Text} :
    (∃ s ∈ schema.wordSections word, s.owner = owner ∧ line ∈ s.lines) ↔
      schema.LineOf word owner line := by
  rw [← mem_ownLines_iff]
  constructor
  · rintro ⟨s, hs, rfl, hline⟩
    rwa [(mem_wordSections_iff.1 hs).2.1] at hline
  · intro hline
    refine ⟨⟨owner, sectionDetails (schema.mentioning word owner), _⟩,
      mem_wordSections_iff.2 ⟨?_, rfl, rfl⟩, rfl, hline⟩
    exact List.ne_nil_of_mem hline

theorem sectionsText_eq_nil_iff {word : Text} {sections : List WordSection} :
    sectionsText word sections = [] ↔ sections = [] := by
  cases sections with
  | nil => simp [sectionsText]
  | cons s sections => simp [sectionsText]

theorem wordText_eq_nil_iff {schema : Schema} {word : Text} (hword : word ≠ []) :
    schema.wordText word = [] ↔ ∀ owner line, ¬ schema.LineOf word owner line := by
  rw [wordText_eq schema word hword, sectionsText_eq_nil_iff]
  constructor
  · intro hnone owner line hline
    obtain ⟨s, hs, -⟩ := exists_section_iff.2 hline
    rw [hnone] at hs
    exact List.not_mem_nil hs
  · intro hnone
    refine List.eq_nil_iff_forall_not_mem.2 fun s hs => ?_
    obtain ⟨line, hline⟩ := List.exists_mem_of_ne_nil _ (mem_wordSections_iff.1 hs).1
    exact hnone s.owner line (exists_section_iff.1 ⟨s, hs, rfl, hline⟩)

/-! The order of a schema. -/

open SchemaEntry

theorem wordLines_subset {word : Text} {owner : Text} {e e' : SchemaEntry} (h : e.Reordered e') :
    wordLines word owner e.properties ⊆ wordLines word owner e'.properties := by
  intro line hline
  rw [mem_wordLines_iff] at *
  obtain ⟨p, hp, hmeant⟩ := hline
  exact ⟨p, h.properties.mem_iff.1 hp, hmeant⟩

theorem mentioned_reordered (word : Text) {e e' : SchemaEntry} (h : e.Reordered e') :
    mentioned word e.name e.properties = mentioned word e'.name e'.properties := by
  rw [mentioned, mentioned, h.name, h.properties.any_eq]

section Covered

variable {es es' : List SchemaEntry}

theorem labelled_covered (h : Covered es es') (h' : Covered es' es) {f : SchemaEntry → Option Text}
    (hf : ∀ e e', e.Reordered e' → f e = f e') (before after : Text) :
    labelled before (es.filterMap f) after = labelled before (es'.filterMap f) after := by
  have hsorted := sortedDistinct_flatMap h h' (f := fun e => (f e).toList) fun e e' hee' => by
    rw [hf e e' hee']
    exact List.Subset.refl _
  rw [← List.filterMap_eq_flatMap_toList, ← List.filterMap_eq_flatMap_toList] at hsorted
  rw [labelled, labelled, hsorted]

theorem sectionDetails_covered (h : Covered es es') (h' : Covered es' es) :
    sectionDetails es = sectionDetails es' := by
  rw [sectionDetails, labelled_covered h h' fun _ _ hee' => hee'.details.1,
    labelled_covered h h' fun _ _ hee' => hee'.details.2.1,
    labelled_covered h h' fun _ _ hee' => hee'.details.2.2.1,
    labelled_covered h h' fun _ _ hee' => hee'.details.2.2.2]
  rfl

theorem sectionOf?_covered (word owner : Text) (h : Covered es es') (h' : Covered es' es) :
    sectionOf? word owner es = sectionOf? word owner es' := by
  have hlines : ownLines word owner es = ownLines word owner es' :=
    sortedDistinct_flatMap h h' fun _ _ => wordLines_subset
  rw [sectionOf?, sectionOf?, hlines, sectionDetails_covered h h']

end Covered

theorem mentioning_covered {schema other : Schema} (h : Covered schema.entries other.entries)
    (word owner : Text) : Covered (schema.mentioning word owner) (other.mentioning word owner) :=
  (h.filter fun _ _ => mentioned_reordered word).filter fun _ _ hee' => by rw [hee'.name]

theorem Reordered.wordText {schema other : Schema} (h : schema.Reordered other) (word : Text) :
    other.wordText word = schema.wordText word := by
  have hto : Covered schema.entries other.entries := h.keywords.covered.append h.datatypes.covered
  have hfrom : Covered other.entries schema.entries := h.keywords.covers.append h.datatypes.covers
  have howners : other.owners word = schema.owners word := by
    have hnames := sortedDistinct_flatMap (hfrom.filter fun _ _ => mentioned_reordered word)
      (hto.filter fun _ _ => mentioned_reordered word) (f := fun e => [e.name])
      fun e e' hee' => by rw [hee'.name]; exact List.Subset.refl _
    rwa [← List.map_eq_flatMap, ← List.map_eq_flatMap] at hnames
  have hsections : other.wordSections word = schema.wordSections word := by
    rw [wordSections, wordSections, howners]
    exact List.filterMap_congr fun owner _ => sectionOf?_covered word owner
      (mentioning_covered hfrom word owner) (mentioning_covered hto word owner)
  rw [Schema.wordText, Schema.wordText, sections_eq, sections_eq, hsections]

/-- What is said of a word is told by sections in the order of their owners, each with its lines in
order and once: those of the properties that the word could mean. Nothing is said if there are none,
and the order of the schema makes no difference. -/
theorem wordText_lists_lines (schema : Schema) {word : Text} (hword : word ≠ []) :
    (∀ other, schema.Reordered other → other.wordText word = schema.wordText word) ∧
      (∃ sections : List WordSection,
        schema.wordText word = sectionsText word sections ∧
        sections.Pairwise (fun s s' => s.owner.bytes < s'.owner.bytes) ∧
        (∀ s ∈ sections, s.details = sectionDetails (schema.mentioning word s.owner) ∧
          s.lines ≠ [] ∧ s.lines.Pairwise fun line line' => line.bytes < line'.bytes) ∧
        ∀ owner line, (∃ s ∈ sections, s.owner = owner ∧ line ∈ s.lines) ↔
          schema.LineOf word owner line) ∧
      (schema.wordText word = [] ↔ ∀ owner line, ¬ schema.LineOf word owner line) := by
  refine ⟨fun other h => h.wordText word, ⟨schema.wordSections word, wordText_eq schema word hword,
    pairwise_wordSections schema word, fun s hs => ?_, fun owner line => exists_section_iff⟩,
    wordText_eq_nil_iff hword⟩
  obtain ⟨hsome, hlines, hdetails⟩ := mem_wordSections_iff.1 hs
  refine ⟨hdetails, hsome, ?_⟩
  rw [hlines]
  exact Text.pairwise_sortedDistinct _

section Fleet

def flown : SchemaProperty := ⟨"ship".toList, some "the <one> flown".toList, none⟩

def flyable : SchemaProperty := ⟨"ships".toList, some "all".toList, none⟩

def age : SchemaProperty := ⟨"age".toList, some "in years".toList, none⟩

def pilot (properties : List SchemaProperty) : Keyword :=
  ⟨"pilot".toList, none, none, some "flies".toList, none, none, properties, none⟩

def fleet : Schema :=
  ⟨[pilot [flown, age], pilot [flyable, flown]],
    [⟨"ship".toList, none, some "is one".toList, [age]⟩]⟩

def fleetReordered : Schema :=
  ⟨[pilot [flown, flyable], pilot [age, flown]], fleet.datatypes⟩

theorem fleet_reordered : fleet.Reordered fleetReordered := by
  constructor
  · refine ⟨fleet.keywords.reverse.map .keyword, by decide, ?_⟩
    exact .cons ⟨[flown, flyable], by decide, rfl⟩ (.cons ⟨[age, flown], by decide, rfl⟩ .nil)
  · exact ⟨_, .refl _, .cons ⟨[age], .refl _, rfl⟩ .nil⟩

theorem fleet_lists_lines :
    "ship".toList ≠ [] ∧ fleet.Reordered fleetReordered ∧
      fleetReordered.wordText "ship".toList = fleet.wordText "ship".toList ∧
      fleet.wordText "ship".toList =
        "\n\nMatches for 'ship':\n\n".toList ++
          "pilot: flies\n- pilot.ship: the &lt;one&gt; flown\n- pilot.ships: all\n\n".toList ++
          "ship (suffix: is one)\n- ship.age: in years".toList := by
  have hword : "ship".toList ≠ [] := by decide
  exact ⟨hword, fleet_reordered,
    (wordText_lists_lines fleet hword).1 fleetReordered fleet_reordered, by cbv⟩

end Fleet

end Schema

end ScriptLens
