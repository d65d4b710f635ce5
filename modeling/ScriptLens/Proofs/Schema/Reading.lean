import Mathlib.Data.List.Forall2
import Mathlib.Data.List.Induction
import ScriptLens.Schema.Reading

/-!
A schema is read by a machine that takes one event after another, so what it has read of a document
is what it has read of a first part and then, from the state in which that part left it, of the
rest. An entry depends on the part before it through one thing only, an import that is left open
there: no other than an import's own closing tag ends it, and as long as it is open, properties of
later entries are taken for its target.
-/

namespace ScriptLens

namespace SchemaEntry

def keyword? : SchemaEntry → Option Keyword
  | keyword k => some k
  | datatype _ => none

def datatype? : SchemaEntry → Option Datatype
  | keyword _ => none
  | datatype d => some d

@[simp] theorem keyword?_keyword (k : Keyword) : (keyword k).keyword? = some k := rfl

@[simp] theorem keyword?_datatype (d : Datatype) : (datatype d).keyword? = none := rfl

@[simp] theorem datatype?_keyword (k : Keyword) : (keyword k).datatype? = none := rfl

@[simp] theorem datatype?_datatype (d : Datatype) : (datatype d).datatype? = some d := rfl

/-! An entry keeps its name while it is read. -/

@[simp] theorem name_addProperty (entry : SchemaEntry) (p : SchemaProperty) :
    (entry.addProperty p).name = entry.name := by
  cases entry <;> rfl

@[simp] theorem name_setImport (entry : SchemaEntry) (source : KeywordImport) :
    (entry.setImport source).name = entry.name := by
  cases entry <;> rfl

@[simp] theorem name_setTarget (entry : SchemaEntry) (target : Text) :
    (entry.setTarget target).name = entry.name := by
  cases entry <;> rfl

end SchemaEntry

namespace Markup

structure Tag.SaysAs (tag tag' : Tag) : Prop where
  name : tag.name = tag'.name
  value? : ∀ key, tag.value? key = tag'.value? key

inductive Event.SaysAs : Event → Event → Prop
  | opened {tag tag' : Tag} (h : tag.SaysAs tag') : SaysAs (.opened tag) (.opened tag')
  | closed (name : Text) : SaysAs (.closed name) (.closed name)
  | text (content : Text) : SaysAs (.text content) (.text content)
  | fault (f f' : Fault) : SaysAs (.fault f) (.fault f')

end Markup

namespace SchemaText

open Markup

namespace State

def start : State := ⟨none, false⟩

def step (s : State) : Event → State
  | .opened tag => s.open tag
  | .closed name => s.close name
  | .text _ => s
  | .fault _ => s

def run (s : State) (es : List Event) : State :=
  es.foldl step s

@[simp] theorem run_nil (s : State) : s.run [] = s := rfl

@[simp] theorem run_cons (s : State) (e : Event) (es : List Event) :
    s.run (e :: es) = (s.step e).run es := rfl

@[simp] theorem run_append (s : State) (es es' : List Event) :
    s.run (es ++ es') = (s.run es).run es' :=
  List.foldl_append

end State

def completed? (s : State) : Event → Option SchemaEntry
  | .closed name => closedEntry? s name
  | _ => none

def entries (s : State) : List Event → List SchemaEntry
  | [] => []
  | e :: es => (completed? s e).toList ++ entries (s.step e) es

def marked? (s : State) : Event → Option SchemaSpan
  | .opened tag => spanOf? s tag
  | _ => none

def marks (s : State) : List Event → List SchemaSpan
  | [] => []
  | e :: es => (marked? s e).toList ++ marks (s.step e) es

theorem spanOf?_eq_some {s : State} {tag : Tag} {span : SchemaSpan} (h : spanOf? s tag = some span) :
    span.start = tag.start ∧ span.stop = tag.stop := by
  obtain ⟨name, -, h⟩ := Option.bind_eq_some_iff.1 h
  split at h
  next =>
    cases h
    exact ⟨rfl, rfl⟩
  next =>
    split at h
    next =>
      obtain ⟨entry, -, rfl⟩ := Option.map_eq_some_iff.1 h
      exact ⟨rfl, rfl⟩
    next => cases h

theorem spanOf?_entry {tag : Tag} {name : Text} (s : State) (htag : isEntryTag tag.name = true)
    (hname : tag.value? "name".toList = some name) :
    spanOf? s tag = some ⟨name, tag.start, tag.stop⟩ := by
  rw [spanOf?, hname, Option.bind_some, if_pos htag]

theorem exists_opened_of_mem_marks {s : State} {es : List Event} {span : SchemaSpan}
    (h : span ∈ marks s es) :
    ∃ tag, .opened tag ∈ es ∧ span.start = tag.start ∧ span.stop = tag.stop := by
  induction es generalizing s with
  | nil => cases h
  | cons e es ih =>
    rcases List.mem_append.1 h with h | h
    · cases e with
      | opened tag => exact ⟨tag, List.mem_cons_self, spanOf?_eq_some (Option.mem_toList.1 h)⟩
      | closed | text | fault => cases h
    · obtain ⟨tag, htag, hspan⟩ := ih h
      exact ⟨tag, List.mem_cons_of_mem e htag, hspan⟩

theorem ofEvents_eq (s : State) (es : List Event) :
    ofEvents s es =
      ⟨(entries s es).filterMap SchemaEntry.keyword?,
        (entries s es).filterMap SchemaEntry.datatype?, marks s es⟩ := by
  induction es generalizing s with
  | nil => rfl
  | cons e es ih =>
    cases e with
    | opened tag =>
      simp only [ofEvents, entries, marks, completed?, marked?, State.step, ih (s.open tag)]
      cases spanOf? s tag <;> simp [withSpan]
    | closed name =>
      simp only [ofEvents, entries, marks, completed?, marked?, State.step, ih (s.close name)]
      rcases closedEntry? s name with - | k | d <;> simp [withEntry, List.filterMap_cons]
    | text content => simpa [ofEvents, entries, marks, completed?, marked?, State.step] using ih s
    | fault f => simpa [ofEvents, entries, marks, completed?, marked?, State.step] using ih s

theorem ofText_eq (t : Text) :
    ofText t =
      ⟨(entries .start (scan t)).filterMap SchemaEntry.keyword?,
        (entries .start (scan t)).filterMap SchemaEntry.datatype?, marks .start (scan t)⟩ :=
  ofEvents_eq .start (scan t)

def IsOnly (read : SchemaText) (entry : SchemaEntry) : Prop :=
  read.keywords = entry.keyword?.toList ∧ read.datatypes = entry.datatype?.toList

theorem isOnly_of_entries {s : State} {es : List Event} {entry : SchemaEntry}
    (h : entries s es = [entry]) : (ofEvents s es).IsOnly entry := by
  rw [ofEvents_eq, h]
  cases entry <;> exact ⟨rfl, rfl⟩

theorem entries_append (s : State) (es es' : List Event) :
    entries s (es ++ es') = entries s es ++ entries (s.run es) es' := by
  induction es generalizing s with
  | nil => rfl
  | cons e es ih => simp [entries, ih]

theorem marks_append (s : State) (es es' : List Event) :
    marks s (es ++ es') = marks s es ++ marks (s.run es) es' := by
  induction es generalizing s with
  | nil => rfl
  | cons e es ih => simp [marks, ih]

/-! Only what events say counts, and not where they stand. -/

section Saying

variable {tag tag' : Tag} {e e' : Event} {es es' : List Event}

theorem newEntry_saysAs (h : tag.SaysAs tag') (name : Text) :
    newEntry tag name = newEntry tag' name := by
  simp only [newEntry, h.name, h.value?]

theorem open_saysAs (s : State) (h : tag.SaysAs tag') : s.open tag = s.open tag' := by
  have hentry : newEntry tag = newEntry tag' := funext (newEntry_saysAs h)
  have himport : newImport tag = newImport tag' := by simp only [newImport, h.value?]
  have hproperty : newProperty tag = newProperty tag' := by
    funext name
    simp only [newProperty, h.value?]
  simp only [State.open, h.name, h.value?, hentry, himport, hproperty]

theorem step_saysAs (s : State) (h : e.SaysAs e') : s.step e = s.step e' := by
  cases h with
  | opened h => exact open_saysAs s h
  | closed | text | fault => rfl

theorem completed?_saysAs (s : State) (h : e.SaysAs e') : completed? s e = completed? s e' := by
  cases h <;> rfl

theorem entries_saysAs (s : State) (h : List.Forall₂ Event.SaysAs es es') :
    entries s es = entries s es' := by
  induction h generalizing s with
  | nil => rfl
  | cons h _ ih => rw [entries, entries, completed?_saysAs s h, step_saysAs s h, ih]

end Saying

/-! What stands between the tags of an entry. -/

def isEntryEvent : Event → Bool
  | .opened tag => isEntryTag tag.name
  | .closed name => isEntryTag name
  | _ => false

section Inside

variable {body : List Event}

theorem completed?_inside (s : State) {e : Event} (h : isEntryEvent e = false) :
    completed? s e = none := by
  cases e with
  | closed name =>
    have hname : isEntryTag name = false := h
    simp [completed?, closedEntry?, hname]
  | opened | text | fault => rfl

theorem entries_inside (s : State) (h : ∀ e ∈ body, isEntryEvent e = false) :
    entries s body = [] := by
  induction body generalizing s with
  | nil => rfl
  | cons e body ih =>
    obtain ⟨he, hbody⟩ := List.forall_mem_cons.1 h
    simp [entries, completed?_inside s he, ih _ hbody]

theorem exists_entry_step {s : State} {entry : SchemaEntry} {e : Event}
    (hs : s.entry = some entry) (h : isEntryEvent e = false) :
    ∃ entry', (s.step e).entry = some entry' := by
  cases e with
  | opened tag =>
    have htag : isEntryTag tag.name = false := h
    simp only [State.step, State.open, htag, Bool.false_eq_true, if_false, hs, Option.map_some]
    split
    · split
      · exact ⟨_, rfl⟩
      · exact ⟨entry, hs⟩
    · split
      · split
        · exact ⟨_, rfl⟩
        · exact ⟨entry, hs⟩
      · exact ⟨entry, hs⟩
  | closed name =>
    have hname : isEntryTag name = false := h
    refine ⟨entry, ?_⟩
    simp only [State.step, State.close, hname, Bool.false_eq_true, if_false]
    split <;> exact hs
  | text | fault => exact ⟨entry, hs⟩

theorem exists_entry_run {s : State} {entry : SchemaEntry}
    (hs : s.entry = some entry) (h : ∀ e ∈ body, isEntryEvent e = false) :
    ∃ entry', (s.run body).entry = some entry' := by
  induction body generalizing s entry with
  | nil => exact ⟨entry, hs⟩
  | cons e body ih =>
    obtain ⟨he, hbody⟩ := List.forall_mem_cons.1 h
    obtain ⟨entry', hentry⟩ := exists_entry_step hs he
    exact ih hentry hbody

end Inside

/-! An import that is left open. -/

/-- An import was opened in a keyword, and no import was closed after it. -/
def LeavesImportOpen (es : List Event) : Prop :=
  ∃ earlier tag later, es = earlier ++ .opened tag :: later ∧ isImportTag tag.name = true ∧
    (∃ k, (State.start.run earlier).entry = some (.keyword k)) ∧
    ∀ name, .closed name ∈ later → isImportTag name = false

theorem isEntryTag_of_isImportTag {name : Text} (h : isImportTag name = true) :
    isEntryTag name = false := by
  have hname : name = "import".toList := of_decide_eq_true h
  subst hname
  decide

theorem other_of_isPropertyTag {name : Text} (h : isPropertyTag name = true) :
    isEntryTag name = false ∧ isImportTag name = false := by
  have hname : name = "property".toList := of_decide_eq_true h
  subst hname
  decide

theorem inImport_open (s : State) (tag : Tag) :
    (s.open tag).inImport = true ↔
      s.inImport = true ∨ isImportTag tag.name = true ∧ ∃ k, s.entry = some (.keyword k) := by
  unfold State.open
  split
  next hentry =>
    have himport : isImportTag tag.name ≠ true := fun h => by
      simp [isEntryTag_of_isImportTag h] at hentry
    simp [himport]
  next =>
    split
    next himport =>
      rcases s with ⟨- | k | d, flag⟩ <;> simp [himport, SchemaEntry.isKeyword]
    next himport =>
      split
      · split <;> simp [himport]
      · simp [himport]

theorem inImport_close (s : State) (name : Text) :
    (s.close name).inImport = true ↔ s.inImport = true ∧ isImportTag name = false := by
  unfold State.close
  split
  next hentry =>
    have himport : isImportTag name = false := by
      by_contra h
      simp [isEntryTag_of_isImportTag (by simpa using h)] at hentry
    simp [himport]
  next => split <;> simp_all

/-- Only the closing tag of an import ends one. -/
theorem inImport_run {s : State} {es : List Event} (hs : s.inImport = true)
    (h : ∀ name, .closed name ∈ es → isImportTag name = false) : (s.run es).inImport = true := by
  induction es generalizing s with
  | nil => exact hs
  | cons e es ih =>
    refine ih ?_ fun name hname => h name (List.mem_cons_of_mem _ hname)
    cases e with
    | opened tag => exact (inImport_open s tag).2 (.inl hs)
    | closed name => exact (inImport_close s name).2 ⟨hs, h name List.mem_cons_self⟩
    | text | fault => exact hs

theorem LeavesImportOpen.append_singleton {es : List Event} {e : Event} (h : LeavesImportOpen es)
    (he : ∀ name, e = .closed name → isImportTag name = false) : LeavesImportOpen (es ++ [e]) := by
  obtain ⟨earlier, tag, later, rfl, htag, hkeyword, hlater⟩ := h
  refine ⟨earlier, tag, later ++ [e], by simp, htag, hkeyword, fun name hname => ?_⟩
  rcases List.mem_append.1 hname with hname | hname
  · exact hlater name hname
  · exact he name (List.mem_singleton.1 hname).symm

theorem leavesImportOpen_iff (es : List Event) :
    LeavesImportOpen es ↔ (State.start.run es).inImport = true := by
  constructor
  · rintro ⟨earlier, tag, later, rfl, htag, hkeyword, hlater⟩
    rw [State.run_append, State.run_cons]
    exact inImport_run ((inImport_open _ tag).2 (.inr ⟨htag, hkeyword⟩)) hlater
  · intro h
    -- Each event opens an import, closes one or leaves it be, so the last one is taken off first.
    induction es using List.reverseRecOn with
    | nil => cases h
    | append_singleton es e ih =>
      rw [State.run_append, State.run_cons, State.run_nil] at h
      cases e with
      | opened tag =>
        rcases (inImport_open _ tag).1 h with h | ⟨htag, hkeyword⟩
        · exact (ih h).append_singleton (by simp)
        · exact ⟨es, tag, [], rfl, htag, hkeyword, by simp⟩
      | closed name =>
        obtain ⟨h, hname⟩ := (inImport_close _ name).1 h
        exact (ih h).append_singleton (by simpa using hname)
      | text | fault => exact (ih h).append_singleton (by simp)

/-- Whether an event ends what an import that was left open before an entry does to it. -/
def regains (isKeyword : Bool) : Event → Bool
  | .opened tag => isKeyword && isImportTag tag.name
  | .closed name => isImportTag name
  | _ => false

def isProperty : Event → Bool
  | .opened tag => isPropertyTag tag.name
  | _ => false

/-- What an entry keeps of its own events if an import was left open before it. -/
def withoutLost (isKeyword : Bool) (body : List Event) : List Event :=
  (body.takeWhile (!regains isKeyword ·)).filter (!isProperty ·) ++
    body.dropWhile (!regains isKeyword ·)

theorem withoutLost_cons (isKeyword : Bool) (e : Event) (body : List Event) :
    withoutLost isKeyword (e :: body) =
      if regains isKeyword e then e :: body
      else if isProperty e then withoutLost isKeyword body
      else e :: withoutLost isKeyword body := by
  cases hr : regains isKeyword e <;> cases hp : isProperty e <;> simp [withoutLost, hr, hp]

section Lost

variable {entry : SchemaEntry} {e : Event} {body : List Event}

theorem step_of_regains (h : regains entry.isKeyword e = true) :
    State.step ⟨some entry, true⟩ e = State.step ⟨some entry, false⟩ e := by
  cases e with
  | opened tag =>
    obtain ⟨hkeyword, himport⟩ := Bool.and_eq_true_iff.1 h
    simp [State.step, State.open, isEntryTag_of_isImportTag himport, himport, hkeyword]
  | closed name =>
    have himport : isImportTag name = true := h
    simp [State.step, State.close, isEntryTag_of_isImportTag himport, himport]
  | text | fault => cases h

theorem step_of_isProperty (hentry : ∀ target, entry.setTarget target = entry)
    (h : isProperty e = true) : State.step ⟨some entry, true⟩ e = ⟨some entry, true⟩ := by
  cases e with
  | opened tag =>
    have htag : isPropertyTag tag.name = true := h
    obtain ⟨hname, himport⟩ := other_of_isPropertyTag htag
    simp only [State.step, State.open, hname, himport, htag, Bool.false_eq_true, if_false, if_true,
      Option.map_some, hentry]
    split <;> rfl
  | closed | text | fault => cases h

theorem step_of_idle (flag : Bool) (hentry : isEntryEvent e = false)
    (hregains : regains entry.isKeyword e = false) (hproperty : isProperty e = false) :
    State.step ⟨some entry, flag⟩ e = ⟨some entry, flag⟩ := by
  cases e with
  | opened tag =>
    have hname : isEntryTag tag.name = false := hentry
    have htag : isPropertyTag tag.name = false := hproperty
    simp only [State.step, State.open, hname, htag, Bool.false_eq_true, if_false]
    split
    next himport =>
      have hkeyword : entry.isKeyword = false := by simpa [regains, himport] using hregains
      simp [hkeyword]
    next => rfl
  | closed name =>
    have hname : isEntryTag name = false := hentry
    have himport : isImportTag name = false := hregains
    simp [State.step, State.close, hname, himport]
  | text | fault => rfl

/-- An import that was left open takes the properties of an entry away, and nothing else. -/
theorem run_withoutLost (hentry : ∀ target, entry.setTarget target = entry)
    (hbody : ∀ e ∈ body, isEntryEvent e = false) :
    (State.run ⟨some entry, true⟩ body).entry =
      (State.run ⟨some entry, false⟩ (withoutLost entry.isKeyword body)).entry := by
  -- Nothing changes the entry before the first event that regains, so `hentry` holds up to there;
  -- that event leads both runs to one state.
  induction body with
  | nil => rfl
  | cons e body ih =>
    obtain ⟨he, hbody⟩ := List.forall_mem_cons.1 hbody
    rw [withoutLost_cons]
    split
    next hregains => rw [State.run_cons, State.run_cons, step_of_regains hregains]
    next hregains =>
      split
      next hproperty => rw [State.run_cons, step_of_isProperty hentry hproperty, ih hbody]
      next hproperty =>
        have hidle (flag : Bool) := step_of_idle flag he (eq_false_of_ne_true hregains)
          (eq_false_of_ne_true hproperty)
        rw [State.run_cons, State.run_cons, hidle, hidle, ih hbody]

theorem withoutLost_inside (isKeyword : Bool) (hbody : ∀ e ∈ body, isEntryEvent e = false) :
    ∀ e ∈ withoutLost isKeyword body, isEntryEvent e = false := by
  intro e he
  rcases List.mem_append.1 he with he | he
  · exact hbody e ((List.takeWhile_subset _) (List.mem_of_mem_filter he))
  · exact hbody e ((List.dropWhile_subset _) he)

end Lost

/-! An entry and its own events. -/

section Own

variable {tag : Tag} {name closing : Text} {body : List Event}

theorem setTarget_newEntry (tag : Tag) (name target : Text) :
    (newEntry tag name).setTarget target = newEntry tag name := by
  unfold newEntry
  split <;> rfl

theorem open_entry (s : State) (htag : isEntryTag tag.name = true)
    (hname : tag.value? "name".toList = some name) :
    s.open tag = ⟨some (newEntry tag name), s.inImport⟩ := by
  rw [State.open, if_pos htag, hname, Option.map_some]

theorem entries_own {entry : SchemaEntry} (s : State) (htag : isEntryTag tag.name = true)
    (hname : tag.value? "name".toList = some name) (hclosing : isEntryTag closing = true)
    (hbody : ∀ e ∈ body, isEntryEvent e = false)
    (hentry : (State.run ⟨some (newEntry tag name), s.inImport⟩ body).entry = some entry) :
    entries s (.opened tag :: (body ++ [.closed closing])) = [entry] := by
  have hopened : s.step (.opened tag) = ⟨some (newEntry tag name), s.inImport⟩ :=
    open_entry s htag hname
  rw [entries, hopened, entries_append, entries_inside _ hbody, entries, entries]
  simp [completed?, closedEntry?, hclosing, hentry]

/-- What is read of a named entry in a document: its own events decide it, whatever else the
document has, unless an import was left open before it. Then it lacks the properties that come
before an import of its own begins or ends. -/
theorem entry_read_from_own_events {t : Text} {before after : List Event}
    (hscan : scan t = before ++ .opened tag :: (body ++ .closed closing :: after))
    (htag : isEntryTag tag.name = true) (hname : tag.value? "name".toList = some name)
    (hclosing : isEntryTag closing = true) (hbody : ∀ e ∈ body, isEntryEvent e = false) :
    ∃ entry later,
      (ofText t).keywords =
        (entries .start before ++ entry :: later).filterMap SchemaEntry.keyword? ∧
      (ofText t).datatypes =
        (entries .start before ++ entry :: later).filterMap SchemaEntry.datatype? ∧
      (¬LeavesImportOpen before → ∀ own,
        List.Forall₂ Event.SaysAs (.opened tag :: (body ++ [.closed closing])) own →
          (ofEvents .start own).IsOnly entry) ∧
      (LeavesImportOpen before → ∀ own,
        List.Forall₂ Event.SaysAs
          (.opened tag :: (withoutLost (newEntry tag name).isKeyword body ++ [.closed closing]))
          own → (ofEvents .start own).IsOnly entry) := by
  have hsome (flag : Bool) : ∃ entry,
      (State.run ⟨some (newEntry tag name), flag⟩ body).entry = some entry :=
    exists_entry_run rfl hbody
  obtain ⟨entry, hentry⟩ := hsome (State.start.run before).inImport
  have hown := entries_own _ htag hname hclosing hbody hentry
  have hentries : entries .start (scan t) = entries .start before ++ entry ::
      entries (State.run .start (before ++ .opened tag :: (body ++ [.closed closing]))) after := by
    have hparts : scan t =
        before ++ (.opened tag :: (body ++ [.closed closing])) ++ after := by simp [hscan]
    rw [hparts, entries_append, entries_append, hown, List.append_assoc, List.singleton_append]
  refine ⟨entry, _, by rw [ofText_eq, hentries], by rw [ofText_eq, hentries], ?_, ?_⟩
  · intro hopen own hsays
    have hflag : (State.start.run before).inImport = false :=
      eq_false_of_ne_true fun h => hopen ((leavesImportOpen_iff before).2 h)
    rw [hflag] at hentry
    apply isOnly_of_entries
    rw [← entries_saysAs .start hsays]
    exact entries_own .start htag hname hclosing hbody hentry
  · intro hopen own hsays
    rw [(leavesImportOpen_iff before).1 hopen,
      run_withoutLost (setTarget_newEntry tag name) hbody] at hentry
    apply isOnly_of_entries
    rw [← entries_saysAs .start hsays]
    exact entries_own .start htag hname hclosing (withoutLost_inside _ hbody) hentry

end Own

def afterImport (given : Text) : Text :=
  "<scriptproperties><keyword name=\"a\">".toList ++ given ++
    "</keyword><keyword name=\"b\"><property name=\"p\"/></keyword></scriptproperties>".toList

theorem afterOpenImport_read :
    ∃ before tag body after entry later,
      scan (afterImport "<import>".toList) =
        before ++ .opened tag :: (body ++ .closed "keyword".toList :: after) ∧
      LeavesImportOpen before ∧
      (ofText (afterImport "<import>".toList)).keywords =
        (entries .start before ++ entry :: later).filterMap SchemaEntry.keyword? ∧
      ∀ own, List.Forall₂ Event.SaysAs
        (.opened tag :: (withoutLost true body ++ [.closed "keyword".toList])) own →
          (ofEvents .start own).IsOnly entry := by
  let tag : Tag := ⟨"keyword".toList, 54, 72, [⟨"name".toList, '"', "b".toList, 69⟩]⟩
  let property : Tag := ⟨"property".toList, 72, 92, [⟨"name".toList, '"', "p".toList, 88⟩]⟩
  let events := scan (afterImport "<import>".toList)
  have hscan : events = events.take 4 ++ .opened tag ::
      ([.opened property, .closed "property".toList] ++ .closed "keyword".toList ::
        events.drop 8) := by decide +kernel
  have hopen : LeavesImportOpen (events.take 4) :=
    (leavesImportOpen_iff _).2 (by decide +kernel)
  have hname : tag.value? "name".toList = some "b".toList := by decide +kernel
  obtain ⟨entry, later, hkeywords, -, -, hown⟩ :=
    entry_read_from_own_events hscan (by decide +kernel) hname (by decide +kernel)
      (by decide +kernel)
  exact ⟨_, _, _, _, entry, later, hscan, hopen, hkeywords, hown hopen⟩

theorem left_open_import_loses_property :
    (ofText (afterImport "<import>".toList)).keywords.map (·.properties) = [[], []] ∧
      (ofText (afterImport "<import/>".toList)).keywords.map (·.properties) =
        [[], [⟨"p".toList, none, none⟩]] := by
  decide +kernel

end SchemaText

end ScriptLens
