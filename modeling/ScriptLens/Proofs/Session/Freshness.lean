import ScriptLens.Proofs.Grouping
import ScriptLens.Proofs.Session.History

/-!
The dialect and the variables that are kept for a document agree with its text. `Follows` says how
they depend on what happened to the document; every edit and every question preserves it.
-/

namespace ScriptLens

namespace Workspace

/-- What a workspace keeps for a document, after what happened to it. -/
structure Follows (w : Workspace) (uri : Text) (log : List DocumentEvent) : Prop where
  absent : w.documents.get? uri = none →
    DocumentEvent.texts log = [] ∧ w.dialects.get? uri = none ∧ w.tracker.get? uri = none
  text : ∀ d, w.documents.get? uri = some d → (DocumentEvent.texts log).head? = some d.text
  dialect : ∀ d, w.documents.get? uri = some d →
    w.dialects.get? uri =
      if d.language = .markup then DocumentEvent.firstDialect? log else none
  table : ∀ d, w.documents.get? uri = some d →
    DocumentEvent.isFresh DocumentEdit.isAnalysed log = true →
    w.tracker.get? uri =
      (w.dialects.get? uri).map fun dialect => VariableTable.ofDocument uri dialect d

structure Agrees (w w' : Workspace) (uri : Text) : Prop where
  documents : w'.documents.get? uri = w.documents.get? uri
  dialects : w'.dialects.get? uri = w.dialects.get? uri
  tracker : w'.tracker.get? uri = w.tracker.get? uri

variable {w w' : Workspace} {uri other : Text} {log : List DocumentEvent}

theorem Agrees.refl (w : Workspace) (uri : Text) : w.Agrees w uri := ⟨rfl, rfl, rfl⟩

theorem Agrees.follows (h : w.Agrees w' uri) (hw : w.Follows uri log) : w'.Follows uri log := by
  obtain ⟨hdocuments, hdialects, htracker⟩ := h
  constructor
  · rw [hdocuments, hdialects, htracker]
    exact hw.absent
  · rw [hdocuments]
    exact hw.text
  · rw [hdocuments, hdialects]
    exact hw.dialect
  · rw [hdocuments, hdialects, htracker]
    exact hw.table

theorem follows_empty (uri : Text) : Workspace.empty.Follows uri [] := by
  have hnone : (Workspace.empty.documents.get? uri) = none := rfl
  constructor
  · intro _
    exact ⟨rfl, rfl, rfl⟩
  all_goals
    intro d hd
    rw [hnone] at hd
    contradiction

/-! What telling a dialect and analysing do. -/

section Analysis

variable {d : Document}

theorem tellDialect_fst (w : Workspace) (uri : Text) (d : Document) :
    (w.tellDialect uri d).1 =
      if d.language = .markup then (w.dialects.get? uri).or (Dialect.detect? d.text) else none := by
  unfold tellDialect
  by_cases hlanguage : d.language = .markup
  · simp only [hlanguage, ne_eq, not_true_eq_false, if_false, if_true]
    cases w.dialects.get? uri with
    | some dialect => rfl
    | none => cases Dialect.detect? d.text <;> rfl
  · simp [hlanguage]

theorem tellDialect_snd (w : Workspace) (uri : Text) (d : Document) :
    (w.tellDialect uri d).2.documents = w.documents ∧
      (w.tellDialect uri d).2.tracker = w.tracker := by
  unfold tellDialect
  split
  · exact ⟨rfl, rfl⟩
  · cases w.dialects.get? uri with
    | some dialect => exact ⟨rfl, rfl⟩
    | none => cases Dialect.detect? d.text <;> exact ⟨rfl, rfl⟩

theorem get?_dialects_tellDialect (w : Workspace) (other uri : Text) (d : Document) :
    (w.tellDialect other d).2.dialects.get? uri =
      if other = uri ∧ d.language = .markup then
        (w.dialects.get? uri).or (Dialect.detect? d.text)
      else w.dialects.get? uri := by
  unfold tellDialect
  by_cases hlanguage : d.language = .markup
  · simp only [hlanguage, ne_eq, not_true_eq_false, if_false, and_true]
    by_cases huri : other = uri
    · subst huri
      cases hcached : w.dialects.get? other with
      | some dialect => simp [hcached]
      | none => cases hdetected : Dialect.detect? d.text <;> simp [hcached]
    · cases w.dialects.get? other with
      | some dialect => simp [huri]
      | none => cases Dialect.detect? d.text <;> simp [huri]
  · simp [hlanguage]

theorem analyze_eq (hd : w.documents.get? uri = some d) :
    w.analyze uri =
      { (w.tellDialect uri d).2 with
        tracker := match (w.tellDialect uri d).1 with
          | some dialect => w.tracker.insert uri (.ofDocument uri dialect d)
          | none => w.tracker.erase uri } := by
  have htracker := (tellDialect_snd w uri d).2
  unfold analyze
  rw [hd]
  rcases htold : w.tellDialect uri d with ⟨told, w'⟩
  rw [htold] at htracker
  cases told with
  | none => simp only [htold, ← htracker, VariableTracker.clear]
  | some dialect => simp only [htold, ← htracker, VariableTracker.replace]

theorem get?_documents_analyze (w : Workspace) (other uri : Text) :
    (w.analyze other).documents.get? uri = w.documents.get? uri := by
  cases hd : w.documents.get? other with
  | none => rw [analyze, hd]
  | some d => rw [analyze_eq hd, (tellDialect_snd w other d).1]

theorem get?_dialects_analyze (hd : w.documents.get? uri = some d) :
    (w.analyze uri).dialects.get? uri = (w.tellDialect uri d).2.dialects.get? uri := by
  rw [analyze_eq hd]

theorem get?_tracker_analyze (hd : w.documents.get? uri = some d) :
    (w.analyze uri).tracker.get? uri =
      (w.tellDialect uri d).1.map fun dialect => VariableTable.ofDocument uri dialect d := by
  rw [analyze_eq hd]
  cases (w.tellDialect uri d).1 <;> simp

theorem agrees_analyze (h : other ≠ uri) (w : Workspace) : w.Agrees (w.analyze other) uri := by
  cases hd : w.documents.get? other with
  | none =>
    rw [analyze, hd]
    exact .refl w uri
  | some d =>
    rw [analyze_eq hd]
    constructor
    · rw [(tellDialect_snd w other d).1]
    · simp [get?_dialects_tellDialect, h]
    · cases (w.tellDialect other d).1 <;> simp [h]

end Analysis

/-! Edits. -/

theorem firstDialect?_of_texts {next : List DocumentEvent} {t : Text}
    (h : DocumentEvent.texts next = t :: DocumentEvent.texts log) :
    DocumentEvent.firstDialect? next =
      (DocumentEvent.firstDialect? log).or (Dialect.detect? t) := by
  unfold DocumentEvent.firstDialect?
  rw [h, List.reverse_cons, List.findSome?_append, List.findSome?_singleton]

/-- The text that a document has now cannot tell a dialect that the texts so far did not. -/
theorem Follows.detect?_eq_none {d : Document} (hw : w.Follows uri log)
    (hd : w.documents.get? uri = some d) (hlanguage : d.language = .markup)
    (hnone : w.dialects.get? uri = none) : Dialect.detect? d.text = none := by
  have hfirst := hw.dialect d hd
  rw [hnone, if_pos hlanguage] at hfirst
  have hall := List.findSome?_eq_none_iff.1 hfirst.symm
  exact hall d.text (List.mem_reverse.2 (List.mem_of_head? (hw.text d hd)))

/-- A document that is stored with its latest text and with the dialects of the earlier ones needs
only to be analysed. -/
theorem follows_analyze {d : Document} (hd : w.documents.get? uri = some d)
    (htext : (DocumentEvent.texts log).head? = some d.text)
    (hdialect : (w.tellDialect uri d).2.dialects.get? uri =
      if d.language = .markup then DocumentEvent.firstDialect? log else none) :
    (w.analyze uri).Follows uri log := by
  have htold : (w.tellDialect uri d).1 = (w.tellDialect uri d).2.dialects.get? uri := by
    rw [get?_dialects_tellDialect] at hdialect ⊢
    rw [tellDialect_fst]
    by_cases hlanguage : d.language = .markup
    · simp [hlanguage]
    · simp only [hlanguage, and_false, if_false] at hdialect ⊢
      exact hdialect.symm
  have hstored : (w.analyze uri).documents.get? uri = some d := by
    rw [get?_documents_analyze, hd]
  constructor
  · intro hnone
    rw [hstored] at hnone
    contradiction
  all_goals
    intro d' hd'
    rw [hstored] at hd'
    obtain rfl := Option.some.inj hd'
  · exact htext
  · rw [get?_dialects_analyze hd, hdialect]
  · intro _
    rw [get?_tracker_analyze hd, get?_dialects_analyze hd, htold]

/-- A text that comes without a language keeps the language that is known, so the dialects told by
earlier texts still count. -/
theorem follows_store {next : List DocumentEvent} {t : Text} (hw : w.Follows uri log)
    (htexts : DocumentEvent.texts next = t :: DocumentEvent.texts log) :
    ((w.store uri none t).analyze uri).Follows uri next := by
  have hfirst := firstDialect?_of_texts htexts
  have hdialects : (w.store uri none t).dialects = w.dialects := rfl
  obtain ⟨language, hstored, hcached⟩ : ∃ language,
      (w.store uri none t).documents.get? uri = some ⟨t, language⟩ ∧
        w.dialects.get? uri =
          if language = .markup then DocumentEvent.firstDialect? log else none := by
    cases hd : w.documents.get? uri with
    | none =>
      obtain ⟨hnil, hnone, _⟩ := hw.absent hd
      refine ⟨.ofPath (addressPath uri), by simp [store, hd], ?_⟩
      simp [hnone, DocumentEvent.firstDialect?, hnil]
    | some d => exact ⟨d.language, by simp [store, hd], hw.dialect d hd⟩
  refine follows_analyze hstored (by simp [htexts]) ?_
  rw [get?_dialects_tellDialect, hdialects, hcached, hfirst]
  by_cases hlanguage : language = .markup <;> simp [hlanguage]

theorem follows_opened (w : Workspace) (uri : Text) (language : Language) (t : Text)
    (log : List DocumentEvent) :
    (w.edit uri (.opened language t)).Follows uri (.edited (.opened language t) :: log) := by
  have hstored : ((w.store uri (some language) t).forgetDialect uri).documents.get? uri =
      some ⟨t, language⟩ := by
    simp [store, forgetDialect]
  refine follows_analyze hstored rfl ?_
  rw [get?_dialects_tellDialect]
  simp [forgetDialect, DocumentEvent.firstDialect?, DocumentEvent.texts]

theorem Follows.saved (hw : w.Follows uri log) :
    (w.edit uri (.saved none)).Follows uri (.edited (.saved none) :: log) := by
  have hfirst : DocumentEvent.firstDialect? (.edited (.saved none) :: log) =
      DocumentEvent.firstDialect? log := rfl
  cases hd : w.documents.get? uri with
  | none =>
    have hsame : w.edit uri (.saved none) = w := by
      rw [edit, analyze, hd]
    rw [hsame]
    refine ⟨hw.absent, hw.text, hw.dialect, ?_⟩
    intro d hstored
    rw [hd] at hstored
    contradiction
  | some d =>
    refine follows_analyze hd (hw.text d hd) ?_
    rw [get?_dialects_tellDialect, hw.dialect d hd, hfirst]
    by_cases hlanguage : d.language = .markup
    · cases hnone : DocumentEvent.firstDialect? log with
      | some dialect => simp [hlanguage]
      | none =>
        -- The stored text is among those that told no dialect, so it tells none now.
        have hcached := hw.dialect d hd
        rw [if_pos hlanguage, hnone] at hcached
        simp [hlanguage, hw.detect?_eq_none hd hlanguage hcached]
    · simp [hlanguage]

theorem follows_closed (w : Workspace) (uri : Text) (log : List DocumentEvent) :
    (w.edit uri .closed).Follows uri (.edited .closed :: log) := by
  have hnone : (w.edit uri .closed).documents.get? uri = none := by
    simp [edit, forget]
  constructor
  · intro _
    simp [edit, forget, VariableTracker.clear, DocumentEvent.texts]
  all_goals
    intro d hd
    rw [hnone] at hd
    contradiction

theorem Follows.edit (hw : w.Follows uri log) (e : DocumentEdit) :
    (w.edit uri e).Follows uri (.edited e :: log) := by
  cases e with
  | opened language t => exact follows_opened w uri language t log
  | changed texts =>
    cases hlast : texts.getLast? with
    | none =>
      -- A change without a text does nothing, and so it does not count as one.
      have hnil : texts = [] := List.getLast?_eq_none_iff.1 hlast
      subst hnil
      exact ⟨hw.absent, hw.text, hw.dialect, hw.table⟩
    | some t =>
      rw [Workspace.edit, hlast]
      exact follows_store hw (by simp [DocumentEvent.texts, hlast])
  | saved text =>
    cases text with
    | none => exact hw.saved
    | some t => exact follows_store hw rfl
  | closed => exact follows_closed w uri log

theorem agrees_edit (h : other ≠ uri) (w : Workspace) (e : DocumentEdit) :
    w.Agrees (w.edit other e) uri := by
  have hstore : ∀ language t, w.Agrees (w.store other language t) uri := by
    intro language t
    exact ⟨by simp [store, h], rfl, rfl⟩
  have htrans : ∀ w' : Workspace, w.Agrees w' uri → w.Agrees (w'.analyze other) uri := by
    intro w' hw'
    obtain ⟨hdocuments, hdialects, htracker⟩ := agrees_analyze h w'
    exact ⟨hdocuments.trans hw'.documents, hdialects.trans hw'.dialects,
      htracker.trans hw'.tracker⟩
  cases e with
  | opened language t =>
    refine htrans _ ?_
    obtain ⟨hdocuments, hdialects, htracker⟩ := hstore (some language) t
    exact ⟨hdocuments, by simpa [forgetDialect, h] using hdialects, htracker⟩
  | changed texts =>
    rw [Workspace.edit]
    cases texts.getLast? with
    | none => exact .refl w uri
    | some t => exact htrans _ (hstore none t)
  | saved text =>
    cases text with
    | none => exact agrees_analyze h w
    | some t => exact htrans _ (hstore none t)
  | closed => exact ⟨by simp [edit, forget, h], by simp [edit, forget, h],
      by simp [edit, forget, VariableTracker.clear, h]⟩

/-! Questions. -/

/-- All that a question about a document may do to a workspace is to tell the dialect. -/
def Tells (w : Workspace) (uri : Text) (w' : Workspace) : Prop :=
  w' = w ∨ ∃ d, w.documents.get? uri = some d ∧ w' = (w.tellDialect uri d).2

theorem agrees_tells (hne : other ≠ uri) (h : w.Tells other w') : w.Agrees w' uri := by
  rcases h with rfl | ⟨d, -, rfl⟩
  · exact .refl _ uri
  obtain ⟨hdocuments, htracker⟩ := tellDialect_snd w other d
  refine ⟨by rw [hdocuments], ?_, by rw [htracker]⟩
  rw [get?_dialects_tellDialect, if_neg fun h => hne h.1]

theorem Follows.agrees_tells (hw : w.Follows uri log) (h : w.Tells other w') :
    w.Agrees w' uri := by
  by_cases huri : other = uri
  · subst huri
    rcases h with rfl | ⟨d, hd, rfl⟩
    · exact .refl _ other
    obtain ⟨hdocuments, htracker⟩ := tellDialect_snd w other d
    refine ⟨by rw [hdocuments], ?_, by rw [htracker]⟩
    rw [get?_dialects_tellDialect]
    by_cases hlanguage : d.language = .markup
    · cases hnone : w.dialects.get? other with
      | some dialect => simp
      | none => simp [hw.detect?_eq_none hd hlanguage hnone]
    · simp [hlanguage]
  · exact Workspace.agrees_tells huri h

section Questions

variable (game : Game) (p : Position)

theorem tells_completion (w : Workspace) (uri : Text) :
    w.Tells uri (w.completion game uri p).2 := by
  unfold completion
  cases hd : w.documents.get? uri with
  | none => exact .inl rfl
  | some d =>
    cases hlanguage : d.language with
    | markup => exact .inr ⟨d, hd, by simp only [hlanguage]⟩
    | lua => exact .inl (by simp only [hlanguage])
    | other => exact .inl (by simp only [hlanguage])

theorem tells_hover (w : Workspace) (uri : Text) : w.Tells uri (w.hover game uri p).2 := by
  unfold hover
  cases hd : w.documents.get? uri with
  | none => exact .inl rfl
  | some d =>
    cases hlanguage : d.language with
    | markup => exact .inr ⟨d, hd, by simp only [hlanguage]⟩
    | lua => exact .inl (by simp only [hlanguage])
    | other => exact .inl (by simp only [hlanguage])

theorem tells_definition (w : Workspace) (uri : Text) :
    w.Tells uri (w.definition game uri p).2 := by
  unfold definition
  cases hd : w.documents.get? uri with
  | none => exact .inl rfl
  | some d => exact .inr ⟨d, hd, rfl⟩

theorem get?_tracker_rename (h : other ≠ uri) (tracker : VariableTracker) (kind : VariableKind)
    (old new : Text) : (tracker.rename other kind old new).get? uri = tracker.get? uri := by
  unfold VariableTracker.rename
  cases tracker.get? other with
  | none => rfl
  | some table => simp [h]

theorem agrees_rename (hne : other ≠ uri) (w : Workspace) (kind : VariableKind)
    (old new : Text) :
    w.Agrees { w with tracker := w.tracker.rename other kind old new } uri :=
  ⟨rfl, rfl, get?_tracker_rename hne _ _ _ _⟩

theorem agrees_ask (hne : other ≠ uri) (w : Workspace) (q : Query) :
    w.Agrees (w.ask game other p q).2 uri := by
  cases q with
  | completion => exact agrees_tells hne (w.tells_completion game p other)
  | hover => exact agrees_tells hne (w.tells_hover game p other)
  | definition => exact agrees_tells hne (w.tells_definition game p other)
  | references => exact .refl w uri
  | rename newName =>
    rw [Workspace.ask]
    split
    · exact .refl w uri
    · rw [Prod.map_snd, id, Workspace.rename]
      split
      · exact agrees_rename hne w _ _ _
      · exact .refl w uri

theorem Follows.rename (hw : w.Follows uri log) (newName : Text) :
    (w.ask game other p (.rename newName)).2.Follows uri
      ((if other = uri then
          (Query.rename newName).event? (w.ask game other p (.rename newName)).1
        else none).toList ++ log) := by
  unfold Workspace.ask
  by_cases hempty : newName.isEmpty = true
  · simpa [hempty, Query.event?] using hw
  simp only [hempty, Bool.false_eq_true, if_false]
  unfold Workspace.rename
  cases hd : w.documents.get? other with
  | none => simpa [Query.event?] using hw
  | some d =>
    cases hm : w.variableAt? other p with
    | none => simpa [Query.event?] using hw
    | some m =>
      by_cases huri : other = uri
      · subst huri
        simp only [Prod.map_fst, Prod.map_snd, Option.map_some, id_eq, if_true, Query.event?,
          Option.toList_some, List.singleton_append]
        -- The table is not that of the text any more, and the log says so.
        refine ⟨fun hnone => ?_, hw.text, hw.dialect, fun _ _ hfresh => ?_⟩
        · rw [hd] at hnone
          contradiction
        · simp [DocumentEvent.isFresh] at hfresh
      · simpa [huri] using (agrees_rename huri w m.kind m.name (bareName newName)).follows hw

theorem Follows.ask (hw : w.Follows uri log) (q : Query) :
    (w.ask game other p q).2.Follows uri
      ((if other = uri then q.event? (w.ask game other p q).1 else none).toList ++ log) := by
  have hquiet : q.event? (w.ask game other p q).1 = none → w.Agrees (w.ask game other p q).2 uri →
      (w.ask game other p q).2.Follows uri
        ((if other = uri then q.event? (w.ask game other p q).1 else none).toList ++ log) := by
    intro hnone hagrees
    rw [hnone]
    simpa using hagrees.follows hw
  cases q with
  | completion => exact hquiet rfl (hw.agrees_tells (w.tells_completion game p other))
  | hover => exact hquiet rfl (hw.agrees_tells (w.tells_hover game p other))
  | definition => exact hquiet rfl (hw.agrees_tells (w.tells_definition game p other))
  | references => exact hquiet rfl (.refl w uri)
  | rename newName => exact hw.rename game p newName

end Questions

end Workspace

/-! A whole session, and a server from its first message on. -/

section Runs

variable {s : Session} {uri : Text} {log : List DocumentEvent}

theorem Session.workspace_configure (tree : FileTree) (s : Session) (settings : Settings) :
    (s.configure tree settings).1.workspace = s.workspace := by
  unfold configure
  split <;> rfl

theorem Session.workspace_reconfigure (tree : FileTree) (s : Session) (sent : Json)
    (reply : Option Json) : (s.reconfigure tree sent reply).1.workspace = s.workspace := by
  unfold reconfigure
  dsimp only
  split
  · exact workspace_configure tree s _
  · rfl

theorem Session.workspace_start (tree : FileTree) (s : Session) (reply : Option Json) :
    (s.start tree reply).1.workspace = s.workspace :=
  workspace_configure tree s _

theorem Server.workspace_accept (s : Server) (options : Option Json) :
    (s.accept options).session.workspace = s.session.workspace := by
  unfold accept
  split <;> rfl

/-- Only edits and questions change a workspace, so what they preserve holds whatever a server was
sent. -/
theorem Server.workspace_after (P : Workspace → Prop) (hempty : P .empty)
    (hedit : ∀ w uri e, P w → P (Workspace.edit w uri e))
    (hask : ∀ game w uri p q, P w → P (Workspace.ask game w uri p q).2) (history : List Delivery) :
    P (Server.after history).session.workspace := by
  induction history with
  | nil => exact hempty
  | cons delivery earlier ih =>
    obtain ⟨tree, m⟩ := delivery
    change P ((after earlier).receive tree m).1.session.workspace
    generalize after earlier = server at ih
    unfold receive
    cases server.phase with
    | created =>
      cases m <;> try exact ih
      next options => rwa [workspace_accept]
    | running =>
      change P (server.handle tree m).1.session.workspace
      cases m with
      | connect options => exact ih
      | connected reply => rwa [handle, Session.workspace_start]
      | configured settings reply => rwa [handle, Session.workspace_reconfigure]
      | edited uri e => exact hedit _ uri e ih
      | asked uri p q =>
        rw [handle, Session.ask]
        cases server.session.game with
        | none => exact ih
        | some game => exact hask game _ uri p q ih
      | shutdown => exact ih
    | stopped => exact ih

theorem Session.follows_ask (hs : s.workspace.Follows uri log) (other : Text) (p : Position)
    (q : Query) :
    (s.ask other p q).2.workspace.Follows uri
      ((if other = uri then q.event? (s.ask other p q).1 else none).toList ++ log) := by
  unfold ask
  cases s.game with
  | none =>
    have hquiet : q.event? none = none := by
      cases q <;> rfl
    simpa [hquiet] using hs
  | some game => exact hs.ask game p q

theorem Server.follows_handle {server : Server} (hs : server.session.workspace.Follows uri log)
    (tree : FileTree) (m : Message) :
    (server.handle tree m).1.session.workspace.Follows uri
      ((server.session.event? uri m).toList ++ log) := by
  cases m with
  | connect options => exact hs
  | connected reply =>
    have hsame := Session.workspace_start tree server.session reply
    simpa [handle, Session.event?, hsame] using hs
  | configured settings reply =>
    have hsame := Session.workspace_reconfigure tree server.session settings reply
    simpa [handle, Session.event?, hsame] using hs
  | edited other e =>
    by_cases huri : other = uri
    · subst huri
      simpa [handle, Session.event?, Session.edit] using hs.edit e
    · simpa [handle, Session.event?, Session.edit, huri] using
        (Workspace.agrees_edit huri _ e).follows hs
  | asked other p q => exact Session.follows_ask hs other p q
  | shutdown => exact hs

theorem Server.follows_receive {server : Server} (hs : server.session.workspace.Follows uri log)
    (tree : FileTree) (m : Message) :
    (server.receive tree m).1.session.workspace.Follows uri
      ((if server.phase = .running then (server.session.event? uri m).toList else []) ++ log) := by
  unfold receive
  cases hphase : server.phase with
  | created =>
    cases m <;> try exact hs
    next options =>
      have hsame := Server.workspace_accept server options
      simpa [hsame] using hs
  | running => exact Server.follows_handle hs tree m
  | stopped => exact hs

theorem Server.follows_after (history : List Delivery) (uri : Text) :
    (Server.after history).session.workspace.Follows uri (Server.log uri history) := by
  induction history with
  | nil => exact Workspace.follows_empty uri
  | cons delivery earlier ih =>
    have hstep := Server.follows_receive ih delivery.tree delivery.message
    rw [Server.log]
    split
    next hrunning => simpa [hrunning, after] using hstep
    next hphase => simpa [hphase, after] using hstep

end Runs

/-- The table kept for a document groups the variables of its text, if it has a dialect, and else
there is none. -/
def Workspace.IsCurrent (w : Workspace) (uri : Text) (d : Document) : Prop :=
  match w.dialects.get? uri with
  | none => w.tracker.get? uri = none
  | some dialect => ∃ table, w.tracker.get? uri = some table ∧ table.dialect = dialect ∧
      table.listing = (grouped (VariableTable.scanned uri d)).map fun (kind, found) =>
        (kind, grouped found)

theorem VariableTable.dialect_ofDocument (uri : Text) (dialect : Dialect) (d : Document) :
    (ofDocument uri dialect d).dialect = dialect := by
  rw [ofDocument_eq]

theorem Workspace.isCurrent_of_table {w : Workspace} {uri : Text} {d : Document}
    (h : w.tracker.get? uri =
      (w.dialects.get? uri).map fun dialect => VariableTable.ofDocument uri dialect d) :
    w.IsCurrent uri d := by
  unfold IsCurrent
  cases hdialect : w.dialects.get? uri with
  | none => simpa [hdialect] using h
  | some dialect =>
    rw [hdialect, Option.map_some] at h
    exact ⟨_, h, VariableTable.dialect_ofDocument uri dialect d,
      VariableTable.listing_ofDocument uri dialect d⟩

/-- A server keeps a dialect and variables only for documents that are stored. Of a stored one it
keeps the first dialect told since the document was opened, if it is markup at all; and its
variables are those of its text unless a renaming came after all that made the server analyse it. -/
theorem Server.keeps_documents_current (history : List Delivery) (uri : Text) :
    let w := (Server.after history).session.workspace
    let log := Server.log uri history
    (w.documents.get? uri = none → w.dialects.get? uri = none ∧ w.tracker.get? uri = none) ∧
      ∀ d, w.documents.get? uri = some d →
        w.dialects.get? uri =
            (if d.language = .markup then DocumentEvent.firstDialect? log else none) ∧
          (DocumentEvent.isFresh DocumentEdit.isAnalysed log = true → w.IsCurrent uri d) := by
  have hfollows := Server.follows_after history uri
  refine ⟨fun hnone => (hfollows.absent hnone).2, fun d hd => ⟨hfollows.dialect d hd, ?_⟩⟩
  intro hfresh
  exact Workspace.isCurrent_of_table (hfollows.table d hd hfresh)

def folderSettings : Json :=
  .object [("unpackedFileLocation".toList, .string "/unpacked".toList),
    ("extensionsFolder".toList, .string "/extensions".toList)]

def renamedAndUntouched : List Delivery :=
  [⟨.empty, .edited "file:///a.xml".toList (.changed [])⟩,
    ⟨.empty, .asked "file:///a.xml".toList ⟨0, 13⟩ (.rename ['c'])⟩,
    ⟨.empty, .edited "file:///a.xml".toList (.opened .markup "<aiscript a=\"$b\"/>".toList)⟩,
    ⟨.empty, .connected none⟩,
    ⟨.empty, .connect (some folderSettings)⟩]

theorem renamedAndUntouched_not_current :
    (Server.after renamedAndUntouched).session.workspace.documents.get? "file:///a.xml".toList =
        some ⟨"<aiscript a=\"$b\"/>".toList, .markup⟩ ∧
      DocumentEvent.isFresh (fun _ => true)
        (Server.log "file:///a.xml".toList renamedAndUntouched) = true ∧
      ¬(Server.after renamedAndUntouched).session.workspace.IsCurrent "file:///a.xml".toList
        ⟨"<aiscript a=\"$b\"/>".toList, .markup⟩ := by
  refine ⟨by decide +kernel, by decide +kernel, ?_⟩
  have hdialect : (Server.after renamedAndUntouched).session.workspace.dialects.get?
      "file:///a.xml".toList = some .aiScript := by
    decide +kernel
  have hstale : ((Server.after renamedAndUntouched).session.workspace.tracker.get?
      "file:///a.xml".toList).map VariableTable.listing ≠
        some ((grouped (VariableTable.scanned "file:///a.xml".toList
          ⟨"<aiscript a=\"$b\"/>".toList, .markup⟩)).map
            fun (kind, found) => (kind, grouped found)) := by
    decide +kernel
  unfold Workspace.IsCurrent
  rw [hdialect]
  rintro ⟨table, htable, _, hlisting⟩
  exact hstale (by rw [htable, Option.map_some, hlisting])

end ScriptLens
