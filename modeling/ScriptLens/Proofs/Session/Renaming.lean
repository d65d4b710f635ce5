import ScriptLens.Proofs.Script.Lookup
import ScriptLens.Proofs.Script.TreeRenaming
import ScriptLens.Proofs.Session.Freshness

/-!
A renaming in a session and the edits that it is answered with. The session renames the variable in
its table and leaves the text alone; the editor makes the edits and sends the new text back, which is
scanned anew. Both ways lead to the same table.
-/

namespace ScriptLens

open Markup Occurrence

section Answer

variable {d : Document} {pieces : List Piece} (r : Renaming)

theorem map_renamed_eq (hvalid : ∀ q ∈ pieces, q.Valid) (htext : d.text = spell pieces)
    (uri : Text) :
    (((places [] pieces).filter fun p => p.key = (r.kind, r.old)).map fun p =>
        (⟨uri, p.range⟩ : Location)).map (fun location =>
          Workspace.renamed d r.new location.range) =
      ((places [] pieces).filter fun p => r.Concerns p.kind p.name).map fun p =>
        ⟨p.range, r.written p.written⟩ := by
  have hfilter : ((places [] pieces).filter fun p => p.key = (r.kind, r.old)) =
      (places [] pieces).filter fun p => r.Concerns p.kind p.name := by
    refine List.filter_congr fun p _ => ?_
    rw [Bool.eq_iff_iff, decide_eq_true_iff, decide_eq_true_iff]
    simp [Place.key, Renaming.Concerns]
  rw [hfilter, List.map_map]
  refine List.map_congr_left fun p hp => ?_
  have hstands : p.StandsIn d.text := by
    have h := standsIn_of_mem_places hvalid (List.mem_filter.1 hp).1
    rwa [List.nil_append, ← htext] at h
  simp only [Function.comp_apply, Workspace.renamed, hstands.slice?, Option.getD_some,
    bareName_of_isIdentifier r.identifier, Renaming.written]

theorem pairwise_apart_edits (pieces : List Piece) :
    (((places [] pieces).filter fun p => r.Concerns p.kind p.name).map fun p =>
      (⟨p.range, r.written p.written⟩ : TextEdit)).Pairwise fun e e' => e.range.Apart e'.range :=
  List.Pairwise.map _ (fun _ _ hbefore => hbefore.apart) ((pairwise_places [] pieces).filter _)

end Answer

theorem VariableTable.rename_agrees (r : Renaming) {t : Tree} {d : Document} {uri : Text}
    {dialect : Dialect} {p : Position} {found : VariableMatch} (htext : d.text = t.render)
    (hlookup : (ofDocument uri dialect d).lookup? p = some found) (hkind : found.kind = r.kind)
    (hname : found.name = r.old) (hold : bareName r.old = r.old)
    (hfree : (ofDocument uri dialect d).get? r.kind r.new = none) :
    ∃ text,
      (found.locations.map fun location =>
        Workspace.renamed d r.new location.range).Pairwise (fun e e' => e.range.Apart e'.range) ∧
      d.edited? (found.locations.map fun location => Workspace.renamed d r.new location.range) =
        some text ∧
      ∀ kind name, ((ofDocument uri dialect d).rename r.kind r.old r.new).order uri d kind name =
        (ofDocument uri dialect ⟨text, d.language⟩).order uri ⟨text, d.language⟩ kind name := by
  obtain ⟨t', pieces, hvalid, hrender, hscan, hrender', hscan'⟩ := exists_renamed_tree r t
  rw [← htext] at hrender hscan
  have hused : (ofDocument uri dialect d).get? r.kind r.old = some found.locations := by
    rw [← hkind, ← hname, (finds_of_lookup? hlookup).locations]
  have hplaces : found.locations = ((places [] pieces).filter fun p =>
      p.key = (r.kind, r.old)).map fun p => (⟨uri, p.range⟩ : Location) := by
    have hrecorded := hused
    rw [get?_ofDocument, scanned_eq uri hvalid hrender hscan, under_recorded] at hrecorded
    rw [← Option.getD_some (a := found.locations) (b := []), ← hrecorded, getD_nonempty?]
  refine ⟨t'.render, ?_, ?_, ?_⟩
  · rw [hplaces, map_renamed_eq r hvalid hrender]
    exact pairwise_apart_edits r pieces
  · rw [hplaces, map_renamed_eq r hvalid hrender, edited?_places r hvalid hrender, hrender']
  · exact order_rename uri dialect r hvalid hrender hscan hrender' hscan' hused hold hfree

namespace Workspace

variable {w : Workspace} {uri : Text} {d : Document} {dialect : Dialect} {p : Position}

theorem ask_rename_of_ne_nil {found : VariableMatch} {newName : Text} (game : Game)
    (hd : w.documents.get? uri = some d) (hfound : w.variableAt? uri p = some found)
    (hnew : newName ≠ []) :
    w.ask game uri p (.rename newName) =
      (some (.rename uri (found.locations.map fun location => renamed d newName location.range)),
        { w with tracker := w.tracker.rename uri found.kind found.name (bareName newName) }) := by
  have hempty : newName.isEmpty = false := List.isEmpty_eq_false_iff.2 hnew
  simp only [ask, hempty, Bool.false_eq_true, if_false, Workspace.rename, hd, hfound]
  rfl

theorem ask_rename {found : VariableMatch} {newName : Text} (game : Game)
    (hd : w.documents.get? uri = some d) (hfound : w.variableAt? uri p = some found)
    (hnew : IsIdentifier newName) :
    w.ask game uri p (.rename newName) =
      (some (.rename uri (found.locations.map fun location => renamed d newName location.range)),
        { w with tracker := w.tracker.rename uri found.kind found.name newName }) := by
  rw [ask_rename_of_ne_nil game hd hfound (ne_nil_of_isIdentifier hnew),
    bareName_of_isIdentifier hnew]

theorem tracker_changed {t : Text} (hd : w.documents.get? uri = some d)
    (hlanguage : d.language = .markup) (hdialect : w.dialects.get? uri = some dialect) :
    (w.edit uri (.changed [t])).tracker.get? uri =
      some (.ofDocument uri dialect ⟨t, d.language⟩) := by
  have hstored : (w.store uri none t).documents.get? uri = some ⟨t, d.language⟩ := by
    simp [store, hd]
  have hcached : (w.store uri none t).dialects.get? uri = some dialect := hdialect
  change ((w.store uri none t).analyze uri).tracker.get? uri = _
  rw [get?_tracker_analyze hstored, tellDialect_fst, if_pos hlanguage, hcached]
  rfl

theorem Follows.of_variableAt? {log : List DocumentEvent} {found : VariableMatch}
    (hw : w.Follows uri log) (hd : w.documents.get? uri = some d)
    (hfresh : DocumentEvent.isFresh DocumentEdit.isAnalysed log = true)
    (hfound : w.variableAt? uri p = some found) :
    ∃ dialect, d.language = .markup ∧ w.dialects.get? uri = some dialect ∧
      w.tracker.get? uri = some (.ofDocument uri dialect d) ∧
      (VariableTable.ofDocument uri dialect d).lookup? p = some found := by
  have htable := hw.table d hd hfresh
  have hdialect := hw.dialect d hd
  rw [variableAt?, VariableTracker.lookup?, htable] at hfound
  cases hcached : w.dialects.get? uri with
  | none =>
    rw [hcached] at hfound
    simp at hfound
  | some dialect =>
    rw [hcached] at htable hfound hdialect
    refine ⟨dialect, ?_, rfl, htable, hfound⟩
    by_cases hlanguage : d.language = .markup
    · exact hlanguage
    · rw [if_neg hlanguage] at hdialect
      contradiction

end Workspace

theorem bareName_of_head? {name : Text} (hdollar : name.head? ≠ some '$')
    (hat : name.head? ≠ some '@') : bareName name = name := by
  cases name with
  | nil => rfl
  | cons c t =>
    rw [List.head?_cons, ne_eq, Option.some.injEq] at hdollar hat
    simp [bareName, hdollar, hat]

theorem VariableTable.get?_eq_none {uri : Text} {dialect : Dialect} {d : Document}
    {kind : VariableKind} {name : Text} (hname : bareName name = name)
    (h : (ofDocument uri dialect d).locations kind name = []) :
    (ofDocument uri dialect d).get? kind name = none := by
  rw [locations, hname, ← get?, get?_ofDocument, getD_nonempty?] at h
  rw [get?_ofDocument, h]
  rfl

theorem Session.ask_of_game {s : Session} {game : Game} (h : s.game = some game) (uri : Text)
    (p : Position) (q : Query) :
    s.ask uri p q =
      ((s.workspace.ask game uri p q).1, { s with workspace := (s.workspace.ask game uri p q).2 }) := by
  rw [ask, h]

theorem Session.ask_rename {s : Session} {uri : Text} {d : Document} {p : Position}
    {found : VariableMatch} {newName : Text} (hready : s.game.isSome = true)
    (hd : s.workspace.documents.get? uri = some d)
    (hfound : s.workspace.variableAt? uri p = some found) (hnew : IsIdentifier newName) :
    s.ask uri p (.rename newName) =
      (some (.rename uri
        (found.locations.map fun location => Workspace.renamed d newName location.range)),
        { s with workspace := { s.workspace with
          tracker := s.workspace.tracker.rename uri found.kind found.name newName } }) := by
  obtain ⟨game, hgame⟩ := Option.isSome_iff_exists.1 hready
  rw [ask_of_game hgame, Workspace.ask_rename game hd hfound hnew]

theorem Server.receive_running {server : Server} (h : server.phase = .running) (tree : FileTree)
    (m : Message) : server.receive tree m = server.handle tree m := by
  unfold receive
  rw [h]

/-- A ready server, asked to rename a variable of an analysed script that is written as a tree,
answers with edits that are apart from each other. Whoever makes them and sends the new text brings
about the table that the server has had since its answer: the same names, with the same variables of
the document in the same order. -/
theorem Server.rename_agrees_with_rescan (history : List Delivery) (files files' : FileTree)
    (uri : Text) (p : Position) (newName : Text) (t : Tree) (d : Document) (found : VariableMatch)
    (hrunning : (Server.after history).phase = .running)
    (hready : (Server.after history).session.game.isSome = true)
    (hd : (Server.after history).session.workspace.documents.get? uri = some d)
    (htext : d.text = t.render)
    (hfresh : DocumentEvent.isFresh DocumentEdit.isAnalysed (Server.log uri history) = true)
    (hfound : (Server.after history).session.workspace.variableAt? uri p = some found)
    (hdollar : found.name.head? ≠ some '$') (hat : found.name.head? ≠ some '@')
    (hnew : IsIdentifier newName)
    (hfree : (Server.after history).session.workspace.tracker.locations uri found.kind newName = [])
    (holdEnd : Text.endsWith "table".toList found.name = false)
    (hnewEnd : Text.endsWith "table".toList newName = false) :
    ∃ edits text renamed rescanned,
      ((Server.after history).receive files (.asked uri p (.rename newName))).2.1 =
          some (.answer (some (.rename uri edits))) ∧
        edits.Pairwise (fun e e' => e.range.Apart e'.range) ∧
        d.edited? edits = some text ∧
        (Server.after (⟨files, .asked uri p (.rename newName)⟩ ::
          history)).session.workspace.tracker.get? uri = some renamed ∧
        (Server.after (⟨files', .edited uri (.changed [text])⟩ ::
          ⟨files, .asked uri p (.rename newName)⟩ ::
            history)).session.workspace.tracker.get? uri = some rescanned ∧
        renamed.dialect = rescanned.dialect ∧
        ∀ kind name, renamed.order uri d kind name =
          rescanned.order uri ⟨text, d.language⟩ kind name := by
  obtain ⟨dialect, hlanguage, hdialect, htable, hlookup⟩ :=
    (Server.follows_after history uri).of_variableAt? hd hfresh hfound
  have hunused : (VariableTable.ofDocument uri dialect d).get? found.kind newName = none := by
    rw [VariableTracker.locations, htable] at hfree
    exact VariableTable.get?_eq_none (bareName_of_isIdentifier hnew) hfree
  obtain ⟨text, hapart, happly, horder⟩ := VariableTable.rename_agrees
    ⟨found.kind, found.name, newName, hnew, holdEnd, hnewEnd⟩ htext hlookup rfl rfl
    (bareName_of_head? hdollar hat) hunused
  have hask := Session.ask_rename hready hd hfound hnew
  have hasked : (Server.after (⟨files, .asked uri p (.rename newName)⟩ :: history)) =
      { Server.after history with
        session := ((Server.after history).session.ask uri p (.rename newName)).2 } := by
    rw [Server.after, Server.receive_running hrunning]
    rfl
  have hrenamed : (Server.after (⟨files, .asked uri p (.rename newName)⟩ ::
      history)).session.workspace.tracker.get? uri =
        some ((VariableTable.ofDocument uri dialect d).rename found.kind found.name newName) := by
    rw [hasked, hask, VariableTracker.rename, htable]
    simp
  refine ⟨_, text, _, .ofDocument uri dialect ⟨text, d.language⟩, ?_, hapart, happly, hrenamed, ?_,
    ?_, horder⟩
  · rw [Server.receive_running hrunning, Server.handle, hask]
  · have hrunning' : (Server.after (⟨files, .asked uri p (.rename newName)⟩ ::
        history)).phase = .running := by
      rw [hasked, hrunning]
    rw [Server.after, Server.receive_running hrunning', hasked, hask]
    exact Workspace.tracker_changed hd hlanguage hdialect
  · rw [VariableTable.dialect_rename, VariableTable.dialect_ofDocument,
      VariableTable.dialect_ofDocument]

def smallScript : Tree where
  prolog := ⟨none, ⟨[], rfl⟩, []⟩
  root := .empty
    { name := ⟨none, "aiscript".toList, by decide, by decide⟩
      attributes :=
        [{ gap := ⟨⟨[' '], by decide⟩, by decide⟩
           name := ⟨none, ['a'], by decide, by decide⟩
           quoting := ⟨⟨[], rfl⟩, ⟨[], rfl⟩, '"', by decide⟩
           value := "$b,$c,$b".toList
           valid := by decide }]
      tail := ⟨[], rfl⟩ }
  tail := ⟨[], rfl⟩

def smallScriptOpened : List Delivery :=
  [⟨.empty, .edited "file:///a.xml".toList (.opened .markup smallScript.render)⟩,
    ⟨.empty, .connected none⟩,
    ⟨.empty, .connect (some folderSettings)⟩]

def smallScriptMatch : VariableMatch where
  name := ['b']
  kind := .plain
  dialect := .aiScript
  location := ⟨"file:///a.xml".toList, ⟨⟨0, 13⟩, ⟨0, 15⟩⟩⟩
  locations :=
    [⟨"file:///a.xml".toList, ⟨⟨0, 13⟩, ⟨0, 15⟩⟩⟩, ⟨"file:///a.xml".toList, ⟨⟨0, 19⟩, ⟨0, 21⟩⟩⟩]

theorem smallScript_rename_agrees :
    (Server.after smallScriptOpened).session.workspace.variableAt? "file:///a.xml".toList ⟨0, 13⟩ =
        some smallScriptMatch ∧
      ∃ edits text renamed rescanned,
        ((Server.after smallScriptOpened).receive .empty
            (.asked "file:///a.xml".toList ⟨0, 13⟩ (.rename ['d']))).2.1 =
            some (.answer (some (.rename "file:///a.xml".toList edits))) ∧
          edits.Pairwise (fun e e' => e.range.Apart e'.range) ∧
          Document.edited? ⟨smallScript.render, .markup⟩ edits = some text ∧
          (Server.after (⟨.empty, .asked "file:///a.xml".toList ⟨0, 13⟩ (.rename ['d'])⟩ ::
            smallScriptOpened)).session.workspace.tracker.get? "file:///a.xml".toList =
              some renamed ∧
          (Server.after (⟨.empty, .edited "file:///a.xml".toList (.changed [text])⟩ ::
            ⟨.empty, .asked "file:///a.xml".toList ⟨0, 13⟩ (.rename ['d'])⟩ ::
              smallScriptOpened)).session.workspace.tracker.get? "file:///a.xml".toList =
                some rescanned ∧
          renamed.dialect = rescanned.dialect ∧
          ∀ kind name, renamed.order "file:///a.xml".toList ⟨smallScript.render, .markup⟩ kind name =
            rescanned.order "file:///a.xml".toList ⟨text, .markup⟩ kind name := by
  have hfound : (Server.after smallScriptOpened).session.workspace.variableAt?
      "file:///a.xml".toList ⟨0, 13⟩ = some smallScriptMatch := by
    decide +kernel
  refine ⟨hfound, ?_⟩
  exact Server.rename_agrees_with_rescan smallScriptOpened .empty .empty "file:///a.xml".toList
    ⟨0, 13⟩ ['d'] smallScript ⟨smallScript.render, .markup⟩ smallScriptMatch (by decide +kernel)
    (by decide +kernel) (by decide +kernel) rfl (by decide +kernel) hfound (by decide) (by decide)
    ⟨by decide, by decide⟩ (by decide +kernel) (by decide) (by decide)

end ScriptLens
