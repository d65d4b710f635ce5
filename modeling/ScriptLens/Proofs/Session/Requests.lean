import ScriptLens.Proofs.Session.Renaming

/-!
What the requests about a variable have to do with each other. A table is kept only for a script
that is stored, and at no position does it have two records (`Server.keepsScripts_after`), so the
definition of a variable, its references and its renaming all come from what is found at the
position. References and renamings look the variable up by its name once more, though, and drop a
sigil from it that belongs to it.
-/

namespace ScriptLens

namespace Workspace

/-- In any text the variables follow one another with something between them. So at most one record
of an analysed document is at a position, and what is found there is told by the records alone, in
whatever order they are searched. -/
theorem analyzed_variables_apart :
    (∀ t, (∀ o ∈ Occurrence.ofDocument t, o.start ≤ o.stop) ∧
        (Occurrence.ofDocument t).Pairwise fun o o' => o.stop < o'.start) ∧
      ∀ (w : Workspace) (uri : Text) (d : Document) (table : VariableTable),
        w.documents.get? uri = some d → (w.analyze uri).tracker.get? uri = some table →
          ∀ p, (table.records.filter fun r => r.2.2.range.contains p).length ≤ 1 ∧
            ∀ table' : VariableTable, table'.dialect = table.dialect →
              table'.records.Perm table.records →
                table'.lookup? p = ((w.analyze uri).variableAt? uri p).map (fun m =>
                    { m with locations := (table'.get? m.kind m.name).getD [] }) ∧
                  ∀ kind name, ((table'.get? kind name).getD []).Perm
                    ((table.get? kind name).getD []) := by
  constructor
  · intro t
    obtain ⟨found, hbefore, hfound, -⟩ := exists_places [] ⟨t, .markup⟩
    rw [hfound]
    constructor
    · intro o ho
      obtain ⟨place, -, rfl⟩ := List.mem_map.1 ho
      exact place.start_le
    · exact hbefore.map _ fun _ _ h => h.stop_lt
  · intro w uri d table hd htable p
    have hanalyzed := get?_tracker_analyze hd
    rw [htable] at hanalyzed
    obtain ⟨dialect, -, rfl⟩ := Option.map_eq_some_iff.1 hanalyzed.symm
    have hapart := VariableTable.pairwise_apart_records uri dialect d
    refine ⟨VariableTable.length_filter_contains_le_one hapart p, ?_⟩
    intro table' hdialect hrecords
    refine ⟨?_, VariableTable.perm_get?_of_perm hrecords⟩
    rw [variableAt?, VariableTracker.lookup?, htable]
    exact VariableTable.lookup?_of_perm (VariableTable.unambiguous_of_pairwise hapart) hdialect
      hrecords p

def brokenOff : Workspace :=
  Workspace.empty.store "file:///a.xml".toList (some .markup) "<aiscript><x a=\"$b,$c\" <".toList

def brokenOffReversed : VariableTable where
  dialect := .aiScript
  groups := .ofList [(.plain, .ofList
    [(['c'], [⟨"file:///a.xml".toList, ⟨⟨0, 19⟩, ⟨0, 21⟩⟩⟩]),
      (['b'], [⟨"file:///a.xml".toList, ⟨⟨0, 16⟩, ⟨0, 18⟩⟩⟩])])]

theorem brokenOff_variables_apart :
    ∃ d table, brokenOff.documents.get? "file:///a.xml".toList = some d ∧
      (brokenOff.analyze "file:///a.xml".toList).tracker.get? "file:///a.xml".toList =
        some table ∧
      brokenOffReversed.records.Perm table.records ∧ brokenOffReversed.records ≠ table.records ∧
      (table.records.filter fun r => r.2.2.range.contains ⟨0, 19⟩).length ≤ 1 ∧
      brokenOffReversed.lookup? ⟨0, 19⟩ =
        ((brokenOff.analyze "file:///a.xml".toList).variableAt? "file:///a.xml".toList
          ⟨0, 19⟩).map fun m =>
            { m with locations := (brokenOffReversed.get? m.kind m.name).getD [] } := by
  have hd : brokenOff.documents.get? "file:///a.xml".toList =
      some ⟨"<aiscript><x a=\"$b,$c\" <".toList, .markup⟩ := by
    decide +kernel
  have htable : (brokenOff.analyze "file:///a.xml".toList).tracker.get? "file:///a.xml".toList =
      some (.ofDocument "file:///a.xml".toList .aiScript
        ⟨"<aiscript><x a=\"$b,$c\" <".toList, .markup⟩) := by
    decide +kernel
  have hrecords : brokenOffReversed.records.Perm (VariableTable.ofDocument "file:///a.xml".toList
      .aiScript ⟨"<aiscript><x a=\"$b,$c\" <".toList, .markup⟩).records := by
    decide +kernel
  obtain ⟨hone, hother⟩ := analyzed_variables_apart.2 brokenOff _ _ _ hd htable ⟨0, 19⟩
  exact ⟨_, _, hd, htable, hrecords, by decide +kernel, hone,
    (hother brokenOffReversed (by decide +kernel) hrecords).1⟩

/-! What tables are kept for. -/

/-- A table that is kept is that of a stored script, and at no position has it two records. -/
def KeepsScript (w : Workspace) (uri : Text) : Prop :=
  ∀ table, w.tracker.get? uri = some table → ∃ d, w.documents.get? uri = some d ∧
    d.language = .markup ∧ w.dialects.get? uri = some table.dialect ∧ table.Unambiguous

variable {w w' : Workspace} {uri other : Text} {p : Position}

theorem Agrees.keepsScript (h : w.Agrees w' uri) (hw : w.KeepsScript uri) :
    w'.KeepsScript uri := by
  unfold KeepsScript
  rw [h.documents, h.dialects, h.tracker]
  exact hw

theorem keepsScript_analyze {d : Document} (hd : w.documents.get? uri = some d) :
    (w.analyze uri).KeepsScript uri := by
  intro table htable
  rw [get?_tracker_analyze hd, tellDialect_fst] at htable
  obtain ⟨dialect, htold, rfl⟩ := Option.map_eq_some_iff.1 htable
  have hlanguage : d.language = .markup := by
    by_cases h : d.language = .markup
    · exact h
    · rw [if_neg h] at htold
      contradiction
  rw [if_pos hlanguage] at htold
  refine ⟨d, by rw [get?_documents_analyze, hd], hlanguage, ?_,
    VariableTable.unambiguous_of_pairwise (VariableTable.pairwise_apart_records uri dialect d)⟩
  rw [get?_dialects_analyze hd, get?_dialects_tellDialect, if_pos ⟨rfl, hlanguage⟩, htold,
    VariableTable.dialect_ofDocument]

theorem keepsScript_store (w : Workspace) (uri : Text) (t : Text) :
    ((w.store uri none t).analyze uri).KeepsScript uri := by
  obtain ⟨d, hd⟩ : ∃ d, (w.store uri none t).documents.get? uri = some d := by
    simp [store]
  exact keepsScript_analyze hd

theorem KeepsScript.edit (hw : w.KeepsScript uri) (other : Text) (e : DocumentEdit) :
    (w.edit other e).KeepsScript uri := by
  by_cases huri : other = uri
  · subst huri
    cases e with
    | opened language t =>
      exact keepsScript_analyze (d := ⟨t, language⟩) (by simp [store, forgetDialect])
    | changed texts =>
      rw [Workspace.edit]
      cases texts.getLast? with
      | none => exact hw
      | some t => exact keepsScript_store w other t
    | saved text =>
      cases text with
      | none =>
        rw [Workspace.edit]
        cases hd : w.documents.get? other with
        | none => rwa [analyze, hd]
        | some d => exact keepsScript_analyze hd
      | some t => exact keepsScript_store w other t
    | closed =>
      intro table htable
      simp [Workspace.edit, forget, VariableTracker.clear] at htable
  · exact (agrees_edit huri w e).keepsScript hw

theorem KeepsScript.tells (hw : w.KeepsScript uri) (h : w.Tells uri w') : w'.KeepsScript uri := by
  rcases h with rfl | ⟨d, hd, rfl⟩
  · exact hw
  intro table htable
  obtain ⟨hdocuments, htracker⟩ := tellDialect_snd w uri d
  rw [htracker] at htable
  obtain ⟨d', hd', hlanguage, hdialect, hunambiguous⟩ := hw table htable
  refine ⟨d', by rw [hdocuments, hd'], hlanguage, ?_, hunambiguous⟩
  rw [get?_dialects_tellDialect, hdialect]
  simp

theorem KeepsScript.rename (hw : w.KeepsScript uri) (kind : VariableKind) (old new : Text) :
    Workspace.KeepsScript { w with tracker := w.tracker.rename uri kind old new } uri := by
  intro table htable
  simp only [VariableTracker.rename] at htable
  cases hold : w.tracker.get? uri with
  | none =>
    rw [hold] at htable
    simp [hold] at htable
  | some before =>
    rw [hold] at htable
    obtain rfl : before.rename kind old new = table := by simpa using htable
    obtain ⟨d, hd, hlanguage, hdialect, hbefore⟩ := hw before hold
    exact ⟨d, hd, hlanguage, by rw [VariableTable.dialect_rename]; exact hdialect,
      hbefore.rename kind old new⟩

theorem KeepsScript.ask (hw : w.KeepsScript uri) (game : Game) (other : Text) (p : Position)
    (q : Query) : (w.ask game other p q).2.KeepsScript uri := by
  by_cases huri : other = uri
  · subst huri
    cases q with
    | completion => exact hw.tells (w.tells_completion game p other)
    | hover => exact hw.tells (w.tells_hover game p other)
    | definition => exact hw.tells (w.tells_definition game p other)
    | references => exact hw
    | rename newName =>
      rw [Workspace.ask]
      split
      · exact hw
      · rw [Prod.map_snd, id, Workspace.rename]
        split
        · exact hw.rename _ _ _
        · exact hw
  · exact (agrees_ask game p huri w q).keepsScript hw

/-! The requests. -/

theorem finds_of_variableAt? {m : VariableMatch} (h : w.variableAt? uri p = some m) :
    ∃ table, w.tracker.get? uri = some table ∧ table.lookup? p = some m :=
  Option.bind_eq_some_iff.1 h

theorem KeepsScript.ask_definition {m : VariableMatch} (hw : w.KeepsScript uri) (game : Game)
    (h : w.variableAt? uri p = some m) :
    (w.ask game uri p .definition).1 = m.locations.head?.map .definition := by
  obtain ⟨table, htable, -⟩ := finds_of_variableAt? h
  obtain ⟨d, hd, hlanguage, hdialect, -⟩ := hw table htable
  have htold : w.tellDialect uri d = (some table.dialect, w) := by
    simp [tellDialect, hlanguage, hdialect]
  simp only [Workspace.ask, Workspace.definition, hd, htold, h, Option.bind_some, Prod.map_fst]

theorem ask_references {m : VariableMatch} (game : Game) (h : w.variableAt? uri p = some m) :
    (w.ask game uri p .references).1 =
      some (.references (w.tracker.locations uri m.kind m.name)) := by
  simp only [Workspace.ask, references?, h, Option.map_some]

/-- The references of a variable are those of its name without a sigil, so they are the match's own
if its name is bare, and otherwise those of another variable. -/
theorem KeepsScript.mem_references_iff {m : VariableMatch} (hw : w.KeepsScript uri)
    (h : w.variableAt? uri p = some m) :
    m.location ∈ w.tracker.locations uri m.kind m.name ↔ bareName m.name = m.name := by
  obtain ⟨table, htable, hfound⟩ := finds_of_variableAt? h
  obtain ⟨d, -, -, -, hunambiguous⟩ := hw table htable
  rw [VariableTracker.locations, htable, Option.map_some, Option.getD_some]
  exact (VariableTable.finds_of_lookup? hfound).mem_locations_iff hunambiguous

theorem references_of_bare {m : VariableMatch} (h : w.variableAt? uri p = some m)
    (hname : bareName m.name = m.name) :
    w.tracker.locations uri m.kind m.name = m.locations := by
  obtain ⟨table, htable, hfound⟩ := finds_of_variableAt? h
  have hlocations := (VariableTable.finds_of_lookup? hfound).locations
  rw [VariableTracker.locations, htable, Option.map_some, Option.getD_some]
  change (table.get? m.kind (bareName m.name)).getD [] = m.locations
  rw [hname, hlocations, Option.getD_some]

theorem KeepsScript.variableAt?_rename {m : VariableMatch} (hw : w.KeepsScript uri)
    (h : w.variableAt? uri p = some m) (hname : bareName m.name = m.name) (new : Text) :
    Workspace.variableAt? { w with tracker := w.tracker.rename uri m.kind m.name new } uri p =
      some { m with name := bareName new } := by
  obtain ⟨table, htable, hfound⟩ := finds_of_variableAt? h
  obtain ⟨d, -, -, -, hunambiguous⟩ := hw table htable
  have hrenamed : (w.tracker.rename uri m.kind m.name new).get? uri =
      some (table.rename m.kind m.name new) := by
    simp [VariableTracker.rename, htable]
  rw [variableAt?, VariableTracker.lookup?, hrenamed, Option.bind_some,
    VariableTable.lookup?_eq_some_iff (hunambiguous.rename _ _ _)]
  exact (VariableTable.finds_of_lookup? hfound).rename new hname

end Workspace

theorem Server.keepsScript_after (history : List Delivery) (uri : Text) :
    (Server.after history).session.workspace.KeepsScript uri := by
  refine Server.workspace_after (fun w => w.KeepsScript uri) ?_ ?_ ?_ history
  · intro table htable
    contradiction
  · exact fun w other e hw => hw.edit other e
  · exact fun game w other p q hw => hw.ask game other p q

/-- A ready server that finds a variable at a position says that it is defined where it first
occurs, and answers a renaming with one edit for each of its locations. If the name that it is known
by has no sigil, its references are these locations too, and after the renaming it is found by the
new name, less up to two sigils. If that name has a sigil, as it has when several are written, the
references do not even contain the location at the position. -/
theorem Server.requests_follow_match (history : List Delivery) (files : FileTree) (uri : Text)
    (p : Position) (newName : Text) (m : VariableMatch)
    (hrunning : (Server.after history).phase = .running)
    (hready : (Server.after history).session.game.isSome = true) (hnew : newName ≠ [])
    (hfound : (Server.after history).session.workspace.variableAt? uri p = some m) :
    ∃ d first found edits,
      (Server.after history).session.workspace.documents.get? uri = some d ∧
        d.language = .markup ∧ m.location ∈ m.locations ∧ m.locations.head? = some first ∧
        ((Server.after history).receive files (.asked uri p .definition)).2.1 =
          some (.answer (some (.definition first))) ∧
        ((Server.after history).receive files (.asked uri p .references)).2.1 =
          some (.answer (some (.references found))) ∧
        (m.location ∈ found ↔ bareName m.name = m.name) ∧
        ((Server.after history).receive files (.asked uri p (.rename newName))).2.1 =
          some (.answer (some (.rename uri edits))) ∧
        edits.map (·.range) = m.locations.map (·.range) ∧
        (bareName m.name = m.name → found = m.locations ∧
          (Server.after (⟨files, .asked uri p (.rename newName)⟩ ::
            history)).session.workspace.variableAt? uri p =
              some { m with name := bareName (bareName newName) }) := by
  have hkeeps := Server.keepsScript_after history uri
  obtain ⟨game, hgame⟩ := Option.isSome_iff_exists.1 hready
  have hreceived : ∀ q, (Server.after history).receive files (.asked uri p q) =
      (⟨.running, ((Server.after history).session.ask uri p q).2⟩,
        some (.answer ((Server.after history).session.ask uri p q).1), []) := by
    intro q
    rw [Server.receive_running hrunning, Server.handle, hrunning]
  obtain ⟨table, htable, hlookup⟩ := Workspace.finds_of_variableAt? hfound
  obtain ⟨d, hd, hlanguage, -, -⟩ := hkeeps table htable
  have hlocation := (VariableTable.finds_of_lookup? hlookup).location
  obtain ⟨first, others, hlocations⟩ := List.exists_cons_of_ne_nil (List.ne_nil_of_mem hlocation)
  have hhead : m.locations.head? = some first := by
    rw [hlocations, List.head?_cons]
  have hrename := Workspace.ask_rename_of_ne_nil game hd hfound hnew
  refine ⟨d, first, _,
    m.locations.map fun location => Workspace.renamed d newName location.range,
    hd, hlanguage, hlocation, hhead, ?_, ?_, hkeeps.mem_references_iff hfound, ?_, ?_,
    fun hname => ⟨Workspace.references_of_bare hfound hname, ?_⟩⟩
  · rw [hreceived, Session.ask_of_game hgame, hkeeps.ask_definition game hfound, hhead]
    rfl
  · rw [hreceived, Session.ask_of_game hgame, Workspace.ask_references game hfound]
  · rw [hreceived, Session.ask_of_game hgame, hrename]
  · rw [List.map_map]
    rfl
  · rw [Server.after, hreceived, Session.ask_of_game hgame, hrename]
    exact hkeeps.variableAt?_rename hfound hname (bareName newName)

theorem smallScript_requests_follow_match :
    (Server.after smallScriptOpened).session.workspace.variableAt? "file:///a.xml".toList ⟨0, 13⟩ =
        some smallScriptMatch ∧
      ∃ d first found edits,
        (Server.after smallScriptOpened).session.workspace.documents.get? "file:///a.xml".toList =
            some d ∧
          d.language = .markup ∧ smallScriptMatch.location ∈ smallScriptMatch.locations ∧
          smallScriptMatch.locations.head? = some first ∧
          ((Server.after smallScriptOpened).receive .empty
              (.asked "file:///a.xml".toList ⟨0, 13⟩ .definition)).2.1 =
            some (.answer (some (.definition first))) ∧
          ((Server.after smallScriptOpened).receive .empty
              (.asked "file:///a.xml".toList ⟨0, 13⟩ .references)).2.1 =
            some (.answer (some (.references found))) ∧
          (smallScriptMatch.location ∈ found ↔
            bareName smallScriptMatch.name = smallScriptMatch.name) ∧
          ((Server.after smallScriptOpened).receive .empty
              (.asked "file:///a.xml".toList ⟨0, 13⟩ (.rename ['d']))).2.1 =
            some (.answer (some (.rename "file:///a.xml".toList edits))) ∧
          edits.map (·.range) = smallScriptMatch.locations.map (·.range) ∧
          (bareName smallScriptMatch.name = smallScriptMatch.name →
            found = smallScriptMatch.locations ∧
              (Server.after (⟨.empty, .asked "file:///a.xml".toList ⟨0, 13⟩ (.rename ['d'])⟩ ::
                smallScriptOpened)).session.workspace.variableAt? "file:///a.xml".toList ⟨0, 13⟩ =
                  some { smallScriptMatch with name := bareName (bareName ['d']) }) := by
  have hfound : (Server.after smallScriptOpened).session.workspace.variableAt?
      "file:///a.xml".toList ⟨0, 13⟩ = some smallScriptMatch := by
    decide +kernel
  exact ⟨hfound, Server.requests_follow_match smallScriptOpened .empty "file:///a.xml".toList
    ⟨0, 13⟩ ['d'] smallScriptMatch (by decide +kernel) (by decide +kernel) (by decide) hfound⟩

def twoSigilsOpened : List Delivery :=
  [⟨.empty, .edited "file:///a.xml".toList
      (.opened .markup "<aiscript><params><param name=\"$$b\"/></params></aiscript>".toList)⟩,
    ⟨.empty, .connected none⟩,
    ⟨.empty, .connect (some folderSettings)⟩]

theorem twoSigils_requests_differ :
    ((Server.after twoSigilsOpened).session.workspace.variableAt? "file:///a.xml".toList
        ⟨0, 32⟩).map (fun m => (m.name, m.locations)) =
        some ("$b".toList, [⟨"file:///a.xml".toList, ⟨⟨0, 31⟩, ⟨0, 34⟩⟩⟩]) ∧
      ((Server.after twoSigilsOpened).receive .empty
          (.asked "file:///a.xml".toList ⟨0, 32⟩ .references)).2.1 =
        some (.answer (some (.references []))) ∧
      ((Server.after (⟨.empty, .asked "file:///a.xml".toList ⟨0, 32⟩ (.rename ['d'])⟩ ::
        twoSigilsOpened)).session.workspace.variableAt? "file:///a.xml".toList ⟨0, 32⟩).map
          (·.name) = some "$b".toList := by
  refine ⟨?_, ?_, ?_⟩ <;> decide +kernel

end ScriptLens
