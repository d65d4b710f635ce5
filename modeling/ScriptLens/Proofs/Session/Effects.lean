import ScriptLens.Proofs.Session.Isolation
import ScriptLens.Proofs.Session.Requests

/-!
What requests change. A dialect is told when a document is stored or saved, so no question finds one
to tell: it leaves everything as it was. A renaming moves locations between the names of one kind of
variable in the table of its document, and that is all.
-/

namespace ScriptLens

namespace Workspace

variable {w w' : Workspace} {uri : Text} {log : List DocumentEvent} {p : Position}

theorem Follows.tellDialect_eq {d : Document} (hw : w.Follows uri log)
    (hd : w.documents.get? uri = some d) : (w.tellDialect uri d).2 = w := by
  unfold tellDialect
  by_cases hlanguage : d.language = .markup
  · cases hknown : w.dialects.get? uri with
    | some dialect => simp [hlanguage]
    | none => simp [hlanguage, hw.detect?_eq_none hd hlanguage hknown]
  · simp [hlanguage]

theorem Follows.eq_of_tells (hw : w.Follows uri log) (h : w.Tells uri w') : w' = w := by
  rcases h with rfl | ⟨d, hd, rfl⟩
  · rfl
  · exact hw.tellDialect_eq hd

theorem Follows.ask_eq (hw : w.Follows uri log) (game : Game) {q : Query}
    (hq : ∀ newName, q ≠ .rename newName) : (w.ask game uri p q).2 = w := by
  cases q with
  | completion => exact hw.eq_of_tells (w.tells_completion game p uri)
  | hover => exact hw.eq_of_tells (w.tells_hover game p uri)
  | definition => exact hw.eq_of_tells (w.tells_definition game p uri)
  | references => rfl
  | rename newName => exact absurd rfl (hq newName)

def regroup (w : Workspace) (uri : Text) (table : VariableTable) (kind : VariableKind)
    (names : NameGroups) : Workspace :=
  { w with
    tracker := w.tracker.insert uri { table with groups := table.groups.insert kind names } }

theorem rename_eq_regroup {d : Document} {m : VariableMatch} (newName : Text)
    (hd : w.documents.get? uri = some d) (hfound : w.variableAt? uri p = some m) :
    ∃ table names, w.tracker.get? uri = some table ∧ table.groups.get? m.kind = some names ∧
      (w.rename uri p newName).2 =
        w.regroup uri table m.kind (VariableTable.renameIn names m.name (bareName newName)) := by
  obtain ⟨table, htable, hlookup⟩ := finds_of_variableAt? hfound
  have hlocations := (VariableTable.finds_of_lookup? hlookup).locations
  obtain ⟨names, hnames, -⟩ := Option.bind_eq_some_iff.1 hlocations
  refine ⟨table, names, htable, hnames, ?_⟩
  rw [rename, hd, hfound]
  simp only [VariableTracker.rename, htable, VariableTable.rename, hnames]
  rfl

/-- A renaming changes nothing, or the names of the variables of the kind that it finds. -/
theorem ask_rename_eq (w : Workspace) (game : Game) (uri : Text) (p : Position) (newName : Text) :
    (w.ask game uri p (.rename newName)).2 = w ∨
      ∃ m table names names', w.variableAt? uri p = some m ∧ w.tracker.get? uri = some table ∧
        table.groups.get? m.kind = some names ∧
        (w.ask game uri p (.rename newName)).2 = w.regroup uri table m.kind names' := by
  rw [ask]
  split
  · exact .inl rfl
  cases hd : w.documents.get? uri with
  | none => exact .inl (by simp [rename, hd])
  | some d =>
    cases hfound : w.variableAt? uri p with
    | none => exact .inl (by simp [rename, hd, hfound])
    | some m =>
      obtain ⟨table, names, htable, hnames, hrenamed⟩ := rename_eq_regroup newName hd hfound
      exact .inr ⟨m, table, names, _, rfl, htable, hnames, hrenamed⟩

end Workspace

theorem Session.ask_snd (s : Session) (uri : Text) (p : Position) (q : Query) :
    (s.ask uri p q).2 = s ∨ ∃ game, s.game = some game ∧
      (s.ask uri p q).2 = s.withWorkspace (s.workspace.ask game uri p q).2 := by
  cases hgame : s.game with
  | none => exact .inl (by rw [ask, hgame])
  | some game => exact .inr ⟨game, rfl, by rw [ask_of_game hgame]; rfl⟩

namespace Server

theorem receive_asked (s : Server) (files : FileTree) (uri : Text) (p : Position) (q : Query) :
    (s.receive files (.asked uri p q)).1 = s ∨
      (s.receive files (.asked uri p q)).1 = { s with session := (s.session.ask uri p q).2 } := by
  cases hphase : s.phase with
  | created => exact .inl (by simp [receive, hphase, refuse])
  | running => exact .inr (by rw [receive_running hphase, ← hphase]; rfl)
  | stopped => exact .inl (by simp [receive, hphase, refuse])

/-- Whatever a server was sent, a question about any place leaves it exactly as it was, unless the
question is to rename a variable. A renaming changes nothing but the names of one kind of variable
in the table of its document: those of the variable it finds. -/
theorem requests_change_one_kind (history : List Delivery) (files : FileTree) (uri : Text)
    (p : Position) (q : Query) :
    ((∀ newName, q ≠ .rename newName) →
        ((after history).receive files (.asked uri p q)).1 = after history) ∧
      (((after history).receive files (.asked uri p q)).1 = after history ∨
        ∃ m table names names',
          (after history).session.workspace.variableAt? uri p = some m ∧
            (after history).session.workspace.tracker.get? uri = some table ∧
            table.groups.get? m.kind = some names ∧
            ((after history).receive files (.asked uri p q)).1 =
              (after history).withWorkspace
                ((after history).session.workspace.regroup uri table m.kind names')) := by
  have hfollows := follows_after history uri
  generalize after history = s at hfollows ⊢
  have hquiet : (∀ newName, q ≠ .rename newName) →
      (s.receive files (.asked uri p q)).1 = s := by
    intro hq
    rcases receive_asked s files uri p q with hsame | hasked
    · exact hsame
    rw [hasked]
    rcases s.session.ask_snd uri p q with hsame | ⟨game, -, hsame⟩
    · rw [hsame]
    · rw [hsame, hfollows.ask_eq game hq]
      rfl
  refine ⟨hquiet, ?_⟩
  cases q with
  | rename newName =>
    rcases receive_asked s files uri p (.rename newName) with hsame | hasked
    · exact .inl hsame
    rw [hasked]
    rcases s.session.ask_snd uri p (.rename newName) with hsame | ⟨game, -, hsame⟩
    · rw [hsame]
      exact .inl rfl
    rw [hsame]
    rcases s.session.workspace.ask_rename_eq game uri p newName with
      hsame | ⟨m, table, names, names', hfound, htable, hnames, hrenamed⟩
    · rw [hsame]
      exact .inl rfl
    · rw [hrenamed]
      exact .inr ⟨m, table, names, names', hfound, htable, hnames, rfl⟩
  | _ => exact .inl (hquiet fun _ h => by cases h)

end Server

end ScriptLens
