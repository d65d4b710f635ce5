import ScriptLens.Proofs.Session.Renaming

/-!
Documents do not interfere. What a server keeps for one document, and all that it says about it, is
the same if the messages about other documents are left out (`Server.documents_isolated`); and a
document that is opened is kept as in a session that has just begun.
-/

namespace ScriptLens

namespace Workspace

variable {w w' w'' : Workspace} {uri other : Text}

theorem Agrees.symm (h : w.Agrees w' uri) : w'.Agrees w uri :=
  ⟨h.documents.symm, h.dialects.symm, h.tracker.symm⟩

theorem Agrees.trans (h : w.Agrees w' uri) (h' : w'.Agrees w'' uri) : w.Agrees w'' uri :=
  ⟨h'.documents.trans h.documents, h'.dialects.trans h.dialects, h'.tracker.trans h.tracker⟩

/-! Edits of a document depend on nothing but what is kept for it. -/

theorem Agrees.tellDialect (h : w.Agrees w' uri) (d : Document) :
    (w'.tellDialect uri d).1 = (w.tellDialect uri d).1 ∧
      (w.tellDialect uri d).2.Agrees (w'.tellDialect uri d).2 uri := by
  obtain ⟨hdocuments, htracker⟩ := tellDialect_snd w uri d
  obtain ⟨hdocuments', htracker'⟩ := tellDialect_snd w' uri d
  refine ⟨?_, ?_, ?_, ?_⟩
  · rw [tellDialect_fst, tellDialect_fst, h.dialects]
  · rw [hdocuments, hdocuments', h.documents]
  · rw [get?_dialects_tellDialect, get?_dialects_tellDialect, h.dialects]
  · rw [htracker, htracker', h.tracker]

/-- A stored document is analysed whatever its table was. -/
theorem agrees_analyze_of_stored {d : Document} (hd : w.documents.get? uri = some d)
    (hd' : w'.documents.get? uri = some d)
    (hdialects : w'.dialects.get? uri = w.dialects.get? uri) :
    (w.analyze uri).Agrees (w'.analyze uri) uri := by
  constructor
  · rw [get?_documents_analyze, get?_documents_analyze, hd, hd']
  · rw [get?_dialects_analyze hd, get?_dialects_analyze hd', get?_dialects_tellDialect,
      get?_dialects_tellDialect, hdialects]
  · rw [get?_tracker_analyze hd, get?_tracker_analyze hd', tellDialect_fst, tellDialect_fst,
      hdialects]

theorem Agrees.analyze (h : w.Agrees w' uri) : (w.analyze uri).Agrees (w'.analyze uri) uri := by
  cases hd : w.documents.get? uri with
  | none =>
    have hd' := h.documents
    rw [hd] at hd'
    rwa [Workspace.analyze, Workspace.analyze, hd, hd']
  | some d => exact agrees_analyze_of_stored hd (h.documents.trans hd) h.dialects

theorem Agrees.store (h : w.Agrees w' uri) (language : Option Language) (t : Text) :
    (w.store uri language t).Agrees (w'.store uri language t) uri := by
  refine ⟨?_, h.dialects, h.tracker⟩
  simp [Workspace.store, h.documents]

theorem agrees_opened (w w' : Workspace) (uri : Text) (language : Language) (t : Text) :
    (w.edit uri (.opened language t)).Agrees (w'.edit uri (.opened language t)) uri := by
  have hstored : ∀ w : Workspace,
      ((w.store uri (some language) t).forgetDialect uri).documents.get? uri =
        some ⟨t, language⟩ := by
    intro w
    simp [store, forgetDialect]
  exact agrees_analyze_of_stored (hstored w) (hstored w') (by simp [forgetDialect])

theorem Agrees.edit (h : w.Agrees w' uri) (e : DocumentEdit) :
    (w.edit uri e).Agrees (w'.edit uri e) uri := by
  cases e with
  | opened language t => exact agrees_opened w w' uri language t
  | changed texts =>
    rw [Workspace.edit, Workspace.edit]
    cases texts.getLast? with
    | none => exact h
    | some t => exact (h.store none t).analyze
  | saved text =>
    cases text with
    | none => exact h.analyze
    | some t => exact (h.store none t).analyze
  | closed => constructor <;> simp [Workspace.edit, forget, VariableTracker.clear]

/-! So do questions about it. -/

section Questions

variable (game : Game) (p : Position)

theorem Agrees.variableAt? (h : w.Agrees w' uri) : w'.variableAt? uri p = w.variableAt? uri p := by
  rw [Workspace.variableAt?, Workspace.variableAt?, VariableTracker.lookup?, VariableTracker.lookup?,
    h.tracker]

def SameAnswer {α : Type} (uri : Text) (r r' : Option α × Workspace) : Prop :=
  r'.1 = r.1 ∧ r.2.Agrees r'.2 uri

theorem SameAnswer.map {α β : Type} {r r' : Option α × Workspace} (h : SameAnswer uri r r')
    (f : α → β) :
    SameAnswer uri (Prod.map (Option.map f) id r) (Prod.map (Option.map f) id r') := by
  refine ⟨?_, h.2⟩
  rw [Prod.map_fst, Prod.map_fst, h.1]

theorem Agrees.completion (h : w.Agrees w' uri) :
    SameAnswer uri (w.completion game uri p) (w'.completion game uri p) := by
  unfold Workspace.completion
  rw [h.documents]
  cases w.documents.get? uri with
  | none => exact ⟨rfl, h⟩
  | some d =>
    obtain ⟨htold, hagrees⟩ := h.tellDialect d
    obtain ⟨text, language⟩ := d
    cases language with
    | markup => exact ⟨by simp only [htold], hagrees⟩
    | lua => exact ⟨rfl, h⟩
    | other => exact ⟨rfl, h⟩

theorem Agrees.hover (h : w.Agrees w' uri) :
    SameAnswer uri (w.hover game uri p) (w'.hover game uri p) := by
  unfold Workspace.hover
  rw [h.documents]
  cases w.documents.get? uri with
  | none => exact ⟨rfl, h⟩
  | some d =>
    obtain ⟨htold, hagrees⟩ := h.tellDialect d
    obtain ⟨text, language⟩ := d
    cases language with
    | markup => exact ⟨by simp only [htold, hagrees.variableAt? p], hagrees⟩
    | lua => exact ⟨rfl, h⟩
    | other => exact ⟨rfl, h⟩

theorem Agrees.definition (h : w.Agrees w' uri) :
    SameAnswer uri (w.definition game uri p) (w'.definition game uri p) := by
  unfold Workspace.definition
  rw [h.documents]
  cases w.documents.get? uri with
  | none => exact ⟨rfl, h⟩
  | some d =>
    obtain ⟨htold, hagrees⟩ := h.tellDialect d
    exact ⟨by simp only [htold, hagrees.variableAt? p], hagrees⟩

theorem Agrees.references? (h : w.Agrees w' uri) :
    w'.references? uri p = w.references? uri p := by
  simp only [Workspace.references?, h.variableAt? p, VariableTracker.locations, h.tracker]

theorem Agrees.rename (h : w.Agrees w' uri) (newName : Text) :
    SameAnswer uri (w.rename uri p newName) (w'.rename uri p newName) := by
  unfold Workspace.rename
  rw [h.documents, h.variableAt? p]
  cases w.documents.get? uri with
  | none => exact ⟨rfl, h⟩
  | some d =>
    cases w.variableAt? uri p with
    | none => exact ⟨rfl, h⟩
    | some m =>
      refine ⟨rfl, h.documents, h.dialects, ?_⟩
      have htracker := h.tracker
      simp only [VariableTracker.rename, htracker]
      cases hheld : w.tracker.get? uri with
      | none => simpa only [hheld] using htracker
      | some table => simp

theorem Agrees.ask (h : w.Agrees w' uri) (q : Query) :
    SameAnswer uri (w.ask game uri p q) (w'.ask game uri p q) := by
  cases q with
  | completion => exact (h.completion game p).map _
  | hover => exact (h.hover game p).map _
  | definition => exact (h.definition game p).map _
  | references => exact ⟨by simp only [Workspace.ask, h.references? p], h⟩
  | rename newName =>
    unfold Workspace.ask
    by_cases hempty : newName.isEmpty = true
    · simp only [hempty, if_true]
      exact ⟨rfl, h⟩
    · simp only [hempty]
      exact (h.rename p newName).map _

end Questions

end Workspace

/-! Whole runs. -/

def Message.concerns (uri : Text) : Message → Bool
  | .edited uri' _ => uri' = uri
  | .asked uri' _ _ => uri' = uri
  | _ => true

def concerning (uri : Text) (history : List Delivery) : List Delivery :=
  history.filter fun delivery => delivery.message.concerns uri

/-! Settings do not touch the documents. -/

def Session.withWorkspace (s : Session) (w : Workspace) : Session :=
  { s with workspace := w }

namespace Session

variable (tree : FileTree) (s : Session) (w : Workspace)

theorem configure_withWorkspace (settings : Settings) :
    (s.withWorkspace w).configure tree settings =
      ((s.configure tree settings).1.withWorkspace w, (s.configure tree settings).2) := by
  unfold configure
  split <;> rfl

theorem start_withWorkspace (reply : Option Json) :
    (s.withWorkspace w).start tree reply =
      ((s.start tree reply).1.withWorkspace w, (s.start tree reply).2) := by
  have hinitial : (s.withWorkspace w).initialSettings reply = s.initialSettings reply := rfl
  unfold start
  rw [hinitial, configure_withWorkspace]
  rfl

theorem reconfigure_withWorkspace (sent : Json) (reply : Option Json) :
    (s.withWorkspace w).reconfigure tree sent reply =
      ((s.reconfigure tree sent reply).1.withWorkspace w, (s.reconfigure tree sent reply).2) := by
  unfold reconfigure
  simp only [configure_withWorkspace]
  split <;> rfl

end Session

namespace Server

/-- What a server sends back to those messages, the latest first. -/
def replies (uri : Text) : List Delivery → List (Option Response × List Notice)
  | [] => []
  | delivery :: earlier =>
    if delivery.message.concerns uri then
      ((after earlier).receive delivery.tree delivery.message).2 :: replies uri earlier
    else replies uri earlier

structure Agrees (s s' : Server) (uri : Text) : Prop where
  phase : s'.phase = s.phase
  settings : s'.session.settings = s.session.settings
  game : s'.session.game = s.session.game
  workspace : s.session.workspace.Agrees s'.session.workspace uri

def withWorkspace (s : Server) (w : Workspace) : Server :=
  { s with session := s.session.withWorkspace w }

variable {s s' : Server} {uri : Text} {m : Message}

theorem Agrees.refl (s : Server) (uri : Text) : s.Agrees s uri :=
  ⟨rfl, rfl, rfl, .refl _ uri⟩

theorem Agrees.symm (h : s.Agrees s' uri) : s'.Agrees s uri :=
  ⟨h.phase.symm, h.settings.symm, h.game.symm, h.workspace.symm⟩

theorem Agrees.trans {s'' : Server} (h : s.Agrees s' uri) (h' : s'.Agrees s'' uri) :
    s.Agrees s'' uri :=
  ⟨h'.phase.trans h.phase, h'.settings.trans h.settings, h'.game.trans h.game,
    h.workspace.trans h'.workspace⟩

theorem agrees_receive (hm : m.concerns uri = false) (s : Server) (tree : FileTree) :
    s.Agrees (s.receive tree m).1 uri := by
  unfold receive
  cases s.phase with
  | created => cases m <;> first | exact .refl s uri | contradiction
  | stopped => exact .refl s uri
  | running =>
    cases m with
    | edited other e =>
      have hne : other ≠ uri := by simpa [Message.concerns] using hm
      exact ⟨rfl, rfl, rfl, Workspace.agrees_edit hne _ e⟩
    | asked other p q =>
      have hne : other ≠ uri := by simpa [Message.concerns] using hm
      change s.Agrees { s with session := (s.session.ask other p q).2 } uri
      cases hgame : s.session.game with
      | none =>
        rw [Session.ask, hgame]
        exact .refl s uri
      | some game =>
        rw [Session.ask_of_game hgame]
        exact ⟨rfl, rfl, rfl, Workspace.agrees_ask game p hne _ q⟩
    | _ => contradiction

theorem Agrees.exists_workspace (h : s.Agrees s' uri) :
    ∃ w, s.session.workspace.Agrees w uri ∧ s' = s.withWorkspace w := by
  obtain ⟨phase, settings, game, w⟩ := s
  obtain ⟨phase', settings', game', w'⟩ := s'
  obtain ⟨rfl, rfl, rfl, hw⟩ := h
  exact ⟨w', hw, rfl⟩

theorem agrees_withWorkspace {w : Workspace} (h : s.session.workspace.Agrees w uri) :
    s.Agrees (s.withWorkspace w) uri :=
  ⟨rfl, rfl, rfl, h⟩

/-- What is sent back to any other message, and what the message leads to, depends on no other
document. -/
theorem Agrees.handle (h : s.Agrees s' uri) (hm : m.concerns uri = true) (tree : FileTree) :
    (s.handle tree m).1.Agrees (s'.handle tree m).1 uri ∧
      (s'.handle tree m).2 = (s.handle tree m).2 := by
  obtain ⟨w, hw, rfl⟩ := h.exists_workspace
  cases m with
  | connect options => exact ⟨h, rfl⟩
  | connected reply =>
    have hstart := Session.start_withWorkspace tree s.session w reply
    rw [Server.handle, Server.handle, withWorkspace, hstart]
    refine ⟨agrees_withWorkspace (s := { s with session := (s.session.start tree reply).1 }) ?_, rfl⟩
    rw [Session.workspace_start]
    exact hw
  | configured settings reply =>
    have hstart := Session.reconfigure_withWorkspace tree s.session w settings reply
    rw [Server.handle, Server.handle, withWorkspace, hstart]
    refine ⟨agrees_withWorkspace
      (s := { s with session := (s.session.reconfigure tree settings reply).1 }) ?_, rfl⟩
    rw [Session.workspace_reconfigure]
    exact hw
  | edited other e =>
    obtain rfl : other = uri := by simpa [Message.concerns] using hm
    exact ⟨⟨rfl, rfl, rfl, hw.edit e⟩, rfl⟩
  | asked other p q =>
    obtain rfl : other = uri := by simpa [Message.concerns] using hm
    rw [Server.handle, Server.handle]
    cases hgame : s.session.game with
    | none =>
      have hgame' : (s.withWorkspace w).session.game = none := hgame
      rw [Session.ask, Session.ask, hgame, hgame']
      exact ⟨h, rfl⟩
    | some game =>
      have hgame' : (s.withWorkspace w).session.game = some game := hgame
      obtain ⟨hanswer, hagrees⟩ := hw.ask game p q
      rw [Session.ask_of_game hgame, Session.ask_of_game hgame']
      exact ⟨⟨rfl, rfl, rfl, hagrees⟩, congrArg (fun a => (some (Response.answer a), [])) hanswer⟩
  | shutdown => exact ⟨⟨rfl, rfl, rfl, hw⟩, rfl⟩

theorem Agrees.receive (h : s.Agrees s' uri) (hm : m.concerns uri = true) (tree : FileTree) :
    (s.receive tree m).1.Agrees (s'.receive tree m).1 uri ∧
      (s'.receive tree m).2 = (s.receive tree m).2 := by
  obtain ⟨w, hw, rfl⟩ := h.exists_workspace
  obtain ⟨phase, session⟩ := s
  cases phase with
  | created =>
    cases m <;> try exact ⟨h, rfl⟩
    next options =>
      refine ⟨?_, rfl⟩
      change Agrees (accept ⟨.created, session⟩ options)
        (accept ⟨.created, session.withWorkspace w⟩ options) uri
      unfold accept
      split <;> exact ⟨rfl, rfl, rfl, hw⟩
  | running => exact h.handle hm tree
  | stopped => exact ⟨h, rfl⟩

theorem agrees_after_concerning (uri : Text) (history : List Delivery) :
    (after history).Agrees (after (concerning uri history)) uri ∧
      replies uri (concerning uri history) = replies uri history := by
  induction history with
  | nil => exact ⟨.refl _ uri, rfl⟩
  | cons delivery earlier ih =>
    obtain ⟨hagrees, hreplies⟩ := ih
    cases hm : delivery.message.concerns uri with
    | false =>
      have hkept : concerning uri (delivery :: earlier) = concerning uri earlier := by
        simp [concerning, hm]
      refine ⟨?_, by rw [hkept, hreplies, replies, if_neg (by simp [hm])]⟩
      rw [hkept]
      exact (agrees_receive hm (after earlier) delivery.tree).symm.trans hagrees
    | true =>
      have hkept : concerning uri (delivery :: earlier) =
          delivery :: concerning uri earlier := by
        simp [concerning, hm]
      obtain ⟨hnext, hreply⟩ := hagrees.receive hm delivery.tree
      rw [hkept]
      refine ⟨hnext, ?_⟩
      rw [replies, replies, if_pos hm, if_pos hm, hreply, hreplies]

theorem phase_accept (s : Server) (options : Option Json) : (s.accept options).phase = .running := by
  unfold accept
  split <;> rfl

/-- What a server keeps for a document, and what it sends back to messages about the document, does
not depend on the messages about other documents. And if a document is opened, it is kept from then
on as in a session that began with it, whatever came before. -/
theorem documents_isolated (history : List Delivery) (uri : Text) :
    (after history).session.workspace.Agrees
        (after (concerning uri history)).session.workspace uri ∧
      replies uri (concerning uri history) = replies uri history ∧
      ∀ (files files' files₁ files₂ : FileTree) (options reply : Option Json)
          (language : Language) (t : Text),
        (after history).phase = .running →
          (after (⟨files, .edited uri (.opened language t)⟩ :: history)).session.workspace.Agrees
            (after [⟨files', .edited uri (.opened language t)⟩, ⟨files₁, .connected reply⟩,
              ⟨files₂, .connect options⟩]).session.workspace uri := by
  obtain ⟨hagrees, hreplies⟩ := agrees_after_concerning uri history
  refine ⟨hagrees.workspace, hreplies, ?_⟩
  intro files files' files₁ files₂ options reply language t hrunning
  have hopened : ∀ (history : List Delivery) (files : FileTree), (after history).phase = .running →
      (after (⟨files, .edited uri (.opened language t)⟩ :: history)).session.workspace =
        (after history).session.workspace.edit uri (.opened language t) := by
    intro history files hrunning
    rw [after, receive_running hrunning]
    rfl
  have hfresh : (after [⟨files₁, .connected reply⟩, ⟨files₂, .connect options⟩]).phase =
      .running := by
    have haccepted := phase_accept .new options
    change ((accept .new options).receive files₁ (.connected reply)).1.phase = .running
    rw [receive_running haccepted]
    exact haccepted
  rw [hopened history files hrunning, hopened _ files' hfresh]
  exact Workspace.agrees_opened _ _ uri language t

def twoScriptsOpened : List Delivery :=
  [⟨.empty, .asked "file:///a.xml".toList ⟨0, 13⟩ (.rename ['c'])⟩,
    ⟨.empty, .edited "file:///b.xml".toList (.opened .markup "<mdscript b=\"$b\"/>".toList)⟩,
    ⟨.empty, .edited "file:///a.xml".toList (.opened .markup "<aiscript a=\"$b\"/>".toList)⟩,
    ⟨.empty, .connected none⟩,
    ⟨.empty, .connect (some folderSettings)⟩]

theorem twoScripts_isolated :
    (after twoScriptsOpened).phase = .running ∧
      (after (⟨.empty, .edited "file:///a.xml".toList
        (.opened .markup "<mdscript a=\"$d\"/>".toList)⟩ ::
          twoScriptsOpened)).session.workspace.Agrees
        (after [⟨.empty, .edited "file:///a.xml".toList
            (.opened .markup "<mdscript a=\"$d\"/>".toList)⟩, ⟨.empty, .connected none⟩,
          ⟨.empty, .connect none⟩]).session.workspace "file:///a.xml".toList := by
  have hrunning : (after twoScriptsOpened).phase = .running := by
    decide +kernel
  obtain ⟨-, -, hopened⟩ := documents_isolated twoScriptsOpened "file:///a.xml".toList
  exact ⟨hrunning, hopened .empty .empty .empty .empty none none .markup
    "<mdscript a=\"$d\"/>".toList hrunning⟩

end Server

end ScriptLens
