import ScriptLens.Proofs.Session.Effects

/-!
When a server is ready. It is as the settings say that were applied last: they are kept, and what is
loaded is what they load, or nothing if a path is missing in them. Settings that cannot be read are
never applied. All this is told from what the editor sent (`Server.lastApplied?`).
-/

namespace ScriptLens

def Settings.read? (v : Json) : Option Settings :=
  (Settings.ofJson v).toOption

namespace Message

/-- The value that a message has settings read from, if settings are `kept` already: it comes with
the message, or the editor is asked for it. -/
def offer? (kept : Settings) : Message → Option Json
  | .connect options => options
  | .connected reply => if kept.missing.isEmpty then none else Session.pulled? reply
  | .configured sent reply =>
    match sent with
    | .null => some ((Session.pulled? reply).getD .null)
    | v => some v
  | _ => none

/-- The settings that a running server applies when a message arrives. At the start those that are
kept do if no better ones are offered. -/
def applies? (kept : Settings) (m : Message) : Option Settings :=
  match m with
  | .connected _ => some (((m.offer? kept).bind Settings.read?).getD kept)
  | .configured _ _ => (m.offer? kept).bind Settings.read?
  | _ => none

end Message

namespace Server

/-- The settings that a server keeps: those applied last, or else those of the first message. -/
def kept : List Delivery → Settings
  | [] => .standard
  | delivery :: earlier =>
    match (after earlier).phase, delivery.message with
    | .created, .connect options => (options.bind Settings.read?).getD (kept earlier)
    | .running, m => (m.applies? (kept earlier)).getD (kept earlier)
    | _, _ => kept earlier

/-- The settings that were applied last, and the files as they were then. -/
def lastApplied? : List Delivery → Option (FileTree × Settings)
  | [] => none
  | delivery :: earlier =>
    let applied :=
      if (after earlier).phase = .running then delivery.message.applies? (kept earlier) else none
    (applied.map fun settings => (delivery.tree, settings)).or (lastApplied? earlier)

end Server

/-! One message. -/

/-- What settings load: nothing without both paths. -/
def Game.loaded? (files : FileTree) (settings : Settings) : Option Game :=
  settings.paths.toOption.map (Game.load files settings)

theorem Settings.present?_eq_some_iff {path : Option Text} {t : Text} :
    Settings.present? path = some t ↔ path = some t ∧ t ≠ [] := by
  simp [Settings.present?, Option.filter_eq_some_iff]

theorem Game.loaded?_eq_some_iff {files : FileTree} {settings : Settings} {game : Game} :
    Game.loaded? files settings = some game ↔
      ∃ unpacked extensions,
        (settings.unpackedFileLocation = some unpacked ∧ unpacked ≠ []) ∧
          (settings.extensionsFolder = some extensions ∧ extensions ≠ []) ∧
          game = Game.load files settings ⟨unpacked, extensions⟩ := by
  simp only [← Settings.present?_eq_some_iff, loaded?, Settings.paths]
  cases Settings.present? settings.unpackedFileLocation with
  | none => simp [Except.toOption]
  | some unpacked =>
    cases Settings.present? settings.extensionsFolder with
    | none => simp [Except.toOption]
    | some extensions => simp [Except.toOption, eq_comm]

theorem Game.loaded?_of_missing {settings : Settings} (files : FileTree)
    (h : settings.missing.isEmpty = false) : Game.loaded? files settings = none := by
  unfold Settings.missing at h
  unfold loaded? Settings.paths
  cases hunpacked : Settings.present? settings.unpackedFileLocation with
  | none => rfl
  | some unpacked =>
    cases hextensions : Settings.present? settings.extensionsFolder with
    | none => rfl
    | some extensions => simp [hunpacked, hextensions] at h

namespace Session

def adopt (s : Session) (files : FileTree) (applied : Option Settings) : Session :=
  match applied with
  | some settings => { s with settings, game := Game.loaded? files settings }
  | none => s

variable (files : FileTree) (s : Session)

theorem configure_eq_adopt (settings : Settings) :
    (s.configure files settings).1 = s.adopt files (some settings) := by
  simp only [adopt, configure, Game.loaded?]
  cases settings.paths <;> rfl

theorem initialSettings_eq (reply : Option Json) :
    s.initialSettings reply =
      (((Message.connected reply).offer? s.settings).bind Settings.read?).getD s.settings := by
  unfold initialSettings
  simp only [Message.offer?]
  cases s.settings.missing.isEmpty with
  | true => rfl
  | false =>
    cases pulled? reply with
    | none => rfl
    | some v =>
      simp only [Bool.false_eq_true, if_false, Option.map_some, Option.bind_some, Settings.read?]
      cases Settings.ofJson v <;> rfl

theorem start_eq_adopt (reply : Option Json) :
    (s.start files reply).1 =
      s.adopt files ((Message.connected reply).applies? s.settings) := by
  unfold start
  rw [initialSettings_eq]
  exact configure_eq_adopt files s _

theorem reconfigure_eq_adopt (sent : Json) (reply : Option Json) :
    (s.reconfigure files sent reply).1 =
      s.adopt files ((Message.configured sent reply).applies? s.settings) := by
  cases sent
  all_goals
    simp only [reconfigure, Message.applies?, Message.offer?, Option.bind_some, Settings.read?]
    split
    next settings hread =>
      rw [hread]
      exact configure_eq_adopt files s settings
    next e hread =>
      rw [hread]
      rfl

end Session

namespace Server

variable (files : FileTree) (s : Server)

theorem accept_eq (options : Option Json) :
    s.accept options =
      ⟨.running,
        { s.session with
          settings := (options.bind Settings.read?).getD s.session.settings }⟩ := by
  unfold accept
  cases options with
  | none => rfl
  | some v =>
    simp only [Option.map_some, Option.bind_some, Settings.read?]
    cases Settings.ofJson v <;> rfl

/-- A message changes nothing of a running session but the documents, and the settings if it makes
the server apply some. -/
theorem session_handle (m : Message) :
    ∃ w, (s.handle files m).1.session =
      (s.session.withWorkspace w).adopt files (m.applies? s.session.settings) := by
  cases m with
  | connect options => exact ⟨_, rfl⟩
  | connected reply =>
    refine ⟨s.session.workspace, ?_⟩
    exact Session.start_eq_adopt files s.session reply
  | configured sent reply =>
    refine ⟨s.session.workspace, ?_⟩
    exact Session.reconfigure_eq_adopt files s.session sent reply
  | edited uri e => exact ⟨_, rfl⟩
  | asked uri p q =>
    change ∃ w, (s.session.ask uri p q).2 = s.session.withWorkspace w
    rcases s.session.ask_snd uri p q with hsame | ⟨game, -, hasked⟩
    · exact ⟨s.session.workspace, hsame⟩
    · exact ⟨_, hasked⟩
  | shutdown => exact ⟨_, rfl⟩

/-! A whole history. -/

variable {delivery : Delivery} {earlier : List Delivery}

theorem kept_of_running (delivery : Delivery) (h : (after earlier).phase = .running) :
    kept (delivery :: earlier) =
      (delivery.message.applies? (kept earlier)).getD (kept earlier) := by
  rw [kept, h]

theorem lastApplied?_of_running (delivery : Delivery)
    (h : (after earlier).phase = .running) :
    lastApplied? (delivery :: earlier) =
      ((delivery.message.applies? (kept earlier)).map fun settings =>
        (delivery.tree, settings)).or (lastApplied? earlier) := by
  rw [lastApplied?, if_pos h]

theorem lastApplied?_of_not_running (delivery : Delivery)
    (h : (after earlier).phase ≠ .running) :
    lastApplied? (delivery :: earlier) = lastApplied? earlier := by
  rw [lastApplied?, if_neg h]
  rfl

/-- What a server keeps and has loaded, told by what it applied. -/
structure InForce (history : List Delivery) : Prop where
  settings : (after history).session.settings = kept history
  game : (after history).session.game =
    (lastApplied? history).bind fun (files, settings) => Game.loaded? files settings
  latest : ∀ files settings, lastApplied? history = some (files, settings) →
    kept history = settings
  created : (after history).phase = .created → lastApplied? history = none

theorem phase_handle (s : Server) (files : FileTree) (m : Message) :
    (s.handle files m).1.phase = s.phase ∨ (s.handle files m).1.phase = .stopped := by
  cases m <;> first | exact .inl rfl | exact .inr rfl

theorem InForce.running (h : InForce earlier) (hrunning : (after earlier).phase = .running) :
    InForce (delivery :: earlier) := by
  obtain ⟨files, m⟩ := delivery
  have hafter : after (⟨files, m⟩ :: earlier) = ((after earlier).handle files m).1 := by
    rw [after, receive_running hrunning]
  obtain ⟨w, hsession⟩ := session_handle files (after earlier) m
  rw [h.settings] at hsession
  have hphase := phase_handle (after earlier) files m
  rw [hrunning] at hphase
  have hkept := kept_of_running ⟨files, m⟩ hrunning
  have hlast := lastApplied?_of_running ⟨files, m⟩ hrunning
  refine ⟨?_, ?_, ?_, fun hcreated => ?_⟩
  · rw [hafter, hsession, hkept]
    cases m.applies? (kept earlier) with
    | none => exact h.settings
    | some settings => rfl
  · rw [hafter, hsession, hlast]
    cases m.applies? (kept earlier) with
    | none => exact h.game
    | some settings => rfl
  · rw [hkept, hlast]
    cases m.applies? (kept earlier) with
    | none => exact h.latest
    | some applied =>
      intro files' settings happlied
      cases happlied
      rfl
  · rw [hafter] at hcreated
    rw [hcreated] at hphase
    simp at hphase

theorem InForce.refused (h : InForce earlier) (hafter : after (delivery :: earlier) = after earlier)
    (hkept : kept (delivery :: earlier) = kept earlier)
    (hnot : (after earlier).phase ≠ .running) : InForce (delivery :: earlier) := by
  have hlast := lastApplied?_of_not_running delivery hnot
  obtain ⟨hsettings, hgame, hlatest, hcreated⟩ := h
  exact ⟨by rw [hafter, hkept, hsettings], by rw [hafter, hlast, hgame], by rwa [hkept, hlast],
    by rwa [hafter, hlast]⟩

/-- The first message is no reason to apply its settings. -/
theorem InForce.connected (h : InForce earlier) (hcreated : (after earlier).phase = .created)
    (files : FileTree) (options : Option Json) :
    InForce (⟨files, .connect options⟩ :: earlier) := by
  have hnone := h.created hcreated
  have hnot : (after earlier).phase ≠ .running := by
    rw [hcreated]
    decide
  have hlast := lastApplied?_of_not_running ⟨files, .connect options⟩ hnot
  rw [hnone] at hlast
  have hafter : after (⟨files, .connect options⟩ :: earlier) = (after earlier).accept options := by
    rw [after]
    unfold receive
    rw [hcreated]
  have hgame := h.game
  rw [hnone] at hgame
  refine ⟨?_, ?_, ?_, fun _ => hlast⟩
  · rw [hafter, accept_eq, kept, hcreated, h.settings]
  · rw [hafter, accept_eq, hlast, hgame]
  · rw [hlast]
    intro files settings happlied
    cases happlied

theorem inForce_after (history : List Delivery) : InForce history := by
  induction history with
  | nil =>
    refine ⟨rfl, rfl, fun files settings h => ?_, fun _ => rfl⟩
    cases h
  | cons delivery earlier ih =>
    obtain ⟨files, m⟩ := delivery
    cases hphase : (after earlier).phase with
    | running => exact ih.running hphase
    | created =>
      have hnot : (after earlier).phase ≠ .running := by simp [hphase]
      cases m with
      | connect options => exact ih.connected hphase files options
      | _ =>
        refine ih.refused ?_ (by rw [kept, hphase]) hnot
        rw [after]
        unfold receive
        rw [hphase]
        rfl
    | stopped =>
      refine ih.refused ?_ (by rw [kept, hphase]) (by simp [hphase])
      rw [after]
      unfold receive
      rw [hphase]
      rfl

theorem InForce.session_of_unreadable {history : List Delivery} (h : InForce history)
    {m : Message} {v : Json} (hoffer : m.offer? (kept history) = some v)
    (hread : Settings.read? v = none) (files : FileTree) :
    ((after history).receive files m).1.session = (after history).session := by
  unfold receive
  cases hphase : (after history).phase with
  | created =>
    cases m with
    | connect options =>
      obtain rfl : options = some v := hoffer
      simp [accept_eq, hread]
    | _ => rfl
  | stopped => rfl
  | running =>
    cases m with
    | connected reply =>
      -- The editor is asked for settings only if nothing is loaded, and those kept load nothing.
      have hmissing : (kept history).missing.isEmpty = false := by
        cases hset : (kept history).missing.isEmpty with
        | false => rfl
        | true =>
          rw [Message.offer?, hset] at hoffer
          cases hoffer
      have hgame : (after history).session.game = none := by
        rw [h.game]
        cases hlast : lastApplied? history with
        | none => rfl
        | some applied =>
          rw [h.latest applied.1 applied.2 hlast] at hmissing
          exact Game.loaded?_of_missing applied.1 hmissing
      have happlies : (Message.connected reply).applies? (kept history) = some (kept history) := by
        rw [Message.applies?, hoffer, Option.bind_some, hread, Option.getD_none]
      change ((after history).session.start files reply).1 = _
      rw [Session.start_eq_adopt, h.settings, happlies, Session.adopt,
        Game.loaded?_of_missing files hmissing, ← hgame, ← h.settings]
    | configured sent reply =>
      change ((after history).session.reconfigure files sent reply).1 = _
      rw [Session.reconfigure_eq_adopt, h.settings, Message.applies?, hoffer, Option.bind_some,
        hread, Session.adopt]
    | connect options => rfl
    | _ => cases hoffer

/-- A server has a game exactly if the settings that it applied last name both paths, and the game
is all that these settings load. Settings that cannot be read have no effect. Without a game every
question is answered with nothing, and changes nothing. -/
theorem ready_as_last_applied (history : List Delivery) :
    (∀ game, (after history).session.game = some game ↔
        ∃ files settings unpacked extensions, lastApplied? history = some (files, settings) ∧
          (settings.unpackedFileLocation = some unpacked ∧ unpacked ≠ []) ∧
          (settings.extensionsFolder = some extensions ∧ extensions ≠ []) ∧
          game = Game.load files settings ⟨unpacked, extensions⟩) ∧
      (after history).session.settings = kept history ∧
      (∀ files m v e, m.offer? (kept history) = some v → Settings.ofJson v = .error e →
        ((after history).receive files m).1.session = (after history).session) ∧
      ((after history).session.game = none → ∀ files uri p q,
        ((after history).receive files (.asked uri p q)).1 = after history ∧
          ((after history).phase = .running →
            ((after history).receive files (.asked uri p q)).2 = (some (.answer none), []))) := by
  have hinForce := inForce_after history
  refine ⟨fun game => ?_, hinForce.settings, ?_, ?_⟩
  · simp only [hinForce.game, Option.bind_eq_some_iff, Prod.exists, Game.loaded?_eq_some_iff,
      exists_and_left]
  · intro files m v e hoffer herror
    refine hinForce.session_of_unreadable hoffer ?_ files
    rw [Settings.read?, herror]
    rfl
  · intro hnone files uri p q
    have hask : (after history).session.ask uri p q = (none, (after history).session) := by
      rw [Session.ask, hnone]
    constructor
    · rcases receive_asked (after history) files uri p q with hsame | hasked
      · exact hsame
      · rw [hasked, hask]
    · intro hrunning
      rw [receive_running hrunning, handle, hask]

end Server

end ScriptLens
