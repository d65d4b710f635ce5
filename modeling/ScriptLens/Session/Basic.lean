import ScriptLens.Session.Query
import ScriptLens.Settings.Reading

/-!
A session: the settings in force, the game loaded as they say, and the open documents. Whatever
happens in it may also make it send notices to the editor.
-/

namespace ScriptLens

inductive Notice where
  /-- A line for the log. -/
  | log (t : Text)
  /-- An error for the user. -/
  | alert (t : Text)
  /-- The settings are asked for. -/
  | pull
  deriving DecidableEq, Repr

structure Session where
  settings : Settings
  /-- What is loaded; none while settings are missing. -/
  game : Option Game
  workspace : Workspace
  deriving DecidableEq

namespace Session

def new : Session := ⟨.standard, none, .empty⟩

def missingNotice (setting : Setting) : Notice :=
  .alert ("Missing required setting: ".toList ++ setting.key ++
    ". Please update your settings.".toList)

/-- Puts settings into force: loads the game, or forgets it if settings are missing. -/
def configure (tree : FileTree) (s : Session) (settings : Settings) : Session × List Notice :=
  match settings.paths with
  | .ok paths =>
    let game := Game.load tree settings paths
    ({ s with settings, game := some game }, [.log game.summary])
  | .error _ => ({ s with settings, game := none }, settings.missing.map missingNotice)

/-- The settings in a reply to a pull: the first of the values in it. -/
def pulled? : Option Json → Option Json
  | some (.array (.null :: _)) => none
  | some (.array (v :: _)) => some v
  | _ => none

/-- The settings to start with. Those in a reply count only if others are missing. -/
def initialSettings (s : Session) (reply : Option Json) : Settings :=
  if s.settings.missing.isEmpty then s.settings
  else
    match (pulled? reply).map Settings.ofJson with
    | some (.ok settings) => settings
    | _ => s.settings

def greeting : Text := "X4 script language server initialized".toList

/-- The first loading; settings that are missing are asked for. -/
def start (tree : FileTree) (s : Session) (reply : Option Json) : Session × List Notice :=
  let (next, notices) := s.configure tree (s.initialSettings reply)
  (next, .log greeting :: (if s.settings.missing.isEmpty then [] else [.pull]) ++ notices)

/-- Settings come with the news that they have changed, or have to be asked for. Settings that
cannot be read change nothing. -/
def reconfigure (tree : FileTree) (s : Session) (sent : Json) (reply : Option Json) :
    Session × List Notice :=
  let (asked, settings) := match sent with
    | .null => ([Notice.pull], (pulled? reply).getD .null)
    | v => ([], v)
  match Settings.ofJson settings with
  | .ok settings =>
    let (s, notices) := s.configure tree settings
    (s, asked ++ notices)
  | .error e => (s, asked ++ [.alert e.message])

def edit (s : Session) (uri : Text) (e : DocumentEdit) : Session × List Notice :=
  ({ s with workspace := s.workspace.edit uri e },
    match e with
    | .opened _ _ => [.log ("Opened document: ".toList ++ uri)]
    | _ => [])

/-- Without a game there are no answers. -/
def ask (s : Session) (uri : Text) (p : Position) (q : Query) : Option Answer × Session :=
  match s.game with
  | none => (none, s)
  | some game =>
    let (answer, workspace) := s.workspace.ask game uri p q
    (answer, { s with workspace })

end Session

end ScriptLens
