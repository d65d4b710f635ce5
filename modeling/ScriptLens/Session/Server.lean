import ScriptLens.Session.Basic

/-!
The server that an editor talks to. It must be connected before anything else and answers nothing
once it is shut down; in between, every message goes to its session.
-/

namespace ScriptLens

/-- What an editor sends. A reply is its answer to the pull that a message leads to, if it has
one. -/
inductive Message where
  /-- The first message, with settings if the editor has some ready. -/
  | connect (options : Option Json)
  /-- The editor has seen what the server can do. -/
  | connected (reply : Option Json)
  | configured (settings : Json) (reply : Option Json)
  | edited (uri : Text) (e : DocumentEdit)
  | asked (uri : Text) (p : Position) (q : Query)
  | shutdown

namespace Message

def isRequest : Message → Bool
  | .connect _ => true
  | .asked _ _ _ => true
  | .shutdown => true
  | _ => false

end Message

inductive Refusal where
  | notInitialized
  | invalidRequest
  deriving DecidableEq, Repr

namespace Refusal

def code : Refusal → Int
  | .notInitialized => -32002
  | .invalidRequest => -32600

def message : Refusal → Text
  | .notInitialized => "Server not initialized".toList
  | .invalidRequest => "Invalid request".toList

end Refusal

inductive Response where
  /-- What the server can do. -/
  | capabilities
  | answer (a : Option Answer)
  | done
  | refused (r : Refusal)
  deriving DecidableEq, Repr

inductive Phase where
  | created
  | running
  | stopped
  deriving DecidableEq, Repr

structure Server where
  phase : Phase
  session : Session
  deriving DecidableEq

namespace Server

def name : Text := "x4-script-lsp".toList

def version : Text := "0.1.0".toList

def completionTriggers : List Text := [['.'], ['"'], ['\x7b']]

def new : Server := ⟨.created, .new⟩

/-- A refused message has no effect, and one without a response is dropped. -/
def refuse (s : Server) (m : Message) (r : Refusal) : Server × Option Response × List Notice :=
  (s, if m.isRequest then some (.refused r) else none, [])

/-- Settings that come with the first message are kept if they can be read. -/
def accept (s : Server) (options : Option Json) : Server :=
  match options.map Settings.ofJson with
  | some (.ok settings) => ⟨.running, { s.session with settings }⟩
  | _ => { s with phase := .running }

def handle (tree : FileTree) (s : Server) : Message → Server × Option Response × List Notice
  | .connect options => s.refuse (.connect options) .invalidRequest
  | .connected reply =>
    let (session, notices) := s.session.start tree reply
    ({ s with session }, none, notices)
  | .configured settings reply =>
    let (session, notices) := s.session.reconfigure tree settings reply
    ({ s with session }, none, notices)
  | .edited uri e =>
    let (session, notices) := s.session.edit uri e
    ({ s with session }, none, notices)
  | .asked uri p q =>
    let (answer, session) := s.session.ask uri p q
    ({ s with session }, some (.answer answer), [])
  | .shutdown => ({ s with phase := .stopped }, some .done, [])

def receive (tree : FileTree) (s : Server) (m : Message) : Server × Option Response × List Notice :=
  match s.phase, m with
  | .created, .connect options => (s.accept options, some .capabilities, [])
  | .created, m => s.refuse m .notInitialized
  | .running, m => s.handle tree m
  | .stopped, m => s.refuse m .invalidRequest

end Server

end ScriptLens
