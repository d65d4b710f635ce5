import ScriptLens.Session.Server

/-!
What a server has been through, and what of it concerns one document: the edits of the document and
the renamings of its variables that had an effect. Everything is listed with the latest first.
-/

namespace ScriptLens

/-- A message, and the files as they are when it arrives. -/
structure Delivery where
  tree : FileTree
  message : Message

def Server.after : List Delivery → Server
  | [] => .new
  | delivery :: earlier => ((after earlier).receive delivery.tree delivery.message).1

inductive DocumentEvent where
  | edited (e : DocumentEdit)
  /-- A request to rename a variable was answered with edits. -/
  | renamed
  deriving DecidableEq, Repr

def Query.event? (q : Query) (answer : Option Answer) : Option DocumentEvent :=
  match q, answer with
  | .rename _, some _ => some .renamed
  | _, _ => none

def Session.event? (s : Session) (uri : Text) : Message → Option DocumentEvent
  | .edited uri' e => if uri' = uri then some (.edited e) else none
  | .asked uri' p q => if uri' = uri then q.event? (s.ask uri' p q).1 else none
  | _ => none

/-- What happened to a document. A server that is not running drops what it is sent. -/
def Server.log (uri : Text) : List Delivery → List DocumentEvent
  | [] => []
  | delivery :: earlier =>
    let s := Server.after earlier
    if s.phase = .running then
      (s.session.event? uri delivery.message).toList ++ log uri earlier
    else log uri earlier

namespace DocumentEvent

/-- The texts that a document has had since it was last opened or closed. -/
def texts : List DocumentEvent → List Text
  | [] => []
  | .edited (.opened _ text) :: _ => [text]
  | .edited (.changed changes) :: earlier => changes.getLast?.toList ++ texts earlier
  | .edited (.saved text) :: earlier => text.toList ++ texts earlier
  | .edited .closed :: _ => []
  | .renamed :: earlier => texts earlier

def firstDialect? (log : List DocumentEvent) : Option Dialect :=
  (texts log).reverse.findSome? Dialect.detect?

/-- No renaming came after the latest edit that counts. -/
def isFresh (counts : DocumentEdit → Bool) : List DocumentEvent → Bool
  | [] => true
  | .edited e :: earlier => counts e || isFresh counts earlier
  | .renamed :: _ => false

end DocumentEvent

/-- An edit after which the document is analysed; a change without a text is none. -/
def DocumentEdit.isAnalysed : DocumentEdit → Bool
  | .changed texts => !texts.isEmpty
  | _ => true

end ScriptLens
