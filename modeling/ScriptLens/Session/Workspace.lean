import ScriptLens.Script.VariableTable

/-!
The documents that are open in an editor, with the dialects and the variables of the scripts among
them. An edit brings the variables of its document up to date at once.
-/

namespace ScriptLens

inductive DocumentEdit where
  | opened (language : Language) (text : Text)
  /-- Each text takes the place of the one before. -/
  | changed (texts : List Text)
  | saved (text : Option Text)
  | closed
  deriving DecidableEq, Repr

/-- The path within the address of a document: what is behind the scheme and, after two slashes, the
host, up to a query or a fragment. -/
def addressPath (uri : Text) : Text :=
  let address := uri.takeWhile fun c => c ≠ '?' && c ≠ '#'
  let located := ((Text.splitFirst? (· == ':') address).map Prod.snd).getD address
  match Text.after? "//".toList located with
  | some hostAndPath => hostAndPath.dropWhile (· ≠ '/')
  | none => located

namespace VariableTable

def ofDocument (uri : Text) (dialect : Dialect) (d : Document) : VariableTable :=
  (Occurrence.ofDocument d.text).foldl (fun table o =>
    table.record o.kind o.name ⟨uri, d.rangeOf o.start o.stop⟩) (.new dialect)

end VariableTable

structure Workspace where
  documents : OrderedMap Text Document
  /-- The dialects told so far. -/
  dialects : OrderedMap Text Dialect
  tracker : VariableTracker
  deriving DecidableEq

namespace Workspace

def empty : Workspace := ⟨∅, ∅, ∅⟩

/-- The dialect of a document. One that was told holds until the document is opened anew, whatever
its text becomes. -/
def tellDialect (w : Workspace) (uri : Text) (d : Document) : Option Dialect × Workspace :=
  if d.language ≠ .markup then (none, w)
  else
    match w.dialects.get? uri with
    | some dialect => (some dialect, w)
    | none =>
      match Dialect.detect? d.text with
      | some dialect => (some dialect, { w with dialects := w.dialects.insert uri dialect })
      | none => (none, w)

/-- Brings the variables of a document up to date; only scripts have some. -/
def analyze (w : Workspace) (uri : Text) : Workspace :=
  match w.documents.get? uri with
  | none => w
  | some d =>
    match w.tellDialect uri d with
    | (some dialect, w) =>
      { w with tracker := w.tracker.replace uri (.ofDocument uri dialect d) }
    | (none, w) => { w with tracker := w.tracker.clear uri }

/-- Stores the text of a document. Its language, if it is not given, stays what it was; that of a
new document is guessed from its path. -/
def store (w : Workspace) (uri : Text) (language : Option Language) (text : Text) : Workspace :=
  let known := (w.documents.get? uri).map (·.language)
  let language := (language.or known).getD (.ofPath (addressPath uri))
  { w with documents := w.documents.insert uri { text, language } }

def forgetDialect (w : Workspace) (uri : Text) : Workspace :=
  { w with dialects := w.dialects.erase uri }

def forget (w : Workspace) (uri : Text) : Workspace where
  documents := w.documents.erase uri
  dialects := w.dialects.erase uri
  tracker := w.tracker.clear uri

def edit (w : Workspace) (uri : Text) : DocumentEdit → Workspace
  | .opened language text => ((w.store uri (some language) text).forgetDialect uri).analyze uri
  | .changed texts =>
    match texts.getLast? with
    | some text => (w.store uri none text).analyze uri
    | none => w
  | .saved (some text) => (w.store uri none text).analyze uri
  | .saved none => w.analyze uri
  | .closed => w.forget uri

end Workspace

end ScriptLens
