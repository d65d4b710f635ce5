import ScriptLens.Completion.Item
import ScriptLens.Completion.Resolve
import ScriptLens.Localization.Reference
import ScriptLens.Schema.Hover
import ScriptLens.Game
import ScriptLens.Session.Workspace

/-!
What an editor asks about a place in a document. A question about a script needs its dialect, so it
may make the workspace tell one; only a renaming changes the variables.
-/

namespace ScriptLens

inductive Query where
  | completion
  | hover
  | definition
  | references
  | rename (newName : Text)
  deriving DecidableEq, Repr

structure Completion where
  items : List CompletionItem
  /-- Whether typing on can bring up more items. -/
  incomplete : Bool
  deriving DecidableEq, Repr

structure Hover where
  markdown : Text
  range : Option Range
  deriving DecidableEq, Repr

structure TextEdit where
  range : Range
  newText : Text
  deriving DecidableEq, Repr

inductive Answer where
  | completion (c : Completion)
  | hover (h : Hover)
  | definition (location : Location)
  | references (locations : List Location)
  | rename (uri : Text) (edits : List TextEdit)
  deriving DecidableEq, Repr

namespace Hover

def verbatim (t : Text) (range : Option Range) : Hover :=
  ⟨"```plaintext\n".toList ++ t ++ "\n```".toList, range⟩

def ofVariable (dialect : Dialect) (m : VariableMatch) : Hover :=
  ⟨dialect.label ++ ' ' :: m.kind.label ++ ": `".toList ++ m.name ++ "`".toList,
    some m.location.range⟩

end Hover

namespace Game

def referenceHover? (game : Game) (d : Document) (line : Nat) (reference : TextReference) :
    Option Hover :=
  (game.texts.find? reference.page reference.id).map fun text =>
    .verbatim text (d.lineSpan? line reference.start reference.stop)

def schemaHover? (game : Game) (line : Text) (column : Nat) : Option Hover :=
  ((HoverTarget.at? line column).bind game.schema.schema.hover?).map fun text => ⟨text, none⟩

/-- A reference to a text is shown if there is such a text, else the function there is. -/
def luaHover? (game : Game) (d : Document) (p : Position) : Option Hover :=
  (d.line? p.line).bind fun line =>
    let text := (TextReference.at? .lua line.content p.column).bind
      (game.referenceHover? d p.line)
    text.or ((game.foreign.describe? line.content p.column).map fun found =>
      ⟨found.text, d.lineSpan? p.line found.start found.stop⟩)

/-- In a script a reference to a text hides all else, even if there is no such text; then come
variables and then the schema. -/
def scriptHover? (game : Game) (d : Document) (dialect : Dialect) (found : Option VariableMatch)
    (p : Position) : Option Hover :=
  (d.line? p.line).bind fun line =>
    match TextReference.at? .script line.content p.column with
    | some reference => game.referenceHover? d p.line reference
    | none =>
      match found with
      | some m => some (.ofVariable dialect m)
      | none => game.schemaHover? line.content p.column

def luaCompletion? (game : Game) : Option Completion :=
  match game.foreign.items with
  | [] => none
  | items => some { items, incomplete := false }

def scriptCompletion? (game : Game) (d : Document) (p : Position) : Option Completion :=
  ((d.textBefore? p).bind PathContext.locate?).bind fun context =>
    match (game.schema.registry.resolve context).items with
    | [] => none
    | items => some { items, incomplete := true }

/-- The parts of a path that follow one of its dots, the longest first. -/
def afterDots : Text → List Text
  | [] => []
  | c :: t => if c = '.' ∧ t ≠ [] then t :: afterDots t else afterDots t

def schemaDefinition? (game : Game) (d : Document) (p : Position) : Option Location :=
  (d.line? p.line).bind fun line =>
    (runAt (· ≠ '"') line.content p.column).bind fun token =>
      (token.body :: afterDots token.body).findSome? game.schema.locations.get?

end Game

namespace Workspace

def variableAt? (w : Workspace) (uri : Text) (p : Position) : Option VariableMatch :=
  w.tracker.lookup? uri p

def completion (game : Game) (w : Workspace) (uri : Text) (p : Position) :
    Option Completion × Workspace :=
  match w.documents.get? uri with
  | none => (none, w)
  | some d =>
    match d.language with
    | .lua => (game.luaCompletion?, w)
    | .markup =>
      let (dialect, w) := w.tellDialect uri d
      (dialect.bind fun _ => game.scriptCompletion? d p, w)
    | .other => (none, w)

def hover (game : Game) (w : Workspace) (uri : Text) (p : Position) : Option Hover × Workspace :=
  match w.documents.get? uri with
  | none => (none, w)
  | some d =>
    match d.language with
    | .lua => (game.luaHover? d p, w)
    | .markup =>
      let (dialect, w) := w.tellDialect uri d
      (dialect.bind fun dialect => game.scriptHover? d dialect (w.variableAt? uri p) p, w)
    | .other => (none, w)

/-- A variable is defined where it first occurs. -/
def definition (game : Game) (w : Workspace) (uri : Text) (p : Position) :
    Option Location × Workspace :=
  match w.documents.get? uri with
  | none => (none, w)
  | some d =>
    let (dialect, w) := w.tellDialect uri d
    (dialect.bind fun _ =>
      match w.variableAt? uri p with
      | some m => m.locations.head?
      | none => game.schemaDefinition? d p, w)

def references? (w : Workspace) (uri : Text) (p : Position) : Option (List Location) :=
  (w.variableAt? uri p).map fun m => w.tracker.locations uri m.kind m.name

/-- An occurrence keeps the sigil that it is written with. -/
def renamed (d : Document) (newName : Text) (range : Range) : TextEdit :=
  let written := (d.slice? range).getD []
  ⟨range, if Text.startsWith ['$'] written then '$' :: bareName newName else bareName newName⟩

/-- The edits that rename a variable. Its occurrences are known by the new name from now on. -/
def rename (w : Workspace) (uri : Text) (p : Position) (newName : Text) :
    Option (List TextEdit) × Workspace :=
  match w.documents.get? uri, w.variableAt? uri p with
  | some d, some m =>
    (some (m.locations.map fun location => renamed d newName location.range),
      { w with tracker := w.tracker.rename uri m.kind m.name (bareName newName) })
  | _, _ => (none, w)

def ask (game : Game) (w : Workspace) (uri : Text) (p : Position) :
    Query → Option Answer × Workspace
  | .completion => Prod.map (Option.map .completion) id (w.completion game uri p)
  | .hover => Prod.map (Option.map .hover) id (w.hover game uri p)
  | .definition => Prod.map (Option.map .definition) id (w.definition game uri p)
  | .references => ((w.references? uri p).map .references, w)
  | .rename newName =>
    if newName.isEmpty then (none, w)
    else Prod.map (Option.map (.rename uri)) id (w.rename uri p newName)

end Workspace

end ScriptLens
