import ScriptLens.OrderedMap
import ScriptLens.Text.Basic

/-!
A tree of files, and the paths that lead into it. Paths are texts as settings give them; what an
absolute one leads to is found by walking its components from the top.
-/

namespace ScriptLens

/-- A file whose bytes are not UTF-8 has no text. -/
inductive FileContent where
  | text (t : Text)
  | binary
  deriving DecidableEq, Repr

inductive FileNode where
  | folder
  | file (content : FileContent)
  deriving DecidableEq, Repr

namespace Path

/-- A relative path below a folder. An absolute one stands for itself. -/
def join (folder path : Text) : Text :=
  if Text.startsWith ['/'] path || folder.isEmpty then path
  else if Text.endsWith ['/'] folder then folder ++ path
  else folder ++ '/' :: path

/-- Whether a component of a path leads nowhere else: it is empty or stands for its own folder. -/
def isIdle (component : Text) : Bool :=
  component = [] || component = ['.']

def below? (folder path : Text) : Option Text :=
  (Text.after? folder path).map fun rest =>
    let components := (Text.fields '/' rest).dropWhile isIdle
    List.intercalate ['/'] (components.reverse.dropWhile isIdle).reverse

/-- What follows the last dot of a file name, unless that dot is also the first character. -/
def extension? (name : Text) : Option Text :=
  (Text.splitLast? (· = '.') name).bind fun (stem, extension) =>
    if stem.isEmpty then none else some extension

/-- Component by component, each in code point order. -/
def le : List Text → List Text → Bool
  | [], _ => true
  | _ :: _, [] => false
  | a :: p, b :: q => if a = b then le p q else Text.le a b

def utf8Bytes (c : Char) : List Nat :=
  (String.utf8EncodeChar c).map UInt8.toNat

def percentEncoded (byte : Nat) : Text :=
  let digit (n : Nat) : Char := (Nat.digitChar n).toUpper
  ['%', digit (byte / 16), digit (byte % 16)]

def reserved : List Char :=
  ['"', '#', '%', '/', '<', '>', '?', '\\', '\x60', '\x7b', '\x7d']

def isPlain (c : Char) : Bool :=
  0x20 < c.toNat && c.toNat < 0x7F && !reserved.contains c

def encodeComponent (component : Text) : Text :=
  component.flatMap fun c => if isPlain c then [c] else (utf8Bytes c).flatMap percentEncoded

def fileUri? (path : Text) : Option Text :=
  (Text.after? ['/'] path).map fun rest =>
    "file://".toList ++ ((Text.fields '/' rest).filter (!isIdle ·)).flatMap fun c =>
      '/' :: encodeComponent c

end Path

structure FileTree where
  /-- Everything below the top, by its components; the folders on the way are listed too. -/
  nodes : OrderedMap (List Text) FileNode
  deriving DecidableEq

namespace FileTree

def empty : FileTree := ⟨∅⟩

def node? (tree : FileTree) : List Text → Option FileNode
  | [] => some .folder
  | p => tree.nodes.get? p

/-- Adds a folder where nothing is. -/
def addFolder (tree : FileTree) (p : List Text) : FileTree :=
  match tree.node? p with
  | some _ => tree
  | none => { tree with nodes := tree.nodes.insert p .folder }

def addFolders (tree : FileTree) (p : List Text) : FileTree :=
  (List.range p.length).foldl (fun tree n => tree.addFolder (p.take (n + 1))) tree

/-- Writes a file, but never over a folder. -/
def write (tree : FileTree) (p : List Text) (content : FileContent) : FileTree :=
  let tree := tree.addFolders p.dropLast
  match tree.node? p with
  | some .folder => tree
  | _ => { tree with nodes := tree.nodes.insert p (.file content) }

def remove (tree : FileTree) (p : List Text) : FileTree :=
  (tree.nodes.keys.filter fun q => p.isPrefixOf q).foldl
    (fun tree q => { tree with nodes := tree.nodes.erase q }) tree

/-- One step of a walk from a folder; a step to the folder above needs a folder to start from, and
from the top it leads back to the top. -/
def walkStep (tree : FileTree) (here : List Text) (component : Text) : Option (List Text) :=
  match tree.node? here with
  | some .folder =>
    if Path.isIdle component then some here
    else if component = ['.', '.'] then some here.dropLast
    else some (here ++ [component])
  | _ => none

/-- The components below the top that an absolute path leads to; a relative one leads nowhere. -/
def resolve? (tree : FileTree) (path : Text) : Option (List Text) :=
  (Text.after? ['/'] path).bind fun rest => (Text.fields '/' rest).foldlM tree.walkStep []

def isFolder (tree : FileTree) (path : Text) : Bool :=
  match (tree.resolve? path).bind tree.node? with
  | some .folder => true
  | _ => false

def read? (tree : FileTree) (path : Text) : Option Text :=
  match (tree.resolve? path).bind tree.node? with
  | some (.file (.text t)) => some t
  | _ => none

def children (tree : FileTree) (path : Text) : List (Text × FileNode) :=
  match tree.resolve? path with
  | none => []
  | some p =>
    let inside := tree.nodes.entries.filterMap fun (q, node) =>
      match p.isPrefixOf? q with
      | some [name] => some (name, node)
      | _ => none
    inside.mergeSort fun a b => Text.le a.1 b.1

/-- The files at any depth below a folder, in the order of their paths. -/
def filesBelow (tree : FileTree) (path : Text) : List (List Text × FileContent) :=
  match tree.resolve? path with
  | none => []
  | some p =>
    let inside := tree.nodes.entries.filterMap fun (q, node) =>
      match node with
      | .file content => if p.isPrefixOf q then some (q, content) else none
      | .folder => none
    inside.mergeSort fun a b => Path.le a.1 b.1

end FileTree

end ScriptLens
