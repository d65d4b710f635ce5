import ScriptLens.FileTree
import ScriptLens.Foreign.Declaration
import ScriptLens.OrderedMap
import ScriptLens.Text.Column

/-!
The foreign functions that Lua sources declare, with what to show for each: its signature, and the
types of its result and parameters as far as they are known when the function is first declared.
-/

namespace ScriptLens

/-- A word on a line that is described, in byte offsets within the line. -/
structure Description where
  text : Text
  start : Nat
  stop : Nat
  deriving DecidableEq, Repr

structure ForeignIndex where
  types : OrderedMap Text Text
  functions : OrderedMap Text Text
  deriving DecidableEq

namespace ForeignIndex

def empty : ForeignIndex := ⟨∅, ∅⟩

def marked (name : Text) : Text :=
  "`".toList ++ name ++ "`".toList

/-- A declaration with the first occurrence of its name marked. -/
def typeDescription (name content : Text) : Text :=
  Text.replaceFirst name (marked name) content

/-- Functions are called through this table. -/
def qualified (name : Text) : Text :=
  "C.".toList ++ name

def parameterList (parameters : Text) : List Text :=
  ((Text.fields ',' parameters).map Text.trim).filter (· ≠ [])

/-- A parameter with its name marked, if it has a type before the name. -/
def markedParameter (parameter : Text) : Text :=
  match (Text.words parameter).reverse with
  | name :: type :: more => List.intercalate [' '] (type :: more).reverse ++ ' ' :: marked name
  | _ => parameter

def typeWords (parameter : Text) : List Text :=
  match (Text.words parameter).reverse with
  | _ :: type :: more => (type :: more).reverse
  | words => words

/-- The type of a parameter, without qualifiers and pointers; `void` is no type. -/
def parameterType? (parameter : Text) : Option Text :=
  ((typeWords parameter).find? (· ≠ "const".toList)).bind fun word =>
    let base := Text.trimEndWhile (· == '*') word
    if base = "void".toList ∨ base = [] then none else some base

def parameterTypes (index : ForeignIndex) (parameters : List Text) : List Text :=
  (parameters.filterMap parameterType?).filterMap index.types.get?

def functionDescription (index : ForeignIndex) (result name parameters : Text) : Text :=
  let parameters := parameterList parameters
  let signature := result ++ ' ' :: marked (qualified name) ++
    '(' :: List.intercalate [',', ' '] (parameters.map markedParameter) ++ [')', '\n']
  let resultType := ((index.types.get? result).map ("\n***\n".toList ++ ·)).getD []
  let types := match index.parameterTypes parameters with
    | [] => []
    | types => '\n' :: types.flatMap fun type => "- ".toList ++ type ++ ['\n']
  signature ++ resultType ++ types

/-- A type is described by its last declaration, a function by its first. -/
def add (index : ForeignIndex) : Declaration → ForeignIndex
  | .typedef name content =>
    { index with types := index.types.insert name (typeDescription name content) }
  | .prototype result name parameters =>
    if index.functions.contains (qualified name) then index
    else
      { index with
        functions := index.functions.insert (qualified name)
          (index.functionDescription result name parameters) }

def addSource (index : ForeignIndex) (source : Text) : ForeignIndex :=
  (Declaration.ofSource source).foldl add index

def isLuaFile (p : List Text) : Bool :=
  (p.getLast?.bind Path.extension?) = some "lua".toList

/-- Reads the Lua sources at any depth below a folder, in the order of their paths. -/
def load (tree : FileTree) (folder : Text) : ForeignIndex :=
  if tree.isFolder folder then
    (tree.filesBelow folder).foldl (fun index (p, content) =>
      match content with
      | .text t => if isLuaFile p then index.addSource t else index
      | .binary => index) empty
  else empty

/-- The word that a text begins with: a whole run of word characters, or two when the first of them
is the table of functions and a dot joins them. -/
def leadingWord (t : Text) : Text :=
  match (Text.after? "C.".toList t).map (·.takeWhile isWordPart) with
  | some (c :: name) => qualified (c :: name)
  | _ => t.takeWhile isWordPart

/-- The words of a line with their byte offsets; `skip` characters belong to the last one. -/
def wordsFrom : (skip offset : Nat) → Text → List (Nat × Text)
  | _, _, [] => []
  | skip + 1, offset, c :: t => wordsFrom skip (offset + c.utf8Size) t
  | 0, offset, c :: t =>
    match leadingWord (c :: t) with
    | [] => wordsFrom 0 (offset + c.utf8Size) t
    | word => (offset, word) :: wordsFrom (word.length - 1) (offset + c.utf8Size) t

def describe? (index : ForeignIndex) (line : Text) (column : Nat) : Option Description :=
  let cursor := Text.columnOffset line column
  ((wordsFrom 0 0 line).find? fun (start, word) =>
      start ≤ cursor && cursor ≤ start + word.byteSize).bind fun (start, word) =>
    (index.functions.get? word).map fun text => ⟨text, start, start + word.byteSize⟩

end ForeignIndex

end ScriptLens
