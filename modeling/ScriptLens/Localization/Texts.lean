import ScriptLens.FileTree
import ScriptLens.Localization.Language
import ScriptLens.Markup.Event

/-!
Localized texts. A text has a page, a number on it, and a wording in each of several languages. They
come from language files, which hold pages of texts.
-/

namespace ScriptLens

structure Wording where
  page : Text
  id : Text
  text : Text
  deriving DecidableEq, Repr

namespace Wording

open Markup

/-- A piece of character data, decoded and without white space around it; a blank one is none. -/
def trimmed? (content : Text) : Option Text :=
  match Text.trim (unescape content) with
  | [] => none
  | t => some t

def pageTag : Text := "page".toList

def textTag : Text := ['t']

def openPage (page : Option Text) (tag : Tag) : Option Text :=
  if tag.name = pageTag then tag.value? "id".toList else page

/-- A text outside a page has no number. -/
def openText (page id : Option Text) (tag : Tag) : Option Text :=
  if tag.name = textTag ∧ page.isSome then tag.value? "id".toList else id

def ofEvents : (page id : Option Text) → List Event → List Wording
  | _, _, [] => []
  | page, id, .opened tag :: rest => ofEvents (openPage page tag) (openText page id tag) rest
  | page, id, .closed name :: rest =>
    ofEvents (if name = pageTag then none else page) (if name = textTag then none else id) rest
  | page, id, .fault _ :: rest => ofEvents page id rest
  | page, id, .text content :: rest =>
    match page, id, trimmed? content with
    | some page', some id', some text => ⟨page', id', text⟩ :: ofEvents page id rest
    | _, _, _ => ofEvents page id rest

def ofFile (t : Text) : List Wording :=
  ofEvents none none (scan t)

/-- The first fault of a language file; its wordings count all the same. -/
def firstFault? (t : Text) : Option Fault :=
  (scan t).findSome? fun
    | .fault f => some f
    | _ => none

end Wording

structure LocalizedTexts where
  /-- The language that is shown first. -/
  preferred : Text
  /-- Whether only one language is shown. -/
  limited : Bool
  /-- The wordings of each text by language. -/
  entries : OrderedMap Text (OrderedMap Text Text)
  deriving DecidableEq

namespace LocalizedTexts

def new (preferred : Text) (limited : Bool) : LocalizedTexts := ⟨preferred, limited, ∅⟩

def key (page id : Text) : Text :=
  page ++ ':' :: id

/-- A later wording in a language takes the place of the one before. -/
def insert (texts : LocalizedTexts) (language : Text) (w : Wording) : LocalizedTexts :=
  { texts with
    entries := texts.entries.alter (key w.page w.id) fun wordings =>
      (wordings.getD ∅).insert language w.text }

def addWordings (texts : LocalizedTexts) (language t : Text) : LocalizedTexts :=
  (Wording.ofFile t).foldl (fun texts w => texts.insert language w) texts

def precedes (preferred a b : Text) : Bool :=
  if a = preferred then true
  else if b = preferred then false
  else LanguageId.order a ≤ LanguageId.order b

def shownLanguage (preferred : Text) (wordings : OrderedMap Text Text) : Text :=
  if wordings.contains preferred then preferred
  else if wordings.contains LanguageId.any then LanguageId.any
  else if wordings.contains LanguageId.english then LanguageId.english
  else preferred

def block (language text : Text) : Text :=
  language ++ ':' :: ' ' :: text

def find? (texts : LocalizedTexts) (page id : Text) : Option Text :=
  (texts.entries.get? (key page id)).bind fun wordings =>
    let shown := if texts.limited then
        let language := shownLanguage texts.preferred wordings
        wordings.entries.filter fun w => w.1 = language
      else wordings.entries.mergeSort fun a b => precedes texts.preferred a.1 b.1
    match shown with
    | [] => none
    | shown => some (List.intercalate ['\n', '\n'] (shown.map fun (l, text) => block l text))

def accepts (texts : LocalizedTexts) (language : Text) : Bool :=
  !texts.limited || language = texts.preferred || language = LanguageId.any ||
    language = LanguageId.english

def isLanguageFile (name : Text) : Bool :=
  Text.startsWith "0001".toList name && Text.endsWith ".xml".toList name

def addFile (texts : LocalizedTexts) (name : Text) (content : FileContent) : LocalizedTexts :=
  let language := LanguageId.ofFileName name
  match content with
  | .text t => if texts.accepts language then texts.addWordings language t else texts
  | .binary => texts

def addFolder (tree : FileTree) (texts : LocalizedTexts) (folder : Text) : LocalizedTexts :=
  (tree.children folder).foldl (fun texts (name, node) =>
    match node with
    | .file content => if isLanguageFile name then texts.addFile name content else texts
    | .folder => texts) texts

def load (tree : FileTree) (folders : List Text) (preferred : Text) (limited : Bool) :
    LocalizedTexts :=
  folders.foldl (addFolder tree) (new preferred limited)

/-- The folders of language files: one of the game, and one of each extension that has it. -/
def folders (tree : FileTree) (unpacked extensions : Text) : List Text :=
  let ofExtensions := (tree.children extensions).map fun (name, _) =>
    Path.join (Path.join extensions name) "t".toList
  (Path.join unpacked "t".toList :: ofExtensions).filter tree.isFolder

end LocalizedTexts

end ScriptLens
