import ScriptLens.Proofs.Localization.Limiting
import ScriptLens.Proofs.Markup.Report
import ScriptLens.Proofs.Trimming

/-!
Language documents, and what a lookup shows of them. The content of a text comes in pieces, which
comments and CDATA sections keep apart. Each piece takes the place of the one before, so the last
one that is not blank is shown, and that is the whole content only if nothing else is in it.
-/

namespace ScriptLens

namespace Markup

/-- A piece of content between tags, comments and the ends of CDATA sections. -/
inductive TextPiece where
  | chars (t : Text)
  | cdata (t : Text)
  deriving DecidableEq, Repr

namespace TextPiece

def written : TextPiece → Text
  | chars t => t
  | cdata t => t

/-- What a piece stands for: in a CDATA section nothing is an entity. -/
def meant : TextPiece → Text
  | chars t => unescape t
  | cdata t => t

def shown? (p : TextPiece) : Option Text :=
  Wording.trimmed? p.written

end TextPiece

structure TextElement where
  page : Text
  id : Text
  pieces : List TextPiece
  deriving DecidableEq, Repr

namespace TextElement

def content (e : TextElement) : Text :=
  Text.trim (e.pieces.flatMap (·.meant))

def stored (e : TextElement) : List Text :=
  e.pieces.filterMap (·.shown?)

def shown? (e : TextElement) : Option Text :=
  e.stored.getLast?

def wordings (e : TextElement) : List Wording :=
  e.stored.map fun text => ⟨e.page, e.id, text⟩

end TextElement

/-! The texts of a language document. Between them, and between pages, comments and character data
may stand. -/

def StartTag.id? (kind : Text) (tag : StartTag) : Option Text :=
  if tag.name.text = kind then tag.value? "id".toList else none

def Leaf.pieces : Leaf → List TextPiece
  | .cdata s => [.cdata s.text]
  | _ => []

namespace Content

def pieces : Content → List TextPiece
  | last t => [.chars t.text]
  | leaf t l rest => .chars t.text :: (l.pieces ++ rest.pieces)
  | element t _ _ _ rest => .chars t.text :: rest.pieces

def holdsNoElement : Content → Bool
  | last _ => true
  | leaf _ (.empty _) _ => false
  | leaf _ _ rest => rest.holdsNoElement
  | element .. => false

def holdsTexts : Content → Bool
  | last _ => true
  | leaf _ (.empty tag) rest => (tag.id? Wording.textTag).isSome && rest.holdsTexts
  | leaf _ _ rest => rest.holdsTexts
  | element _ tag inner _ rest =>
    (tag.id? Wording.textTag).isSome && inner.holdsNoElement && rest.holdsTexts

def texts (page : Text) : Content → List TextElement
  | last _ => []
  | leaf _ (.empty tag) rest =>
    ((tag.id? Wording.textTag).map fun id => ⟨page, id, []⟩).toList ++ rest.texts page
  | leaf _ _ rest => rest.texts page
  | element _ tag inner _ rest =>
    ((tag.id? Wording.textTag).map fun id => ⟨page, id, inner.pieces⟩).toList ++ rest.texts page

def holdsPages : Content → Bool
  | last _ => true
  | leaf _ (.empty tag) rest => (tag.id? Wording.pageTag).isSome && rest.holdsPages
  | leaf _ _ rest => rest.holdsPages
  | element _ tag inner _ rest =>
    (tag.id? Wording.pageTag).isSome && inner.holdsTexts && rest.holdsPages

def pageTexts : Content → List TextElement
  | last _ => []
  | leaf _ _ rest => rest.pageTexts
  | element _ tag inner _ rest =>
    ((tag.id? Wording.pageTag).map inner.texts).getD [] ++ rest.pageTexts

end Content

namespace Element

def holdsPages : Element → Bool
  | empty _ => true
  | paired tag inner _ =>
    if tag.name.text = Wording.pageTag then
      (tag.id? Wording.pageTag).isSome && inner.holdsTexts
    else inner.holdsPages

def texts : Element → List TextElement
  | empty _ => []
  | paired tag inner _ => ((tag.id? Wording.pageTag).map inner.texts).getD inner.pageTexts

end Element

end Markup

structure LanguageDocument extends Markup.Tree where
  pages : root.holdsPages = true

def LanguageDocument.texts (d : LanguageDocument) : List Markup.TextElement :=
  d.root.texts

namespace Wording

open Markup

section Reading

variable (page id : Text) (rest : List Event)

theorem ofEvents_charData_outside (page? : Option Text) (t : CharData) :
    ofEvents page? none (t.events ++ rest) = ofEvents page? none rest := by
  unfold CharData.events
  split
  · rfl
  · cases page? <;> rfl

theorem ofEvents_text (content : Text) :
    ofEvents (some page) (some id) (.text content :: rest) =
      ((trimmed? content).map fun text => ⟨page, id, text⟩).toList ++
        ofEvents (some page) (some id) rest := by
  cases htext : trimmed? content with
  | none => simp [ofEvents, htext]
  | some text => simp [ofEvents, htext]

theorem wordings_cons (p : TextPiece) (ps : List TextPiece) :
    (TextElement.mk page id (p :: ps)).wordings =
      (p.shown?.map fun text => ⟨page, id, text⟩).toList ++
        (TextElement.mk page id ps).wordings := by
  simp only [TextElement.wordings, TextElement.stored, List.filterMap_cons]
  cases p.shown? <;> rfl

theorem ofEvents_charData (t : CharData) :
    ofEvents (some page) (some id) (t.events ++ rest) =
      ((TextPiece.chars t.text).shown?.map fun text => ⟨page, id, text⟩).toList ++
        ofEvents (some page) (some id) rest := by
  unfold CharData.events
  split
  next hnil =>
    have hblank : (TextPiece.chars t.text).shown? = none := by
      rw [TextPiece.shown?, TextPiece.written, hnil, trimmed?, unescape]
      rfl
    rw [hblank]
    rfl
  next => exact ofEvents_text page id rest t.text

theorem ofEvents_pieces (c : Content) (offset : Nat) (h : c.holdsNoElement = true) :
    ofEvents (some page) (some id) (c.events offset ++ rest) =
      (TextElement.mk page id c.pieces).wordings ++ ofEvents (some page) (some id) rest := by
  induction c generalizing offset with
  | last t =>
    rw [Content.events, ofEvents_charData, Content.pieces, wordings_cons, List.append_assoc]
    rfl
  | leaf t l more ih =>
    simp only [Content.events, List.append_assoc, Content.pieces]
    rw [ofEvents_charData, wordings_cons, List.append_assoc]
    refine congrArg _ ?_
    cases l with
    | comment c => exact ih _ h
    | cdata s =>
      simp only [Leaf.events, Leaf.pieces, List.singleton_append]
      rw [ofEvents_text, ih _ h, wordings_cons, List.append_assoc]
      rfl
    | empty tag => cases h
  | element t tag inner space more => cases h

theorem eq_of_id? {kind : Text} {tag : StartTag} {n : Text} (h : tag.id? kind = some n) :
    tag.name.text = kind ∧ tag.value? "id".toList = some n := by
  unfold StartTag.id? at h
  split at h
  next hname => exact ⟨hname, h⟩
  next => cases h

theorem textTag_ne_pageTag : textTag ≠ pageTag := by decide

theorem ofEvents_openedText {tag : StartTag} (htag : tag.id? textTag = some id)
    (isEmpty : Bool) (offset : Nat) :
    ofEvents (some page) none (.opened (tag.placed isEmpty offset) :: rest) =
      ofEvents (some page) (some id) rest := by
  obtain ⟨hname, hid⟩ := eq_of_id? htag
  have hplaced : (tag.placed isEmpty offset).name = textTag := hname
  rw [ofEvents, openPage, openText, hplaced, if_neg textTag_ne_pageTag, if_pos ⟨rfl, rfl⟩,
    StartTag.value?_placed, hid]

theorem ofEvents_closedText (id? : Option Text) :
    ofEvents (some page) id? (.closed textTag :: rest) = ofEvents (some page) none rest := by
  rw [ofEvents, if_neg textTag_ne_pageTag, if_pos rfl]

theorem ofEvents_texts (c : Content) (offset : Nat) (h : c.holdsTexts = true) :
    ofEvents (some page) none (c.events offset ++ rest) =
      (c.texts page).flatMap (·.wordings) ++ ofEvents (some page) none rest := by
  induction c generalizing offset with
  | last t => exact ofEvents_charData_outside rest _ t
  | leaf t l more ih =>
    simp only [Content.events, List.append_assoc]
    rw [ofEvents_charData_outside]
    cases l with
    | comment c => exact ih _ h
    | cdata s => exact ih _ h
    | empty tag =>
      obtain ⟨htag, hmore⟩ := Bool.and_eq_true_iff.1 h
      obtain ⟨id, hid⟩ := Option.isSome_iff_exists.1 htag
      simp only [Leaf.events, List.cons_append, List.nil_append]
      rw [ofEvents_openedText page id _ hid, (eq_of_id? hid).1, ofEvents_closedText, ih _ hmore]
      simp [Content.texts, hid, TextElement.wordings, TextElement.stored]
  | element t tag inner space more _ ihMore =>
    simp only [Content.holdsTexts, Bool.and_eq_true] at h
    obtain ⟨⟨htag, hinner⟩, hmore⟩ := h
    obtain ⟨id, hid⟩ := Option.isSome_iff_exists.1 htag
    simp only [Content.events, List.append_assoc, List.cons_append]
    rw [ofEvents_charData_outside, ofEvents_openedText page id _ hid,
      ofEvents_pieces page id _ inner _ hinner, (eq_of_id? hid).1, ofEvents_closedText,
      ihMore _ hmore]
    simp [Content.texts, hid]

theorem ofEvents_openedPage {tag : StartTag} (htag : tag.id? pageTag = some page)
    (isEmpty : Bool) (offset : Nat) :
    ofEvents none none (.opened (tag.placed isEmpty offset) :: rest) =
      ofEvents (some page) none rest := by
  obtain ⟨hname, hid⟩ := eq_of_id? htag
  have hplaced : (tag.placed isEmpty offset).name = pageTag := hname
  rw [ofEvents, openPage, openText, hplaced, if_pos rfl,
    if_neg fun hopen => textTag_ne_pageTag hopen.1.symm, StartTag.value?_placed, hid]

theorem ofEvents_closedPage (page? : Option Text) :
    ofEvents page? none (.closed pageTag :: rest) = ofEvents none none rest := by
  rw [ofEvents, if_pos rfl, ite_self]

theorem ofEvents_page {tag : StartTag} (htag : tag.id? pageTag = some page) (c : Content)
    (offset inside : Nat) (h : c.holdsTexts = true) :
    ofEvents none none (.opened (tag.placed false offset) ::
        (c.events inside ++ .closed tag.name.text :: rest)) =
      (c.texts page).flatMap (·.wordings) ++ ofEvents none none rest := by
  rw [ofEvents_openedPage page _ htag, ofEvents_texts page _ c inside h, (eq_of_id? htag).1,
    ofEvents_closedPage]

/-- What a tag other than a page opens and closes outside pages makes no difference. -/
theorem ofEvents_tag_outside {tag : Tag} (h : tag.name ≠ pageTag) :
    ofEvents none none (.opened tag :: rest) = ofEvents none none rest := by
  rw [ofEvents, openPage, openText, if_neg h, if_neg fun hopen => nomatch hopen.2]

theorem ofEvents_closed_outside (name : Text) :
    ofEvents none none (.closed name :: rest) = ofEvents none none rest := by
  rw [ofEvents, ite_self, ite_self]

theorem ofEvents_pages (c : Content) (offset : Nat) (h : c.holdsPages = true) :
    ofEvents none none (c.events offset ++ rest) =
      c.pageTexts.flatMap (·.wordings) ++ ofEvents none none rest := by
  induction c generalizing offset with
  | last t => exact ofEvents_charData_outside rest _ t
  | leaf t l more ih =>
    simp only [Content.events, List.append_assoc]
    rw [ofEvents_charData_outside]
    cases l with
    | comment c => exact ih _ h
    | cdata s => exact ih _ h
    | empty tag =>
      obtain ⟨htag, hmore⟩ := Bool.and_eq_true_iff.1 h
      obtain ⟨page, hpage⟩ := Option.isSome_iff_exists.1 htag
      simp only [Leaf.events, List.cons_append, List.nil_append]
      rw [ofEvents_openedPage page _ hpage, (eq_of_id? hpage).1, ofEvents_closedPage, ih _ hmore]
      rfl
  | element t tag inner space more _ ihMore =>
    simp only [Content.holdsPages, Bool.and_eq_true] at h
    obtain ⟨⟨htag, hinner⟩, hmore⟩ := h
    obtain ⟨page, hpage⟩ := Option.isSome_iff_exists.1 htag
    simp only [Content.events, List.append_assoc, List.cons_append]
    rw [ofEvents_charData_outside, ofEvents_page page _ hpage inner _ _ hinner, ihMore _ hmore]
    simp [Content.pageTexts, hpage]

end Reading

theorem ofEvents_root (root : Markup.Element) (offset : Nat) (h : root.holdsPages = true) :
    ofEvents none none (root.events offset) = root.texts.flatMap (·.wordings) := by
  cases root with
  | empty tag =>
    -- No character data follows, so it does not matter what the tag opens.
    rfl
  | paired tag inner space =>
    simp only [Markup.Element.events, List.cons_append]
    rw [Markup.Element.holdsPages] at h
    split at h
    next hname =>
      obtain ⟨htag, hinner⟩ := Bool.and_eq_true_iff.1 h
      obtain ⟨page, hpage⟩ := Option.isSome_iff_exists.1 htag
      rw [ofEvents_page page [] hpage inner _ _ hinner]
      simp [Markup.Element.texts, hpage, ofEvents]
    next hname =>
      have hpage : tag.id? pageTag = none := if_neg hname
      rw [ofEvents_tag_outside _ hname, ofEvents_pages _ _ _ h, ofEvents_closed_outside]
      simp [Markup.Element.texts, hpage, ofEvents]

theorem ofFile_render (d : LanguageDocument) :
    ofFile d.render = d.texts.flatMap (·.wordings) := by
  rw [ofFile, scan_eq_events]
  exact ofEvents_root d.root _ d.pages

end Wording

end ScriptLens
