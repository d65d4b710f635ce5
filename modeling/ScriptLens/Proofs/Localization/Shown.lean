import ScriptLens.Proofs.Localization.LanguageDocument
import ScriptLens.Proofs.Markup.Escaping

/-!
What a lookup shows of a language document. Each piece of a text takes the place of the one before,
so the last one that is not blank is shown. It is the whole content if nothing else is in the text
and decoding gives what the piece stands for, and only then.
-/

namespace ScriptLens

namespace Markup

open ScriptLens.Text

/-- Decoding leaves a text alone or takes characters away that are seen: those of an entity are, and
there are more of them than it stands for. -/
theorem unescape_eq_or_ink_lt (t : Text) : unescape t = t ∨ ink (unescape t) < ink t := by
  have hcons : ∀ (c : Char) (t : Text), ink (c :: t) = ink [c] + ink t :=
    fun c t => ink_append [c] t
  have hkept : ∀ (c : Char) {s t : Text}, s = t ∨ ink s < ink t →
      c :: s = c :: t ∨ ink (c :: s) < ink (c :: t) := by
    intro c s t h
    rw [hcons c s, hcons c t]
    rcases h with rfl | hlt
    · exact .inl rfl
    · exact .inr (Nat.add_lt_add_left hlt _)
  fun_induction unescape t with
  | case1 => exact .inl rfl
  | case2 t d rest hlead ih =>
    obtain ⟨⟨entity, after⟩, hsplit, hentity⟩ := Option.bind_eq_some_iff.1 hlead
    obtain ⟨_, _, heq⟩ := Option.map_eq_some_iff.1 hentity
    cases heq
    obtain ⟨stop, hstop, rfl, _⟩ := Text.splitFirst?_eq_some_iff.1 hsplit
    obtain rfl : stop = ';' := by simpa using hstop
    have hd : ink [d] ≤ 1 := List.countP_le_length
    have hends : ink ['&'] = 1 ∧ ink [';'] = 1 := by decide
    have hrest : ink (unescape rest) ≤ ink rest := by
      rcases ih with heq | hlt
      · exact Nat.le_of_eq (congrArg ink heq)
      · exact Nat.le_of_lt hlt
    right
    rw [hcons d, hcons '&', ink_append, hcons ';']
    omega
  | case3 t hnone ih => exact hkept '&' ih
  | case4 c t hc ih => exact hkept c ih

namespace TextPiece

theorem unescape_written (p : TextPiece) :
    unescape p.written = p.meant ∨ ink (unescape p.written) < ink p.meant := by
  cases p with
  | chars t => exact .inl rfl
  | cdata t => exact unescape_eq_or_ink_lt t

theorem shown?_eq (p : TextPiece) : p.shown? = nonempty? (trim (unescape p.written)) := by
  unfold shown? Wording.trimmed?
  cases trim (unescape p.written) <;> rfl

theorem shown?_of_blank {p : TextPiece} (h : p.meant.all isBlank = true) : p.shown? = none := by
  have hwritten : unescape p.written = p.meant := by
    rcases p.unescape_written with heq | hlt
    · exact heq
    · rw [ink_eq_zero_iff.2 h] at hlt
      exact absurd hlt (Nat.not_lt_zero _)
  rw [shown?_eq, hwritten, trim_eq_nil_iff.2 h]
  rfl

end TextPiece

namespace TextElement

/-- One piece of the text at most is not blank, and that one is decoded to what it stands for. -/
def InOnePiece (e : TextElement) : Prop :=
  (∀ p ∈ e.pieces, p.meant.all isBlank = true) ∨
    ∃ before p after, e.pieces = before ++ p :: after ∧
      (∀ q ∈ before ++ after, q.meant.all isBlank = true) ∧ unescape p.written = p.meant

section Blank

variable {ps : List TextPiece} (h : ∀ p ∈ ps, p.meant.all isBlank = true)

include h

theorem filterMap_shown?_of_blank : ps.filterMap (·.shown?) = [] :=
  List.filterMap_eq_nil_iff.2 fun p hp => TextPiece.shown?_of_blank (h p hp)

theorem flatMap_meant_of_blank : (ps.flatMap (·.meant)).all isBlank = true := by
  rw [List.all_flatMap, List.all_eq_true]
  exact h

end Blank

theorem shown?_eq_content_of_inOnePiece {e : TextElement} (h : e.InOnePiece) :
    e.shown? = nonempty? e.content := by
  unfold shown? stored content
  rcases h with hblank | ⟨before, p, after, hpieces, hblank, hmeant⟩
  · rw [filterMap_shown?_of_blank hblank, trim_eq_nil_iff.2 (flatMap_meant_of_blank hblank)]
    rfl
  · have hbefore : ∀ q ∈ before, q.meant.all isBlank = true :=
      fun q hq => hblank q (List.mem_append_left _ hq)
    have hafter : ∀ q ∈ after, q.meant.all isBlank = true :=
      fun q hq => hblank q (List.mem_append_right _ hq)
    have hcontent : trim (e.pieces.flatMap (·.meant)) = trim p.meant := by
      rw [hpieces, List.flatMap_append, List.flatMap_cons,
        trim_append_left (flatMap_meant_of_blank hbefore),
        trim_append_right _ (flatMap_meant_of_blank hafter)]
    have hstored : e.pieces.filterMap (·.shown?) = p.shown?.toList := by
      rw [hpieces, List.filterMap_append, filterMap_shown?_of_blank hbefore, List.filterMap_cons,
        filterMap_shown?_of_blank hafter]
      cases p.shown? <;> rfl
    rw [hcontent, hstored, ← hmeant, ← TextPiece.shown?_eq]
    cases p.shown? <;> rfl

theorem inOnePiece_of_shown?_eq_content {e : TextElement} (h : e.shown? = nonempty? e.content) :
    e.InOnePiece := by
  cases hshown : e.shown? with
  | none =>
    rw [hshown] at h
    have hblank := trim_eq_nil_iff.1 (nonempty?_eq_none_iff.1 h.symm)
    rw [List.all_flatMap, List.all_eq_true] at hblank
    exact .inl hblank
  | some text =>
    rw [hshown] at h
    have htext : text = e.content := eq_of_nonempty? h.symm
    obtain ⟨p, hp, hpiece⟩ := List.mem_filterMap.1 (List.mem_of_getLast? hshown)
    rw [TextPiece.shown?_eq] at hpiece
    obtain ⟨before, after, hpieces⟩ := List.append_of_mem hp
    -- What is shown is as much as the content, so no more is in the other pieces.
    have hink : ink (unescape p.written) =
        ink (before.flatMap (·.meant)) + (ink p.meant + ink (after.flatMap (·.meant))) := by
      rw [← ink_trim (unescape p.written), ← eq_of_nonempty? hpiece, htext, content, ink_trim,
        hpieces, List.flatMap_append, List.flatMap_cons, ink_append, ink_append]
    have hmeant : unescape p.written = p.meant := by
      rcases p.unescape_written with heq | hlt
      · exact heq
      · omega
    rw [hmeant] at hink
    refine .inr ⟨before, p, after, hpieces, ?_, hmeant⟩
    have hothers : ((before ++ after).flatMap (·.meant)).all isBlank = true := by
      rw [← ink_eq_zero_iff, List.flatMap_append, ink_append]
      omega
    rwa [List.all_flatMap, List.all_eq_true] at hothers

theorem shown?_eq_content_iff (e : TextElement) :
    e.shown? = nonempty? e.content ↔ e.InOnePiece :=
  ⟨inOnePiece_of_shown?_eq_content, shown?_eq_content_of_inOnePiece⟩

end TextElement

end Markup

namespace LocalizedTexts

/-! A store that is filled in one language. -/

def only (language text : Text) : OrderedMap Text Text :=
  (∅ : OrderedMap Text Text).insert language text

theorem entries_only (language text : Text) : (only language text).entries = [(language, text)] :=
  rfl

theorem insert_only (language text later : Text) :
    (only language text).insert language later = only language later := by
  refine OrderedMap.ext ?_
  simp [only, OrderedMap.insert, OrderedMap.put, EmptyCollection.emptyCollection, OrderedMap.empty]

theorem addWordings_eq (texts : LocalizedTexts) (language t : Text) :
    texts.addWordings language t =
      { texts with
        entries := OrderedMap.fill (fun held text => (held.getD ∅).insert language text)
          texts.entries ((Wording.ofFile t).map fun w => (key w.page w.id, w.text)) } := by
  unfold addWordings OrderedMap.fill
  generalize Wording.ofFile t = wordings
  induction wordings generalizing texts with
  | nil => rfl
  | cons w wordings ih => exact ih (texts.insert language w)

theorem get?_addWordings_new (preferred : Text) (limited : Bool) (language t k : Text) :
    ((new preferred limited).addWordings language t).entries.get? k =
      (under k ((Wording.ofFile t).map fun w => (key w.page w.id, w.text))).getLast?.map
        (only language) := by
  have hadd : ∀ (held : Option Text) text,
      ((held.map (only language)).getD ∅).insert language text = only language text := by
    intro held text
    cases held with
    | none => rfl
    | some earlier => exact insert_only language earlier text
  rw [addWordings_eq]
  exact OrderedMap.get?_fill_last _ hadd _ _

theorem chosen?_only (preferred language text : Text) :
    chosen? preferred (only language text) =
      if language ∈ choices preferred then some (block language text) else none := by
  have hget : ∀ l, ((only language text).get? l).map (block l) =
      if language = l then some (block l text) else none := by
    intro l
    rw [only, OrderedMap.get?_insert]
    split <;> rfl
  simp only [chosen?, hget, choices, List.findSome?_cons, List.findSome?_nil, List.mem_cons,
    List.not_mem_nil, or_false]
  grind

theorem find?_only {texts : LocalizedTexts} {language page id : Text} {text? : Option Text}
    (h : texts.entries.get? (key page id) = text?.map (only language)) :
    texts.find? page id =
      if texts.accepts language then text?.map (block language) else none := by
  cases hlimited : texts.limited with
  | false =>
    have haccepts : texts.accepts language = true := accepts_iff.2 (.inl hlimited)
    rw [find?, h, haccepts, hlimited]
    cases text? <;> simp [entries_only]
  | true =>
    have haccepts : texts.accepts language = true ↔ language ∈ choices texts.preferred := by
      simp [accepts_iff, hlimited]
    rw [find?_of_limited hlimited, h]
    cases text? with
    | none => exact (ite_self _).symm
    | some text =>
      refine (chosen?_only _ _ _).trans ?_
      simp only [haccepts, Option.map_some]

def textsAt (d : LanguageDocument) (page id : Text) : List Markup.TextElement :=
  d.texts.filter fun e => key e.page e.id = key page id

theorem find?_document (d : LanguageDocument) (language preferred : Text) (limited : Bool)
    (page id : Text) :
    ((new preferred limited).addWordings language d.render).find? page id =
      if (new preferred limited).accepts language then
        ((textsAt d page id).filterMap (·.shown?)).getLast?.map (block language)
      else none := by
  have hget := get?_addWordings_new preferred limited language d.render (key page id)
  have hrecords : (d.texts.flatMap (·.wordings)).map (fun w => (key w.page w.id, w.text)) =
      d.texts.flatMap fun e => e.stored.map fun text => (key e.page e.id, text) := by
    simp only [List.map_flatMap, Markup.TextElement.wordings, List.map_map]
    rfl
  have hlast : ((textsAt d page id).flatMap (·.stored)).getLast? =
      ((textsAt d page id).filterMap (·.shown?)).getLast? := by
    rw [List.getLast?_flatMap, List.getLast?_filterMap]
    rfl
  rw [Wording.ofFile_render, hrecords, under_flatMap_pair] at hget
  rw [find?_only hget, ← hlast]
  rw [addWordings_eq]
  rfl

theorem key_eq_iff {page id page' id' : Text} (h : ':' ∉ page) (h' : ':' ∉ page') :
    key page id = key page' id' ↔ page = page' ∧ id = id' := by
  have hsplit : ∀ {page : Text} (id : Text), ':' ∉ page →
      Text.splitFirst? (· == ':') (key page id) = some (page, id) := by
    intro page id h
    refine Text.splitFirst?_append id (fun c hc => ?_) rfl
    exact beq_false_of_ne fun heq => h (heq ▸ hc)
  constructor
  · intro heq
    have hboth := (hsplit id h).symm.trans ((congrArg _ heq).trans (hsplit id' h'))
    cases hboth
    exact ⟨rfl, rfl⟩
  · rintro ⟨rfl, rfl⟩
    rfl

/-- What a lookup shows, after a language document is read for one language: the last piece that is
not blank in the texts of that page and number. It is the whole content of its text exactly if the
text is in one piece. -/
theorem shows_last_piece (d : LanguageDocument) (language preferred : Text) (limited : Bool) :
    let texts := (new preferred limited).addWordings language d.render
    (∀ page id, texts.find? page id =
        if (new preferred limited).accepts language then
          ((textsAt d page id).filterMap (·.shown?)).getLast?.map (block language)
        else none) ∧
      (∀ page id, ':' ∉ page → (∀ e ∈ d.texts, ':' ∉ e.page) →
        textsAt d page id = d.texts.filter fun e => e.page = page ∧ e.id = id) ∧
      ∀ e ∈ d.texts, e.shown? = nonempty? e.content ↔ e.InOnePiece := by
  refine ⟨find?_document d language preferred limited, fun page id hpage hpages => ?_,
    fun e _ => e.shown?_eq_content_iff⟩
  refine List.filter_congr fun e he => ?_
  exact decide_eq_decide.2 (key_eq_iff (hpages e he) hpage)

section CommentedText

open Markup

def languageName : PlainName := ⟨"language".toList, by decide, by decide⟩

def pageName : PlainName := ⟨Wording.pageTag, by decide, by decide⟩

def textName : PlainName := .letter 't' (by decide)

def idName : PlainName := ⟨"id".toList, by decide, by decide⟩

def numbered (name : PlainName) : StartTag :=
  .withAttribute name idName .double ['1'] (by decide)

def commented : Content :=
  .leaf ⟨['a'], by decide, by decide⟩ (.comment ⟨['c'], by decide, by decide, by decide⟩)
    (.last ⟨['b'], by decide, by decide⟩)

def commentedText : LanguageDocument where
  prolog := .none
  root :=
    .paired ⟨⟨none, languageName⟩, [], .none⟩
      (.element .none (numbered pageName)
        (.element .none (numbered textName) commented .none (.last .none)) .none (.last .none))
      .none
  tail := .none
  pages := by decide +kernel

theorem commentedText_shown_in_part :
    commentedText.render =
        "<language><page id=\"1\"><t id=\"1\">a<!--c-->b</t></page></language>".toList ∧
      (textsAt commentedText ['1'] ['1']).map (·.content) = ["ab".toList] ∧
      ((new "44".toList false).addWordings "44".toList commentedText.render).find? ['1'] ['1'] =
        some "44: b".toList := by
  refine ⟨by decide +kernel, by decide +kernel, ?_⟩
  rw [find?_document]
  decide +kernel

end CommentedText

end LocalizedTexts

end ScriptLens
