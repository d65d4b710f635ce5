import ScriptLens.Localization.Texts
import ScriptLens.Proofs.OrderedMap

/-!
Limited output. A lookup that shows one language reads the wordings of three languages only, and of
these a limited store holds what the full one does; so the files that limited loading skips are not
missed by any lookup.
-/

namespace ScriptLens

namespace OrderedMap

variable {κ α : Type} [DecidableEq κ]

theorem filter_key (m : OrderedMap κ α) (k : κ) :
    (m.entries.filter fun e => e.1 = k) = ((m.get? k).map fun a => (k, a)).toList := by
  obtain ⟨entries, hnodup⟩ := m
  change _ = ((find? k entries).map fun a => (k, a)).toList
  induction entries with
  | nil => rfl
  | cons e rest ih =>
    simp only [List.map_cons, List.nodup_cons] at hnodup
    by_cases h : e.1 = k
    · subst h
      have hrest : rest.filter (fun d => d.1 = e.1) = [] := by
        refine List.filter_eq_nil_iff.2 fun d hd hkey => hnodup.1 ?_
        exact of_decide_eq_true hkey ▸ List.mem_map_of_mem hd
      simp [find?, hrest]
    · simp [find?, h, ih hnodup.2]

end OrderedMap

namespace LocalizedTexts

/-- The languages that limited output looks for, the first choice first. -/
def choices (preferred : Text) : List Text :=
  [preferred, LanguageId.any, LanguageId.english]

def chosen? (preferred : Text) (wordings : OrderedMap Text Text) : Option Text :=
  (choices preferred).findSome? fun language => (wordings.get? language).map (block language)

def wording? (texts : LocalizedTexts) (key language : Text) : Option Text :=
  (texts.entries.get? key).bind fun wordings => wordings.get? language

theorem bind_chosen? (texts : LocalizedTexts) (key preferred : Text) :
    (texts.entries.get? key).bind (chosen? preferred) =
      (choices preferred).findSome? fun language =>
        (texts.wording? key language).map (block language) := by
  unfold wording? chosen?
  cases texts.entries.get? key <;> rfl

theorem accepts_iff {texts : LocalizedTexts} {language : Text} :
    texts.accepts language = true ↔
      texts.limited = false ∨ language ∈ choices texts.preferred := by
  simp [accepts, choices, or_assoc]

theorem get?_shownLanguage (preferred : Text) (wordings : OrderedMap Text Text) :
    ((wordings.get? (shownLanguage preferred wordings)).map
      (block (shownLanguage preferred wordings))) = chosen? preferred wordings := by
  have hcontains : ∀ language, wordings.contains language = (wordings.get? language).isSome :=
    fun language => rfl
  simp only [chosen?, choices, List.findSome?_cons, List.findSome?_nil, shownLanguage, hcontains]
  cases hpreferred : wordings.get? preferred with
  | some text => simp [hpreferred]
  | none =>
    cases hany : wordings.get? LanguageId.any with
    | some text => simp [hany]
    | none =>
      cases henglish : wordings.get? LanguageId.english with
      | some text => simp [henglish]
      | none => simp [hpreferred]

theorem find?_of_limited {texts : LocalizedTexts} (h : texts.limited = true) (page id : Text) :
    texts.find? page id =
      (texts.entries.get? (key page id)).bind (chosen? texts.preferred) := by
  unfold find?
  congr 1
  funext wordings
  rw [if_pos h, ← get?_shownLanguage]
  generalize shownLanguage texts.preferred wordings = language
  have hentry := OrderedMap.filter_key wordings language
  simp only [hentry]
  cases wordings.get? language with
  | none => rfl
  | some text => simp

/-! Storing wordings. -/

theorem wording?_insert (texts : LocalizedTexts) (language : Text) (w : Wording) (k l : Text) :
    (texts.insert language w).wording? k l =
      if LocalizedTexts.key w.page w.id = k ∧ language = l then some w.text
      else texts.wording? k l := by
  simp only [wording?, insert, OrderedMap.get?_alter]
  by_cases hkey : LocalizedTexts.key w.page w.id = k
  · subst hkey
    simp only [if_true, true_and, Option.bind_some, OrderedMap.get?_insert]
    split
    · rfl
    · cases texts.entries.get? (LocalizedTexts.key w.page w.id) <;> rfl
  · simp [hkey]

/-- A limited store holds what the full one does in the languages that it looks for. -/
structure Agrees (preferred : Text) (shown full : LocalizedTexts) : Prop where
  limited : shown.limited = true
  unlimited : full.limited = false
  shownFirst : shown.preferred = preferred
  fullFirst : full.preferred = preferred
  wordings : ∀ key, ∀ language ∈ choices preferred,
    shown.wording? key language = full.wording? key language

namespace Agrees

variable {preferred : Text} {shown full : LocalizedTexts}

theorem insert (h : Agrees preferred shown full) (language : Text) (w : Wording) :
    Agrees preferred (shown.insert language w) (full.insert language w) where
  limited := h.limited
  unlimited := h.unlimited
  shownFirst := h.shownFirst
  fullFirst := h.fullFirst
  wordings := by
    intro key l hl
    rw [wording?_insert, wording?_insert, h.wordings key l hl]

theorem insert_skipped (h : Agrees preferred shown full) {language : Text}
    (hskip : language ∉ choices preferred) (w : Wording) :
    Agrees preferred shown (full.insert language w) where
  limited := h.limited
  unlimited := h.unlimited
  shownFirst := h.shownFirst
  fullFirst := h.fullFirst
  wordings := by
    intro key l hl
    have hne : language ≠ l := fun heq => hskip (heq ▸ hl)
    rw [wording?_insert, if_neg fun hsame => hne hsame.2]
    exact h.wordings key l hl

theorem addWordings (h : Agrees preferred shown full) (language t : Text) :
    Agrees preferred (shown.addWordings language t) (full.addWordings language t) :=
  List.foldl_rel h fun w _ _ _ hstep => hstep.insert language w

theorem addWordings_skipped (h : Agrees preferred shown full) {language : Text}
    (hskip : language ∉ choices preferred) (t : Text) :
    Agrees preferred shown (full.addWordings language t) := by
  unfold LocalizedTexts.addWordings
  generalize Wording.ofFile t = wordings
  induction wordings generalizing full with
  | nil => exact h
  | cons w wordings ih => exact ih (h.insert_skipped hskip w)

theorem addFile (h : Agrees preferred shown full) (name : Text) (content : FileContent) :
    Agrees preferred (shown.addFile name content) (full.addFile name content) := by
  cases content with
  | binary => exact h
  | text t =>
    have hfull : full.accepts (LanguageId.ofFileName name) = true :=
      accepts_iff.2 (.inl h.unlimited)
    simp only [LocalizedTexts.addFile, hfull, if_true]
    split
    next => exact h.addWordings _ t
    next hskip =>
      refine h.addWordings_skipped (fun hmem => hskip (accepts_iff.2 (.inr ?_))) t
      rwa [h.shownFirst]

theorem addFolder (h : Agrees preferred shown full) (tree : FileTree) (folder : Text) :
    Agrees preferred (shown.addFolder tree folder) (full.addFolder tree folder) := by
  refine List.foldl_rel h fun entry _ shown full hstep => ?_
  obtain ⟨name, node⟩ := entry
  cases node with
  | folder => exact hstep
  | file content =>
    dsimp only
    split
    · exact hstep.addFile name content
    · exact hstep

theorem load (tree : FileTree) (folders : List Text) (preferred : Text) :
    Agrees preferred (load tree folders preferred true) (load tree folders preferred false) :=
  List.foldl_rel ⟨rfl, rfl, rfl, rfl, fun _ _ _ => rfl⟩ fun folder _ _ _ hstep =>
    hstep.addFolder tree folder

theorem find? (h : Agrees preferred shown full) (page id : Text) :
    shown.find? page id = (full.entries.get? (key page id)).bind (chosen? preferred) := by
  have hwordings := h.wordings (key page id)
  simp only [choices, List.forall_mem_cons] at hwordings
  obtain ⟨hpreferred, hany, henglish, -⟩ := hwordings
  rw [find?_of_limited h.limited, h.shownFirst, bind_chosen?, bind_chosen?]
  simp only [choices, List.findSome?_cons, List.findSome?_nil, hpreferred, hany, henglish]

end Agrees

/-- A limited lookup after limited loading shows what the full store has in the preferred language,
else in none, else in English: the same as a limited lookup in the full store. -/
theorem skipped_files_unobservable (tree : FileTree) (folders : List Text)
    (preferred page id : Text) :
    (load tree folders preferred true).find? page id =
        ((load tree folders preferred false).entries.get? (key page id)).bind (chosen? preferred) ∧
      (load tree folders preferred true).find? page id =
        { load tree folders preferred false with limited := true }.find? page id := by
  have hagrees := Agrees.load tree folders preferred
  have hchosen := hagrees.find? page id
  refine ⟨hchosen, hchosen.trans ?_⟩
  rw [find?_of_limited rfl, hagrees.fullFirst]

end LocalizedTexts

end ScriptLens
