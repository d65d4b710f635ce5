import Mathlib.Data.List.TakeWhile
import ScriptLens.Proofs.Markup.StrayClosing
import ScriptLens.Proofs.Script.Insertion
import ScriptLens.Proofs.Script.Separation

/-!
The variables of a document with a stray closing tag in it. The tag closes no element of the
scanner's own, but ends the document for the reader one closing tag too early. What follows this end
is read as before if a text keeps it apart, and only moved by the length of the stray tag; a tag
that follows directly is lost (`variables_around_stray`).
-/

namespace ScriptLens

open Markup Occurrence

/-! What is found from a cursor on. -/

/-- The variables in what is read from a cursor on, inside elements of given names. -/
def foundFrom (opened : List Text) (m : Mode) (s : Cursor) : List Occurrence :=
  ofEvents opened (events none (lexemesFrom m s))

section Reading

variable {m : Mode} {s : Cursor} {rest : Text} (opened outer : List Text) (parent : Text)

theorem foundFrom_text (hm : m.stage = .content) (t : CharData)
    (h : s.rest = t.text ++ '<' :: rest) :
    foundFrom opened m s = foundFrom opened m (s.past t.text ('<' :: rest)) := by
  rw [foundFrom, events_text hm t h, ofEvents_text]
  rfl

theorem foundFrom_leaf (hm : m.stage = .content) (hd : m.GoesOn) (l : Leaf)
    (h : s.rest = l.render ++ rest) :
    foundFrom (parent :: outer) m s =
      (leafPart parent l).found s.offset ++
        foundFrom (parent :: outer) m (s.past l.render rest) := by
  rw [foundFrom, events_leaf hm hd l h, ofEvents_leaf]
  rfl

theorem foundFrom_content (hm : m.stage = .content) (hd : m.GoesOn) (c : Content)
    (h : s.rest = c.render ++ '<' :: rest) :
    foundFrom (parent :: outer) m s =
      (contentPart parent c).found s.offset ++
        foundFrom (parent :: outer) m (s.past c.render ('<' :: rest)) := by
  rw [foundFrom, events_content c hm hd h, ofEvents_content]
  rfl

theorem foundFrom_opening (hs : step m s = tagStep m s) (tag : StartTag)
    (h : s.rest = tag.render false ++ rest) :
    foundFrom opened m s =
      (tagPart opened.head? false tag).found s.offset ++
        foundFrom (tag.name.text :: opened) (m.afterTag false) (s.past (tag.render false) rest) := by
  rw [foundFrom, events_startTag tag false hs h]
  rfl

theorem foundFrom_closing (hm : m.stage = .content) (tag : StartTag) (space : Spaces)
    (h : s.rest = tag.closing space ++ rest) :
    foundFrom opened m s =
      foundFrom (close tag.name.text opened) m.tagClosed (s.past (tag.closing space) rest) := by
  rw [foundFrom, events_closing hm tag space h]
  rfl

theorem close_of_not_mem {name : Text} {opened : List Text} (h : name ∉ opened) :
    close name opened = opened := by
  have hdrop : opened.dropWhile (· ≠ name) = [] := by
    rw [List.dropWhile_eq_nil_iff]
    intro other hother
    simpa using fun heq : other = name => h (heq ▸ hother)
  rw [close, hdrop]

def Markup.Mode.deeper (m : Mode) (n : Nat) : Mode :=
  { m with depth := m.depth + n }

theorem afterTag_eq_deeper (hm : m.stage = .content) : m.afterTag false = m.deeper 1 := by
  rw [Mode.afterTag_false, Mode.deeper, hm]

theorem deeper_deeper (m : Mode) (n k : Nat) : (m.deeper n).deeper k = m.deeper (k + n) := by
  simp only [Mode.deeper, Mode.mk.injEq, true_and, and_true]
  omega

theorem goesOn_deeper (m : Mode) (n : Nat) : (m.deeper (n + 1)).GoesOn :=
  .inl (Nat.succ_pos _)

theorem foundFrom_opening_content (hm : m.stage = .content) (t : CharData) (tag : StartTag)
    (h : s.rest = t.text ++ (tag.render false ++ rest)) :
    foundFrom opened m s =
      (tagPart opened.head? false tag).found (s.offset + t.text.byteSize) ++
        foundFrom (tag.name.text :: opened) (m.deeper 1)
          (s.past (t.text ++ tag.render false) rest) := by
  obtain ⟨u, hopen, _⟩ := tag.exists_render_append false rest
  have ht : s.rest = t.text ++ '<' :: (tag.name.text ++ u) := by
    rw [h, hopen]
  have hstep : step m (s.past t.text ('<' :: (tag.name.text ++ u))) =
      tagStep m (s.past t.text ('<' :: (tag.name.text ++ u))) := by
    rw [step_content hm, contentStep_of_tag tag.name rfl]
  rw [foundFrom_text _ hm t ht, foundFrom_opening _ hstep tag hopen.symm, afterTag_eq_deeper hm,
    Cursor.past_past, Cursor.offset_past]

theorem foundFrom_closing_innermost (hm : m.stage = .content) (hd : m.GoesOn) (tag : StartTag)
    (space : Spaces) (h : s.rest = tag.closing space ++ rest) :
    foundFrom (tag.name.text :: opened) (m.deeper 1) s =
      foundFrom opened m (s.past (tag.closing space) rest) := by
  rw [foundFrom_closing _ (m := m.deeper 1) hm tag space h, close_innermost,
    ← afterTag_eq_deeper hm, Mode.tagClosed_afterTag hm hd]

theorem foundFrom_before (h : Hole) (hm : m.stage = .content) (hd : m.GoesOn)
    (hs : s.rest = h.before ++ '<' :: rest) :
    foundFrom (parent :: outer) m s =
      (h.beforePart parent).found s.offset ++
        foundFrom (h.opened ++ parent :: outer) (m.deeper h.opened.length)
          (s.past h.before ('<' :: rest)) := by
  induction h generalizing m s parent outer with
  | here cut whole after joined => exact foundFrom_text _ hm cut hs
  | leaf t l more ih =>
    obtain ⟨u, hu⟩ := l.exists_cons
    have ht : s.rest = t.text ++ '<' :: (u ++ (more.before ++ '<' :: rest)) := by
      simp [hs, Hole.before, hu]
    have hl : (s.past t.text ('<' :: (u ++ (more.before ++ '<' :: rest)))).rest =
        l.render ++ (more.before ++ '<' :: rest) := by
      simp [hu]
    rw [foundFrom_text _ hm t ht, foundFrom_leaf _ _ hm hd l hl, ih _ _ hm hd rfl]
    simp [Hole.beforePart, Hole.before, Hole.opened, leafPart, Nat.add_assoc]
  | inside t tag inner space more ih =>
    have hopen : s.rest = t.text ++ (tag.render false ++ (inner.before ++ '<' :: rest)) := by
      simp [hs, Hole.before]
    rw [foundFrom_opening_content _ hm t tag hopen,
      ih _ _ (m := m.deeper 1) hm (goesOn_deeper m 0) rfl, deeper_deeper]
    simp [Hole.beforePart, Hole.before, Hole.opened, tagPart, Nat.add_assoc]
  | element t tag inner space more ih =>
    obtain ⟨u, hclose⟩ := tag.exists_closing_append space (more.before ++ '<' :: rest)
    have hopen : s.rest = t.text ++ (tag.render false ++ (inner.render ++ '<' :: u)) := by
      simp [hs, Hole.before, ← hclose]
    rw [foundFrom_opening_content _ hm t tag hopen,
      foundFrom_content _ _ (m := m.deeper 1) hm (goesOn_deeper m 0) inner rfl, ← hclose,
      foundFrom_closing_innermost _ hm hd tag space rfl, ih _ _ hm hd rfl]
    simp [Hole.beforePart, Hole.before, Hole.opened, tagPart, contentPart, Nat.add_assoc]

theorem foundFrom_after (h : Hole) (hm : m.stage = .content) (hd : m.GoesOn)
    (hs : s.rest = h.after ++ '<' :: rest) :
    foundFrom (h.opened ++ parent :: outer) (m.deeper h.opened.length) s =
      (h.afterPart parent).found s.offset ++
        foundFrom (parent :: outer) m (s.past h.after ('<' :: rest)) := by
  induction h generalizing m s parent outer rest with
  | here cut whole after joined => exact foundFrom_content _ _ hm hd after hs
  | leaf t l more ih => exact ih _ _ hm hd hs
  | inside t tag inner space more ih =>
    obtain ⟨u, hclose⟩ := tag.exists_closing_append space (more.render ++ '<' :: rest)
    have hinner : s.rest = inner.after ++ '<' :: u := by
      simp [hs, Hole.after, ← hclose]
    have hread := ih (parent :: outer) tag.name.text (m := m.deeper 1) hm (goesOn_deeper m 0) hinner
    have hopened : (Hole.inside t tag inner space more).opened ++ parent :: outer =
        inner.opened ++ tag.name.text :: parent :: outer := by
      simp [Hole.opened]
    have hdepth : m.deeper (Hole.inside t tag inner space more).opened.length =
        (m.deeper 1).deeper inner.opened.length := by
      simp [Hole.opened, deeper_deeper]
    rw [hopened, hdepth, hread, ← hclose, foundFrom_closing_innermost _ hm hd tag space rfl,
      foundFrom_content _ _ hm hd more rfl]
    simp [Hole.afterPart, Hole.after, Hole.afterPart_text, Nat.add_assoc]
  | element t tag inner space more ih => exact ih _ _ hm hd hs

def Markup.Mode.inside (n : Nat) : Mode :=
  ⟨if n = 0 then .afterRoot else .content, n, false⟩

theorem tagClosed_inside (n : Nat) : (Mode.inside (n + 1)).tagClosed = .inside n := by
  cases n <;> rfl

theorem deeper_inside (n k : Nat) : (Mode.inside (n + 1)).deeper k = .inside (n + k + 1) := by
  simp only [Mode.deeper, Mode.inside, Nat.succ_ne_zero, if_false, Mode.mk.injEq, true_and, and_true]
  omega

/-- After a stray closing tag one element too few counts as open. -/
theorem foundFrom_within (h : Hole) (hs : s.rest = h.within ++ rest) :
    foundFrom (h.opened ++ parent :: outer) (.inside h.opened.length) s =
      (h.withinPart parent).found s.offset ++
        foundFrom (parent :: outer) (.inside 0) (s.past h.within rest) := by
  induction h with
  | here cut whole after joined =>
    have hpast : s.past [] rest = s := by
      rw [← Cursor.past_nil s, hs]
      rfl
    change foundFrom (parent :: outer) (.inside 0) s = _
    simp [Hole.withinPart, Hole.within, hpast]
  | leaf t l more ih => exact ih hs
  | inside t tag inner space more ih =>
    obtain ⟨u, hclose⟩ := tag.exists_closing_append space rest
    have hinner : s.rest = inner.after ++ '<' :: u := by
      simp [hs, Hole.within, ← hclose]
    have hread := foundFrom_after (parent :: outer) tag.name.text inner (m := .inside 1) rfl
      (.inl Nat.one_pos) hinner
    have hopened : (Hole.inside t tag inner space more).opened ++ parent :: outer =
        inner.opened ++ tag.name.text :: parent :: outer := by
      simp [Hole.opened]
    have hdepth : Mode.inside (Hole.inside t tag inner space more).opened.length =
        (Mode.inside 1).deeper inner.opened.length := by
      simp [Hole.opened, deeper_inside]
    rw [hopened, hdepth, hread, ← hclose, foundFrom_closing _ (m := .inside 1) rfl tag space rfl,
      close_innermost, tagClosed_inside]
    simp [Hole.withinPart, Hole.within]
  | element t tag inner space more ih => exact ih hs

theorem foundFrom_stray (h : Hole) (stray : StartTag) (gap : Spaces)
    (hstray : stray.name.text ∉ h.opened ++ parent :: outer)
    (hs : s.rest = h.before ++ (stray.closing gap ++ (h.within ++ rest))) :
    foundFrom (parent :: outer) (.inside 1) s =
      (h.beforePart parent).found s.offset ++
        ((h.withinPart parent).found (s.offset + (h.before ++ stray.closing gap).byteSize) ++
          foundFrom (parent :: outer) (.inside 0)
            (s.past (h.before ++ stray.closing gap ++ h.within) rest)) := by
  obtain ⟨u, hu⟩ := stray.exists_closing_append gap (h.within ++ rest)
  have hstage : ((Mode.inside 1).deeper h.opened.length).stage = .content := rfl
  have hbefore : s.rest = h.before ++ '<' :: u := by
    rw [hs, hu]
  rw [foundFrom_before _ _ h rfl (.inl Nat.one_pos) hbefore, ← hu,
    foundFrom_closing _ hstage stray gap rfl, close_of_not_mem hstray, deeper_inside,
    Nat.zero_add, tagClosed_inside, foundFrom_within _ _ h rfl]
  simp

/-! After the end of the document. -/

theorem ofEvents_of_no_attributes {es : List Event} (h : es.flatMap Event.attributes = [])
    (opened : List Text) : ofEvents opened es = [] := by
  induction es generalizing opened with
  | nil => rfl
  | cons e es ih =>
    rw [List.flatMap_cons, List.append_eq_nil_iff] at h
    cases e with
    | opened tag =>
      have htag : tag.attributes = [] := h.1
      simp [ofEvents, inTag, htag, ih h.2]
    | closed name => exact ih h.2 _
    | text content => exact ih h.2 _
    | fault f => exact ih h.2 _

theorem foundFrom_of_no_quote (h : ∀ c ∈ s.rest, isQuote c = false) : foundFrom opened m s = [] :=
  ofEvents_of_no_attributes ((laid_events m s).eq_nil_of_no_quote h) opened

theorem start_of_mem_foundFrom {o : Occurrence} (h : o ∈ foundFrom opened m s) :
    s.offset ≤ o.start := by
  obtain ⟨pieces, -, -, hpieces⟩ := cut_ofEvents (laid_events m s) opened
  rw [foundFrom, hpieces] at h
  exact (within_of_mem_occurrencesIn h).1

theorem no_quote_closing (tag : StartTag) (space tail : Spaces) :
    ∀ c ∈ tag.closing space ++ tail.text, isQuote c = false := by
  intro c hc
  by_contra hquote
  rw [Bool.not_eq_false] at hquote
  have hname : c ∉ tag.name.text := by
    intro hmem
    have hchar := List.all_eq_true.1 tag.name.all_isNameChar c hmem
    rw [not_isNameChar_of_isQuote hquote] at hchar
    contradiction
  have hspace : ∀ space : Spaces, c ∉ space.text := by
    intro space hmem
    have hchar := List.all_eq_true.1 space.valid c hmem
    rw [not_isSpace_of_isQuote hquote] at hchar
    contradiction
  have hmarks : c ∉ "</".toList ∧ c ∉ ">".toList := by
    rcases isQuote_iff.1 hquote with rfl | rfl <;> decide
  simp only [StartTag.closing, List.mem_append] at hc
  rcases hc with (((hc | hc) | hc) | hc) | hc
  · exact hmarks.1 hc
  · exact hname hc
  · exact hspace space hc
  · exact hmarks.2 hc
  · exact hspace tail hc

theorem contentPart_first (c : Content) :
    contentPart parent c = (Part.bare c.first.text).append (contentPart parent c.later) := by
  have hfirst : c.first.text = c.first.text ++ c.later.first.text := by
    rw [c.first_later, List.append_nil]
  rw [← contentPart_withFirst parent hfirst, c.withFirst_later]

theorem foundFrom_resumed (c : Content) (tag : StartTag) (space tail : Spaces)
    (hne : c.first.text ≠ []) (hc : c.first.text.all isSpace = true → c.leadsWithComment = false)
    (hs : s.rest = c.render ++ (tag.closing space ++ tail.text)) :
    foundFrom (parent :: outer) (.inside 0) s = (contentPart parent c).found s.offset := by
  obtain ⟨u, hu⟩ := c.exists_later_append tag space tail.text
  obtain ⟨v, hv⟩ := tag.exists_closing_append space tail.text
  have hfirst : s.rest = c.first.text ++ '<' :: u := by
    rw [hs, c.render_eq_first, List.append_assoc, hu]
  have hquiet : ∀ d ∈ '<' :: v, isQuote d = false := by
    rw [← hv]
    exact no_quote_closing tag space tail
  obtain ⟨f, hf⟩ := events_afterRoot_of_text (m := .inside 0) rfl c.first hne hfirst
    fun hspace s' hs' => aside?_of_later c tag space (hc hspace) (hs'.trans hu.symm)
  have hresumed : foundFrom (parent :: outer) (.inside 0) s =
      foundFrom (parent :: outer) .resumed (s.past c.first.text ('<' :: u)) := by
    rw [foundFrom, hf]
    rfl
  rw [hresumed, ← hu, hv, foundFrom_content _ _ (m := .resumed) rfl (.inr rfl) c.later rfl,
    foundFrom_of_no_quote _ hquiet, contentPart_first parent c]
  simp

theorem foundFrom_afterRoot_of_comment (space : Spaces) (c : Comment)
    (h : s.rest = space.text ++ (c.render ++ rest)) :
    foundFrom opened (.inside 0) s =
      foundFrom opened (.inside 0) (s.past (space.text ++ c.render) rest) := by
  rw [foundFrom, lexemesFrom_of_token (next_afterRoot_of_comment rfl space c h)]
  rfl

theorem foundFrom_spared (c : Content) (hc : c.Spared) (tag : StartTag) (space tail : Spaces)
    (hs : s.rest = c.render ++ (tag.closing space ++ tail.text)) :
    foundFrom (parent :: outer) (.inside 0) s = (contentPart parent c).found s.offset := by
  induction c generalizing s with
  | last t =>
    by_cases hne : t.text = []
    · have hnone : (contentPart parent (.last t)).found s.offset = [] := rfl
      rw [hnone]
      refine foundFrom_of_no_quote _ ?_
      simpa [hs, Content.render, hne] using no_quote_closing tag space tail
    · exact foundFrom_resumed outer parent _ tag space tail hne (fun _ => rfl) hs
  | leaf t l more ih =>
    cases l with
    | comment k =>
      by_cases hspace : t.text.all isSpace = true
      · have hcomment : s.rest =
            t.text ++ (k.render ++ (more.render ++ (tag.closing space ++ tail.text))) := by
          simp [hs, Content.render, Leaf.render]
        rw [foundFrom_afterRoot_of_comment _ ⟨t.text, hspace⟩ k hcomment, ih (hc hspace) rfl,
          contentPart_leaf]
        simp [leafPart, Leaf.tags, inTags, Leaf.render, Nat.add_assoc]
      · have hne : t.text ≠ [] := by
          intro hnil
          exact hspace (by rw [hnil]; rfl)
        exact foundFrom_resumed outer parent _ tag space tail hne (fun h => absurd h hspace) hs
    | cdata d => exact foundFrom_resumed outer parent _ tag space tail hc (fun _ => rfl) hs
    | empty tag' => exact foundFrom_resumed outer parent _ tag space tail hc (fun _ => rfl) hs
  | element t tag' inner space' more =>
    exact foundFrom_resumed outer parent _ tag space tail hc (fun _ => rfl) hs

theorem start_of_mem_foundFrom_lost (tag : StartTag) (isEmpty : Bool)
    (hs : s.rest = tag.render isEmpty ++ rest) {o : Occurrence}
    (ho : o ∈ foundFrom opened (.inside 0) s) :
    s.offset + (tag.render isEmpty).byteSize ≤ o.start := by
  obtain ⟨f, s', hoffset, hf⟩ := events_afterRoot_of_tag (m := .inside 0) rfl tag isEmpty hs
  rw [foundFrom, hf] at ho
  exact hoffset.trans (start_of_mem_foundFrom opened (m := .resumed) ho)

end Reading

namespace Markup.TreeHole

variable (d : TreeHole)

/-- The byte at which the document ends for its reader if a stray closing tag is put at the place. -/
def stop (text : Text) : Nat :=
  (d.before ++ text ++ d.hole.within).byteSize

def ending (text : Text) : Cursor :=
  ⟨d.stop text, d.hole.remaining.render ++ (d.root.closing d.space ++ d.tail.text)⟩

def kept (text : Text) : List Occurrence :=
  d.beforePart.found 0 ++
    (d.hole.withinPart d.root.name.text).found (d.before.byteSize + text.byteSize)

theorem kept_before_stop {text : Text} {o : Occurrence} (ho : o ∈ d.kept text) :
    o.start < d.stop text ∧ o.stop ≤ d.stop text := by
  rw [stop, Text.byteSize_append, Text.byteSize_append]
  rcases List.mem_append.1 ho with ho | ho
  · have hbefore := d.inPieces_before.within_of_mem ho
    rw [beforePart_text] at hbefore
    omega
  · have hwithin := (d.hole.inPieces_within _).within_of_mem ho
    rw [Hole.withinPart_text] at hwithin
    omega

theorem moved_eq_kept (text : Text) :
    d.moved text =
      d.kept text ++ (contentPart d.root.name.text d.hole.remaining).found (d.stop text) := by
  rw [moved_eq, afterPart, Hole.afterPart_eq, kept]
  simp [stop, Hole.withinPart_text, Nat.add_assoc]

def found (text : Text) : List Occurrence :=
  ofDocument (d.filled text)

theorem found_stray (stray : StrayTag) (hstray : stray.name.text ∉ d.opened) :
    d.found stray.render =
      d.kept stray.render ++
        foundFrom [d.root.name.text] (.inside 0) (d.ending stray.render) := by
  let inside : Text := d.hole.before ++ (stray.render ++
    (d.hole.within ++ (d.ending stray.render).rest))
  have hfilled : d.filled stray.render = d.prolog.render ++ (d.root.render false ++ inside) := by
    simp [filled, before, after, Hole.after_eq, inside, ending]
  obtain ⟨u, hroot, hstop⟩ := d.root.exists_render_append false inside
  have hprolog : (⟨0, d.filled stray.render⟩ : Cursor).past d.prolog.render
      ('<' :: (d.root.name.text ++ u)) =
        ⟨d.prolog.render.byteSize, d.root.render false ++ inside⟩ := by
    rw [hroot]
    simp [Cursor.past]
  have hstep := step_beforeRoot (s := ⟨d.prolog.render.byteSize, d.root.render false ++ inside⟩)
    d.root.name hroot
  have hmode : Mode.beforeRoot.afterTag false = .inside 1 := rfl
  calc d.found stray.render
    _ = foundFrom [] .beforeRoot ⟨d.prolog.render.byteSize, d.root.render false ++ inside⟩ := by
      rw [← hprolog, foundFrom, ← events_prolog d.prolog d.root.name hstop (by rw [hfilled, hroot])]
      rfl
    _ = _ := by
      rw [foundFrom_opening [] hstep d.root rfl, hmode,
        foundFrom_stray [] d.root.name.text d.hole ⟨stray.name, [], .none⟩ stray.gap hstray rfl]
      simp [kept, beforePart, before, ending, stop, tagPart, Cursor.past, Nat.add_assoc,
        StrayTag.render]

/-- A closing tag that no open element has opened ends a document too early for its reader: after
the element of the root's content that the place is in, or at the place itself. Up to there it moves
the variables only, and also from there on if text keeps apart what follows. A tag that follows
directly is lost with its variables. -/
theorem variables_around_stray (stray : StrayTag) (hstray : stray.name.text ∉ d.opened) :
    (d.found stray.render).filter (·.start < d.stop stray.render) =
        (d.moved stray.render).filter (·.start < d.stop stray.render) ∧
      (d.hole.remaining.Spared → d.found stray.render = d.moved stray.render) ∧
      ∀ (tag : StartTag) (isEmpty : Bool) (rest : Text),
        d.hole.remaining.render = tag.render isEmpty ++ rest → ∀ o ∈ d.found stray.render,
          o.stop ≤ d.stop stray.render ∨
            d.stop stray.render + (tag.render isEmpty).byteSize ≤ o.start := by
  have hfound := d.found_stray stray hstray
  have hmoved := d.moved_eq_kept stray.render
  refine ⟨?_, fun hspared => ?_, fun tag isEmpty rest hrest o ho => ?_⟩
  · have hlost : (foundFrom [d.root.name.text] (.inside 0) (d.ending stray.render)).filter
        (·.start < d.stop stray.render) = [] := by
      refine List.filter_eq_nil_iff.2 fun o ho => ?_
      have hstart : d.stop stray.render ≤ o.start := start_of_mem_foundFrom _ ho
      simpa using hstart
    have hlater : ((contentPart d.root.name.text d.hole.remaining).found
        (d.stop stray.render)).filter (·.start < d.stop stray.render) = [] := by
      refine List.filter_eq_nil_iff.2 fun o ho => ?_
      have hstart := ((inPieces_content _ _).within_of_mem ho).1
      simpa using hstart
    rw [hfound, hmoved, List.filter_append, List.filter_append, hlost, hlater]
  · rw [hfound, hmoved, foundFrom_spared [] d.root.name.text d.hole.remaining hspared d.root d.space
      d.tail rfl]
    rfl
  · rw [hfound] at ho
    rcases List.mem_append.1 ho with ho | ho
    · exact .inl (d.kept_before_stop ho).2
    · have hending : (d.ending stray.render).rest =
          tag.render isEmpty ++ (rest ++ (d.root.closing d.space ++ d.tail.text)) := by
        rw [ending, hrest, List.append_assoc]
      exact .inr (start_of_mem_foundFrom_lost _ tag isEmpty hending ho)

def beforeTag (t : CharData) : TreeHole where
  prolog := .none
  root := ⟨⟨none, .letter 's' rfl⟩, [], .none⟩
  hole := .here .none t
    (.leaf t (.empty (.withAttribute (.letter 'c' rfl) (.letter 'x' rfl) .double "$v".toList rfl))
      (.last .none))
    rfl
  space := .none
  tail := .none

def strayZ : StrayTag :=
  ⟨⟨none, .letter 'z' rfl⟩, .none⟩

theorem stray_before_space :
    strayZ.name.text ∉ (beforeTag ⟨[' '], rfl, rfl⟩).opened ∧
      (beforeTag ⟨[' '], rfl, rfl⟩).found strayZ.render = [⟨.plain, ['v'], 14, 16⟩] := by
  have hstray : strayZ.name.text ∉ (beforeTag ⟨[' '], rfl, rfl⟩).opened := by decide
  have hspared : (beforeTag ⟨[' '], rfl, rfl⟩).hole.remaining.Spared := by
    simp [beforeTag, Hole.remaining, Content.Spared]
  refine ⟨hstray, ?_⟩
  exact ((variables_around_stray _ strayZ hstray).2.1 hspared).trans (by decide +kernel)

theorem stray_before_tag :
    strayZ.name.text ∉ (beforeTag .none).opened ∧
      (beforeTag .none).filled strayZ.render = "<s></z><c x=\"$v\"/></s>".toList ∧
      (beforeTag .none).moved strayZ.render = [⟨.plain, ['v'], 13, 15⟩] ∧
      (beforeTag .none).found strayZ.render = [] := by
  decide +kernel

end Markup.TreeHole

end ScriptLens
