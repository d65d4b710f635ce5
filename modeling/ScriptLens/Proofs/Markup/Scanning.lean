import ScriptLens.Proofs.Markup.Written

/-!
What a scan reads where a part of a tree is written. Each construct is one lexeme or a few, whatever
comes after it; `events_content` is the induction over the tree. `events_prolog` and `events_root`
are what a whole document is put together from.
-/

namespace ScriptLens.Markup

/-! One attempt at a token, as lexemes. -/

theorem lexemesFrom_eq (m : Mode) (s : Cursor) :
    lexemesFrom m s =
      match next m s with
      | .finish => []
      | .token t m' s' => .token t s'.offset :: lexemesFrom m' s'
      | .fail f => .fault f s.skipped s.resumption.offset :: lexemesFrom .resumed s.resumption := by
  rw [lexemesFrom]
  split <;> simp_all

theorem next_of_nil {m : Mode} {s : Cursor} (hs : s.rest = []) : next m s = .finish := by
  rw [next, dif_pos hs]

theorem next_of_token {m m' : Mode} {s s' : Cursor} {t : Token} (hs : s.rest ≠ [])
    (h : step m s = .token t m' s') : next m s = .token t m' s' := by
  rw [next, dif_neg hs]
  split <;> simp_all

theorem next_of_skip {m m' : Mode} {s s' : Cursor} (hs : s.rest ≠ [])
    (h : step m s = .skip m' s') : next m s = next m' s' := by
  rw [next, dif_neg hs]
  split <;> simp_all

theorem lexemesFrom_of_finish {m : Mode} {s : Cursor} (h : next m s = .finish) :
    lexemesFrom m s = [] := by
  rw [lexemesFrom_eq, h]

theorem lexemesFrom_of_token {m m' : Mode} {s s' : Cursor} {t : Token}
    (h : next m s = .token t m' s') :
    lexemesFrom m s = .token t s'.offset :: lexemesFrom m' s' := by
  rw [lexemesFrom_eq, h]

theorem Step.reading_of_ok {α : Type} {construct : Construct} {s s' : Cursor} {r : Reader α}
    {token : α → Token} {mode : α → Mode} {a : α} (h : r s = .ok (a, s')) :
    reading construct s r token mode = .token (token a) (mode a) s' := by
  unfold reading
  rw [h]

/-! What an attempt reads, told by the characters it begins with. -/

section Attempts

variable {m : Mode} {s : Cursor} {rest : Text}

theorem aside?_of_not_angle (h : Stops (· == '<') s.rest) : aside? m s = none := by
  obtain ⟨offset, t⟩ := s
  cases t with
  | nil => simp [aside?, Cursor.startsWith]
  | cons c t =>
    have hc : c ≠ '<' := by simpa using h
    have ha : ¬ '<' = c := hc.symm
    simp [aside?, Cursor.startsWith, ha]

theorem aside?_of_angle {c : Char} (h : s.rest = '<' :: c :: rest) (hbang : c ≠ '!')
    (hmark : c ≠ '?') : aside? m s = none := by
  obtain ⟨offset, t⟩ := s
  change t = '<' :: c :: rest at h
  subst h
  have hb : ¬ '!' = c := hbang.symm
  have hm : ¬ '?' = c := hmark.symm
  simp [aside?, Cursor.startsWith, hb, hm]

theorem aside?_of_comment (c : Comment) (h : s.rest = c.render ++ rest) :
    aside? m s = some (.token .aside m (s.past c.render rest)) := by
  have hs : s.startsWith "<!--".toList = true := by
    unfold Cursor.startsWith
    rw [h]
    unfold Comment.render
    simp
  unfold aside?
  rw [if_pos hs, Step.reading_of_ok (Reader.comment_of_rest c h)]

theorem QualifiedName.first (n : QualifiedName) :
    ∃ c t, n.text = c :: t ∧ c ≠ '!' ∧ c ≠ '?' ∧ c ≠ '/' := by
  obtain ⟨c, t, ht, hc⟩ := n.exists_cons
  exact ⟨c, t, ht, Reader.ne_of_isNameStart hc (by decide), Reader.ne_of_isNameStart hc (by decide),
    Reader.ne_of_isNameStart hc (by decide)⟩

theorem aside?_of_name (n : QualifiedName) (h : s.rest = '<' :: (n.text ++ rest)) :
    aside? m s = none := by
  obtain ⟨c, t, ht, hbang, hmark, _⟩ := n.first
  have h' : s.rest = '<' :: c :: (t ++ rest) := by simp [h, ht]
  exact aside?_of_angle h' hbang hmark

theorem contentStep_of_tag (n : QualifiedName) (h : s.rest = '<' :: (n.text ++ rest)) :
    Stage.contentStep m s = tagStep m s := by
  obtain ⟨c, t, ht, hbang, _, hslash⟩ := n.first
  have h' : s.rest = '<' :: c :: (t ++ rest) := by simp [h, ht]
  unfold Stage.contentStep
  rw [aside?_of_name n h]
  simp [Cursor.startsWith, h', hbang.symm, hslash.symm]

theorem beforeRootStep_of_tag (n : QualifiedName) (h : s.rest = '<' :: (n.text ++ rest)) :
    Stage.beforeRootStep m s = tagStep m s := by
  obtain ⟨c, t, ht, hbang, _, _⟩ := n.first
  have h' : s.rest = '<' :: c :: (t ++ rest) := by simp [h, ht]
  have hgap : gap? m s = none := by
    unfold gap?
    rw [h']
    simp only
    rw [if_neg (by decide)]
  unfold Stage.beforeRootStep
  rw [aside?_of_name n h, hgap]
  simp [Cursor.startsWith, h', hbang.symm]

theorem contentStep_of_text (t : CharData) (hne : t.text ≠ []) (h : s.rest = t.text ++ '<' :: rest) :
    Stage.contentStep m s = .token (.text t.text) m (s.past t.text ('<' :: rest)) := by
  obtain ⟨c, u, hcu⟩ := List.exists_cons_of_ne_nil hne
  have hc : c ≠ '<' := by
    have hv := List.all_eq_true.1 t.valid c (by simp [hcu])
    simp only [Bool.and_eq_true, bne_iff_ne] at hv
    exact hv.2
  have h' : s.rest = c :: (u ++ '<' :: rest) := by simp [h, hcu]
  unfold Stage.contentStep
  rw [aside?_of_not_angle (by simpa [h'] using hc)]
  have hread : Step.reading .text s .text id (fun _ => m) =
      .token (.text t.text) m (s.past t.text ('<' :: rest)) :=
    Step.reading_of_ok (Reader.text_of_rest t h)
  simp [Cursor.startsWith, h', hc.symm, hc, hread]

theorem CharSection.exists_render_append (t : CharSection) (rest : Text) :
    ∃ u, t.render ++ rest = "<![CDATA[".toList ++ u := by
  refine ⟨t.text ++ ("]]>".toList ++ rest), ?_⟩
  unfold render
  rw [List.append_assoc, List.append_assoc]

theorem aside?_of_cdata (t : CharSection) (h : s.rest = t.render ++ rest) :
    aside? m s = none := by
  obtain ⟨u, hu⟩ := t.exists_render_append rest
  simp [aside?, Cursor.startsWith, h, hu]

theorem contentStep_of_cdata (t : CharSection) (h : s.rest = t.render ++ rest) :
    Stage.contentStep m s = .token (.cdata t.text) m (s.past t.render rest) := by
  obtain ⟨u, hu⟩ := t.exists_render_append rest
  unfold Stage.contentStep
  rw [aside?_of_cdata t h, Option.getD_none,
    if_pos (by unfold Cursor.startsWith; rw [h, hu]; simp),
    Step.reading_of_ok (Reader.cdata_of_rest t h)]

theorem aside?_of_closing (tag : StartTag) (space : Spaces)
    (h : s.rest = tag.closing space ++ rest) : aside? m s = none := by
  have hs : s.rest = '<' :: '/' :: (tag.name.text ++ (space.text ++ '>' :: rest)) := by
    simp [h, StartTag.closing]
  exact aside?_of_angle hs (by decide) (by decide)

theorem contentStep_of_closing (tag : StartTag) (space : Spaces)
    (h : s.rest = tag.closing space ++ rest) :
    Stage.contentStep m s = .token (.closeTag tag.name.text) m.tagClosed
      (s.past (tag.closing space) rest) := by
  have hs : ∃ u, s.rest = '<' :: '/' :: u := by
    refine ⟨tag.name.text ++ (space.text ++ '>' :: rest), ?_⟩
    simp [h, StartTag.closing]
  obtain ⟨u, hu⟩ := hs
  unfold Stage.contentStep
  rw [aside?_of_closing tag space h]
  have hread : Step.reading .element s .closeTag id (fun _ => m.tagClosed) =
      .token (.closeTag tag.name.text) m.tagClosed (s.past (tag.closing space) rest) :=
    Step.reading_of_ok (Reader.closeTag_of_rest tag space h)
  simp [Cursor.startsWith, hu, hread]

end Attempts

/-! The events of a construct, in front of those of all that follows. -/

section Constructs

variable {m : Mode} {s : Cursor} {rest : Text}

theorem step_content (hm : m.stage = .content) : step m s = Stage.contentStep m s := by
  unfold step
  rw [hm]

theorem step_tag (hm : m.stage = .tag) :
    step m s = .reading .attribute s .tagPart id m.afterPart := by
  unfold step
  rw [hm]

theorem events_text (hm : m.stage = .content) (t : CharData) (h : s.rest = t.text ++ '<' :: rest) :
    events none (lexemesFrom m s) =
      t.events ++ events none (lexemesFrom m (s.past t.text ('<' :: rest))) := by
  by_cases hne : t.text = []
  · have hs : s.past t.text ('<' :: rest) = s := by
      rw [hne, List.nil_append] at h
      rw [hne, ← h, Cursor.past_nil]
    rw [hs]
    simp [CharData.events, hne]
  · have hstep : step m s = .token (.text t.text) m (s.past t.text ('<' :: rest)) := by
      rw [step_content hm, contentStep_of_text t hne h]
    rw [lexemesFrom_of_token (next_of_token (by simp [h]) hstep)]
    simp [CharData.events, hne, events]

theorem events_attributes (hm : m.stage = .tag) (as : List WrittenAttribute) (tag : Tag)
    (h : s.rest = as.flatMap WrittenAttribute.render ++ rest) :
    events (some tag) (lexemesFrom m s) =
      events (some { tag with
          attributes := tag.attributes ++ WrittenAttribute.placeAll s.offset as })
        (lexemesFrom m (s.past (as.flatMap WrittenAttribute.render) rest)) := by
  induction as generalizing s tag with
  | nil =>
    rw [List.flatMap_nil, List.nil_append] at h
    simp [WrittenAttribute.placeAll, ← h, Cursor.past_nil]
  | cons a as ih =>
    have ha : s.rest = a.render ++ (as.flatMap WrittenAttribute.render ++ rest) := by
      simpa using h
    have hne : s.rest ≠ [] := by
      simp [ha, WrittenAttribute.render]
    have hstep : step m s = .token (.attribute (a.placed s.offset)) m
        (s.past a.render (as.flatMap WrittenAttribute.render ++ rest)) := by
      rw [step_tag hm, Step.reading_of_ok (Reader.tagPart_of_attribute a ha)]
      rfl
    rw [lexemesFrom_of_token (next_of_token hne hstep)]
    simp only [events, Option.map_some]
    rw [ih _ rfl]
    simp [Tag.push, WrittenAttribute.placeAll]

def Mode.afterTag (m : Mode) (isEmpty : Bool) : Mode :=
  if isEmpty then m.leave else { m with depth := m.depth + 1 }.leave

theorem events_ending (hm : m.stage = .tag) (space : Spaces) (isEmpty : Bool) (tag : Tag)
    (h : s.rest = space.text ++ (StartTag.ending isEmpty ++ rest)) :
    events (some tag) (lexemesFrom m s) =
      tag.finish (s.past (space.text ++ StartTag.ending isEmpty) rest).offset isEmpty ++
        events none (lexemesFrom (m.afterTag isEmpty)
          (s.past (space.text ++ StartTag.ending isEmpty) rest)) := by
  have hne : s.rest ≠ [] := by
    cases isEmpty <;> simp [h, StartTag.ending]
  have hread := Reader.tagPart_of_ending space isEmpty h
  have hstep : step m s = .token (if isEmpty then .emptyTagEnd else .tagEnd)
      (m.afterTag isEmpty) (s.past (space.text ++ StartTag.ending isEmpty) rest) := by
    rw [step_tag hm, Step.reading_of_ok hread]
    cases isEmpty <;> rfl
  rw [lexemesFrom_of_token (next_of_token hne hstep)]
  cases isEmpty <;> simp [events, finishPending]

theorem StartTag.stops_isNameChar (tag : StartTag) (isEmpty : Bool) (rest : Text) :
    Stops isNameChar (tag.attributes.flatMap WrittenAttribute.render ++
      (tag.tail.text ++ (StartTag.ending isEmpty ++ rest))) := by
  cases tag.attributes with
  | nil =>
    exact tag.tail.stops_isNameChar
      (StartTag.ending_stops (by decide) (by decide) isEmpty rest)
  | cons a as =>
    rw [List.flatMap_cons, List.append_assoc]
    exact a.stops_isNameChar _

theorem StartTag.exists_render_append (tag : StartTag) (isEmpty : Bool) (rest : Text) :
    ∃ u, tag.render isEmpty ++ rest = '<' :: (tag.name.text ++ u) ∧ Stops isNameChar u := by
  refine ⟨_, ?_, tag.stops_isNameChar isEmpty rest⟩
  simp [render]

theorem events_startTag (tag : StartTag) (isEmpty : Bool) (hs : step m s = tagStep m s)
    (h : s.rest = tag.render isEmpty ++ rest) :
    events none (lexemesFrom m s) =
      (.opened (tag.placed isEmpty s.offset) :: if isEmpty then [.closed tag.name.text] else []) ++
        events none (lexemesFrom (m.afterTag isEmpty) (s.past (tag.render isEmpty) rest)) := by
  have h' : s.rest = '<' :: (tag.name.text ++ (tag.attributes.flatMap WrittenAttribute.render ++
      (tag.tail.text ++ (StartTag.ending isEmpty ++ rest)))) := by
    simp [h, StartTag.render]
  have hstep : step m s = .token (.tagStart tag.name.text s.offset) (m.enter .tag)
      (s.past ('<' :: tag.name.text) (tag.attributes.flatMap WrittenAttribute.render ++
        (tag.tail.text ++ (StartTag.ending isEmpty ++ rest)))) := by
    rw [hs]
    exact Step.reading_of_ok (Reader.tagStart_of_rest tag.name h' (tag.stops_isNameChar isEmpty rest))
  have hmode : (m.enter .tag).afterTag isEmpty = m.afterTag isEmpty := by
    cases isEmpty <;> rfl
  rw [lexemesFrom_of_token (next_of_token (by simp [h']) hstep)]
  simp only [events]
  rw [events_attributes rfl tag.attributes _ rfl, events_ending rfl tag.tail isEmpty _ rfl, hmode]
  simp only [Cursor.past_past, Cursor.offset_past, Tag.finish, StartTag.placed, StartTag.render,
    List.append_assoc, List.nil_append, List.cons_append]

theorem StartTag.exists_closing_append (tag : StartTag) (space : Spaces) (rest : Text) :
    ∃ u, tag.closing space ++ rest = '<' :: u := by
  unfold closing
  simp only [List.append_assoc]
  exact ⟨_, rfl⟩

theorem events_closing (hm : m.stage = .content) (tag : StartTag) (space : Spaces)
    (h : s.rest = tag.closing space ++ rest) :
    events none (lexemesFrom m s) = .closed tag.name.text ::
      events none (lexemesFrom m.tagClosed (s.past (tag.closing space) rest)) := by
  have hne : s.rest ≠ [] := by
    simp [h, StartTag.closing]
  have hstep : step m s = .token (.closeTag tag.name.text) m.tagClosed
      (s.past (tag.closing space) rest) := by
    rw [step_content hm, contentStep_of_closing tag space h]
  rw [lexemesFrom_of_token (next_of_token hne hstep)]
  rfl

/-- What is inside an element does not end the document, and in a fragment nothing does. -/
def Mode.GoesOn (m : Mode) : Prop :=
  0 < m.depth ∨ m.fragment = true

theorem Mode.afterTag_true (hm : m.stage = .content) (hd : m.GoesOn) : m.afterTag true = m := by
  obtain ⟨stage, depth, fragment⟩ := m
  have hz : depth = 0 → fragment = true := fun h => hd.resolve_left (by simp [h])
  cases hm
  simpa [afterTag, leave, enter] using hz

theorem Mode.afterTag_false (m : Mode) :
    m.afterTag false = ⟨.content, m.depth + 1, m.fragment⟩ := by
  simp [afterTag, leave, enter]

theorem Mode.tagClosed_afterTag (hm : m.stage = .content) (hd : m.GoesOn) :
    (m.afterTag false).tagClosed = m := by
  obtain ⟨stage, depth, fragment⟩ := m
  have hz : depth = 0 → fragment = true := fun h => hd.resolve_left (by simp [h])
  cases hm
  simpa [afterTag_false, tagClosed, leave, enter] using hz

theorem Leaf.exists_cons (l : Leaf) : ∃ t, l.render = '<' :: t := by
  cases l with
  | comment c => exact ⟨_, by unfold render Comment.render; simp; rfl⟩
  | cdata t => exact ⟨_, by unfold render CharSection.render; simp; rfl⟩
  | empty tag => exact ⟨_, by unfold render StartTag.render; simp; rfl⟩

theorem events_leaf (hm : m.stage = .content) (hd : m.GoesOn) (l : Leaf)
    (h : s.rest = l.render ++ rest) :
    events none (lexemesFrom m s) =
      l.events s.offset ++ events none (lexemesFrom m (s.past l.render rest)) := by
  obtain ⟨t, ht⟩ := l.exists_cons
  have hne : s.rest ≠ [] := by
    simp [h, ht]
  cases l with
  | comment c =>
    have hstep : step m s = .token .aside m (s.past c.render rest) := by
      rw [step_content hm, Stage.contentStep, aside?_of_comment c h, Option.getD_some]
    rw [lexemesFrom_of_token (next_of_token hne hstep)]
    rfl
  | cdata t =>
    have hstep : step m s = .token (.cdata t.text) m (s.past t.render rest) := by
      rw [step_content hm, contentStep_of_cdata t h]
    rw [lexemesFrom_of_token (next_of_token hne hstep)]
    rfl
  | empty tag =>
    obtain ⟨u, hu, _⟩ := tag.exists_render_append true rest
    have hs : step m s = tagStep m s := by
      rw [step_content hm, contentStep_of_tag tag.name (h.trans hu)]
    rw [events_startTag tag true hs h, Mode.afterTag_true hm hd]
    rfl

theorem events_content (c : Content) (hm : m.stage = .content) (hd : m.GoesOn)
    (h : s.rest = c.render ++ '<' :: rest) :
    events none (lexemesFrom m s) =
      c.events s.offset ++ events none (lexemesFrom m (s.past c.render ('<' :: rest))) := by
  induction c generalizing m s rest with
  | last t => exact events_text hm t h
  | leaf t l more ih =>
    obtain ⟨u, hu⟩ := l.exists_cons
    have ht : s.rest = t.text ++ '<' :: (u ++ (more.render ++ '<' :: rest)) := by
      simp [h, Content.render, hu]
    have hl : (s.past t.text ('<' :: (u ++ (more.render ++ '<' :: rest)))).rest =
        l.render ++ (more.render ++ '<' :: rest) := by
      simp [hu]
    rw [events_text hm t ht, events_leaf hm hd l hl, ih hm hd rfl]
    simp [Content.events, Content.render, Nat.add_assoc]
  | element t tag inner space more ihInner ihMore =>
    obtain ⟨u, hopen, _⟩ := tag.exists_render_append false
      (inner.render ++ (tag.closing space ++ (more.render ++ '<' :: rest)))
    obtain ⟨v, hclose⟩ := tag.exists_closing_append space (more.render ++ '<' :: rest)
    have ht : s.rest = t.text ++ '<' :: (tag.name.text ++ u) := by
      simp [h, Content.render, ← hopen]
    have hs : step m (s.past t.text ('<' :: (tag.name.text ++ u))) =
        tagStep m (s.past t.text ('<' :: (tag.name.text ++ u))) := by
      rw [step_content hm, contentStep_of_tag tag.name rfl]
    have hdepth : (m.afterTag false).GoesOn := by
      simp [Mode.GoesOn, Mode.afterTag_false]
    have hstage : (m.afterTag false).stage = .content := by
      simp [Mode.afterTag_false]
    rw [events_text hm t ht, events_startTag tag false hs hopen.symm, hclose,
      ihInner hstage hdepth rfl, events_closing hstage tag space hclose.symm,
      Mode.tagClosed_afterTag hm hd, ihMore hm hd rfl]
    simp [Content.events, Content.render, Nat.add_assoc]

theorem events_root (e : Element) (m : Mode) (hm : m.depth = 0) (hf : m.fragment = false)
    (hs : step m s = tagStep m s) (h : s.rest = e.render ++ rest) :
    events none (lexemesFrom m s) =
      e.events s.offset ++
        events none (lexemesFrom ⟨.afterRoot, 0, false⟩ (s.past e.render rest)) := by
  cases e with
  | empty tag =>
    have hmode : m.afterTag true = ⟨.afterRoot, 0, false⟩ := by
      simp [Mode.afterTag, Mode.leave, Mode.enter, hm, hf]
    rw [events_startTag tag true hs h, hmode]
    rfl
  | paired tag inner space =>
    obtain ⟨u, hclose⟩ := tag.exists_closing_append space rest
    have h' : s.rest = tag.render false ++ (inner.render ++ '<' :: u) := by
      simp [h, Element.render, ← hclose]
    have hmode : m.afterTag false = ⟨.content, 1, false⟩ := by
      rw [Mode.afterTag_false, hm, hf]
    have hclosed : (⟨.content, 1, false⟩ : Mode).tagClosed = ⟨.afterRoot, 0, false⟩ := rfl
    rw [events_startTag tag false hs h', hmode, events_content inner rfl (.inl Nat.one_pos) rfl,
      events_closing rfl tag space hclose.symm, hclosed]
    simp [Element.events, Element.render]

/-! Before and after the root. -/

theorem step_prolog (hm : m.stage = .prolog) (hd : s.startsWith "<!DOCTYPE".toList = false) :
    step m s = (aside? m s <|> gap? m s).getD (.skip (m.enter .beforeRoot) s) := by
  unfold step
  rw [hm]
  unfold Stage.prologStep
  rw [hd]
  rfl

theorem step_of_space (hm : m.stage = .prolog ∨ m.stage = .afterRoot) {c : Char}
    (hc : isSpace c = true) (h : s.rest = c :: rest) :
    step m s = .skip m ((s.past [c] rest).takeWhile isSpace).2 := by
  have hangle : c ≠ '<' := by
    rintro rfl
    simp [isSpace] at hc
  have haside : aside? m s = none := aside?_of_not_angle (by simpa [h] using hangle)
  have hgap : gap? m s = some (.skip m ((s.past [c] rest).takeWhile isSpace).2) := by
    unfold gap?
    rw [h]
    simp [hc]
  have ha : ¬ '<' = c := hangle.symm
  rcases hm with hm | hm
  · have hd : s.startsWith "<!DOCTYPE".toList = false := by
      simp [Cursor.startsWith, h, ha]
    rw [step_prolog hm hd, haside, hgap]
    rfl
  · unfold step
    rw [hm]
    unfold Stage.afterRootStep
    rw [haside, hgap]
    rfl

theorem next_of_spaces (hm : m.stage = .prolog ∨ m.stage = .afterRoot) (space : Spaces)
    (h : s.rest = space.text ++ rest) (hr : Stops isSpace rest) :
    next m s = next m (s.past space.text rest) := by
  obtain ⟨t, ht⟩ := space
  cases t with
  | nil =>
    have hp : s.past [] rest = s := by
      rw [List.nil_append] at h
      rw [← h, Cursor.past_nil]
    rw [hp]
  | cons c t =>
    simp only [List.all_cons, Bool.and_eq_true] at ht
    have h' : s.rest = c :: (t ++ rest) := h
    have hstep : step m s = .skip m (s.past (c :: t) rest) := by
      rw [step_of_space hm ht.1 h']
      simp [Cursor.takeWhile, takeWhile_of_stops ht.2 hr, dropWhile_of_stops ht.2 hr]
    exact next_of_skip (by simp [h']) hstep

theorem lexemesFrom_tail (space : Spaces) (h : s.rest = space.text) (hm : m.stage = .afterRoot) :
    lexemesFrom m s = [] := by
  have hs : s.rest = space.text ++ [] := by simp [h]
  refine lexemesFrom_of_finish ?_
  rw [next_of_spaces (.inr hm) space hs stops_nil, next_of_nil rfl]

/-- What comes next after white space, if it is a token, comes next before it. -/
theorem lexemesFrom_of_next_eq {m' : Mode} {s' : Cursor} (h : next m s = next m' s')
    (ht : ∃ t m₁ s₁, next m' s' = .token t m₁ s₁) : lexemesFrom m s = lexemesFrom m' s' := by
  obtain ⟨t, m₁, s₁, ht⟩ := ht
  rw [lexemesFrom_of_token ht, lexemesFrom_of_token (h.trans ht)]

theorem Comment.exists_cons (c : Comment) : ∃ u, c.render = '<' :: '!' :: '-' :: u := by
  unfold render
  exact ⟨_, rfl⟩

theorem next_of_comment (hm : m.stage = .prolog) (c : Comment) (h : s.rest = c.render ++ rest) :
    next m s = .token .aside m (s.past c.render rest) := by
  obtain ⟨u, hu⟩ := c.exists_cons
  have hd : s.startsWith "<!DOCTYPE".toList = false := by
    simp [Cursor.startsWith, h, hu]
  refine next_of_token (by simp [h, hu]) ?_
  rw [step_prolog hm hd, aside?_of_comment c h]
  rfl

def Mode.beforeRoot : Mode := ⟨.beforeRoot, 0, false⟩

def Mode.prolog : Mode := ⟨.prolog, 0, false⟩

theorem step_beforeRoot (n : QualifiedName) (h : s.rest = '<' :: (n.text ++ rest)) :
    step .beforeRoot s = tagStep .beforeRoot s := by
  unfold step
  exact beforeRootStep_of_tag n h

theorem next_prolog_of_root (n : QualifiedName) (h : s.rest = '<' :: (n.text ++ rest)) :
    next .prolog s = next .beforeRoot s := by
  obtain ⟨c, t, ht, hbang, hmark, _⟩ := n.first
  have h' : s.rest = '<' :: c :: (t ++ rest) := by simp [h, ht]
  have hb : ¬ '!' = c := hbang.symm
  have hd : s.startsWith "<!DOCTYPE".toList = false := by
    simp [Cursor.startsWith, h', hb]
  have hgap : gap? .prolog s = none := by
    unfold gap?
    rw [h']
    simp only
    rw [if_neg (by decide)]
  refine next_of_skip (by simp [h]) ?_
  rw [step_prolog rfl hd, aside?_of_angle h' hbang hmark, hgap]
  rfl

def Prolog.renderComments (cs : List (Comment × Spaces)) : Text :=
  cs.flatMap fun (c, space) => c.render ++ space.text

theorem Prolog.stops_at_comments (accepts : Char → Bool) (ha : accepts '<' = false)
    (cs : List (Comment × Spaces)) (t : Text) : Stops accepts (renderComments cs ++ '<' :: t) := by
  cases cs with
  | nil => simpa [renderComments] using ha
  | cons c cs =>
    obtain ⟨u, hu⟩ := c.1.exists_cons
    simpa [renderComments, hu] using ha

theorem lexemesFrom_comments (cs : List (Comment × Spaces)) (n : QualifiedName)
    (hr : Stops isNameChar rest)
    (h : s.rest = Prolog.renderComments cs ++ '<' :: (n.text ++ rest)) :
    (∃ t m' s', next .prolog s = .token t m' s') ∧
      events none (lexemesFrom .prolog s) =
        events none (lexemesFrom .beforeRoot
          (s.past (Prolog.renderComments cs) ('<' :: (n.text ++ rest)))) := by
  induction cs generalizing s with
  | nil =>
    change s.rest = '<' :: (n.text ++ rest) at h
    have hp : s.past [] ('<' :: (n.text ++ rest)) = s := by
      rw [← h, Cursor.past_nil]
    have hstep : step .beforeRoot s = .token (.tagStart n.text s.offset) (Mode.beforeRoot.enter .tag)
        (s.past ('<' :: n.text) rest) := by
      rw [step_beforeRoot n h]
      exact Step.reading_of_ok (Reader.tagStart_of_rest n h hr)
    have hnext := next_of_token (by simp [h]) hstep
    have hskip := next_prolog_of_root n h
    rw [Prolog.renderComments, List.flatMap_nil, hp, lexemesFrom_of_next_eq hskip ⟨_, _, _, hnext⟩]
    exact ⟨⟨_, _, _, hskip.trans hnext⟩, rfl⟩
  | cons c cs ih =>
    obtain ⟨c, space⟩ := c
    have hc : s.rest = c.render ++ (space.text ++
        (Prolog.renderComments cs ++ '<' :: (n.text ++ rest))) := by
      simp [h, Prolog.renderComments]
    have hstop := Prolog.stops_at_comments isSpace (by decide) cs (n.text ++ rest)
    have hnext := next_of_comment (m := .prolog) rfl c hc
    obtain ⟨htoken, hevents⟩ := ih (s := (s.past c.render _).past space.text _) rfl
    refine ⟨⟨_, _, _, hnext⟩, ?_⟩
    rw [lexemesFrom_of_token hnext, events,
      lexemesFrom_of_next_eq (next_of_spaces (.inl rfl) space rfl hstop) htoken, hevents]
    simp [Prolog.renderComments]

theorem next_document (h : Stops (· == '\uFEFF') s.rest) (hne : s.rest ≠ []) :
    next .document s = next ⟨.declaration, 0, false⟩ s := by
  refine next_of_skip hne ?_
  have hmark : s.after? byteOrderMark = none := by
    obtain ⟨offset, t⟩ := s
    obtain ⟨c, t, rfl⟩ := List.exists_cons_of_ne_nil hne
    have hc : c ≠ '\uFEFF' := by simpa using h
    have hc' : ¬ '\uFEFF' = c := hc.symm
    simp [Cursor.after?, byteOrderMark, Text.after?, hc']
  change Step.skip _ ((s.after? byteOrderMark).getD s) = _
  rw [hmark]
  rfl

section Beginnings

variable (space : Spaces) (cs : List (Comment × Spaces)) (n : QualifiedName)

theorem lexemesFrom_spaced (hr : Stops isNameChar rest)
    (h : s.rest = space.text ++ (Prolog.renderComments cs ++ '<' :: (n.text ++ rest))) :
    (∃ t m' s', next .prolog s = .token t m' s') ∧
      events none (lexemesFrom .prolog s) =
        events none (lexemesFrom .beforeRoot
          (s.past (space.text ++ Prolog.renderComments cs) ('<' :: (n.text ++ rest)))) := by
  have hstop := Prolog.stops_at_comments isSpace (by decide) cs (n.text ++ rest)
  have hskip := next_of_spaces (m := .prolog) (.inl rfl) space h hstop
  obtain ⟨htoken, hevents⟩ := lexemesFrom_comments cs n hr
    (s := s.past space.text (Prolog.renderComments cs ++ '<' :: (n.text ++ rest))) rfl
  rw [lexemesFrom_of_next_eq hskip htoken, hevents, hskip]
  exact ⟨htoken, by simp⟩

theorem not_startsWith_declaration
    (h : s.rest = space.text ++ (Prolog.renderComments cs ++ '<' :: (n.text ++ rest))) :
    s.startsWith "<?xml ".toList = false := by
  obtain ⟨text, valid⟩ := space
  cases text with
  | cons c text =>
    have hc : ¬ '<' = c := by
      rintro rfl
      simp [isSpace] at valid
    simp [Cursor.startsWith, h, hc]
  | nil =>
    cases cs with
    | cons c cs =>
      obtain ⟨u, hu⟩ := c.1.exists_cons
      simp [Cursor.startsWith, h, Prolog.renderComments, hu]
    | nil =>
      obtain ⟨c, t, ht, _, hmark, _⟩ := n.first
      have hc : ¬ '?' = c := hmark.symm
      simp [Cursor.startsWith, h, Prolog.renderComments, ht, hc]

theorem Prolog.stops_at_mark (t : Text) :
    Stops (· == '\uFEFF') (space.text ++ (Prolog.renderComments cs ++ '<' :: t)) := by
  obtain ⟨text, valid⟩ := space
  cases text with
  | cons c text =>
    have hc : c ≠ '\uFEFF' := by
      rintro rfl
      simp [isSpace] at valid
    simpa using hc
  | nil => exact Prolog.stops_at_comments _ (by decide) cs t

end Beginnings

theorem next_declaration_skip (h : s.startsWith "<?xml ".toList = false) (hne : s.rest ≠ []) :
    next ⟨.declaration, 0, false⟩ s = next .prolog s := by
  refine next_of_skip hne ?_
  change (if s.startsWith "<?xml ".toList then _ else Step.skip _ s) = _
  rw [h]
  rfl

theorem next_declaration (d : Declaration) (h : s.rest = d.render ++ rest) :
    next ⟨.declaration, 0, false⟩ s = .token .aside .prolog (s.past d.render rest) := by
  have hs : s.startsWith "<?xml ".toList = true := by
    unfold Cursor.startsWith
    rw [h]
    unfold Declaration.render
    simp
  have hne : s.rest ≠ [] := by
    intro hnil
    rw [Cursor.startsWith, hnil] at hs
    simp at hs
  refine next_of_token hne ?_
  change (if s.startsWith "<?xml ".toList then _ else Step.skip _ s) = _
  rw [if_pos hs, Step.reading_of_ok (Reader.declaration_of_rest d h)]
  rfl

theorem Prolog.render_eq (p : Prolog) :
    p.render = (p.declaration.map Declaration.render).getD [] ++
      (p.space.text ++ Prolog.renderComments p.comments) := by
  unfold render renderComments
  rw [List.append_assoc]

/-- Whatever stands in the prolog, the root is read as if it came first. -/
theorem events_prolog (p : Prolog) (n : QualifiedName) (hr : Stops isNameChar rest)
    (h : s.rest = p.render ++ '<' :: (n.text ++ rest)) :
    events none (lexemesFrom .document s) =
      events none (lexemesFrom .beforeRoot (s.past p.render ('<' :: (n.text ++ rest)))) := by
  rw [p.render_eq] at h ⊢
  obtain ⟨declaration, space, comments⟩ := p
  cases declaration with
  | none =>
    simp only [Option.map_none, Option.getD_none, List.nil_append, List.append_assoc] at h ⊢
    have hne : s.rest ≠ [] := by simp [h]
    obtain ⟨htoken, hevents⟩ := lexemesFrom_spaced space comments n hr h
    have hskip : next .document s = next .prolog s := by
      rw [next_document (h ▸ Prolog.stops_at_mark space comments _) hne,
        next_declaration_skip (not_startsWith_declaration space comments n h) hne]
    rw [lexemesFrom_of_next_eq hskip htoken, hevents]
  | some d =>
    simp only [Option.map_some, Option.getD_some, List.append_assoc] at h ⊢
    obtain ⟨u, hu⟩ : ∃ u, d.render = '<' :: u := ⟨_, by unfold Declaration.render; rfl⟩
    have hmark : Stops (· == '\uFEFF') s.rest := by simp [h, hu]
    have hnext := (next_document hmark (by simp [h, hu])).trans (next_declaration d h)
    rw [lexemesFrom_of_token hnext, events, (lexemesFrom_spaced space comments n hr rfl).2]
    simp

end Constructs

end ScriptLens.Markup
