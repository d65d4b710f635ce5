import ScriptLens.Proofs.Markup.Attributes
import ScriptLens.Proofs.Markup.Hole
import ScriptLens.Proofs.Markup.Report

/-!
What a reader does after a closing tag that nothing opened. It counts the open elements without their
names, so after a stray closing tag the document ends for it one closing tag too early; what comes
then is a fault, and reading is taken up at the next `<`.
-/

namespace ScriptLens.Markup

structure StrayTag where
  name : QualifiedName
  gap : Spaces

def StrayTag.render (stray : StrayTag) : Text :=
  StartTag.closing ⟨stray.name, [], .none⟩ stray.gap

/-! How reading is taken up after a fault. -/

section Recovery

variable {m : Mode} {s : Cursor} {rest : Text}

theorem next_of_fail {f : Fault} (hs : s.rest ≠ []) (h : step m s = .fail f) :
    next m s = .fail f := by
  rw [next, dif_neg hs]
  split <;> simp_all

theorem events_of_fail {f : Fault} (h : next m s = .fail f) :
    events none (lexemesFrom m s) =
      .fault f :: events none (lexemesFrom .resumed s.resumption) := by
  rw [lexemesFrom_eq, h]
  rfl

/-! After the root only comments, instructions and white space are no fault. -/

theorem next_afterRoot_of_space (hm : m.stage = .afterRoot) (space : Spaces)
    (h : s.rest = space.text ++ rest) (hne : rest ≠ []) (hstop : Stops isSpace rest)
    (haside : ∀ s', s'.rest = rest → aside? m s' = none) : ∃ f, next m s = .fail f := by
  have hstep : step m (s.past space.text rest) =
      .fail (.unknown (s.past space.text rest).offset) := by
    have hgap : gap? m (s.past space.text rest) = none := by
      obtain ⟨c, t, rfl⟩ := List.exists_cons_of_ne_nil hne
      simp [gap?, stops_cons.1 hstop]
    unfold step
    rw [hm]
    simp only [Stage.afterRootStep]
    rw [haside _ rfl, hgap]
    rfl
  exact ⟨_, (next_of_spaces (.inr hm) space h hstop).trans (next_of_fail hne hstep)⟩

theorem angle_not_mem {accepts : Char → Bool} (hangle : accepts '<' = false) {t : Text}
    (ht : t.all accepts = true) : '<' ∉ t := by
  intro hmem
  have haccepts := List.all_eq_true.1 ht '<' hmem
  simp [hangle] at haccepts

theorem CharData.angle_not_mem (t : CharData) : '<' ∉ t.text :=
  Markup.angle_not_mem (by simp) t.valid

theorem Quoting.angle_not_mem (q : Quoting) : '<' ∉ q.render := by
  have hquote : '<' ≠ q.quote := by
    intro heq
    have hvalid := q.valid
    rw [← heq] at hvalid
    exact absurd hvalid (by decide)
  have hbefore : '<' ∉ q.before.text := Markup.angle_not_mem (by decide) q.before.valid
  have hafter : '<' ∉ q.after.text := Markup.angle_not_mem (by decide) q.after.valid
  simp [render, hbefore, hafter, hquote]

theorem QualifiedName.angle_not_mem (n : QualifiedName) : '<' ∉ n.text :=
  Markup.angle_not_mem (by decide) n.all_isNameChar

theorem WrittenAttribute.angle_not_mem (a : WrittenAttribute) : '<' ∉ a.render := by
  have hgap : '<' ∉ a.gap.text := Markup.angle_not_mem (by decide) a.gap.valid
  have hvalue : '<' ∉ a.value := Markup.angle_not_mem (by simp) a.valid
  have hquoting := a.quoting.angle_not_mem
  have hquote : '<' ≠ a.quoting.quote := by
    rintro heq
    exact hquoting (by simp [Quoting.render, ← heq])
  simp [render, lead, hgap, hvalue, hquoting, hquote, a.name.angle_not_mem]

theorem StartTag.angle_not_mem_tail (tag : StartTag) (isEmpty : Bool) :
    '<' ∉ (tag.render isEmpty).tail := by
  have htail : '<' ∉ tag.tail.text := Markup.angle_not_mem (by decide) tag.tail.valid
  have hending : '<' ∉ ending isEmpty := by
    cases isEmpty <;> decide
  simpa [render, tag.name.angle_not_mem, htail, hending] using fun a _ => a.angle_not_mem

/-- Text that stands after the root is skipped, unless it is white space before a comment. -/
theorem events_afterRoot_of_text (hm : m.stage = .afterRoot) (t : CharData) (hne : t.text ≠ [])
    (h : s.rest = t.text ++ '<' :: rest)
    (haside : t.text.all isSpace = true → ∀ s' : Cursor, s'.rest = '<' :: rest → aside? m s' = none) :
    ∃ f, events none (lexemesFrom m s) =
      .fault f :: events none (lexemesFrom .resumed (s.past t.text ('<' :: rest))) := by
  let space : Spaces := ⟨t.text.takeWhile isSpace, List.all_takeWhile⟩
  have hrest : s.rest = space.text ++ (t.text.dropWhile isSpace ++ '<' :: rest) := by
    rw [h, ← List.append_assoc, List.takeWhile_append_dropWhile]
  have hangle := t.angle_not_mem
  have hfails : ∃ f, next m s = .fail f := by
    cases hdrop : t.text.dropWhile isSpace with
    | nil =>
      have hall : t.text.all isSpace = true := by
        have hcut : t.text.takeWhile isSpace ++ t.text.dropWhile isSpace = t.text :=
          List.takeWhile_append_dropWhile
        rw [hdrop, List.append_nil] at hcut
        rw [← hcut]
        exact List.all_takeWhile
      rw [hdrop] at hrest
      exact next_afterRoot_of_space hm space hrest (by simp) (stops_cons.2 (by decide))
        (haside hall)
    | cons c u =>
      have hstop : Stops isSpace (t.text.dropWhile isSpace) := stops_dropWhile isSpace t.text
      have hmem : c ∈ t.text := by
        have hc : c ∈ t.text.dropWhile isSpace := by simp [hdrop]
        exact (List.dropWhile_sublist isSpace).mem hc
      have hc : c ≠ '<' := by
        rintro rfl
        exact hangle hmem
      rw [hdrop] at hrest hstop
      refine next_afterRoot_of_space hm space hrest (by simp) (stops_cons.2 (stops_cons.1 hstop)) ?_
      intro s' hs'
      exact aside?_of_not_angle (by simpa [hs'] using hc)
  obtain ⟨f, hf⟩ := hfails
  have htail : '<' ∉ t.text.tail := fun hmem => hangle (List.mem_of_mem_tail hmem)
  refine ⟨f, ?_⟩
  rw [events_of_fail hf, Cursor.resumption_of_rest hne htail h]
  simp

theorem next_afterRoot_of_comment (hm : m.stage = .afterRoot) (space : Spaces) (c : Comment)
    (h : s.rest = space.text ++ (c.render ++ rest)) :
    next m s = .token .aside m (s.past (space.text ++ c.render) rest) := by
  obtain ⟨u, hu⟩ := c.exists_cons
  have hstop : Stops isSpace (c.render ++ rest) := by
    rw [hu]
    exact stops_cons.2 (by decide)
  have hstep : step m (s.past space.text (c.render ++ rest)) =
      .token .aside m (s.past (space.text ++ c.render) rest) := by
    unfold step
    rw [hm]
    simp only [Stage.afterRootStep]
    rw [aside?_of_comment c rfl, Cursor.past_past]
    rfl
  rw [next_of_spaces (.inr hm) space h hstop]
  exact next_of_token (by simp [hu]) hstep

theorem events_afterRoot_of_tag (hm : m.stage = .afterRoot) (tag : StartTag) (isEmpty : Bool)
    (h : s.rest = tag.render isEmpty ++ rest) :
    ∃ f s', s.offset + (tag.render isEmpty).byteSize ≤ s'.offset ∧
      events none (lexemesFrom m s) = .fault f :: events none (lexemesFrom .resumed s') := by
  obtain ⟨u, hname, _⟩ := tag.exists_render_append isEmpty rest
  have hstop : Stops isSpace ('<' :: (tag.name.text ++ u)) := stops_cons.2 (by decide)
  obtain ⟨f, hf⟩ := next_afterRoot_of_space hm .none (h.trans hname) (by simp) hstop
    fun s' hs' => aside?_of_name tag.name hs'
  have hne : tag.render isEmpty ≠ [] := by
    simp [StartTag.render]
  refine ⟨f, _, ?_, events_of_fail hf⟩
  rw [Cursor.resumption_of_rest hne (tag.angle_not_mem_tail isEmpty) h, Cursor.offset_past,
    Text.byteSize_append]
  omega

end Recovery

def Content.leadsWithComment : Content → Bool
  | .leaf _ (.comment _) _ => true
  | _ => false

theorem Content.exists_later_append (c : Content) (tag : StartTag) (space : Spaces) (rest : Text) :
    ∃ u, c.later.render ++ (tag.closing space ++ rest) = '<' :: u := by
  cases c with
  | last t => exact tag.exists_closing_append space rest
  | leaf t l more =>
    obtain ⟨u, hu⟩ := l.exists_cons
    exact ⟨_, by simp [later, withFirst, render, hu]; rfl⟩
  | element t tag' inner space' more =>
    obtain ⟨u, hu, _⟩ := tag'.exists_render_append false
      (inner.render ++ (tag'.closing space' ++ (more.render ++ (tag.closing space ++ rest))))
    refine ⟨_, Eq.trans ?_ hu⟩
    simp [later, withFirst, render]

/-- Behind its first text only a comment is skipped outside elements: a tag, a CDATA section and the
end of the element around it are not. -/
theorem aside?_of_later {m : Mode} {s : Cursor} {rest : Text} (c : Content) (tag : StartTag)
    (space : Spaces) (hc : c.leadsWithComment = false)
    (h : s.rest = c.later.render ++ (tag.closing space ++ rest)) : aside? m s = none := by
  cases c with
  | last t => exact aside?_of_closing tag space h
  | leaf t l more =>
    have hleaf : s.rest = l.render ++ (more.render ++ (tag.closing space ++ rest)) := by
      simpa [Content.later, Content.withFirst, Content.render] using h
    cases l with
    | comment k => contradiction
    | cdata d => exact aside?_of_cdata d hleaf
    | empty tag' =>
      obtain ⟨u, hu, _⟩ := tag'.exists_render_append true
        (more.render ++ (tag.closing space ++ rest))
      exact aside?_of_name tag'.name (hleaf.trans hu)
  | element t tag' inner space' more =>
    obtain ⟨u, hu, _⟩ := tag'.exists_render_append false
      (inner.render ++ (tag'.closing space' ++ (more.render ++ (tag.closing space ++ rest))))
    refine aside?_of_name tag'.name (Eq.trans ?_ hu)
    simpa [Content.later, Content.withFirst, Content.render] using h

/-- After the root nothing of content is lost: some text stands before the first thing in it,
comments after white space apart. -/
def Content.Spared : Content → Prop
  | .last _ => True
  | .leaf t (.comment _) rest => t.text.all isSpace = true → rest.Spared
  | .leaf t (.cdata _) _ => t.text ≠ []
  | .leaf t (.empty _) _ => t.text ≠ []
  | .element t _ _ _ _ => t.text ≠ []

end ScriptLens.Markup
