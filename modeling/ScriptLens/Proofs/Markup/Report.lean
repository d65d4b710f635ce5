import ScriptLens.Proofs.Markup.Scanning

/-!
What a scan of a written tree reports: the events of the tree and no fault, elements closed in the
order in which they nest, and every tag and every value at the place where it was written.
-/

namespace ScriptLens.Markup

theorem Element.exists_tagStart (e : Element) (rest : Text) :
    ∃ (n : QualifiedName) (u : Text),
      e.render ++ rest = '<' :: (n.text ++ u) ∧ Stops isNameChar u := by
  cases e with
  | empty tag =>
    obtain ⟨u, hu, hstop⟩ := tag.exists_render_append true rest
    exact ⟨tag.name, u, hu, hstop⟩
  | paired tag inner space =>
    obtain ⟨u, hu, hstop⟩ := tag.exists_render_append false
      (inner.render ++ (tag.closing space ++ rest))
    exact ⟨tag.name, u, by simp [render, ← hu], hstop⟩

theorem scan_eq_events (t : Tree) : scan t.render = t.events := by
  obtain ⟨n, u, hroot, hstop⟩ := t.root.exists_tagStart t.tail.text
  have hdocument : t.render = t.prolog.render ++ '<' :: (n.text ++ u) := by
    rw [← hroot, Tree.render, List.append_assoc]
  have hafter : (⟨0, t.render⟩ : Cursor).past t.prolog.render ('<' :: (n.text ++ u)) =
      ⟨t.prolog.render.byteSize, t.root.render ++ t.tail.text⟩ := by
    rw [hroot]
    simp [Cursor.past]
  have hs := step_beforeRoot (s := ⟨t.prolog.render.byteSize, t.root.render ++ t.tail.text⟩) n hroot
  calc scan t.render
    _ = events none (lexemesFrom .beforeRoot
          ⟨t.prolog.render.byteSize, t.root.render ++ t.tail.text⟩) := by
      rw [← hafter]
      exact events_prolog t.prolog n hstop hdocument
    _ = t.root.events t.prolog.render.byteSize ++ events none [] := by
      rw [events_root t.root .beforeRoot rfl rfl hs rfl, lexemesFrom_tail t.tail rfl rfl]
    _ = t.events := List.append_nil _

/-! What the events of a tree say. -/

/-- The names of the elements that events leave open, the innermost first, if `outer` were open
before them; `none` if an event closes an element other than the innermost one. -/
def stillOpen : (outer : List Text) → List Event → Option (List Text)
  | outer, [] => some outer
  | outer, .opened tag :: rest => stillOpen (tag.name :: outer) rest
  | [], .closed _ :: _ => none
  | innermost :: outer, .closed name :: rest =>
    if innermost = name then stillOpen outer rest else none
  | outer, .text _ :: rest => stillOpen outer rest
  | outer, .fault _ :: rest => stillOpen outer rest

section Nesting

variable (outer : List Text) (rest : List Event)

theorem stillOpen_text (t : CharData) : stillOpen outer (t.events ++ rest) = stillOpen outer rest := by
  unfold CharData.events
  split
  · rfl
  · simp [stillOpen]

theorem stillOpen_leaf (l : Leaf) (offset : Nat) :
    stillOpen outer (l.events offset ++ rest) = stillOpen outer rest := by
  cases l <;> simp [Leaf.events, stillOpen, StartTag.placed]

theorem stillOpen_content (c : Content) (offset : Nat) :
    stillOpen outer (c.events offset ++ rest) = stillOpen outer rest := by
  induction c generalizing outer rest offset with
  | last t => exact stillOpen_text outer rest t
  | leaf t l more ih =>
    simp only [Content.events, List.append_assoc]
    rw [stillOpen_text, stillOpen_leaf, ih]
  | element t tag inner space more ihInner ihMore =>
    simp only [Content.events, List.append_assoc, List.cons_append]
    rw [stillOpen_text, stillOpen, ihInner]
    simp only [StartTag.placed, stillOpen]
    rw [if_pos trivial, ihMore]

theorem stillOpen_element (e : Element) (offset : Nat) :
    stillOpen outer (e.events offset) = some outer := by
  cases e with
  | empty tag => simp [Element.events, stillOpen, StartTag.placed]
  | paired tag inner space =>
    simp only [Element.events, List.cons_append]
    rw [stillOpen, stillOpen_content]
    simp [stillOpen, StartTag.placed]

end Nesting

structure Tag.StandsIn (tag : Tag) (document : Text) : Prop where
  written : ∃ (w : StartTag) (isEmpty : Bool), tag = w.placed isEmpty tag.start ∧
    document.slice? tag.start tag.stop = some (w.render isEmpty)
  values : ∀ a ∈ tag.attributes,
    document.slice? a.valueStart (a.valueStart + a.value.byteSize) = some a.value

/-- An event that tells of no fault, and of a tag only if the document has it. -/
def Event.StandsIn (document : Text) : Event → Prop
  | .opened tag => tag.StandsIn document
  | .fault _ => False
  | _ => True

section Placement

variable (before after : Text)

theorem WrittenAttribute.values_stand (as : List WrittenAttribute) :
    ∀ a ∈ placeAll before.byteSize as,
      (before ++ (as.flatMap render ++ after)).slice? a.valueStart
        (a.valueStart + a.value.byteSize) = some a.value := by
  induction as generalizing before with
  | nil => simp [placeAll]
  | cons w as ih =>
    intro a ha
    rcases List.mem_cons.1 ha with rfl | ha
    · have hcut := Text.slice?_append (before ++ w.lead) w.value
        (w.quoting.quote :: (as.flatMap render ++ after))
      simpa [placed, render] using hcut
    · rw [← Text.byteSize_append] at ha
      simpa using ih (before ++ w.render) a ha

theorem StartTag.placed_standsIn (w : StartTag) (isEmpty : Bool) :
    (w.placed isEmpty before.byteSize).StandsIn (before ++ (w.render isEmpty ++ after)) := by
  constructor
  · exact ⟨w, isEmpty, rfl, Text.slice?_append before (w.render isEmpty) after⟩
  · have hvalues := WrittenAttribute.values_stand (before ++ '<' :: w.name.text)
      (w.tail.text ++ ending isEmpty ++ after) w.attributes
    rw [Text.byteSize_append] at hvalues
    simpa [placed, render] using hvalues

theorem CharData.standsIn {document : Text} (t : CharData) :
    ∀ e ∈ t.events, e.StandsIn document := by
  unfold events
  split <;> simp [Event.StandsIn]

theorem Leaf.standsIn (l : Leaf) :
    ∀ e ∈ l.events before.byteSize, e.StandsIn (before ++ (l.render ++ after)) := by
  cases l with
  | comment c => simp [events]
  | cdata t => simp [events, Event.StandsIn]
  | empty tag =>
    have htag := tag.placed_standsIn before after true
    simpa [events, render, Event.StandsIn] using htag

theorem Content.standsIn (c : Content) :
    ∀ e ∈ c.events before.byteSize, e.StandsIn (before ++ (c.render ++ after)) := by
  induction c generalizing before after with
  | last t => exact t.standsIn
  | leaf t l more ih =>
    have hleaf := l.standsIn (before ++ t.text) (more.render ++ after)
    have hmore := ih (before ++ t.text ++ l.render) after
    simp only [Text.byteSize_append, List.append_assoc] at hleaf hmore
    simp only [events, render, List.append_assoc, List.mem_append, Nat.add_assoc]
    rintro e (he | he | he)
    · exact t.standsIn e he
    · exact hleaf e he
    · exact hmore e he
  | element t tag inner space more ihInner ihMore =>
    have htag := tag.placed_standsIn (before ++ t.text)
      (inner.render ++ (tag.closing space ++ (more.render ++ after))) false
    have hinner := ihInner (before ++ t.text ++ tag.render false)
      (tag.closing space ++ (more.render ++ after))
    have hmore := ihMore (before ++ t.text ++ tag.render false ++ inner.render ++ tag.closing space)
      after
    simp only [Text.byteSize_append, List.append_assoc] at htag hinner hmore
    simp only [events, render, List.append_assoc, List.cons_append, List.mem_append, List.mem_cons,
      Nat.add_assoc]
    rintro e (he | rfl | he | rfl | he)
    · exact t.standsIn e he
    · exact htag
    · exact hinner e he
    · trivial
    · exact hmore e he

theorem Element.standsIn (e : Element) :
    ∀ v ∈ e.events before.byteSize, v.StandsIn (before ++ (e.render ++ after)) := by
  cases e with
  | empty tag =>
    have htag := tag.placed_standsIn before after true
    simpa [events, render, Event.StandsIn] using htag
  | paired tag inner space =>
    have htag := tag.placed_standsIn before (inner.render ++ (tag.closing space ++ after)) false
    have hinner := inner.standsIn (before ++ tag.render false) (tag.closing space ++ after)
    simp only [Text.byteSize_append, List.append_assoc] at htag hinner
    simp only [events, render, List.append_assoc, List.cons_append, List.mem_append, List.mem_cons,
      List.mem_nil_iff, or_false]
    rintro v (rfl | hv | rfl)
    · exact htag
    · exact hinner v hv
    · trivial

theorem Tree.standsIn (t : Tree) : ∀ e ∈ t.events, e.StandsIn t.render := by
  have helement := t.root.standsIn t.prolog.render t.tail.text
  simpa [Tree.events, Tree.render] using helement

end Placement

/-- A scan of a written tree reports the tree: each opened tag, text and closed tag in order,
without a fault; the elements nest, and tags and values are where they are said to be. -/
theorem scan_reports_tree (t : Tree) :
    scan t.render = t.events ∧
      (∀ f, .fault f ∉ scan t.render) ∧
      stillOpen [] (scan t.render) = some [] ∧
      ∀ tag, .opened tag ∈ scan t.render → tag.StandsIn t.render := by
  rw [scan_eq_events]
  refine ⟨rfl, ?_, stillOpen_element [] t.root _, ?_⟩
  · intro f hf
    exact t.standsIn _ hf
  · intro tag htag
    exact t.standsIn _ htag

end ScriptLens.Markup
