import ScriptLens.Proofs.Markup.Tree
import ScriptLens.Proofs.Text

/-!
What the readers take off a text that begins with a written construct: the construct as it was
written, and nothing of what follows. Each lemma is named for its reader; the hypothesis on what
follows says that the construct does not go on there.
-/

namespace ScriptLens.Markup

/-! The characters that constructs begin and end with belong to few classes. -/

theorem not_isNameChar_of_isSpace {c : Char} (h : isSpace c = true) : isNameChar c = false := by
  simp only [isSpace, Bool.or_eq_true, beq_iff_eq] at h
  rcases h with ((rfl | rfl) | rfl) | rfl <;> decide

theorem not_isSpace_of_isNameChar {c : Char} (h : isNameChar c = true) : isSpace c = false := by
  cases hs : isSpace c with
  | false => rfl
  | true => simp [not_isNameChar_of_isSpace hs] at h

theorem not_isSpace_of_isQuote {c : Char} (h : isQuote c = true) : isSpace c = false := by
  rcases isQuote_iff.1 h with rfl | rfl <;> decide

theorem not_isNameChar_of_isQuote {c : Char} (h : isQuote c = true) : isNameChar c = false := by
  rcases isQuote_iff.1 h with rfl | rfl <;> decide

theorem isNameChar_of_isNameStart {c : Char} (h : isNameStart c = true) : isNameChar c = true := by
  simp [isNameChar, h]

theorem isAllowed_of_isQuote {c : Char} (h : isQuote c = true) : isAllowed c = true := by
  rcases isQuote_iff.1 h with rfl | rfl <;> decide

theorem Quoting.stops (q : Quoting) {accepts : Char → Bool} (hdouble : accepts '"' = false)
    (hsingle : accepts '\'' = false) (rest : Text) : Stops accepts (q.quote :: rest) := by
  rcases isQuote_iff.1 q.valid with h | h <;> simp [h, hdouble, hsingle]

theorem StartTag.ending_stops {accepts : Char → Bool} (hslash : accepts '/' = false)
    (hangle : accepts '>' = false) (isEmpty : Bool) (rest : Text) :
    Stops accepts (StartTag.ending isEmpty ++ rest) := by
  cases isEmpty with
  | false => exact stops_cons.2 hangle
  | true => exact stops_cons.2 hslash

theorem Spaces.stops_isNameChar (space : Spaces) {rest : Text} (h : Stops isNameChar rest) :
    Stops isNameChar (space.text ++ rest) := by
  obtain ⟨t, ht⟩ := space
  cases t with
  | nil => exact h
  | cons c t =>
    simp only [List.all_cons, Bool.and_eq_true] at ht
    simpa using not_isNameChar_of_isSpace ht.1

theorem Gap.exists_cons (gap : Gap) : ∃ c t, gap.text = c :: t ∧ isSpace c = true := by
  obtain ⟨⟨t, ht⟩, hne⟩ := gap
  obtain ⟨c, t, rfl⟩ := List.exists_cons_of_ne_nil hne
  simp only [List.all_cons, Bool.and_eq_true] at ht
  exact ⟨c, t, rfl, ht.1⟩

theorem WrittenAttribute.stops_isNameChar (a : WrittenAttribute) (rest : Text) :
    Stops isNameChar (a.render ++ rest) := by
  obtain ⟨c, t, ht, hc⟩ := a.gap.exists_cons
  simpa [render, lead, ht] using not_isNameChar_of_isSpace hc

/-! Names. -/

theorem PlainName.exists_cons (n : PlainName) :
    ∃ c t, n.text = c :: t ∧ isNameStart c = true := by
  obtain ⟨t, hs, _⟩ := n
  cases t with
  | nil => simp at hs
  | cons c t => exact ⟨c, t, rfl, by simpa using hs⟩

theorem PlainName.all_isNameChar (n : PlainName) : n.text.all isNameChar = true := by
  simp only [List.all_eq_true]
  intro c hc
  have hv := List.all_eq_true.1 n.valid c hc
  simp only [Bool.and_eq_true] at hv
  exact hv.1

theorem PlainName.colon_not_mem (n : PlainName) : ':' ∉ n.text := by
  intro hm
  have hv := List.all_eq_true.1 n.valid ':' hm
  simp at hv

theorem QualifiedName.all_isNameChar (n : QualifiedName) : n.text.all isNameChar = true := by
  obtain ⟨scope, base⟩ := n
  cases scope with
  | none => exact base.all_isNameChar
  | some scope =>
    have hc : isNameChar ':' = true := by decide
    simp [QualifiedName.text, scope.all_isNameChar, base.all_isNameChar, hc]

theorem QualifiedName.exists_cons (n : QualifiedName) :
    ∃ c t, n.text = c :: t ∧ isNameStart c = true := by
  obtain ⟨scope, base⟩ := n
  cases scope with
  | none => exact base.exists_cons
  | some scope =>
    obtain ⟨c, t, ht, hc⟩ := scope.exists_cons
    exact ⟨c, t ++ ':' :: base.text, by simp [QualifiedName.text, ht], hc⟩

theorem splitName_fields (n : QualifiedName) :
    Reader.splitName (n.text.fields ':') = some n.text := by
  obtain ⟨scope, base⟩ := n
  cases scope with
  | none => simp [QualifiedName.text, Text.fields_of_not_mem base.colon_not_mem, Reader.splitName,
      base.starts]
  | some scope =>
    have hne : scope.text ≠ [] := by
      obtain ⟨c, t, ht, _⟩ := scope.exists_cons
      simp [ht]
    simp [QualifiedName.text, Text.fields_append scope.colon_not_mem,
      Text.fields_of_not_mem base.colon_not_mem, Reader.splitName, base.starts, scope.starts, hne]

/-! Readers. After what was written, the cursor stands before what follows. -/

namespace Cursor

@[simp] theorem rest_past (s : Cursor) (taken rest : Text) : (s.past taken rest).rest = rest := rfl

@[simp] theorem offset_past (s : Cursor) (taken rest : Text) :
    (s.past taken rest).offset = s.offset + taken.byteSize := rfl

@[simp] theorem past_past (s : Cursor) (taken rest taken' rest' : Text) :
    (s.past taken rest).past taken' rest' = s.past (taken ++ taken') rest' := by
  simp [past, Nat.add_assoc]

theorem past_nil (s : Cursor) : s.past [] s.rest = s := rfl

end Cursor

namespace Reader

variable {s : Cursor} {rest : Text}

theorem bind_of_ok {α β : Type} {r : Reader α} {f : α → Reader β} {a : α} {t : Cursor}
    (h : r s = .ok (a, t)) : (r >>= f) s = f a t := by
  have hb : (r >>= f) s = Except.bind (r s) fun p => f p.1 p.2 := rfl
  rw [hb, h]
  rfl

theorem here_apply : here s = .ok (s, s) := rfl

theorem pure_apply {α : Type} (a : α) : (pure a : Reader α) s = .ok (a, s) := rfl

theorem literal_of_rest {t : Text} (h : s.rest = t ++ rest) :
    literal t s = .ok ((), s.past t rest) := by
  simp [literal, Cursor.after?, h]

theorem optional_of_rest {t : Text} (h : s.rest = t ++ rest) :
    optional t s = .ok (true, s.past t rest) := by
  simp [optional, Cursor.after?, h]

theorem optional_of_not_startsWith {t : Text} (h : Text.startsWith t s.rest = false) :
    optional t s = .ok (false, s) := by
  have hn : Text.after? t s.rest = none := by simpa [Text.startsWith] using h
  simp [optional, Cursor.after?, hn]

theorem takeWhile_of_rest {accepts : Char → Bool} {t : Text} (h : s.rest = t ++ rest)
    (ht : t.all accepts = true) (hr : Stops accepts rest) :
    takeWhile accepts s = .ok (t, s.past t rest) := by
  simp [takeWhile, Cursor.takeWhile, h, takeWhile_of_stops ht hr, dropWhile_of_stops ht hr]

theorem skipSpaces_of_rest (space : Spaces) (h : s.rest = space.text ++ rest)
    (hr : Stops isSpace rest) : skipSpaces s = .ok ((), s.past space.text rest) := by
  unfold skipSpaces
  rw [bind_of_ok (takeWhile_of_rest h space.valid hr)]
  rfl

theorem skipSpaces_of_stops (hr : Stops isSpace s.rest) : skipSpaces s = .ok ((), s) :=
  skipSpaces_of_rest .none rfl hr

theorem one_of_rest {accepts : Char → Bool} {cause : Char → Nat → Cause} {c : Char}
    (h : s.rest = c :: rest) (hc : accepts c = true) :
    one accepts cause s = .ok (c, s.past [c] rest) := by
  simp [one, h, hc]

theorem char_of_rest {c : Char} (h : s.rest = c :: rest) :
    char c s = .ok ((), s.past [c] rest) := by
  unfold char
  rw [bind_of_ok (one_of_rest h (by simp))]
  rfl

theorem equals_of_rest (q : Quoting) (h : s.rest = q.render ++ rest) :
    equals s = .ok ((), s.past (q.before.text ++ '=' :: q.after.text) (q.quote :: rest)) := by
  have hq : isSpace '=' = false := by decide
  have h' : s.rest = q.before.text ++ '=' :: (q.after.text ++ q.quote :: rest) := by
    simp [h, Quoting.render]
  unfold equals
  rw [bind_of_ok (skipSpaces_of_rest q.before h' (by simpa using hq)), bind_of_ok (char_of_rest rfl),
    skipSpaces_of_rest q.after rfl (by simpa using not_isSpace_of_isQuote q.valid)]
  simp

theorem quote_of_rest (q : Quoting) (h : s.rest = q.quote :: rest) :
    quote s = .ok (q.quote, s.past [q.quote] rest) :=
  one_of_rest h q.valid

theorem spanUntil_append {stop : Text → Bool} {t : Text}
    (ht : ∀ u v, t = u ++ v → v ≠ [] → stop (v ++ rest) = false)
    (hr : rest = [] ∨ stop rest = true) : spanUntil stop (t ++ rest) = (t, rest) := by
  induction t with
  | nil =>
    cases rest with
    | nil => rfl
    | cons c rest => simpa [spanUntil] using hr
  | cons c t ih =>
    have hc : stop (c :: (t ++ rest)) = false := ht [] (c :: t) rfl (by simp)
    have hi := ih fun u v hv hne => ht (c :: u) v (by simp [hv]) hne
    simp [spanUntil, hc, hi]

theorem atForbidden_of_isAllowed {c : Char} (h : isAllowed c = true) (rest : Text) :
    atForbidden (c :: rest) = false := by
  simp [atForbidden, h]

theorem charsUntil_of_rest (stop : Text → Bool) {t : Text} (h : s.rest = t ++ rest)
    (ha : t.all isAllowed = true) (ht : ∀ u v, t = u ++ v → v ≠ [] → stop (v ++ rest) = false)
    (hr : rest = [] ∨ stop rest = true ∧ atForbidden rest = false) :
    charsUntil stop s = .ok (t, s.past t rest) := by
  have hspan : spanUntil (fun t => atForbidden t || stop t) s.rest = (t, rest) := by
    rw [h]
    refine spanUntil_append ?_ (hr.imp_right fun hr => by simp [hr.1])
    intro u v hv hne
    obtain ⟨c, v, rfl⟩ := List.exists_cons_of_ne_nil hne
    have hc : isAllowed c = true := List.all_eq_true.1 ha c (by simp [hv])
    simpa [atForbidden, hc] using ht u (c :: v) hv hne
  unfold charsUntil
  rw [hspan]
  cases rest with
  | nil => rfl
  | cons c rest =>
    have hc : isAllowed c = true := by
      rcases hr with hr | hr
      · simp at hr
      · simpa [atForbidden] using hr.2
    simp [hc]

theorem qualifiedName_of_rest (n : QualifiedName) (h : s.rest = n.text ++ rest)
    (hr : Stops isNameChar rest) : qualifiedName s = .ok (n.text, s.past n.text rest) := by
  unfold qualifiedName
  rw [bind_of_ok (takeWhile_of_rest h n.all_isNameChar hr)]
  simp only [splitName_fields]
  rfl

theorem endsValue_of_valid (a : WrittenAttribute) {u v : Text} (h : a.value = u ++ v) (hne : v ≠ []) :
    endsValue a.quoting.quote (v ++ rest) = false := by
  obtain ⟨c, v, rfl⟩ := List.exists_cons_of_ne_nil hne
  have hv := List.all_eq_true.1 a.valid c (by simp [h])
  simp only [Bool.and_eq_true, bne_iff_ne] at hv
  simp [endsValue, hv.1.2, hv.2]

theorem attributePart_of_rest (a : WrittenAttribute)
    (h : s.rest = a.name.text ++ (a.quoting.render ++ (a.value ++ a.quoting.quote :: rest))) :
    attributePart s =
      .ok (.attribute ⟨a.name.text, a.quoting.quote, a.value,
          s.offset + Text.byteSize (a.name.text ++ a.quoting.render)⟩,
        s.past (a.name.text ++ a.quoting.render ++ a.value ++ [a.quoting.quote]) rest) := by
  have hn : Stops isNameChar (a.quoting.render ++ (a.value ++ a.quoting.quote :: rest)) := by
    have he : Stops isNameChar ('=' :: (a.quoting.after.text ++
        a.quoting.quote :: (a.value ++ a.quoting.quote :: rest))) :=
      stops_cons.2 (by decide)
    simpa [Quoting.render] using a.quoting.before.stops_isNameChar he
  have hv : a.value.all isAllowed = true := by
    simp only [List.all_eq_true]
    intro c hc
    have hv := List.all_eq_true.1 a.valid c hc
    simp only [Bool.and_eq_true] at hv
    exact hv.1.1
  have hq : atForbidden (a.quoting.quote :: rest) = false :=
    atForbidden_of_isAllowed (isAllowed_of_isQuote a.quoting.valid) rest
  unfold attributePart
  rw [bind_of_ok (qualifiedName_of_rest a.name h hn), bind_of_ok (equals_of_rest a.quoting rfl),
    bind_of_ok (quote_of_rest a.quoting rfl), bind_of_ok here_apply,
    bind_of_ok (charsUntil_of_rest _ rfl hv (fun _ _ => endsValue_of_valid a)
      (.inr ⟨by simp [endsValue], hq⟩)),
    bind_of_ok (char_of_rest rfl)]
  simp [pure_apply, Quoting.render]

theorem ne_of_isNameStart {c d : Char} (h : isNameStart c = true) (hd : isNameStart d = false) :
    c ≠ d := by
  rintro rfl
  simp [h] at hd

theorem tagPart_of_attribute (a : WrittenAttribute) (h : s.rest = a.render ++ rest) :
    tagPart s = .ok (.attribute (a.placed s.offset), s.past a.render rest) := by
  obtain ⟨c, t, hname, hc⟩ := a.name.exists_cons
  have h' : s.rest = a.gap.text ++
      (a.name.text ++ (a.quoting.render ++ (a.value ++ a.quoting.quote :: rest))) := by
    simp [h, WrittenAttribute.render, WrittenAttribute.lead]
  have hstop : Stops isSpace
      (a.name.text ++ (a.quoting.render ++ (a.value ++ a.quoting.quote :: rest))) := by
    simpa [hname] using not_isSpace_of_isNameChar (isNameChar_of_isNameStart hc)
  have hgap : s.rest.head?.any isSpace = true := by
    obtain ⟨d, g, hg, hd⟩ := a.gap.exists_cons
    simp [h', hg, hd]
  have hslash : c ≠ '/' := ne_of_isNameStart hc (by decide)
  have hangle : c ≠ '>' := ne_of_isNameStart hc (by decide)
  have hpart : tagPart s = attributePart (s.past a.gap.text
      (a.name.text ++ (a.quoting.render ++ (a.value ++ a.quoting.quote :: rest)))) := by
    unfold tagPart
    rw [bind_of_ok here_apply, bind_of_ok (skipSpaces_of_rest a.gap.toSpaces h' hstop),
      bind_of_ok here_apply]
    simp only [Cursor.rest_past, hname, List.cons_append]
    simp only [hgap, if_true, beq_iff_eq, hslash, hangle, if_false]
  rw [hpart, attributePart_of_rest a rfl]
  simp [WrittenAttribute.placed, WrittenAttribute.render, WrittenAttribute.lead, Nat.add_assoc]

theorem tagPart_of_ending (space : Spaces) (isEmpty : Bool)
    (h : s.rest = space.text ++ (StartTag.ending isEmpty ++ rest)) :
    tagPart s = .ok (if isEmpty then .emptyTagEnd else .tagEnd,
      s.past (space.text ++ StartTag.ending isEmpty) rest) := by
  have hstop : Stops isSpace (StartTag.ending isEmpty ++ rest) :=
    StartTag.ending_stops (by decide) (by decide) isEmpty rest
  unfold tagPart
  rw [bind_of_ok here_apply, bind_of_ok (skipSpaces_of_rest space h hstop),
    bind_of_ok here_apply]
  cases isEmpty with
  | false =>
    have hr : (StartTag.ending false ++ rest : Text) = '>' :: rest := rfl
    have hend : tagEnd (s.past space.text ('>' :: rest)) =
        .ok (.tagEnd, s.past (space.text ++ ['>']) rest) := by
      unfold tagEnd
      rw [bind_of_ok (char_of_rest rfl), Cursor.past_past]
      rfl
    simpa [hr, StartTag.ending] using hend
  | true =>
    have hr : (StartTag.ending true ++ rest : Text) = '/' :: '>' :: rest := rfl
    have hend : emptyTagEnd (s.past space.text ('/' :: '>' :: rest)) =
        .ok (.emptyTagEnd, s.past (space.text ++ ['/', '>']) rest) := by
      unfold emptyTagEnd
      rw [bind_of_ok (char_of_rest rfl), bind_of_ok (char_of_rest rfl), Cursor.past_past,
        Cursor.past_past]
      simp [pure_apply]
    simpa [hr, StartTag.ending] using hend

theorem tagStart_of_rest (n : QualifiedName) (h : s.rest = '<' :: (n.text ++ rest))
    (hr : Stops isNameChar rest) :
    tagStart s = .ok (.tagStart n.text s.offset, s.past ('<' :: n.text) rest) := by
  unfold tagStart
  have h' : s.rest = "<".toList ++ (n.text ++ rest) := h
  rw [bind_of_ok here_apply, bind_of_ok (literal_of_rest h'),
    bind_of_ok (qualifiedName_of_rest n rfl hr), Cursor.past_past]
  rfl

theorem closeTag_of_rest (tag : StartTag) (space : Spaces)
    (h : s.rest = tag.closing space ++ rest) :
    closeTag s = .ok (.closeTag tag.name.text, s.past (tag.closing space) rest) := by
  have h' : s.rest = "</".toList ++ (tag.name.text ++ (space.text ++ '>' :: rest)) := by
    simp [h, StartTag.closing]
  have hn : Stops isNameChar (space.text ++ '>' :: rest) :=
    space.stops_isNameChar (by simpa using (by decide : isNameChar '>' = false))
  have hs : Stops isSpace ('>' :: rest) := by simpa using (by decide : isSpace '>' = false)
  unfold closeTag
  rw [bind_of_ok (literal_of_rest h'), bind_of_ok (qualifiedName_of_rest tag.name rfl hn),
    bind_of_ok (skipSpaces_of_rest space rfl hs), bind_of_ok (char_of_rest rfl), pure_apply]
  simp [StartTag.closing]

theorem text_of_rest (t : CharData) (h : s.rest = t.text ++ '<' :: rest) :
    text s = .ok (.text t.text, s.past t.text ('<' :: rest)) := by
  have hvalid : ∀ c ∈ t.text, isAllowed c = true ∧ c ≠ '<' := by
    intro c hc
    have hv := List.all_eq_true.1 t.valid c hc
    simpa using hv
  have hall : t.text.all isAllowed = true := List.all_eq_true.2 fun c hc => (hvalid c hc).1
  have hgo : ∀ u v : Text, t.text = u ++ v → v ≠ [] → atTag (v ++ '<' :: rest) = false := by
    intro u v hv hne
    obtain ⟨c, v, rfl⟩ := List.exists_cons_of_ne_nil hne
    simpa [atTag] using (hvalid c (by simp [hv])).2
  have hangle : atForbidden ('<' :: rest) = false := atForbidden_of_isAllowed (by decide) rest
  unfold text
  rw [bind_of_ok (charsUntil_of_rest _ h hall hgo (.inr ⟨rfl, hangle⟩)),
    if_neg (by simpa using t.noSectionEnd)]
  rfl

theorem cdata_of_rest (t : CharSection) (h : s.rest = t.render ++ rest) :
    cdata s = .ok (t.text, s.past t.render rest) := by
  have h' : s.rest = "<![CDATA[".toList ++ (t.text ++ ("]]>".toList ++ rest)) := by
    unfold CharSection.render at h
    rw [h, List.append_assoc, List.append_assoc]
  have hgo : ∀ u v : Text, t.text = u ++ v → v ≠ [] →
      Text.startsWith "]]>".toList (v ++ ("]]>".toList ++ rest)) = false := by
    intro u v hv hne
    have hno : Text.startsWith "]]>".toList v = false :=
      Text.not_startsWith_of_not_contains (hv ▸ t.noSectionEnd)
    -- what is short of the mark and lies in the section does not become it with the mark after it
    match v, hne, hno with
    | [c], _, _ => simp
    | [c, d], _, _ => simp
    | c :: d :: e :: v, _, hno => simpa using hno
  unfold cdata CharSection.render
  rw [bind_of_ok (literal_of_rest h'), bind_of_ok (charsUntil_of_rest _ rfl t.valid hgo (.inr
    ⟨Text.startsWith_append _ _, atForbidden_of_isAllowed (by decide) _⟩)),
    bind_of_ok (literal_of_rest rfl), pure_apply, Cursor.past_past, Cursor.past_past,
    List.append_assoc]

theorem comment_of_rest (c : Comment) (h : s.rest = c.render ++ rest) :
    comment s = .ok ((), s.past c.render rest) := by
  have h' : s.rest = "<!--".toList ++ (c.text ++ ("-->".toList ++ rest)) := by
    unfold Comment.render at h
    rw [h, List.append_assoc, List.append_assoc]
  have hgo : ∀ u v : Text, c.text = u ++ v → v ≠ [] →
      Text.startsWith "-->".toList (v ++ ("-->".toList ++ rest)) = false := by
    intro u v hv hne
    have hno : Text.startsWith "--".toList v = false :=
      Text.not_startsWith_of_not_contains (hv ▸ c.noDashes)
    match v, hne, hno with
    | [d], _, _ => simp
    | d :: e :: v, _, hno =>
      simp at hno ⊢
      intro hd he
      exact absurd he (hno hd)
  unfold comment Comment.render
  rw [bind_of_ok (literal_of_rest h'), bind_of_ok (charsUntil_of_rest _ rfl c.valid hgo (.inr
    ⟨Text.startsWith_append _ _, atForbidden_of_isAllowed (by decide) _⟩)),
    bind_of_ok (literal_of_rest rfl), if_neg (by simpa using c.noDashes),
    if_neg (by simpa using c.noDashAtEnd), pure_apply, Cursor.past_past, Cursor.past_past,
    List.append_assoc]

/-! The declaration. After its version, its parts follow in a fixed order, each after a gap. -/

theorem announced_of_rest {keyword : Text} {r : Reader Unit} (h : s.rest = keyword ++ rest) :
    announced keyword r s = r (s.past keyword rest) := by
  unfold announced
  rw [bind_of_ok (optional_of_rest h)]
  rfl

theorem announced_of_not_startsWith {keyword : Text} {r : Reader Unit}
    (h : Text.startsWith keyword s.rest = false) : announced keyword r s = .ok ((), s) := by
  unfold announced
  rw [bind_of_ok (optional_of_not_startsWith h)]
  rfl

theorem declarationGap_of_rest (space : Spaces) (h : s.rest = space.text ++ rest)
    (hr : Stops isSpace rest)
    (hne : space.text ≠ [] ∨ Text.startsWith "?>".toList rest = true) :
    declarationGap s = .ok ((), s.past space.text rest) := by
  obtain ⟨offset, t⟩ := s
  change t = space.text ++ rest at h
  subst h
  have hskip := skipSpaces_of_rest (s := ⟨offset, space.text ++ rest⟩) space rfl hr
  unfold declarationGap
  rw [bind_of_ok here_apply]
  obtain ⟨g, hg⟩ := space
  cases g with
  | cons c g =>
    have hc : isSpace c = true := by
      simp only [List.all_cons, Bool.and_eq_true] at hg
      exact hg.1
    simpa [hc] using hskip
  | nil =>
    have hend := hne.resolve_left (fun hn => hn rfl)
    cases rest with
    | nil => simp at hend
    | cons c rest =>
      have hc : isSpace c = false := stops_cons.1 hr
      simp only [Cursor.startsWith, List.nil_append, hc, hend, Bool.false_eq_true, if_false, if_true]
      rfl

theorem version_of_rest (d : Declaration) (h : s.rest = d.version ++ rest) :
    version s = .ok ((), s.past d.version rest) := by
  have h' : s.rest = d.space.text ++ ("version".toList ++ (d.quoting.render ++
      ("1.".toList ++ (d.minor ++ d.quoting.quote :: rest)))) := by
    unfold Declaration.version at h
    rw [h]
    simp only [List.append_assoc, List.singleton_append]
  have hv : Stops isSpace ("version".toList ++ (d.quoting.render ++
      ("1.".toList ++ (d.minor ++ d.quoting.quote :: rest)))) :=
    stops_cons.2 (by decide)
  have hd : Stops isAsciiDigit (d.quoting.quote :: rest) :=
    d.quoting.stops (by decide) (by decide) rest
  have hq : d.quoting.render ++ ("1.".toList ++ (d.minor ++ d.quoting.quote :: rest)) =
      d.quoting.before.text ++ '=' :: d.quoting.after.text ++ d.quoting.quote ::
        ("1.".toList ++ (d.minor ++ d.quoting.quote :: rest)) := by
    simp [Quoting.render]
  unfold version Declaration.version
  rw [bind_of_ok (skipSpaces_of_rest d.space h' hv), bind_of_ok (literal_of_rest rfl),
    bind_of_ok (equals_of_rest d.quoting rfl), bind_of_ok (quote_of_rest d.quoting rfl),
    bind_of_ok (literal_of_rest rfl), bind_of_ok (takeWhile_of_rest rfl d.valid hd),
    char_of_rest rfl]
  simp only [Cursor.past_past, Quoting.render, List.append_assoc, List.cons_append]

theorem encoding_of_rest (e : EncodingPart) (space : Spaces)
    (h : s.rest = e.quoting.render ++ (e.value ++ e.quoting.quote :: (space.text ++ rest)))
    (hr : Stops isSpace rest)
    (hne : space.text ≠ [] ∨ Text.startsWith "?>".toList rest = true) :
    encoding s = .ok ((),
      s.past (e.quoting.render ++ e.value ++ [e.quoting.quote] ++ space.text) rest) := by
  have hd : Stops isEncodingChar (e.quoting.quote :: (space.text ++ rest)) :=
    e.quoting.stops (by decide) (by decide) _
  unfold encoding
  rw [bind_of_ok (equals_of_rest e.quoting h), bind_of_ok (quote_of_rest e.quoting rfl),
    bind_of_ok (takeWhile_of_rest rfl e.valid hd), bind_of_ok (char_of_rest rfl),
    declarationGap_of_rest space rfl hr hne]
  simp [Quoting.render]

theorem name_of_rest {t : Text} (h : s.rest = t ++ rest) (hs : t.head?.any isNameStart = true)
    (ht : t.all isNameChar = true) (hr : Stops isNameChar rest) :
    name s = .ok (t, s.past t rest) := by
  cases t with
  | nil => simp at hs
  | cons c t =>
    have hc : isNameStart c = true := by simpa using hs
    have htake : nameOrEnd s = .ok (c :: t, s.past (c :: t) rest) := by
      rw [← takeWhile_of_rest h ht hr]
      simp [nameOrEnd, h, hc, takeWhile]
    unfold name
    rw [bind_of_ok htake]
    rfl

theorem standalone_of_rest (p : StandalonePart)
    (h : s.rest = p.quoting.render ++
      ((if p.value then "yes".toList else "no".toList) ++ p.quoting.quote :: rest)) :
    standalone s = .ok ((), s.past (p.quoting.render ++
      (if p.value then "yes".toList else "no".toList) ++ [p.quoting.quote]) rest) := by
  have hq : Stops isNameChar (p.quoting.quote :: rest) :=
    stops_cons.2 (not_isNameChar_of_isQuote p.quoting.valid)
  unfold standalone
  rw [bind_of_ok (equals_of_rest p.quoting h), bind_of_ok (quote_of_rest p.quoting rfl),
    bind_of_ok here_apply]
  cases p.value with
  | true =>
    rw [bind_of_ok (name_of_rest rfl (by decide) (by decide) hq), if_pos (.inl rfl),
      char_of_rest rfl]
    simp [Quoting.render]
  | false =>
    rw [bind_of_ok (name_of_rest rfl (by decide) (by decide) hq), if_pos (.inr rfl),
      char_of_rest rfl]
    simp [Quoting.render]

end Reader

/-- The part of a declaration that comes after its encoding, but for the white space before it. -/
def Declaration.closing (d : Declaration) : Text :=
  match d.standalone with
  | some p => "standalone".toList ++ p.quoting.render ++
      (if p.value then "yes".toList else "no".toList) ++ [p.quoting.quote] ++ d.tail.text ++ "?>".toList
  | none => "?>".toList

def Declaration.closingSpace (d : Declaration) : Spaces :=
  match d.standalone with
  | some p => p.gap.toSpaces
  | none => d.tail

namespace Reader

variable {s : Cursor} {rest : Text}

theorem declaration_closing_of_rest (d : Declaration) (h : s.rest = d.closing ++ rest) :
    (do announced "standalone".toList standalone; skipSpaces; literal "?>".toList : Reader Unit) s =
      .ok ((), s.past d.closing rest) := by
  have hangle : Stops isSpace ("?>".toList ++ rest) := stops_cons.2 (by decide)
  unfold Declaration.closing at h ⊢
  cases hp : d.standalone with
  | none =>
    simp only [hp] at h
    have hno : Text.startsWith "standalone".toList s.rest = false := by
      rw [h]
      simp
    change _ = Except.ok ((), s.past "?>".toList rest)
    rw [bind_of_ok (announced_of_not_startsWith hno),
      bind_of_ok (skipSpaces_of_stops (by rw [h]; exact hangle)), literal_of_rest h]
  | some p =>
    simp only [hp] at h
    have h' : s.rest = "standalone".toList ++ (p.quoting.render ++
        ((if p.value then "yes".toList else "no".toList) ++ p.quoting.quote ::
          (d.tail.text ++ ("?>".toList ++ rest)))) := by
      rw [h]
      simp only [List.append_assoc, List.cons_append, List.nil_append]
    rw [bind_of_ok ((announced_of_rest h').trans (standalone_of_rest p rfl)),
      bind_of_ok (skipSpaces_of_rest d.tail rfl hangle), literal_of_rest rfl]
    simp only [Cursor.past_past, List.append_assoc]

theorem declaration_closing_starts (d : Declaration) (rest : Text) :
    Stops isSpace (d.closing ++ rest) ∧
      (d.closingSpace.text ≠ [] ∨ Text.startsWith "?>".toList (d.closing ++ rest) = true) ∧
      Text.startsWith "encoding".toList (d.closing ++ rest) = false := by
  unfold Declaration.closing Declaration.closingSpace
  cases d.standalone with
  | none => exact ⟨stops_cons.2 (by decide), .inr (Text.startsWith_append _ _), by simp⟩
  | some p => exact ⟨stops_cons.2 (by decide), .inl p.gap.nonempty, by simp⟩

theorem declaration_of_rest (d : Declaration) (h : s.rest = d.render ++ rest) :
    declaration s = .ok ((), s.past d.render rest) := by
  obtain ⟨hstop, hne, hno⟩ := declaration_closing_starts d rest
  have hclosing : (d.standalone.map StandalonePart.render).getD [] ++ d.tail.text ++ "?>".toList =
      d.closingSpace.text ++ d.closing := by
    unfold Declaration.closing Declaration.closingSpace
    cases d.standalone with
    | none => rfl
    | some p => simp only [Option.map_some, Option.getD_some, StandalonePart.render, List.append_assoc]
  have hrender : d.render = "<?xml ".toList ++ (d.version ++
      ((d.encoding.map EncodingPart.render).getD [] ++ (d.closingSpace.text ++ d.closing))) := by
    rw [← hclosing]
    unfold Declaration.render
    simp only [List.append_assoc]
  rw [hrender] at h ⊢
  simp only [List.append_assoc] at h
  unfold declaration
  rw [bind_of_ok (literal_of_rest h), bind_of_ok (version_of_rest d rfl)]
  cases he : d.encoding with
  | none =>
    simp only [Option.map_none, Option.getD_none, List.nil_append]
    rw [bind_of_ok (declarationGap_of_rest d.closingSpace rfl hstop hne),
      bind_of_ok (announced_of_not_startsWith hno), declaration_closing_of_rest d rfl]
    simp only [Cursor.past_past, List.append_assoc]
  | some e =>
    have hkey : Stops isSpace ("encoding".toList ++ (e.quoting.render ++ (e.value ++
        e.quoting.quote :: (d.closingSpace.text ++ (d.closing ++ rest))))) :=
      stops_cons.2 (by decide)
    have htext : e.render ++ (d.closingSpace.text ++ (d.closing ++ rest)) = e.gap.text ++
        ("encoding".toList ++ (e.quoting.render ++ (e.value ++
          e.quoting.quote :: (d.closingSpace.text ++ (d.closing ++ rest))))) := by
      unfold EncodingPart.render
      simp only [List.append_assoc, List.singleton_append]
    simp only [Option.map_some, Option.getD_some, htext]
    rw [bind_of_ok (declarationGap_of_rest e.gap.toSpaces rfl hkey (.inl e.gap.nonempty)),
      bind_of_ok ((announced_of_rest rfl).trans (encoding_of_rest e d.closingSpace rfl hstop hne)),
      declaration_closing_of_rest d rfl]
    unfold EncodingPart.render
    simp only [Cursor.past_past, List.append_assoc]

end Reader

end ScriptLens.Markup
