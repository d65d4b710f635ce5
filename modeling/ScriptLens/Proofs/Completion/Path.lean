import Mathlib.Data.List.Induction
import ScriptLens.Completion.Path
import ScriptLens.Proofs.Text

/-!
Which two segments of a text are located. A text is cut at its last delimiter, where a quote at the
very end is none, and what stands before that is cut at its last delimiter again; this leaves no choice
(`segments_between_delimiters`). The same search by byte offsets slices between characters only. A
quote that closes the text changes nothing but the length of its last fragment, and with it what stands
for a previous segment that no delimiter begins (`closing_quote_keeps_iff`).
-/

namespace ScriptLens

namespace Text

def lastOffset? (stop : Char → Bool) (t : Text) : Option Nat :=
  (splitLast? stop t).map fun (before, _) => before.byteSize

theorem lastOffset?_concat (stop : Char → Bool) (t : Text) (c : Char) :
    lastOffset? stop (t ++ [c]) = if stop c then some t.byteSize else lastOffset? stop t := by
  by_cases hc : stop c = true
  · simp [lastOffset?, splitLast?, splitFirst?, hc]
  · simp [lastOffset?, splitLast?, splitFirst?, hc, Function.comp_def]

theorem lastOffset?_le (stop : Char → Bool) (t : Text) :
    lastOffset? stop t ≤ some t.byteSize := by
  cases hsplit : splitLast? stop t with
  | none => simp [lastOffset?, hsplit]
  | some parts =>
    obtain ⟨c, _, rfl, _⟩ := splitLast?_eq_some_iff.1 hsplit
    simp [lastOffset?, hsplit]

theorem lastOffset?_or (p q : Char → Bool) (t : Text) :
    lastOffset? (fun c => p c || q c) t = max (lastOffset? p t) (lastOffset? q t) := by
  induction t using List.reverseRecOn with
  | nil => rfl
  | append_singleton t c ih =>
    have hp := Option.max_eq_left (fun _ _ => Nat.max_eq_right) (lastOffset?_le p t)
    have hq := Option.max_eq_right (fun _ _ => Nat.max_eq_left) (lastOffset?_le q t)
    rw [lastOffset?_concat, lastOffset?_concat, lastOffset?_concat, ih]
    cases p c <;> cases q c <;> simp [hp, hq]

end Text

namespace PathContext

open Text

theorem isDelimiter_iff {c : Char} : isDelimiter c = true ↔ c = '.' ∨ c = '"' := by
  simp [isDelimiter]

def Undelimited (t : Text) : Prop :=
  '.' ∉ t ∧ '"' ∉ t

instance (t : Text) : Decidable (Undelimited t) :=
  inferInstanceAs (Decidable (_ ∧ _))

theorem undelimited_iff {t : Text} : Undelimited t ↔ ∀ c ∈ t, isDelimiter c = false := by
  constructor
  · intro h c hc
    refine Bool.eq_false_iff.2 fun hdelimiter => ?_
    rcases isDelimiter_iff.1 hdelimiter with rfl | rfl
    · exact h.1 hc
    · exact h.2 hc
  · intro h
    constructor <;> exact fun hmem => absurd (h _ hmem) (by decide)

/-! The quote at the end. -/

theorem dropFinalQuote_concat (t : Text) (c : Char) :
    dropFinalQuote (t ++ [c]) = if c = '"' then t else t ++ [c] := by
  by_cases hc : c = '"'
  · have hbefore : before? ['"'] (t ++ [c]) = some t := before?_eq_some_iff.2 (by rw [hc])
    rw [dropFinalQuote, hbefore, if_pos hc]
    rfl
  · have hbefore : before? ['"'] (t ++ [c]) = none := by
      refine Option.eq_none_iff_forall_ne_some.2 fun u hu => hc ?_
      simpa using (List.append_inj' (before?_eq_some_iff.1 hu) rfl).2
    rw [dropFinalQuote, hbefore, if_neg hc]
    rfl

theorem dropFinalQuote_eq_iff {t u : Text} :
    dropFinalQuote t = u ↔ t = u ++ ['"'] ∨ t = u ∧ t.getLast? ≠ some '"' := by
  rcases List.eq_nil_or_concat t with rfl | ⟨v, c, rfl⟩
  · simp [dropFinalQuote, before?, after?]
  · rw [List.concat_eq_append, dropFinalQuote_concat]
    by_cases hc : c = '"' <;> simp [hc]

/-! The fragment behind the last delimiter. -/

/-- A text cut at its last delimiter: what stands before it, the fragment behind it, and the quote at
the very end, if there is one. That quote is no delimiter. -/
structure Cut (t before : Text) (delimiter : Char) (current closing : Text) : Prop where
  whole : t = before ++ delimiter :: (current ++ closing)
  delimits : delimiter = '.' ∨ delimiter = '"' ∧ current ++ closing ≠ []
  undelimited : Undelimited current
  closed : closing = [] ∨ closing = ['"']

namespace Cut

variable {t before current closing : Text} {delimiter : Char}

theorem isDelimiter (h : Cut t before delimiter current closing) :
    PathContext.isDelimiter delimiter = true := by
  rcases h.delimits with rfl | ⟨rfl, _⟩ <;> rfl

theorem dropFinalQuote_fragment (h : Cut t before delimiter current closing) :
    dropFinalQuote (current ++ closing) = current := by
  rw [dropFinalQuote_eq_iff]
  rcases h.closed with rfl | rfl
  · rw [List.append_nil]
    exact .inr ⟨rfl, fun hlast => h.undelimited.2 (List.mem_of_getLast? hlast)⟩
  · exact .inl rfl

theorem dropFinalQuote_whole (h : Cut t before delimiter current closing) :
    dropFinalQuote t = before ++ delimiter :: current := by
  obtain ⟨rfl, hdelimits, hcurrent, hclosing⟩ := h
  rw [dropFinalQuote_eq_iff]
  rcases hclosing with rfl | rfl
  · rw [List.append_nil] at hdelimits ⊢
    refine .inr ⟨rfl, fun hlast => ?_⟩
    rcases List.eq_nil_or_concat current with rfl | ⟨u, c, rfl⟩
    · obtain rfl : delimiter = '"' := by simpa using hlast
      simp at hdelimits
    · rw [List.concat_eq_append, ← List.cons_append, ← List.append_assoc,
        List.getLast?_concat] at hlast
      exact hcurrent.2 (by simp [Option.some.inj hlast])
  · exact .inl (by simp)

end Cut

theorem exists_cut_iff {t before current : Text} :
    (∃ delimiter closing, Cut t before delimiter current closing) ↔
      splitLast? isDelimiter (dropFinalQuote t) = some (before, current) := by
  constructor
  · rintro ⟨delimiter, closing, h⟩
    rw [h.dropFinalQuote_whole]
    exact splitLast?_append before (undelimited_iff.1 h.undelimited) h.isDelimiter
  · intro h
    obtain ⟨delimiter, hdelimiter, hwhole, hcurrent⟩ := splitLast?_eq_some_iff.1 h
    have hfragment : Undelimited current := undelimited_iff.2 hcurrent
    rcases dropFinalQuote_eq_iff.1 hwhole with rfl | ⟨rfl, hlast⟩
    · refine ⟨delimiter, ['"'], by simp, ?_, hfragment, .inr rfl⟩
      exact (isDelimiter_iff.1 hdelimiter).imp_right fun hquote => ⟨hquote, by simp⟩
    · refine ⟨delimiter, [], by simp, ?_, hfragment, .inl rfl⟩
      refine (isDelimiter_iff.1 hdelimiter).imp_right fun hquote => ⟨hquote, fun hnil => hlast ?_⟩
      obtain rfl : current = [] := by simpa using hnil
      rw [List.getLast?_concat, hquote]

/-! The segment before it. -/

/-- What stands for the segment before a delimiter, given the text from that delimiter on: what
follows the delimiter before it; without one, all that stands there, but nothing if the text from the
delimiter on is long. -/
inductive PreviousSegment : (before tail : Text) → Text → Prop
  | delimited {before tail segment : Text} {delimiter : Char}
    (h : delimiter = '.' ∨ delimiter = '"') (free : Undelimited segment) :
    PreviousSegment (before ++ delimiter :: segment) tail segment
  | whole {before tail : Text} (free : Undelimited before) (short : tail.length ≤ 3) :
    PreviousSegment before tail before
  | nothing {before tail : Text} (free : Undelimited before) (long : 3 < tail.length) :
    PreviousSegment before tail []

def previousOf (before : Text) (length : Nat) : Text :=
  match splitLast? isDelimiter before with
  | some (_, segment) => segment
  | none => if shortFragment < length then [] else before

theorem previousOf_of_undelimited {before : Text} (h : Undelimited before) (length : Nat) :
    previousOf before length = if shortFragment < length then [] else before := by
  rw [previousOf, splitLast?_eq_none_iff.2 (undelimited_iff.1 h)]

theorem previousSegment_iff {before tail previous : Text} :
    PreviousSegment before tail previous ↔ previousOf before tail.length = previous := by
  constructor
  · intro h
    cases h with
    | delimited h free =>
      rw [previousOf, splitLast?_append _ (undelimited_iff.1 free) (isDelimiter_iff.2 h)]
    | whole free short =>
      rw [previousOf_of_undelimited free]
      exact if_neg (Nat.not_lt.2 short)
    | nothing free long =>
      rw [previousOf_of_undelimited free]
      exact if_pos long
  · rintro rfl
    cases hsplit : splitLast? isDelimiter before with
    | some parts =>
      obtain ⟨delimiter, h, rfl, free⟩ := splitLast?_eq_some_iff.1 hsplit
      rw [previousOf, hsplit]
      exact .delimited (isDelimiter_iff.1 h) (undelimited_iff.2 free)
    | none =>
      have free := undelimited_iff.2 (splitLast?_eq_none_iff.1 hsplit)
      rw [previousOf_of_undelimited free]
      split
      next hlong => exact .nothing free hlong
      next hshort => exact .whole free (Nat.not_lt.1 hshort)

/-! Both segments. -/

theorem locate?_eq (t : Text) :
    locate? t = (splitLast? isDelimiter (dropFinalQuote t)).map fun (before, current) =>
      ⟨previousOf before (t.length - before.length), current⟩ :=
  rfl

theorem locate?_of_cut {t before current closing : Text} {delimiter : Char}
    (h : Cut t before delimiter current closing) :
    locate? t = some ⟨previousOf before (delimiter :: (current ++ closing)).length, current⟩ := by
  have hlength : t.length - before.length = (delimiter :: (current ++ closing)).length := by
    rw [h.whole, List.length_append, Nat.add_sub_cancel_left]
  rw [locate?_eq, exists_cut_iff.1 ⟨delimiter, closing, h⟩, ← hlength]
  rfl

theorem locate?_eq_none_iff {t : Text} :
    locate? t = none ↔ '.' ∉ t ∧ '"' ∉ t.dropLast := by
  rw [locate?_eq, Option.map_eq_none_iff, splitLast?_eq_none_iff, ← undelimited_iff]
  rcases List.eq_nil_or_concat t with rfl | ⟨u, c, rfl⟩
  · simp [Undelimited, dropFinalQuote, before?, after?]
  · rw [List.concat_eq_append, dropFinalQuote_concat, List.dropLast_concat]
    by_cases hc : c = '"'
    · simp [Undelimited, hc]
    · simp [Undelimited, hc, Ne.symm hc]

theorem locate?_eq_some_iff {t : Text} {context : PathContext} :
    locate? t = some context ↔
      ∃ before delimiter closing, Cut t before delimiter context.current closing ∧
        PreviousSegment before (delimiter :: (context.current ++ closing)) context.previous := by
  constructor
  · intro h
    obtain ⟨⟨before, current⟩, hsplit, hcontext⟩ := Option.map_eq_some_iff.1 h
    obtain ⟨delimiter, closing, hcut⟩ := exists_cut_iff.2 hsplit
    obtain rfl : ⟨_, current⟩ = context := hcontext
    rw [locate?_of_cut hcut] at h
    obtain ⟨hprevious⟩ := PathContext.mk.inj (Option.some.inj h)
    exact ⟨before, delimiter, closing, hcut, previousSegment_iff.2 hprevious⟩
  · rintro ⟨before, delimiter, closing, hcut, hprevious⟩
    rw [locate?_of_cut hcut, previousSegment_iff.1 hprevious]

/-! The search by byte offsets. -/

def previousByOffsets? (t before : Text) (position : Nat) : Option Text :=
  match max (lastOffset? (· == '.') before) (lastOffset? (· == '"') before) with
  | some start => slice? before (start + 1) (byteSize before)
  | none => (slice? t position (byteSize t)).map fun tail =>
    if shortFragment < tail.length then [] else before

/-- Both segments by the offsets of the delimiters. There is no answer if a slice would begin or end
inside a character or past the end. -/
def locateByOffsets? (t : Text) : Option (Option PathContext) := do
  let inner ← slice? t 0 (byteSize t.dropLast)
  match max (lastOffset? (· == '.') t) (lastOffset? (· == '"') inner) with
  | none => some none
  | some position => do
    let rest ← slice? t (position + 1) (byteSize t)
    let before ← slice? t 0 position
    let previous ← previousByOffsets? t before position
    some (some { previous, current := dropFinalQuote rest })

theorem lastOffset?_isDelimiter (t : Text) :
    max (lastOffset? (· == '.') t) (lastOffset? (· == '"') t) = lastOffset? isDelimiter t :=
  (lastOffset?_or _ _ t).symm

theorem lastOffset?_dropFinalQuote (t : Text) :
    max (lastOffset? (· == '.') t) (lastOffset? (· == '"') t.dropLast) =
      lastOffset? isDelimiter (dropFinalQuote t) := by
  rcases List.eq_nil_or_concat t with rfl | ⟨u, c, rfl⟩
  · rfl
  · rw [List.concat_eq_append, dropFinalQuote_concat, List.dropLast_concat,
      ← lastOffset?_isDelimiter]
    by_cases hc : c = '"' <;> simp [hc, lastOffset?_concat]

theorem slice?_dropLast (t : Text) : slice? t 0 (byteSize t.dropLast) = some t.dropLast := by
  rcases List.eq_nil_or_concat t with rfl | ⟨u, c, rfl⟩
  · rfl
  · rw [List.concat_eq_append, List.dropLast_concat]
    exact slice?_left u [c]

/-- A delimiter is one byte, and a slice can begin behind it. -/
theorem slice?_behind {delimiter : Char} (h : isDelimiter delimiter = true) (s t : Text) :
    slice? (s ++ delimiter :: t) (byteSize s + 1) (byteSize (s ++ delimiter :: t)) = some t := by
  have hsize : byteSize (s ++ [delimiter]) = byteSize s + 1 := by
    rcases isDelimiter_iff.1 h with rfl | rfl <;> simp [Char.utf8Size]
  rw [← hsize, List.append_cons]
  exact slice?_right (s ++ [delimiter]) t

theorem previousByOffsets?_eq (before tail : Text) :
    previousByOffsets? (before ++ tail) before (byteSize before) =
      some (previousOf before tail.length) := by
  rw [previousByOffsets?, lastOffset?_isDelimiter, lastOffset?, previousOf]
  cases hsplit : splitLast? isDelimiter before with
  | none =>
    rw [slice?_right]
    rfl
  | some parts =>
    obtain ⟨left, segment⟩ := parts
    obtain ⟨delimiter, h, rfl, _⟩ := splitLast?_eq_some_iff.1 hsplit
    exact slice?_behind h left segment

theorem locateByOffsets?_eq (t : Text) : locateByOffsets? t = some (locate? t) := by
  rw [locateByOffsets?, slice?_dropLast]
  dsimp only [bind, Option.bind]
  rw [lastOffset?_dropFinalQuote, lastOffset?]
  cases hsplit : splitLast? isDelimiter (dropFinalQuote t) with
  | none =>
    rw [locate?_eq, hsplit]
    rfl
  | some parts =>
    obtain ⟨before, current⟩ := parts
    obtain ⟨delimiter, closing, hcut⟩ := exists_cut_iff.2 hsplit
    rw [locate?_of_cut hcut]
    obtain rfl := hcut.whole
    dsimp only [Option.map_some]
    rw [slice?_behind hcut.isDelimiter, slice?_left]
    dsimp only
    rw [previousByOffsets?_eq]
    dsimp only
    rw [hcut.dropFinalQuote_fragment]

/-- Two segments are located exactly if a dot stands anywhere or a quote before the last character, and
the text itself tells which two they are; all slices of the search fall between characters. -/
theorem segments_between_delimiters (t : Text) :
    (locate? t = none ↔ '.' ∉ t ∧ '"' ∉ t.dropLast) ∧
    (∀ context, locate? t = some context ↔
      ∃ before delimiter closing, Cut t before delimiter context.current closing ∧
        PreviousSegment before (delimiter :: (context.current ++ closing)) context.previous) ∧
    locateByOffsets? t = some (locate? t) := by
  refine ⟨locate?_eq_none_iff, fun context => ?_, ?_⟩
  · exact locate?_eq_some_iff
  · exact locateByOffsets?_eq t

/-- Three characters are short, of however many bytes. -/
example : locateByOffsets? "é.😀\"".toList = some (some ⟨"é".toList, "😀".toList⟩) ∧
    locateByOffsets? "é.😀é\"".toList = some (some ⟨[], "😀é".toList⟩) := by
  decide

/-! A quote that closes the text. -/

namespace Cut

variable {t before current closing : Text} {delimiter : Char}

theorem closing_eq_nil (h : Cut t before delimiter current closing)
    (hlast : t.getLast? ≠ some '"') : closing = [] := by
  refine h.closed.resolve_right fun hclosing => hlast ?_
  rw [h.whole, hclosing, ← List.cons_append, ← List.append_assoc, List.getLast?_concat]

theorem quoted (h : Cut t before delimiter current []) :
    Cut (t ++ ['"']) before delimiter current ['"'] where
  whole := by simp [h.whole]
  delimits := h.delimits.imp_right fun hquote => ⟨hquote.1, by simp⟩
  undelimited := h.undelimited
  closed := .inr rfl

end Cut

/-- Two characters stand behind the only delimiter of a text, and something stands before it. With a
quote behind them they are no short fragment any more. -/
structure ShortEnd (t before : Text) (delimiter : Char) (current : Text) : Prop where
  cut : Cut t before delimiter current []
  only : Undelimited before
  before_ne_nil : before ≠ []
  short : current.length = 2

theorem previousOf_succ_eq_iff {before : Text} {length : Nat} :
    previousOf before (length + 1) = previousOf before length ↔
      ¬(Undelimited before ∧ before ≠ [] ∧ length = shortFragment) := by
  by_cases hbefore : Undelimited before
  · rw [previousOf_of_undelimited hbefore, previousOf_of_undelimited hbefore]
    by_cases hlength : length = shortFragment
    · simp [hlength, hbefore, eq_comm]
    · have hsame : shortFragment < length + 1 ↔ shortFragment < length := by omega
      simp [hsame, hlength]
  · have hsplit : splitLast? isDelimiter before ≠ none := fun hnone =>
      hbefore (undelimited_iff.2 (splitLast?_eq_none_iff.1 hnone))
    obtain ⟨parts, hparts⟩ := Option.ne_none_iff_exists'.1 hsplit
    simp [previousOf, hparts, hbefore]

theorem locate?_append_quote_of_none {t : Text} (hlast : t.getLast? ≠ some '"')
    (h : locate? t = none) : locate? (t ++ ['"']) = none := by
  have hdrop : dropFinalQuote (t ++ ['"']) = dropFinalQuote t := by
    rw [dropFinalQuote_eq_iff.2 (.inl rfl), dropFinalQuote_eq_iff.2 (.inr ⟨rfl, hlast⟩)]
  rw [locate?_eq, Option.map_eq_none_iff] at h ⊢
  rw [hdrop, h]

theorem ShortEnd.locate?_eq {t before current : Text} {delimiter : Char}
    (h : ShortEnd t before delimiter current) :
    locate? t = some ⟨before, current⟩ ∧ locate? (t ++ ['"']) = some ⟨[], current⟩ := by
  rw [locate?_of_cut h.cut, locate?_of_cut h.cut.quoted, previousOf_of_undelimited h.only,
    previousOf_of_undelimited h.only]
  simp [h.short, shortFragment]

/-- A closing quote makes no difference, except behind two characters that follow the only delimiter:
there the previous segment is lost. -/
theorem closing_quote_keeps_iff {t : Text} (h : t.getLast? ≠ some '"') :
    (locate? (t ++ ['"']) = locate? t ↔
      ¬∃ before delimiter current, ShortEnd t before delimiter current) ∧
    ∀ before delimiter current, ShortEnd t before delimiter current →
      locate? t = some ⟨before, current⟩ ∧ locate? (t ++ ['"']) = some ⟨[], current⟩ := by
  refine ⟨⟨?_, fun hnone => ?_⟩, fun _ _ _ hend => hend.locate?_eq⟩
  · rintro heq ⟨before, delimiter, current, hend⟩
    rw [hend.locate?_eq.1, hend.locate?_eq.2] at heq
    cases heq
    exact hend.before_ne_nil rfl
  · cases hlocated : locate? t with
    | none => exact locate?_append_quote_of_none h hlocated
    | some context =>
      obtain ⟨before, delimiter, closing, hcut, _⟩ := locate?_eq_some_iff.1 hlocated
      obtain rfl := hcut.closing_eq_nil h
      rw [← hlocated, locate?_of_cut hcut, locate?_of_cut hcut.quoted]
      have hsame : previousOf before (context.current.length + 1 + 1) =
          previousOf before (context.current.length + 1) :=
        previousOf_succ_eq_iff.2 fun ⟨honly, hne, hlength⟩ =>
          hnone ⟨before, delimiter, context.current, hcut, honly, hne, Nat.succ.inj hlength⟩
      simp [hsame]

theorem shortEnd_twoLetters : ShortEnd "a\"pl".toList "a".toList '"' "pl".toList where
  cut := ⟨rfl, .inr ⟨rfl, by decide⟩, by decide, .inl rfl⟩
  only := by decide
  before_ne_nil := by decide
  short := rfl

theorem twoLetters_closing_quote :
    "a\"pl".toList.getLast? ≠ some '"' ∧
    (locate? ("a\"pl".toList ++ ['"']) = locate? "a\"pl".toList ↔
      ¬∃ before delimiter current, ShortEnd "a\"pl".toList before delimiter current) ∧
    ShortEnd "a\"pl".toList "a".toList '"' "pl".toList ∧
    locate? "a\"pl".toList = some ⟨"a".toList, "pl".toList⟩ ∧
    locate? ("a\"pl".toList ++ ['"']) = some ⟨[], "pl".toList⟩ := by
  have hlast : "a\"pl".toList.getLast? ≠ some '"' := by decide
  obtain ⟨hkeeps, hlost⟩ := closing_quote_keeps_iff hlast
  exact ⟨hlast, hkeeps, shortEnd_twoLetters, hlost _ _ _ shortEnd_twoLetters⟩

theorem twoLetters_not_kept :
    "a\"pl".toList.getLast? ≠ some '"' ∧
      locate? ("a\"pl".toList ++ ['"']) ≠ locate? "a\"pl".toList := by
  decide

end PathContext

end ScriptLens
