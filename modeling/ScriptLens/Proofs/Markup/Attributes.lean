import ScriptLens.Proofs.Markup.Spelling

/-!
Where the attributes of a text stand, whatever its faults. Reading only moves forward, also when it
takes up again after a fault, so the attributes that a scan reports follow one another in the text,
each with its value between its quotes at the offset it names: `laid_scan`.
-/

namespace ScriptLens.Markup

def Attribute.ReadBetween (a : Attribute) (s s' : Cursor) : Prop :=
  isQuote a.quote = true ∧ ∃ lead, s.Passes (lead ++ a.quoted) s' ∧
    a.valueStart = s.offset + (lead ++ [a.quote]).byteSize

theorem next_locates {m m' : Mode} {s s' : Cursor} {a : Attribute}
    (h : next m s = .token (.attribute a) m' s') : a.ReadBetween s s' := by
  obtain ⟨lead, taken, hpasses, hspells⟩ := next_spelled h
  cases hspells with
  | @attributePart _ written gap hwritten hquote hstart =>
    refine ⟨hquote, lead ++ (written ++ gap), by simpa using hpasses, ?_⟩
    simp only [hstart, Text.byteSize_append]
    omega

/-! Attributes that follow one another. -/

theorem utf8Size_of_isQuote {c : Char} (h : isQuote c = true) : c.utf8Size = 1 := by
  rcases isQuote_iff.1 h with rfl | rfl <;> rfl

/-- In a text that stands at an offset there are attributes, one after another, each with its quotes
where it says its value begins. -/
inductive Laid : (offset : Nat) → Text → List Attribute → Prop
  | nil {offset : Nat} {t : Text} : Laid offset t []
  | cons {offset : Nat} {gap rest : Text} {a : Attribute} {as : List Attribute}
    (quote : isQuote a.quote = true)
    (start : a.valueStart = offset + (gap ++ [a.quote]).byteSize)
    (others : Laid (offset + (gap ++ a.quoted).byteSize) rest as) :
    Laid offset (gap ++ (a.quoted ++ rest)) (a :: as)

namespace Laid

variable {offset : Nat} {t : Text} {as bs : List Attribute}

theorem after {taken : Text} (h : Laid (offset + taken.byteSize) t as) :
    Laid offset (taken ++ t) as := by
  generalize hn : offset + taken.byteSize = n at h
  cases h with
  | nil => exact .nil
  | @cons _ gap rest a as quote start others =>
    subst hn
    rw [← List.append_assoc]
    refine .cons quote ?_ ?_
    · simp [start, Nat.add_assoc]
    · simpa [Nat.add_assoc] using others

theorem sublist (h : Laid offset t bs) (hs : as.Sublist bs) : Laid offset t as := by
  induction h generalizing as with
  | nil => rw [List.sublist_nil.1 hs]; exact .nil
  | @cons offset gap rest a bs quote start others ih =>
    cases hs with
    | cons _ hs =>
      rw [← List.append_assoc]
      exact .after (ih hs)
    | cons_cons _ hs => exact .cons quote start (ih hs)

theorem exists_cut (h : Laid offset t (as ++ bs)) :
    ∃ u v, t = u ++ v ∧ Laid offset u as ∧ Laid (offset + u.byteSize) v bs := by
  induction as generalizing offset t with
  | nil => exact ⟨[], t, rfl, .nil, h⟩
  | cons a as ih =>
    cases h with
    | @cons _ gap rest _ _ quote start others =>
      obtain ⟨u, v, rfl, hu, hv⟩ := ih others
      refine ⟨gap ++ (a.quoted ++ u), v, by simp, .cons quote start hu, ?_⟩
      simpa [Nat.add_assoc] using hv

theorem append {u : Text} (h : Laid offset t as) (h' : Laid (offset + t.byteSize) u bs) :
    Laid offset (t ++ u) (as ++ bs) := by
  induction h with
  | nil => exact .after h'
  | @cons offset gap rest a as quote start others ih =>
    have hothers : Laid (offset + (gap ++ a.quoted).byteSize) (rest ++ u) (as ++ bs) := by
      refine ih ?_
      simpa [Nat.add_assoc] using h'
    simpa using Laid.cons quote start hothers

/-- Attributes do not touch, as each has its quotes around it. -/
theorem apart (h : Laid offset t as) :
    (∀ a ∈ as, isQuote a.quote = true ∧ offset < a.valueStart) ∧
      as.Pairwise fun a b => a.valueStart + a.value.byteSize < b.valueStart := by
  induction h with
  | nil => exact ⟨by simp, .nil⟩
  | @cons offset gap rest a as quote start others ih =>
    obtain ⟨hlater, hpairwise⟩ := ih
    have hsize := utf8Size_of_isQuote quote
    have hfirst : offset < a.valueStart := by
      simp [start, hsize]
    have hnext : a.valueStart + a.value.byteSize < offset + (gap ++ a.quoted).byteSize := by
      simp [start, Attribute.quoted, hsize]
      omega
    constructor
    · intro b hb
      rcases List.mem_cons.1 hb with rfl | hb
      · exact ⟨quote, hfirst⟩
      · obtain ⟨hb, hlater⟩ := hlater b hb
        exact ⟨hb, by omega⟩
    · exact .cons (fun b hb => Nat.lt_trans hnext (hlater b hb).2) hpairwise

theorem exists_value {a : Attribute} (h : Laid offset t as) (ha : a ∈ as) :
    ∃ before after, t = before ++ (a.value ++ a.quote :: after) ∧
      a.valueStart = offset + before.byteSize := by
  induction h with
  | nil => cases ha
  | @cons offset gap rest b as quote start others ih =>
    rcases List.mem_cons.1 ha with rfl | ha
    · exact ⟨gap ++ [a.quote], rest, by simp [Attribute.quoted], start⟩
    · obtain ⟨before, after, rfl, hstart⟩ := ih ha
      refine ⟨gap ++ (b.quoted ++ before), after, by simp, ?_⟩
      simp only [hstart, Text.byteSize_append]
      omega

theorem eq_nil_of_no_quote (h : Laid offset t as) (ht : ∀ c ∈ t, isQuote c = false) : as = [] := by
  cases h with
  | nil => rfl
  | @cons _ gap rest a _ quote start others =>
    have hquote := ht a.quote (by simp [Attribute.quoted])
    simp [quote] at hquote

end Laid

/-! The attributes that are reported. -/

def Lexeme.attribute? : Lexeme → Option Attribute
  | .token (.attribute a) _ => some a
  | _ => none

theorem Laid.of_reaches {s s' : Cursor} {as : List Attribute} (hs : s.Reaches s')
    (h : Laid s'.offset s'.rest as) : Laid s.offset s.rest as := by
  obtain ⟨taken, hrest, hoffset⟩ := hs
  rw [hrest]
  rw [hoffset] at h
  exact h.after

theorem Laid.of_readBetween {s s' : Cursor} {a : Attribute} {as : List Attribute}
    (ha : a.ReadBetween s s') (h : Laid s'.offset s'.rest as) : Laid s.offset s.rest (a :: as) := by
  obtain ⟨hquote, lead, ⟨hrest, hoffset⟩, hstart⟩ := ha
  rw [hrest, List.append_assoc]
  rw [hoffset] at h
  exact .cons hquote hstart h

theorem Cursor.resumption_of_rest {s : Cursor} {t rest : Text} (hne : t ≠ []) (ht : '<' ∉ t.tail)
    (h : s.rest = t ++ rest) :
    s.resumption =
      s.past (t ++ rest.takeWhile (· != '<')) (rest.dropWhile (· != '<')) := by
  obtain ⟨c, t, rfl⟩ := List.exists_cons_of_ne_nil hne
  have hpass : ∀ d ∈ t, (d != '<') = true := by
    intro d hd
    simp only [bne_iff_ne]
    rintro rfl
    exact ht hd
  have hskipped : s.skipped = c :: t ++ rest.takeWhile (· != '<') := by
    simp [skipped, h, List.takeWhile_append_of_pos hpass]
  have hcut : c :: t ++ rest =
      (c :: t ++ rest.takeWhile (· != '<')) ++ rest.dropWhile (· != '<') := by
    rw [List.append_assoc, List.takeWhile_append_dropWhile]
  rw [resumption, hskipped, h, hcut, List.drop_left]

theorem Cursor.passes_skipped (s : Cursor) : s.Passes s.skipped s.resumption := by
  refine ⟨?_, rfl⟩
  have hprefix : s.skipped <+: s.rest := by
    unfold skipped
    split
    next h => simp
    next c t h =>
      rw [h, List.prefix_cons_inj]
      exact List.takeWhile_prefix _
  obtain ⟨after, hafter⟩ := hprefix
  simp [resumption, past, ← hafter]

theorem Cursor.reaches_resumption (s : Cursor) : s.Reaches s.resumption :=
  ⟨s.skipped, s.passes_skipped⟩

theorem laid_lexemesFrom (m : Mode) (s : Cursor) :
    Laid s.offset s.rest ((lexemesFrom m s).filterMap Lexeme.attribute?) := by
  fun_induction lexemesFrom m s with
  | case1 => exact .nil
  | case2 m s t m' s' hnext ih =>
    cases t <;> try exact .of_reaches (next_token hnext).1 ih
    next a => exact .of_readBetween (next_locates hnext) ih
  | case3 m s f hnext ih => exact .of_reaches s.reaches_resumption ih

def Event.attributes : Event → List Attribute
  | .opened tag => tag.attributes
  | _ => []

theorem attributes_finishPending (pending : Option Tag) (stop : Nat) (isEmpty : Bool) :
    (finishPending pending stop isEmpty).flatMap Event.attributes =
      (pending.map Tag.attributes).getD [] := by
  cases pending with
  | none => rfl
  | some tag => cases isEmpty <;> simp [finishPending, Tag.finish, Event.attributes]

/-- Of the attributes that are read a tag can lose some, but none change their order. -/
theorem attributes_events (pending : Option Tag) (lexemes : List Lexeme) :
    ((events pending lexemes).flatMap Event.attributes).Sublist
      ((pending.map Tag.attributes).getD [] ++ lexemes.filterMap Lexeme.attribute?) := by
  induction lexemes generalizing pending with
  | nil => simp [events]
  | cons l rest ih =>
    cases l with
    | fault f skipped stop =>
      simpa [events, attributes_finishPending, Event.attributes, List.filterMap_cons,
        Lexeme.attribute?] using ih none
    | token t stop =>
      rcases t with ⟨name, start⟩ | a | _ | _ | name | content | content | _
      · exact (ih (some ⟨name, start, stop, []⟩)).trans (List.sublist_append_right _ _)
      · cases pending with
        | none => exact (ih none).trans (List.sublist_cons_self a _)
        | some tag =>
          have hpushed := ih (some (tag.push a))
          simpa [events, List.filterMap_cons, Lexeme.attribute?, Tag.push] using hpushed
      · simpa [events, attributes_finishPending, List.filterMap_cons, Lexeme.attribute?] using
          ih none
      · simpa [events, attributes_finishPending, List.filterMap_cons, Lexeme.attribute?] using
          ih none
      all_goals
        simpa [events, Event.attributes, List.filterMap_cons, Lexeme.attribute?] using ih pending

theorem laid_events (m : Mode) (s : Cursor) :
    Laid s.offset s.rest ((events none (lexemesFrom m s)).flatMap Event.attributes) := by
  have hsome := attributes_events none (lexemesFrom m s)
  rw [Option.map_none, Option.getD_none, List.nil_append] at hsome
  exact (laid_lexemesFrom m s).sublist hsome

theorem laid_scan (t : Text) : Laid 0 t ((scan t).flatMap Event.attributes) :=
  laid_events .document ⟨0, t⟩

end ScriptLens.Markup
