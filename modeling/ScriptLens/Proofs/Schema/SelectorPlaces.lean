import Mathlib.Data.List.Infix
import ScriptLens.Proofs.Schema.SelectorWriting

/-!
Where the steps of a selector stand on a stack of open elements. A selector is matched from its last
step and from the innermost element; told from the outermost element on, it selects a stack exactly
if its steps can be placed on it in order, the last one on top (`Selector.selects_iff_stands`).
-/

namespace ScriptLens.Selector

/-- Each step of a selector has a position on a stack, whose outermost element has position `0`. -/
structure StandsAt (steps : List SelectorStep) (stack : List Element) (position : Nat → Nat) :
    Prop where
  increasing : ∀ k l, k < l → l < steps.length → position k < position l
  top : position (steps.length - 1) + 1 = stack.length
  accepted : ∀ k step, steps[k]? = some step →
    ∃ e, stack[position k]? = some e ∧ step.accepts e = true
  bottom : ∀ step, steps[0]? = some step → step.descendant = false → position 0 = 0
  adjacent : ∀ k step, steps[k + 1]? = some step → step.descendant = false →
    position (k + 1) = position k + 1

theorem outers_eq_tails (stack : List Element) : outers stack = stack.tails := by
  induction stack with
  | nil => rfl
  | cons e outer ih => rw [outers, ih, List.tails_cons]

/-- The last step takes the top of a stack. It leaves an outer part of the rest to the steps before
it, and all of it if it is no descendant. -/
theorem leads_concat (earlier : List SelectorStep) (step : SelectorStep) (lower : List Element)
    (e : Element) :
    leads (earlier ++ [step]).reverse (lower ++ [e]).reverse = true ↔
      step.accepts e = true ∧ ∃ outer, outer <+: lower ∧
        (step.descendant = false → outer = lower) ∧
          leads earlier.reverse outer.reverse = true := by
  rw [List.reverse_concat, List.reverse_concat, leads, Bool.and_eq_true]
  refine and_congr_right fun _ => ?_
  cases hdescendant : step.descendant with
  | false =>
    simp only [Bool.false_eq_true, if_false, forall_const]
    constructor
    · intro h
      exact ⟨lower, List.prefix_rfl, rfl, h⟩
    · rintro ⟨_, -, rfl, h⟩
      exact h
  | true =>
    simp only [if_true, List.any_eq_true, outers_eq_tails, List.mem_tails, Bool.true_eq_false,
      false_implies, true_and]
    constructor
    · rintro ⟨outer, houter, h⟩
      refine ⟨outer.reverse, ?_, by rwa [List.reverse_reverse]⟩
      rwa [← List.reverse_suffix, List.reverse_reverse]
    · rintro ⟨outer, houter, h⟩
      exact ⟨outer.reverse, List.reverse_suffix.2 houter, h⟩

namespace StandsAt

variable {steps earlier : List SelectorStep} {step : SelectorStep}
variable {stack lower outer : List Element} {e : Element} {position : Nat → Nat}

theorem lt_length (h : StandsAt steps stack position) {k : Nat} (hk : k < steps.length) :
    position k < stack.length := by
  obtain ⟨e, he, -⟩ := h.accepted k steps[k] (List.getElem?_eq_getElem hk)
  exact (List.getElem?_eq_some_iff.1 he).1

theorem ne_nil (h : StandsAt steps stack position) : stack ≠ [] := by
  rintro rfl
  exact absurd h.top (by simp)

theorem exists_singleton_iff :
    (∃ position, StandsAt [step] (lower ++ [e]) position) ↔
      step.accepts e = true ∧ (step.descendant = false → lower = []) := by
  constructor
  · rintro ⟨position, h⟩
    have htop : position 0 = lower.length := by simpa using h.top
    obtain ⟨e', he', haccepts⟩ := h.accepted 0 step rfl
    obtain rfl : e = e' := by simpa [htop] using he'
    refine ⟨haccepts, fun hdescendant => ?_⟩
    rw [h.bottom step rfl hdescendant] at htop
    exact List.eq_nil_of_length_eq_zero htop.symm
  · rintro ⟨haccepts, hlower⟩
    refine ⟨fun _ => lower.length, ?_, by simp, ?_, ?_, by simp⟩
    · intro k l hkl hl
      simp only [List.length_singleton] at hl
      omega
    · intro k step' hstep'
      obtain ⟨rfl, rfl⟩ : k = 0 ∧ step = step' := by
        simpa [List.getElem?_singleton] using hstep'
      exact ⟨e, by simp, haccepts⟩
    · intro step' hstep' hdescendant
      obtain rfl : step = step' := by simpa using hstep'
      rw [hlower hdescendant]
      rfl

theorem before_last (hearlier : earlier ≠ [])
    (h : StandsAt (earlier ++ [step]) (lower ++ [e]) position) :
    step.accepts e = true ∧ ∃ outer, outer <+: lower ∧
      (step.descendant = false → outer = lower) ∧ StandsAt earlier outer position := by
  have hpos := List.length_pos_iff.2 hearlier
  have hsteps : (earlier ++ [step]).length = earlier.length + 1 := List.length_append
  have hlast : (earlier ++ [step])[earlier.length]? = some step := by simp
  have htop : position earlier.length = lower.length := by simpa using h.top
  have hunder : ∀ k < earlier.length, position k ≤ position (earlier.length - 1) := by
    intro k hk
    rcases Nat.lt_or_ge k (earlier.length - 1) with hlt | hge
    · exact (h.increasing k _ hlt (by omega)).le
    · rw [show k = earlier.length - 1 by omega]
  have hbelow : position (earlier.length - 1) < lower.length := by
    rw [← htop]
    exact h.increasing _ _ (by omega) (by omega)
  have hlength : (lower.take (position (earlier.length - 1) + 1)).length =
      position (earlier.length - 1) + 1 := by
    rw [List.length_take]
    omega
  refine ⟨?_, lower.take (position (earlier.length - 1) + 1), List.take_prefix _ _, ?_, ?_⟩
  · obtain ⟨e', he', haccepts⟩ := h.accepted _ step hlast
    obtain rfl : e = e' := by simpa [htop] using he'
    exact haccepts
  · intro hdescendant
    have hadjacent := h.adjacent (earlier.length - 1) step
      (by rw [Nat.sub_add_cancel hpos, hlast]) hdescendant
    rw [Nat.sub_add_cancel hpos, htop] at hadjacent
    rw [List.take_of_length_le hadjacent.le]
  · have hkeep : ∀ k < earlier.length, (earlier ++ [step])[k]? = earlier[k]? := fun k hk =>
      List.getElem?_append_left hk
    refine ⟨?_, hlength.symm, ?_, ?_, ?_⟩
    · intro k l hkl hl
      exact h.increasing k l hkl (by omega)
    · intro k step' hstep'
      have hk := (List.getElem?_eq_some_iff.1 hstep').1
      obtain ⟨e', he', haccepts⟩ := h.accepted k step' ((hkeep k hk).trans hstep')
      have hposition := hunder k hk
      rw [List.getElem?_append_left (by omega)] at he'
      exact ⟨e', by rw [List.getElem?_take_of_lt (by omega), he'], haccepts⟩
    · intro step' hstep'
      exact h.bottom step' ((hkeep 0 hpos).trans hstep')
    · intro k step' hstep'
      have hk := (List.getElem?_eq_some_iff.1 hstep').1
      exact h.adjacent k step' ((hkeep _ hk).trans hstep')

theorem concat (hearlier : earlier ≠ []) (h : StandsAt earlier outer position)
    (houter : outer <+: lower) (hdescendant : step.descendant = false → outer = lower)
    (haccepts : step.accepts e = true) :
    StandsAt (earlier ++ [step]) (lower ++ [e])
      fun k => if k < earlier.length then position k else lower.length := by
  have hpos := List.length_pos_iff.2 hearlier
  have hsteps : (earlier ++ [step]).length = earlier.length + 1 := List.length_append
  have hlt : ∀ k < earlier.length, position k < lower.length := fun k hk =>
    (h.lt_length hk).trans_le houter.length_le
  have hcases : ∀ {k step'}, (earlier ++ [step])[k]? = some step' →
      (k < earlier.length ∧ earlier[k]? = some step') ∨ (k = earlier.length ∧ step = step') := by
    intro k step' hstep'
    rcases Nat.lt_trichotomy k earlier.length with hk | rfl | hk
    · exact .inl ⟨hk, by rwa [List.getElem?_append_left hk] at hstep'⟩
    · exact .inr ⟨rfl, by simpa using hstep'⟩
    · rw [List.getElem?_eq_none (by omega)] at hstep'
      cases hstep'
  refine ⟨?_, by simp, ?_, ?_, ?_⟩
  · intro k l hkl hl
    rw [if_pos (by omega)]
    split
    next hl' => exact h.increasing k l hkl hl'
    next => exact hlt k (by omega)
  · intro k step' hstep'
    rcases hcases hstep' with ⟨hk, hstep'⟩ | ⟨rfl, rfl⟩
    · obtain ⟨e', he', haccepts'⟩ := h.accepted k step' hstep'
      obtain ⟨rest, rfl⟩ := houter
      refine ⟨e', ?_, haccepts'⟩
      rw [if_pos hk, List.append_assoc, List.getElem?_append_left (h.lt_length hk), he']
    · exact ⟨e, by simp, haccepts⟩
  · intro step' hstep' hchild
    rw [List.getElem?_append_left hpos] at hstep'
    rw [if_pos hpos]
    exact h.bottom step' hstep' hchild
  · intro k step' hstep' hchild
    rcases hcases hstep' with ⟨hk, hstep'⟩ | ⟨hk, rfl⟩
    · rw [if_pos hk, if_pos (by omega)]
      exact h.adjacent k step' hstep' hchild
    · obtain rfl := hdescendant hchild
      have htop := h.top
      rw [← hk, Nat.add_sub_cancel] at htop
      rw [if_neg (by omega), if_pos (by omega), htop]

end StandsAt

/-- The induction is on the steps from the last one down: what they stand on is what the last one
leaves them. -/
theorem leads_iff_exists_standsAt {steps : List SelectorStep} (hsteps : steps ≠ [])
    (stack : List Element) :
    leads steps.reverse stack.reverse = true ↔ ∃ position, StandsAt steps stack position := by
  induction steps using List.reverseRecOn generalizing stack with
  | nil => exact absurd rfl hsteps
  | append_singleton earlier step ih =>
    rcases List.eq_nil_or_concat stack with rfl | ⟨lower, e, rfl⟩
    · rw [List.reverse_concat]
      refine iff_of_false (by simp [leads]) ?_
      rintro ⟨position, h⟩
      exact h.ne_nil rfl
    rw [List.concat_eq_append, leads_concat]
    by_cases hearlier : earlier = []
    · subst hearlier
      rw [List.nil_append, StandsAt.exists_singleton_iff]
      refine and_congr_right fun _ => ?_
      constructor
      · rintro ⟨outer, -, houter, hnil⟩ hchild
        obtain rfl := houter hchild
        simpa [leads] using hnil
      · intro hlower
        exact ⟨[], List.nil_prefix, fun hchild => (hlower hchild).symm, rfl⟩
    · constructor
      · rintro ⟨haccepts, outer, houter, hchild, hleads⟩
        obtain ⟨position, h⟩ := (ih hearlier outer).1 hleads
        exact ⟨_, h.concat hearlier houter hchild haccepts⟩
      · rintro ⟨position, h⟩
        obtain ⟨haccepts, outer, houter, hchild, hstands⟩ := h.before_last hearlier
        exact ⟨haccepts, outer, houter, hchild, (ih hearlier outer).2 ⟨position, hstands⟩⟩

/-! A selector that was read has a step. -/

theorem pieces_cons_ne_empty (b : Bool) (c : Char) (t : Text) : pieces b (c :: t) ≠ [[]] := by
  by_cases hc : c = '/' ∧ b = false
  · obtain ⟨rfl, rfl⟩ := hc
    rw [pieces_slash]
    exact fun h => pieces_ne_nil false t (List.cons.inj h).2
  · obtain ⟨piece, more, hpieces⟩ := List.exists_cons_of_ne_nil (pieces_ne_nil (inside b c) t)
    rw [pieces_cons hc, hpieces, List.modifyHead_cons]
    exact fun h => List.cons_ne_nil c piece (List.cons.inj h).1

theorem ne_nil_of_afterSlash {ps : List Text} {steps : Selector} (hps : ps ≠ [])
    (h : afterSlash ps = some steps) : steps ≠ [] := by
  rintro rfl
  unfold afterSlash at h
  split at h
  next => exact hps rfl
  next => simp [Option.bind_eq_some_iff] at h
  next => simp [Option.bind_eq_some_iff] at h

theorem ne_nil_of_ofText? {t : Text} {selector : Selector} (h : ofText? t = some selector) :
    selector ≠ [] := by
  unfold ofText? at h
  split at h
  next => cases h
  next c u _ =>
    split at h
    next more hmore =>
      refine ne_nil_of_afterSlash ?_ h
      rintro rfl
      exact pieces_cons_ne_empty false c u hmore
    next =>
      rintro rfl
      simp [Option.bind_eq_some_iff] at h
    next => cases h

/-- A selector selects a stack exactly if its steps stand on it: at increasing positions, each on an
element that it accepts, the last one on top, and a step after a single slash directly above the one
before it, or at the bottom if it is the first. -/
theorem selects_iff_stands {t : Text} {selector : Selector} (hread : ofText? t = some selector)
    (stack : List Element) :
    selector.selects stack.reverse = true ↔ ∃ position, StandsAt selector stack position :=
  leads_iff_exists_standsAt (ne_nil_of_ofText? hread) stack

section SecondGroup

def secondGroup : List Element :=
  [⟨['g'], [(['k'], ['a'])]⟩, ⟨['g'], [(['k'], ['b'])]⟩, ⟨['d'], []⟩, ⟨['i'], []⟩]

theorem secondGroup_stands :
    ∃ selector, ofText? "g[@k]/*//i".toList = some selector ∧
      (selector.selects secondGroup.reverse = true ∧
        ∃ position, StandsAt selector secondGroup position) ∧
      selector.selects (secondGroup.drop 2).reverse = false ∧
        ¬∃ position, StandsAt selector (secondGroup.drop 2) position := by
  let selector : Selector :=
    [⟨true, some ['g'], some (['k'], none)⟩, ⟨false, none, none⟩, ⟨true, some ['i'], none⟩]
  have hread : ofText? "g[@k]/*//i".toList = some selector := by decide
  have hselects : selector.selects secondGroup.reverse = true := by decide
  have hrefuses : selector.selects (secondGroup.drop 2).reverse = false := by decide
  refine ⟨selector, hread, ⟨hselects, (selects_iff_stands hread secondGroup).1 hselects⟩, hrefuses,
    fun hstands => ?_⟩
  have hagain := (selects_iff_stands hread (secondGroup.drop 2)).2 hstands
  rw [hrefuses] at hagain
  cases hagain

end SecondGroup

end ScriptLens.Selector
