import ScriptLens.Foreign.Declaration
import ScriptLens.Proofs.Trimming

/-!
Words and the gaps between them. No character is both white space and part of a word, so it is clear
where each of them ends.
-/

namespace ScriptLens

theorem Unicode.Ranges.contains_of_apart {r s : Ranges} {c : Char}
    (h : r.all (fun a => s.all fun b => decide (a.2 < b.1 ∨ b.2 < a.1)) = true)
    (hc : r.contains c = true) : s.contains c = false := by
  obtain ⟨a, ha, hin⟩ := List.any_eq_true.1 hc
  refine List.any_eq_false.2 fun b hb hother => ?_
  have hapart := of_decide_eq_true (List.all_eq_true.1 (List.all_eq_true.1 h a ha) b hb)
  simp only [Bool.and_eq_true, decide_eq_true_eq] at hin hother
  omega

theorem isWordPart_of_isBlank {c : Char} (h : isBlank c = true) : isWordPart c = false := by
  have hranges : [Unicode.alphabetic, Unicode.mark, Unicode.decimalDigit, Unicode.connector,
      Unicode.joinControl].all (fun s => Unicode.whiteSpace.all fun a =>
        s.all fun b => decide (a.2 < b.1 ∨ b.2 < a.1)) = true := by
    decide +kernel
  have hnot := fun s hs => Unicode.Ranges.contains_of_apart (List.all_eq_true.1 hranges s hs) h
  simp only [List.forall_mem_cons] at hnot
  obtain ⟨halphabetic, hmark, hdigit, hconnector, hjoiner, -⟩ := hnot
  simp [isWordPart, halphabetic, hmark, hdigit, hconnector, hjoiner]

namespace Foreign

theorem isWordPart_of_punctuation (c : Char) (h : c ∈ ['\x7b', '\x7d', '(', '\x60']) :
    isWordPart c = false := by
  simp only [List.mem_cons, List.not_mem_nil, or_false] at h
  rcases h with rfl | rfl | rfl | rfl <;> decide +kernel

structure Word where
  text : Text
  nonempty : text ≠ []
  valid : text.all isWordPart = true

structure Gap where
  text : Text
  nonempty : text ≠ []
  valid : text.all isBlank = true

section Heads

variable {accepts : Char → Bool} {t : Text}

theorem head?_of_all (hne : t ≠ []) (h : t.all accepts = true) (rest : Text) :
    (t ++ rest).head?.any accepts = true := by
  cases t with
  | nil => exact absurd rfl hne
  | cons c t => exact (Bool.and_eq_true_iff.1 h).1

theorem stops_of_all {refuses : Char → Bool} (hne : t ≠ []) (h : t.all accepts = true)
    (hapart : ∀ c, accepts c = true → refuses c = false) (rest : Text) :
    Stops refuses (t ++ rest) := by
  cases t with
  | nil => exact absurd rfl hne
  | cons c t => exact stops_cons.2 (hapart c (Bool.and_eq_true_iff.1 h).1)

end Heads

theorem isBlank_of_isWordPart {c : Char} (h : isWordPart c = true) : isBlank c = false := by
  cases hblank : isBlank c with
  | false => rfl
  | true => exact absurd h (by simp [isWordPart_of_isBlank hblank])

namespace Word

variable (w : Word)

theorem stops_isBlank (rest : Text) : Stops isBlank (w.text ++ rest) :=
  stops_of_all w.nonempty w.valid (fun _ => isBlank_of_isWordPart) rest

def reversed : Word :=
  ⟨w.text.reverse, by simpa using w.nonempty, by simpa using w.valid⟩

theorem not_mem {c : Char} (hc : isWordPart c = false) : c ∉ w.text := by
  intro h
  rw [List.all_eq_true.1 w.valid c h] at hc
  cases hc

theorem after?_eq_none {c : Char} (hc : isWordPart c = false) (rest : Text) :
    Text.after? [c] (w.text ++ rest) = none := by
  obtain ⟨text, hne, hvalid⟩ := w
  cases text with
  | nil => exact absurd rfl hne
  | cons d text =>
    have hd : c ≠ d := by
      rintro rfl
      rw [(Bool.and_eq_true_iff.1 hvalid).1] at hc
      cases hc
    simp [Text.after?, hd]

end Word

namespace Gap

variable (g : Gap)

theorem stops_isWordPart (rest : Text) : Stops isWordPart (g.text ++ rest) :=
  stops_of_all g.nonempty g.valid (fun _ => isWordPart_of_isBlank) rest

theorem trimStart_append {rest : Text} (h : Stops isBlank rest) :
    Text.trimStart (g.text ++ rest) = rest :=
  dropWhile_of_stops g.valid h

def reversed : Gap :=
  ⟨g.text.reverse, by simpa using g.nonempty, by simpa using g.valid⟩

theorem not_mem {c : Char} (hc : isBlank c = false) : c ∉ g.text := by
  intro h
  rw [List.all_eq_true.1 g.valid c h] at hc
  cases hc

end Gap

/-! What the recognisers of gaps and words take. -/

open Declaration

theorem afterGap?_eq_some_iff {t rest : Text} :
    afterGap? t = some rest ↔ Stops isBlank rest ∧ ∃ g : Gap, t = g.text ++ rest := by
  unfold afterGap?
  constructor
  · intro h
    split at h
    next hhead =>
      obtain rfl := Option.some.inj h
      refine ⟨stops_dropWhile isBlank t, ⟨t.takeWhile isBlank, ?_, List.all_takeWhile⟩,
        List.takeWhile_append_dropWhile.symm⟩
      cases t with
      | nil => cases hhead
      | cons c t =>
        have hc : isBlank c = true := hhead
        simp [hc]
    next => cases h
  · rintro ⟨hstops, g, rfl⟩
    rw [if_pos (head?_of_all g.nonempty g.valid rest)]
    exact congrArg some (g.trimStart_append hstops)

theorem afterWord?_word (w : Word) {rest : Text} (h : Stops isWordPart rest) :
    afterWord? (w.text ++ rest) = some rest := by
  unfold afterWord?
  rw [if_pos (head?_of_all w.nonempty w.valid rest)]
  exact congrArg some (dropWhile_of_stops w.valid h)

theorem terminated?_eq_some_iff {t name : Text} :
    terminated? t = some name ↔ ∃ w : Word, w.text = name ∧ t = w.text ++ [';'] := by
  simp only [terminated?, Option.filter_eq_some_iff, Text.before?_eq_some_iff, Bool.and_eq_true,
    Bool.not_eq_true', List.isEmpty_eq_false_iff]
  constructor
  · rintro ⟨rfl, hne, hvalid⟩
    exact ⟨⟨name, hne, hvalid⟩, rfl, rfl⟩
  · rintro ⟨w, rfl, rfl⟩
    exact ⟨rfl, w.nonempty, w.valid⟩

theorem terminated?_word (w : Word) : terminated? (w.text ++ [';']) = some w.text :=
  terminated?_eq_some_iff.2 ⟨w, rfl, rfl⟩

theorem afterGap?_gap (g : Gap) {rest : Text} (h : Stops isBlank rest) :
    afterGap? (g.text ++ rest) = some rest :=
  afterGap?_eq_some_iff.2 ⟨h, g, rfl⟩

theorem closesBody_iff {line : Text} :
    closesBody line = true ↔
      ∃ (g : Gap) (w : Word), line = '\x7d' :: (g.text ++ (w.text ++ [';'])) := by
  simp only [closesBody, Option.any_eq_true, Option.bind_eq_some_iff, Option.isSome_iff_exists,
    Text.after?_eq_some_iff, afterGap?_eq_some_iff, terminated?_eq_some_iff]
  constructor
  · rintro ⟨rest, ⟨after, rfl, _, g, rfl⟩, name, w, _, rfl⟩
    exact ⟨g, w, rfl⟩
  · rintro ⟨g, w, rfl⟩
    exact ⟨_, ⟨_, rfl, w.stops_isBlank _, g, rfl⟩, w.text, w, rfl, rfl⟩

end Foreign

end ScriptLens
