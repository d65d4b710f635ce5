import ScriptLens.Proofs.Markup.Entity

/-!
Texts without angle brackets, which can stand inside an attribute as they are. Escaping makes every
text such a one, and leaves alone exactly those that are. Decoding gives the same for a text and for
the escaped text, whatever stray and unfinished entities stand there: no entity holds a bracket, so a
bracket breaks off an entity begun before it, and so does the `&` that is written for it.
-/

namespace ScriptLens

namespace Markup

def AngleFree (t : Text) : Prop :=
  '<' ∉ t ∧ '>' ∉ t

instance (t : Text) : Decidable (AngleFree t) :=
  inferInstanceAs (Decidable (_ ∧ _))

theorem angleFree_append {s t : Text} : AngleFree (s ++ t) ↔ AngleFree s ∧ AngleFree t := by
  simp only [AngleFree, List.mem_append, not_or]
  exact and_and_and_comm

theorem angleFree_cons {c : Char} {t : Text} :
    AngleFree (c :: t) ↔ (c ≠ '<' ∧ c ≠ '>') ∧ AngleFree t := by
  have hsplit : AngleFree (c :: t) ↔ AngleFree [c] ∧ AngleFree t := angleFree_append (s := [c])
  rw [hsplit]
  simp [AngleFree, eq_comm]

theorem escapeAngles_append (s t : Text) :
    escapeAngles (s ++ t) = escapeAngles s ++ escapeAngles t :=
  List.flatMap_append

theorem escapeAngles_cons {c : Char} (hless : c ≠ '<') (hgreater : c ≠ '>') (t : Text) :
    escapeAngles (c :: t) = c :: escapeAngles t := by
  rw [escapeAngles, List.flatMap_cons, if_neg hless, if_neg hgreater]
  rfl

theorem angleFree_escapeAngles (t : Text) : AngleFree (escapeAngles t) := by
  induction t with
  | nil => decide
  | cons c t ih =>
    refine angleFree_append.2 ⟨?_, ih⟩
    dsimp only
    split
    next => decide
    next hless =>
      split
      next => decide
      next hgreater => exact angleFree_cons.2 ⟨⟨hless, hgreater⟩, by decide⟩

theorem escapeAngles_eq_iff {t : Text} : escapeAngles t = t ↔ AngleFree t := by
  refine ⟨fun h => h ▸ angleFree_escapeAngles t, fun h => ?_⟩
  induction t with
  | nil => rfl
  | cons c t ih =>
    obtain ⟨⟨hless, hgreater⟩, ht⟩ := angleFree_cons.1 h
    rw [escapeAngles_cons hless hgreater, ih ht]

/-! Decoding after escaping. -/

theorem leadingEntity?_of_unended {t : Text} (h : ';' ∉ t) : leadingEntity? t = none := by
  have hsplit : Text.splitFirst? (· == ';') t = none := by
    refine Text.splitFirst?_eq_none_iff.2 fun c hc => beq_false_of_ne ?_
    rintro rfl
    exact h hc
  rw [leadingEntity?, hsplit, Option.bind_none]

/-- What stands before the first semicolon is no entity if a character of the markup is among it. -/
theorem leadingEntity?_of_broken {before : Text} {c : Char} (hbefore : ';' ∉ before)
    (hc : isMarkup c = true) (hne : c ≠ ';') (after : Text) :
    leadingEntity? (before ++ c :: after) = none := by
  by_cases hend : ';' ∈ after
  · obtain ⟨more, rest, rfl, hmore⟩ := List.eq_append_cons_of_mem hend
    have hentity : ';' ∉ before ++ c :: more := by simp [hbefore, hmore, Ne.symm hne]
    rw [← List.cons_append, ← List.append_assoc, leadingEntity?_append hentity,
      Option.map_eq_none_iff]
    refine Option.eq_none_iff_forall_ne_some.2 fun d hd => ?_
    exact not_mem_of_entity? hd hc (by simp)
  · exact leadingEntity?_of_unended (by simp [hbefore, hend, Ne.symm hne])

theorem leadingEntity?_append_escapeAngles {before : Text} (hbefore : ';' ∉ before) (t : Text) :
    leadingEntity? (before ++ escapeAngles t) =
      (leadingEntity? (before ++ t)).map fun (c, rest) => (c, escapeAngles rest) := by
  -- induction up to the first semicolon or bracket, with what was passed in front
  induction t generalizing before with
  | nil =>
    have hnone : leadingEntity? (before ++ []) = none :=
      leadingEntity?_of_unended (by rwa [List.append_nil])
    rw [hnone]
    exact hnone
  | cons c t ih =>
    by_cases hend : c = ';'
    · subst hend
      rw [escapeAngles_cons (by decide) (by decide), leadingEntity?_append hbefore,
        leadingEntity?_append hbefore, Option.map_map]
      rfl
    by_cases hless : c = '<'
    · subst hless
      rw [leadingEntity?_of_broken hbefore rfl hend]
      exact leadingEntity?_of_broken hbefore rfl (by decide) _
    by_cases hgreater : c = '>'
    · subst hgreater
      rw [leadingEntity?_of_broken hbefore rfl hend]
      exact leadingEntity?_of_broken hbefore rfl (by decide) _
    have hpassed : ';' ∉ before ++ [c] := by simp [hbefore, Ne.symm hend]
    rw [escapeAngles_cons hless hgreater, List.append_cons, List.append_cons before c t]
    exact ih hpassed

theorem leadingEntity?_escapeAngles (t : Text) :
    leadingEntity? (escapeAngles t) =
      (leadingEntity? t).map fun (c, rest) => (c, escapeAngles rest) :=
  leadingEntity?_append_escapeAngles List.not_mem_nil t

/-- Decoding does not tell whether the angle brackets of a text were escaped, so escaping is undone by
decoding exactly where decoding leaves the text alone. -/
theorem decoding_ignores_escaped_angles (t : Text) :
    unescape (escapeAngles t) = unescape t ∧
      (unescape (escapeAngles t) = t ↔ unescape t = t) := by
  have hsame : unescape (escapeAngles t) = unescape t := by
    fun_induction unescape t with
    | case1 => rw [escapeAngles, List.flatMap_nil, unescape]
    | case2 t c rest h ih =>
      rw [escapeAngles_cons (by decide) (by decide), unescape_ampersand,
        leadingEntity?_escapeAngles, h, ← ih]
      rfl
    | case3 t h ih =>
      rw [escapeAngles_cons (by decide) (by decide), unescape_ampersand,
        leadingEntity?_escapeAngles, h, Option.map_none, ih]
    | case4 c t hc ih =>
      by_cases hless : c = '<'
      · subst hless
        have hlt : entity? "lt".toList = some '<' := by decide
        rw [← ih]
        exact unescape_entity hlt (escapeAngles t)
      by_cases hgreater : c = '>'
      · subst hgreater
        have hgt : entity? "gt".toList = some '>' := by decide
        rw [← ih]
        exact unescape_entity hgt (escapeAngles t)
      rw [escapeAngles_cons hless hgreater, unescape_cons hc, ih]
  rw [hsame]
  exact ⟨rfl, Iff.rfl⟩

example : unescape (escapeAngles "&l<t;".toList) = "&l<t;".toList := by
  cbv

end Markup

end ScriptLens
