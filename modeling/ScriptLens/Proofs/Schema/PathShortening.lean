import ScriptLens.Proofs.Ends
import ScriptLens.Proofs.Text
import ScriptLens.Schema.Hover

/-!
Which end of a path is told. Without its first segments a path may start from an entry and then says
something by itself; what is said of the word alone does not depend on the path. A path is only
shortened while nothing at all is said, so its ends are tried if the word alone says nothing, and
else the whole path is the only one that can speak.
-/

namespace ScriptLens

namespace Schema

/-- What a path says by itself: it starts from an entry that the word does not name, and some
segment after it finds a property. -/
def Says (schema : Schema) (word : Text) (parts : List Text) (text : Text) : Prop :=
  ∃ first rest entry, parts = first :: rest ∧ bareName first ≠ word ∧
    schema.entry? (bareName first) = some entry ∧ schema.pathText entry parts = text ∧ text ≠ []

abbrev SaysLongest (schema : Schema) (word : Text) : List Text → List Text → Prop :=
  LongestEnd fun parts => ∃ text, schema.Says word parts text

variable {schema : Schema} {word text : Text} {parts suffix : List Text}

theorem exists_saysLongest (hsuffix : suffix <:+ parts) (h : schema.Says word suffix text) :
    ∃ longest text', schema.SaysLongest word parts longest ∧ schema.Says word longest text' := by
  obtain ⟨longest, hlongest⟩ :=
    LongestEnd.exists_of_suffix (P := fun parts => ∃ text, schema.Says word parts text) hsuffix
      ⟨text, h⟩
  obtain ⟨text', htext'⟩ := hlongest.holds
  exact ⟨longest, text', hlongest, htext'⟩

theorem composed_eq_append (h : schema.Says word parts text) :
    schema.composed word parts = text ++ schema.wordText word := by
  obtain ⟨first, rest, entry, rfl, hword, hentry, rfl, -⟩ := h
  simp [composed, hword, hentry]

theorem composed_eq_wordText (h : ¬ ∃ text, schema.Says word parts text) :
    schema.composed word parts = schema.wordText word := by
  cases parts with
  | nil => rfl
  | cons first rest =>
    by_cases hword : bareName first = word
    · simp [composed, hword]
    · cases hentry : schema.entry? (bareName first) with
      | none => simp [composed, hword, hentry]
      | some entry =>
        have hnone : schema.pathText entry (first :: rest) = [] := by
          by_contra hsome
          exact h ⟨_, first, rest, entry, rfl, hword, hentry, rfl, hsome⟩
        simp [composed, hword, hentry, hnone]

theorem firstText?_cons (first : Text) (rest : List Text) :
    schema.firstText? word (first :: rest) =
      if schema.composed word (first :: rest) = [] then schema.firstText? word rest
      else some (schema.composed word (first :: rest)) := by
  rw [firstText?]
  split
  next hnone => rw [if_pos hnone]
  next hsome => rw [if_neg (by simpa using hsome)]

theorem firstText?_of_wordText (hparts : parts ≠ []) (h : schema.wordText word ≠ []) :
    schema.firstText? word parts = some (schema.composed word parts) := by
  obtain ⟨first, rest, rfl⟩ := List.exists_cons_of_ne_nil hparts
  rw [firstText?_cons, if_neg]
  intro hnone
  by_cases hsays : ∃ text, schema.Says word (first :: rest) text
  · obtain ⟨text, htext⟩ := hsays
    rw [composed_eq_append htext] at hnone
    exact h (List.append_eq_nil_iff.1 hnone).2
  · exact h (composed_eq_wordText hsays ▸ hnone)

theorem firstText?_of_saysLongest (hnone : schema.wordText word = [])
    (h : schema.SaysLongest word parts suffix) (htext : schema.Says word suffix text) :
    schema.firstText? word parts = some text := by
  induction parts with
  | nil =>
    obtain rfl := List.suffix_nil.1 h.suffix
    obtain ⟨first, rest, entry, hparts, -⟩ := htext
    cases hparts
  | cons first rest ih =>
    rw [firstText?_cons]
    by_cases hwhole : suffix = first :: rest
    · subst hwhole
      obtain ⟨-, -, -, -, -, -, -, hsome⟩ := id htext
      rw [composed_eq_append htext, hnone, List.append_nil, if_neg hsome]
    · rw [if_pos ((composed_eq_wordText (h.not_whole hwhole)).trans hnone)]
      exact ih (h.of_cons hwhole)

theorem firstText?_of_silent (hnone : schema.wordText word = [])
    (h : ∀ suffix text, suffix <:+ parts → ¬ schema.Says word suffix text) :
    schema.firstText? word parts = none := by
  induction parts with
  | nil => rfl
  | cons first rest ih =>
    have hsilent : ¬ ∃ text, schema.Says word (first :: rest) text := fun ⟨text, htext⟩ =>
      h _ text List.suffix_rfl htext
    rw [firstText?_cons, if_pos ((composed_eq_wordText hsilent).trans hnone)]
    exact ih fun suffix text hsuffix => h suffix text (hsuffix.trans (List.suffix_cons first rest))

/-- Nothing is shown exactly if no end of the path says anything and nothing is said of the word.
The longest end that says something is told if nothing is said of the word or if it is the whole
path; otherwise only what is said of the word is shown. -/
theorem hover_of_longest {schema : Schema} {target : HoverTarget} (hword : target.word ≠ [])
    (hparts : target.parts ≠ []) :
    (schema.hover? target = none ↔
        (∀ suffix text, suffix <:+ target.parts → ¬ schema.Says target.word suffix text) ∧
          schema.wordText target.word = []) ∧
      ((∃ suffix text, suffix <:+ target.parts ∧ schema.Says target.word suffix text) →
        ∃ suffix text, schema.SaysLongest target.word target.parts suffix ∧
          schema.Says target.word suffix text ∧
          schema.hover? target =
            some (if schema.wordText target.word = [] ∨ suffix = target.parts
              then text ++ schema.wordText target.word else schema.wordText target.word)) ∧
      ((∀ suffix text, suffix <:+ target.parts → ¬ schema.Says target.word suffix text) →
        schema.wordText target.word ≠ [] →
          schema.hover? target = some (schema.wordText target.word)) := by
  have hfirst : schema.hover? target = schema.firstText? target.word target.parts :=
    if_neg (by simpa using hword)
  rw [hfirst]
  -- What is said of the word alone decides whether the path is shortened at all.
  by_cases hnone : schema.wordText target.word = []
  · refine ⟨⟨fun h => ⟨fun suffix text hsuffix htext => ?_, hnone⟩, fun h => ?_⟩, ?_, ?_⟩
    · obtain ⟨longest, told, hlongest, htold⟩ := exists_saysLongest hsuffix htext
      rw [firstText?_of_saysLongest hnone hlongest htold] at h
      cases h
    · exact firstText?_of_silent hnone h.1
    · rintro ⟨suffix, text, hsuffix, htext⟩
      obtain ⟨longest, told, hlongest, htold⟩ := exists_saysLongest hsuffix htext
      refine ⟨longest, told, hlongest, htold, ?_⟩
      rw [if_pos (.inl hnone), hnone, List.append_nil]
      exact firstText?_of_saysLongest hnone hlongest htold
    · exact fun _ hsome => absurd hnone hsome
  · rw [firstText?_of_wordText hparts hnone]
    refine ⟨⟨(nomatch ·), fun h => absurd h.2 hnone⟩, ?_, fun hsilent _ => ?_⟩
    · rintro ⟨suffix, text, hsuffix, htext⟩
      obtain ⟨longest, told, hlongest, htold⟩ := exists_saysLongest hsuffix htext
      refine ⟨longest, told, hlongest, htold, congrArg some ?_⟩
      by_cases hwhole : longest = target.parts
      · rw [if_pos (.inr hwhole), ← hwhole, composed_eq_append htold]
      · rw [if_neg (by simp [hnone, hwhole]), composed_eq_wordText (hlongest.not_whole hwhole)]
    · have hwhole : ¬ ∃ text, schema.Says target.word target.parts text := fun ⟨text, htext⟩ =>
        hsilent _ text List.suffix_rfl htext
      rw [composed_eq_wordText hwhole]

section Harbour

def vessel : Datatype :=
  ⟨"Ship".toList, none, none,
    [⟨"name".toList, some "N".toList, none⟩, ⟨"\x7b$faction\x7d".toList, some "R".toList, none⟩]⟩

def harbour : Schema := ⟨[], [vessel]⟩

def afterUnknownShip (word : Text) : HoverTarget :=
  ⟨word, ["$unknown".toList, "Ship".toList, word]⟩

theorem says_of_vessel (word text : Text) (hword : "Ship".toList ≠ word)
    (htext : harbour.pathText (.datatype vessel) ["Ship".toList, word] = text) (hsome : text ≠ []) :
    harbour.Says word ["Ship".toList, word] text :=
  ⟨_, _, .datatype vessel, rfl, hword, by decide, htext, hsome⟩

theorem faction_told :
    (afterUnknownShip "Faction".toList).word ≠ [] ∧
      (afterUnknownShip "Faction".toList).parts ≠ [] ∧
      ∃ suffix text,
        harbour.SaysLongest "Faction".toList (afterUnknownShip "Faction".toList).parts suffix ∧
        harbour.Says "Faction".toList suffix text ∧
        harbour.hover? (afterUnknownShip "Faction".toList) = some text := by
  have hword : (afterUnknownShip "Faction".toList).word ≠ [] := by decide
  have hparts : (afterUnknownShip "Faction".toList).parts ≠ [] := by decide
  have hnone : harbour.wordText "Faction".toList = [] := by cbv
  have hsays := says_of_vessel "Faction".toList "Keyword: Ship\n\n\n- Ship.\x7b$faction\x7d: R".toList
    (by decide) (by decide +kernel) (by decide)
  obtain ⟨-, htold, -⟩ := @hover_of_longest harbour _ hword hparts
  obtain ⟨suffix, text, hlongest, htext, hshown⟩ := htold ⟨_, _, List.drop_suffix 1 _, hsays⟩
  change harbour.Says "Faction".toList suffix text at htext
  change harbour.SaysLongest "Faction".toList _ suffix at hlongest
  refine ⟨hword, hparts, suffix, text, hlongest, htext, hshown.trans ?_⟩
  simp only [afterUnknownShip, hnone, true_or, if_true, List.append_nil]

theorem name_not_shortened :
    ∃ suffix text shown,
      harbour.SaysLongest "name".toList (afterUnknownShip "name".toList).parts suffix ∧
        harbour.Says "name".toList suffix text ∧
        harbour.hover? (afterUnknownShip "name".toList) = some shown ∧ ¬ text <:+: shown := by
  have hsays := says_of_vessel "name".toList "Keyword: Ship\n\n\n- Ship.name: N".toList
    (by decide) (by decide +kernel) (by decide)
  refine ⟨_, _, "\n\nMatches for 'name':\n\nShip\n- Ship.name: N".toList,
    (LongestEnd.whole ⟨_, hsays⟩).cons ?_, hsays, by cbv, ?_⟩
  · rintro ⟨_, first, _, entry, hparts, -, hentry, -⟩
    obtain rfl : "$unknown".toList = first := (List.cons.inj hparts).1
    have hunknown : harbour.entry? (bareName "$unknown".toList) = none := by decide
    rw [hunknown] at hentry
    cases hentry
  · rw [← Text.contains_iff_isInfix]
    decide +kernel

end Harbour

end Schema

end ScriptLens
