import Mathlib.Data.List.Chain
import ScriptLens.Proofs.Markup.Attributes

/-!
How far a scan gets in a text, whatever the text is. Each lexeme ends further on than those before
it, and after a fault reading is taken up at a `<` or not at all, so there are no more faults than
one for each `<` and one more. `recovery?` tells by byte offsets where reading is taken up, and is
`none` where it would have to cut a character; `scan_ends` says that this never happens.
-/

namespace ScriptLens.Markup

def Lexeme.stop : Lexeme → Nat
  | .token _ stop => stop
  | .fault _ _ stop => stop

def Lexeme.isFault : Lexeme → Bool
  | .token _ _ => false
  | .fault _ _ _ => true

def Event.isFault : Event → Bool
  | .fault _ => true
  | _ => false

def reached (start : Nat) (ls : List Lexeme) : Nat :=
  (ls.getLast?.map Lexeme.stop).getD start

theorem reached_cons (start : Nat) (l : Lexeme) (ls : List Lexeme) :
    reached start (l :: ls) = reached l.stop ls := by
  simp only [reached, List.getLast?_cons]
  cases ls.getLast? <;> rfl

/-! Where reading stands after some of the lexemes. -/

section Course

variable {m : Mode} {s : Cursor}

theorem Cursor.Reaches.offset_lt {s' : Cursor} (h : s.Reaches s')
    (hshorter : s'.rest.length < s.rest.length) : s.offset < s'.offset := by
  obtain ⟨taken, hrest, hoffset⟩ := h
  have hlength := congrArg List.length hrest
  have hsize := Text.length_le_byteSize taken
  rw [List.length_append] at hlength
  omega

theorem Cursor.Reaches.offset_of_end {t : Text} (h : Cursor.Reaches ⟨0, t⟩ s) (hend : s.rest = []) :
    t.byteSize = s.offset := by
  obtain ⟨before, htext, hoffset⟩ := h
  rw [hend, List.append_nil] at htext
  rw [hoffset, Nat.zero_add, ← htext]

theorem next_of_token_cons {t : Token} {stop : Nat} {later : List Lexeme}
    (h : lexemesFrom m s = .token t stop :: later) :
    ∃ m' s', next m s = .token t m' s' ∧ stop = s'.offset ∧ lexemesFrom m' s' = later := by
  rw [lexemesFrom] at h
  split at h
  next => cases h
  next t' m' s' hnext =>
    cases h
    exact ⟨m', s', hnext, rfl, rfl⟩
  next => cases h

theorem next_of_fault_cons {f : Fault} {skipped : Text} {stop : Nat} {later : List Lexeme}
    (h : lexemesFrom m s = .fault f skipped stop :: later) :
    next m s = .fail f ∧ skipped = s.skipped ∧ stop = s.resumption.offset ∧
      lexemesFrom .resumed s.resumption = later := by
  rw [lexemesFrom] at h
  split at h
  next => cases h
  next => cases h
  next f' hnext =>
    cases h
    exact ⟨hnext, rfl, rfl, rfl⟩

theorem exists_advance {l : Lexeme} {later : List Lexeme} (h : lexemesFrom m s = l :: later) :
    ∃ m' s', s.Reaches s' ∧ l.stop = s'.offset ∧ lexemesFrom m' s' = later := by
  cases l with
  | token t stop =>
    obtain ⟨m', s', hnext, hstop, hlater⟩ := next_of_token_cons h
    exact ⟨m', s', (next_token hnext).1, hstop, hlater⟩
  | fault f skipped stop =>
    obtain ⟨-, -, hstop, hlater⟩ := next_of_fault_cons h
    exact ⟨.resumed, s.resumption, s.reaches_resumption, hstop, hlater⟩

theorem exists_point {earlier later : List Lexeme} (h : lexemesFrom m s = earlier ++ later) :
    ∃ m' s', s.Reaches s' ∧ s'.offset = reached s.offset earlier ∧ lexemesFrom m' s' = later := by
  induction earlier generalizing m s with
  | nil => exact ⟨m, s, .refl s, rfl, h⟩
  | cons l earlier ih =>
    obtain ⟨m₁, s₁, hreaches, hstop, hlater⟩ := exists_advance h
    obtain ⟨m', s', hreaches', hoffset, hrest⟩ := ih hlater
    refine ⟨m', s', hreaches.trans hreaches', ?_, hrest⟩
    rw [reached_cons, hstop]
    exact hoffset

theorem increasing_stops (m : Mode) (s : Cursor) :
    (s.offset :: (lexemesFrom m s).map Lexeme.stop).IsChain (· < ·) := by
  fun_induction lexemesFrom m s with
  | case1 => exact .singleton _
  | case2 m s t m' s' hnext ih =>
    obtain ⟨hreaches, hshorter⟩ := next_token hnext
    exact .cons_cons (hreaches.offset_lt hshorter) ih
  | case3 m s f hnext ih =>
    have hshorter := Cursor.length_resumption_lt (next_fail hnext)
    exact .cons_cons (s.reaches_resumption.offset_lt hshorter) ih

theorem length_lexemesFrom_le (m : Mode) (s : Cursor) :
    (lexemesFrom m s).length ≤ s.rest.length := by
  fun_induction lexemesFrom m s with
  | case1 => exact Nat.zero_le _
  | case2 m s t m' s' hnext ih =>
    have hshorter := (next_token hnext).2
    rw [List.length_cons]
    omega
  | case3 m s f hnext ih =>
    have hshorter := Cursor.length_resumption_lt (next_fail hnext)
    rw [List.length_cons]
    omega

theorem lexemesFrom_of_end (m : Mode) (hend : s.rest = []) : lexemesFrom m s = [] := by
  have hlength := length_lexemesFrom_le m s
  rw [hend] at hlength
  exact List.length_eq_zero_iff.1 (Nat.le_zero.1 hlength)

end Course

theorem slice?_of_passes {t taken : Text} {s s' : Cursor} (hs : Cursor.Reaches ⟨0, t⟩ s)
    (h : s.Passes taken s') : t.slice? s.offset s'.offset = some taken := by
  obtain ⟨before, htext, hoffset⟩ := hs
  rw [Nat.zero_add] at hoffset
  refine Text.slice?_eq_some_iff.2 ⟨before, s'.rest, ?_, hoffset, ?_⟩
  · rw [← h.1]
    exact htext
  · rw [h.2, hoffset]

/-! Where reading is taken up after a fault. -/

/-- What becomes of a text after a fault: a part of it is skipped, and reading is taken up at a byte
offset if there is a `<` to do so. -/
structure Recovery where
  skipped : Text
  restart? : Option Nat
  deriving DecidableEq, Repr

/-- The recovery after a fault behind the byte offset `last`: the search for a `<` begins one
character later. -/
def recovery? (t : Text) (last : Nat) : Option Recovery :=
  (t.splitAt? last).bind fun (_, rest) =>
    let searched := last + (rest.head?.map Char.utf8Size).getD 0
    (t.splitAt? searched).bind fun (_, ahead) =>
      let restart? := (Text.splitFirst? (· == '<') ahead).map fun (before, _) =>
        searched + before.byteSize
      (t.slice? last (restart?.getD t.byteSize)).map fun skipped => ⟨skipped, restart?⟩

theorem Cursor.resumption_of_cons {s : Cursor} {c : Char} {t : Text} (h : s.rest = c :: t) :
    s.resumption = s.past (c :: t.takeWhile (· != '<')) (t.dropWhile (· != '<')) :=
  resumption_of_rest (t := [c]) (by simp) (by simp) h

theorem recovery?_of_reaches {t : Text} {s : Cursor} (hs : Cursor.Reaches ⟨0, t⟩ s)
    (hne : s.rest ≠ []) :
    recovery? t s.offset =
      some ⟨s.skipped, if s.resumption.rest = [] then none else some s.resumption.offset⟩ := by
  have hslice := slice?_of_passes hs s.passes_skipped
  have hresumed := hs.trans s.reaches_resumption
  obtain ⟨before, htext, hoffset⟩ := hs
  obtain ⟨c, u, hrest⟩ := List.exists_cons_of_ne_nil hne
  rw [Nat.zero_add] at hoffset
  dsimp only at htext
  rw [hrest] at htext
  have hlast : t.splitAt? s.offset = some (before, c :: u) :=
    Text.splitAt?_eq_some_iff.2 ⟨htext, hoffset⟩
  have hsearched : t.splitAt? (s.offset + c.utf8Size) = some (before ++ [c], u) := by
    refine Text.splitAt?_eq_some_iff.2 ⟨by simp [htext], ?_⟩
    simp [hoffset]
  have hskipped : s.skipped = c :: u.takeWhile (· != '<') := by
    rw [Cursor.skipped, hrest]
  have hfirst : Text.splitFirst? (· == '<') u =
      s.resumption.rest.tail?.map fun after => (u.takeWhile (· != '<'), after) := by
    rw [Text.splitFirst?_eq, Cursor.resumption_of_cons hrest]
    rfl
  rw [recovery?, hlast, Option.bind_some]
  simp only [List.head?_cons, Option.map_some, Option.getD_some, hsearched, Option.bind_some, hfirst]
  cases hresumption : s.resumption.rest with
  | nil =>
    simp [hresumed.offset_of_end hresumption, hslice]
  | cons d v =>
    have hrestart : s.offset + c.utf8Size + Text.byteSize (u.takeWhile (· != '<')) =
        s.resumption.offset := by
      rw [Nat.add_assoc, ← Text.byteSize_cons, ← hskipped]
      rfl
    simp [hrestart, hslice]

theorem exists_cons_resumption {s : Cursor} (h : s.resumption.rest ≠ []) :
    ∃ after, s.resumption.rest = '<' :: after := by
  cases hrest : s.rest with
  | nil => simp [Cursor.resumption, Cursor.past, hrest] at h
  | cons c u =>
    have hstops : Stops (· != '<') s.resumption.rest := by
      rw [Cursor.resumption_of_cons hrest]
      exact stops_dropWhile _ u
    obtain ⟨d, after, hcons⟩ := List.exists_cons_of_ne_nil h
    rw [hcons, stops_cons] at hstops
    refine ⟨after, ?_⟩
    rw [hcons, bne_eq_false_iff_eq.1 hstops]

/-! How many faults and events there are. -/

theorem countP_finishPending (pending : Option Tag) (stop : Nat) (isEmpty : Bool) :
    (finishPending pending stop isEmpty).countP Event.isFault = 0 := by
  cases pending with
  | none => rfl
  | some tag => cases isEmpty <;> rfl

theorem countP_events (pending : Option Tag) (ls : List Lexeme) :
    (events pending ls).countP Event.isFault = ls.countP Lexeme.isFault := by
  induction ls generalizing pending with
  | nil => rfl
  | cons l rest ih =>
    cases l with
    | fault f skipped stop =>
      rw [events, List.cons_append, List.countP_cons_of_pos rfl, List.countP_append,
        countP_finishPending, Nat.zero_add, ih, List.countP_cons_of_pos rfl]
    | token t stop =>
      rw [List.countP_cons_of_neg (by simp [Lexeme.isFault])]
      cases t <;> simp [events, countP_finishPending, ih, Event.isFault]

theorem length_finishPending_le (pending : Option Tag) (stop : Nat) (isEmpty : Bool) :
    (finishPending pending stop isEmpty).length ≤ 1 + pending.isSome.toNat := by
  cases pending with
  | none => simp [finishPending]
  | some tag => cases isEmpty <;> simp [finishPending, Tag.finish]

/-- The beginning of a tag has no event of its own, so its end may have one more. -/
theorem length_events_le (pending : Option Tag) (ls : List Lexeme) :
    (events pending ls).length ≤ 2 * ls.length + pending.isSome.toNat := by
  induction ls generalizing pending with
  | nil => simp [events]
  | cons l rest ih =>
    have hnone := ih none
    rw [Option.isSome_none, Bool.toNat_false] at hnone
    have hfinish := length_finishPending_le pending
    rw [List.length_cons]
    cases l with
    | fault f skipped stop =>
      have hends := hfinish stop (Text.endsWith "/>".toList (Text.trimEnd skipped))
      rw [events, List.cons_append, List.length_cons, List.length_append]
      omega
    | token t stop =>
      rcases t with ⟨name, start⟩ | a | _ | _ | name | content | content | _
      · have hstarted := ih (some ⟨name, start, stop, []⟩)
        rw [Option.isSome_some, Bool.toNat_true] at hstarted
        rw [events]
        omega
      · have hpushed := ih (pending.map (·.push a))
        rw [Option.isSome_map] at hpushed
        rw [events]
        omega
      · have hends := hfinish stop false
        rw [events, List.length_append]
        omega
      · have hends := hfinish stop true
        rw [events, List.length_append]
        omega
      all_goals
        have hrest := ih pending
        simp only [events, List.length_cons]
        omega

/-- Each fault but the last is before a `<` at which reading is taken up. -/
theorem countP_lexemesFrom_le (m : Mode) (s : Cursor) :
    (lexemesFrom m s).countP Lexeme.isFault ≤ s.rest.tail.count '<' + 1 := by
  fun_induction lexemesFrom m s with
  | case1 => exact Nat.zero_le _
  | case2 m s t m' s' hnext ih =>
    obtain ⟨⟨taken, hrest, -⟩, hshorter⟩ := next_token hnext
    obtain ⟨c, taken, rfl⟩ : ∃ c u, taken = c :: u := by
      refine List.exists_cons_of_ne_nil ?_
      rintro rfl
      simp [hrest] at hshorter
    have htail : s'.rest.tail.count '<' ≤ s.rest.tail.count '<' := by
      rw [hrest, List.cons_append, List.tail_cons]
      exact ((List.tail_sublist _).trans (List.sublist_append_right _ _)).count_le '<'
    rw [List.countP_cons_of_neg (by simp [Lexeme.isFault])]
    omega
  | case3 m s f hnext ih =>
    obtain ⟨c, u, hrest⟩ := List.exists_cons_of_ne_nil (next_fail hnext)
    rw [List.countP_cons_of_pos rfl, hrest, List.tail_cons]
    by_cases hend : s.resumption.rest = []
    · rw [lexemesFrom_of_end _ hend]
      exact Nat.le_add_left _ _
    · obtain ⟨after, hafter⟩ := exists_cons_resumption hend
      have hahead : s.resumption.rest.count '<' ≤ u.count '<' := by
        rw [Cursor.resumption_of_cons hrest]
        exact (List.dropWhile_sublist _).count_le '<'
      rw [hafter, List.count_cons_self] at hahead
      rw [hafter, List.tail_cons] at ih
      omega

/-- The reading of a text ends: every lexeme ends behind all before it, so that there are no more of
them than characters, and faults no more than one for each `<` and one. No cut is ever inside a
character. From where one lexeme ends up to where the next one ends there stands what spells it,
names and values included; and after a fault reading is taken up at a `<`, or has come to the end. -/
theorem scan_ends (t : Text) :
    ((lexemes t).length ≤ t.length ∧ (scan t).length ≤ 2 * t.length ∧
        (scan t).countP Event.isFault ≤ t.count '<' + 1) ∧
      (0 :: (lexemes t).map Lexeme.stop).Pairwise (· < ·) ∧
      (∀ earlier token stop later, lexemes t = earlier ++ .token token stop :: later →
        ∃ lead taken, t.slice? (reached 0 earlier) stop = some (lead ++ taken) ∧
          token.Spells (reached 0 earlier + lead.byteSize) taken) ∧
      ∀ earlier f skipped stop later, lexemes t = earlier ++ .fault f skipped stop :: later →
        ∃ restart?, recovery? t (reached 0 earlier) = some ⟨skipped, restart?⟩ ∧
          (restart? = none ∧ stop = t.byteSize ∧ later = [] ∨
            restart? = some stop ∧ ∃ before after, t.splitAt? stop = some (before, '<' :: after)) := by
  have hlength : (lexemes t).length ≤ t.length := length_lexemesFrom_le .document ⟨0, t⟩
  refine ⟨⟨hlength, ?_, ?_⟩, ?_, ?_, ?_⟩
  · have hevents := length_events_le none (lexemes t)
    rw [Option.isSome_none, Bool.toNat_false] at hevents
    rw [scan]
    omega
  · have hfaults := countP_lexemesFrom_le .document ⟨0, t⟩
    have htail := (List.tail_sublist t).count_le '<'
    rw [scan, countP_events, lexemes]
    dsimp only at hfaults
    omega
  · exact (increasing_stops .document ⟨0, t⟩).pairwise
  · intro earlier token stop later h
    obtain ⟨m, s, hreaches, hoffset, hrest⟩ := exists_point h
    obtain ⟨m', s', hnext, rfl, -⟩ := next_of_token_cons hrest
    obtain ⟨lead, taken, hpasses, hspells⟩ := next_spelled hnext
    rw [← hoffset]
    exact ⟨lead, taken, slice?_of_passes hreaches hpasses, hspells⟩
  · intro earlier f skipped stop later h
    obtain ⟨m, s, hreaches, hoffset, hrest⟩ := exists_point h
    obtain ⟨hnext, rfl, rfl, hlater⟩ := next_of_fault_cons hrest
    refine ⟨_, hoffset ▸ recovery?_of_reaches hreaches (next_fail hnext), ?_⟩
    have hresumed := hreaches.trans s.reaches_resumption
    by_cases hend : s.resumption.rest = []
    · rw [lexemesFrom_of_end _ hend] at hlater
      exact .inl ⟨if_pos hend, (hresumed.offset_of_end hend).symm, hlater.symm⟩
    · obtain ⟨after, hafter⟩ := exists_cons_resumption hend
      obtain ⟨before, htext, hresumption⟩ := hresumed
      rw [hafter] at htext
      rw [Nat.zero_add] at hresumption
      exact .inr ⟨if_neg hend, before, after, Text.splitAt?_eq_some_iff.2 ⟨htext, hresumption⟩⟩

/-- There can be one fault more than there are `<`. -/
example : (scan "a<".toList).countP Event.isFault = 2 := by
  decide +kernel

end ScriptLens.Markup
