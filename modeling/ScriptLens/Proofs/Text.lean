import ScriptLens.Text.Basic

/-!
Facts about texts that the theory of several parts of the library rests on: what the fields of a
text are, where one text begins or holds another, and what a cut at a known place leaves.
-/

namespace ScriptLens.Text

theorem fields_ne_nil (separator : Char) (t : Text) : t.fields separator ≠ [] := by
  cases t with
  | nil => simp [fields]
  | cons c t =>
    unfold fields
    split
    · simp
    · split <;> simp

theorem fields_of_not_mem {separator : Char} {t : Text} (h : separator ∉ t) :
    t.fields separator = [t] := by
  induction t with
  | nil => rfl
  | cons c t ih =>
    have hc : c ≠ separator := fun he => h (by simp [he])
    have ht : separator ∉ t := fun hm => h (by simp [hm])
    simp [fields, hc, ih ht]

theorem fields_append {separator : Char} {s : Text} (h : separator ∉ s) (t : Text) :
    fields separator (s ++ separator :: t) = s :: t.fields separator := by
  induction s with
  | nil => simp [fields]
  | cons c s ih =>
    have hc : c ≠ separator := fun he => h (by simp [he])
    have hs : separator ∉ s := fun hm => h (by simp [hm])
    simp [fields, hc, ih hs]

@[simp] theorem startsWith_append (start rest : Text) : startsWith start (start ++ rest) = true := by
  simp [startsWith]

@[simp] theorem startsWith_nil (t : Text) : startsWith [] t = true := by
  simp [startsWith, after?]

@[simp] theorem startsWith_nil_right (c : Char) (start : Text) :
    startsWith (c :: start) [] = false := by
  simp [startsWith, after?]

@[simp] theorem startsWith_cons (c d : Char) (start t : Text) :
    startsWith (c :: start) (d :: t) = (c == d && startsWith start t) := by
  by_cases h : c = d <;> simp [startsWith, after?, h]

theorem contains_of_startsWith {part t : Text} (h : startsWith part t = true) :
    contains part t = true := by
  cases t with
  | nil =>
    cases part with
    | nil => rfl
    | cons c part => simp at h
  | cons c t => simp [contains, h]

theorem contains_append_left {part t : Text} (s : Text) (h : contains part t = true) :
    contains part (s ++ t) = true := by
  induction s with
  | nil => exact h
  | cons c s ih => simp [contains, ih]

theorem not_startsWith_of_not_contains {part s t : Text} (h : contains part (s ++ t) = false) :
    startsWith part t = false := by
  cases hs : startsWith part t with
  | false => rfl
  | true =>
    rw [contains_append_left s (contains_of_startsWith hs)] at h
    contradiction

theorem contains_iff {part t : Text} :
    contains part t = true ↔ ∃ l r, t = l ++ (part ++ r) := by
  constructor
  · intro h
    induction t with
    | nil =>
      cases part with
      | nil => exact ⟨[], [], rfl⟩
      | cons c part => simp [contains] at h
    | cons c t ih =>
      cases hs : startsWith part (c :: t) with
      | true =>
        obtain ⟨r, hr⟩ := Option.isSome_iff_exists.1 hs
        have hcut : c :: t = part ++ r := after?_eq_some_iff.1 hr
        exact ⟨[], r, hcut⟩
      | false =>
        rw [contains, hs, Bool.false_or] at h
        obtain ⟨l, r, rfl⟩ := ih h
        exact ⟨c :: l, r, rfl⟩
  · rintro ⟨l, r, rfl⟩
    exact contains_append_left l (contains_of_startsWith (startsWith_append part r))

theorem contains_iff_isInfix {part t : Text} : contains part t = true ↔ part <:+: t := by
  rw [contains_iff]
  constructor
  · rintro ⟨l, r, rfl⟩
    exact ⟨l, r, List.append_assoc l part r⟩
  · rintro ⟨l, r, rfl⟩
    exact ⟨l, r, List.append_assoc l part r⟩

theorem before?_eq_some_iff {tail t before : Text} :
    before? tail t = some before ↔ t = before ++ tail := by
  rw [before?, Option.map_eq_some_iff]
  constructor
  · rintro ⟨l, h, rfl⟩
    rw [← List.reverse_reverse t, after?_eq_some_iff.1 h]
    simp
  · rintro rfl
    exact ⟨before.reverse, by simp, List.reverse_reverse before⟩

theorem endsWith_iff {tail t : Text} : endsWith tail t = true ↔ ∃ l, t = l ++ tail := by
  simp only [endsWith, Option.isSome_iff_exists, before?_eq_some_iff]

/-! Pieces put together. -/

theorem intercalate_concat (separator : Text) (pieces : List Text) (last : Text) :
    List.intercalate separator (pieces ++ [last]) =
      pieces.flatMap (· ++ separator) ++ last := by
  induction pieces with
  | nil => simp
  | cons p pieces ih =>
    rw [List.flatMap_cons, List.append_assoc, List.append_assoc, ← ih]
    cases pieces <;> simp [List.intercalate_cons_cons]

theorem fields_intercalate {separator : Char} {piece : Text} {pieces : List Text}
    (h : ∀ p ∈ piece :: pieces, separator ∉ p) :
    fields separator (List.intercalate [separator] (piece :: pieces)) = piece :: pieces := by
  induction pieces generalizing piece with
  | nil =>
    rw [List.intercalate_singleton]
    exact fields_of_not_mem (h piece List.mem_cons_self)
  | cons next pieces ih =>
    obtain ⟨hpiece, hrest⟩ := List.forall_mem_cons.1 h
    rw [List.intercalate_cons_cons, List.append_assoc, List.singleton_append,
      fields_append hpiece, ih hrest]

theorem fields_cons_of_ne {separator c : Char} {t piece : Text} {more : List Text}
    (hc : c ≠ separator) (ht : t.fields separator = piece :: more) :
    fields separator (c :: t) = (c :: piece) :: more := by
  rw [fields, if_neg hc, ht]

theorem intercalate_fields (separator : Char) (t : Text) :
    List.intercalate [separator] (t.fields separator) = t := by
  induction t with
  | nil => rfl
  | cons c t ih =>
    obtain ⟨piece, more, hfields⟩ := List.exists_cons_of_ne_nil (fields_ne_nil separator t)
    rw [hfields] at ih
    by_cases hc : c = separator
    · rw [fields, if_pos hc, hfields, List.intercalate_cons_cons, ih, hc]
      rfl
    · rw [fields_cons_of_ne hc hfields]
      cases more with
      | nil => simpa using ih
      | cons next more =>
        rw [List.intercalate_cons_cons] at ih ⊢
        simpa using ih

theorem not_mem_of_mem_fields {separator : Char} {t piece : Text}
    (h : piece ∈ t.fields separator) : separator ∉ piece := by
  induction t generalizing piece with
  | nil =>
    obtain rfl := List.mem_singleton.1 h
    exact List.not_mem_nil
  | cons c t ih =>
    obtain ⟨first, more, hfields⟩ := List.exists_cons_of_ne_nil (fields_ne_nil separator t)
    by_cases hc : c = separator
    · rw [fields, if_pos hc] at h
      rcases List.mem_cons.1 h with rfl | h
      · exact List.not_mem_nil
      · exact ih h
    · rw [fields_cons_of_ne hc hfields] at h
      rw [hfields] at ih
      rcases List.mem_cons.1 h with rfl | h
      · exact List.not_mem_cons_of_ne_of_not_mem (Ne.symm hc) (ih List.mem_cons_self)
      · exact ih (List.mem_cons_of_mem _ h)

theorem exists_getLast?_fields {separator : Char} (s : Text) {t : Text} (ht : separator ∉ t) :
    ∃ last, (fields separator (s ++ t)).getLast? = some last ∧ t <:+ last := by
  induction s with
  | nil => exact ⟨t, by rw [List.nil_append, fields_of_not_mem ht]; rfl, List.suffix_rfl⟩
  | cons c s ih =>
    obtain ⟨last, hlast, hsuffix⟩ := ih
    obtain ⟨piece, more, hfields⟩ :=
      List.exists_cons_of_ne_nil (fields_ne_nil separator (s ++ t))
    rw [hfields] at hlast
    by_cases hc : c = separator
    · refine ⟨last, ?_, hsuffix⟩
      rw [List.cons_append, fields, if_pos hc, hfields, List.getLast?_cons_cons, hlast]
    · rw [List.cons_append, fields_cons_of_ne hc hfields]
      cases more with
      | nil =>
        obtain rfl : piece = last := by simpa using hlast
        exact ⟨c :: piece, rfl, hsuffix.trans (List.suffix_cons c piece)⟩
      | cons next more =>
        rw [List.getLast?_cons_cons] at hlast ⊢
        exact ⟨last, hlast, hsuffix⟩

/-! Cuts at the end of a part. -/

@[simp] theorem splitAt?_append (s t : Text) : splitAt? s.byteSize (s ++ t) = some (s, t) := by
  induction s with
  | nil => simp [splitAt?]
  | cons c s ih =>
    obtain ⟨n, hn⟩ : ∃ n, c.utf8Size = n + 1 := ⟨c.utf8Size - 1, by
      have := c.utf8Size_pos
      omega⟩
    have hsize : Text.byteSize (c :: s) = (n + byteSize s) + 1 := by
      simp [hn, Nat.add_right_comm]
    have hrest : n + byteSize s + 1 - c.utf8Size = byteSize s := by omega
    rw [hsize, List.cons_append, splitAt?, if_pos (by omega), hrest, ih]
    rfl

theorem splitAt?_eq_some_iff {n : Nat} {t before after : Text} :
    t.splitAt? n = some (before, after) ↔ t = before ++ after ∧ n = before.byteSize := by
  constructor
  · intro h
    induction n, t using splitAt?.induct generalizing before with
    | case1 t =>
      rw [splitAt?] at h
      cases h
      exact ⟨rfl, rfl⟩
    | case2 n =>
      rw [splitAt?] at h
      cases h
    | case3 n c t hsize ih =>
      rw [splitAt?, if_pos hsize] at h
      obtain ⟨⟨first, rest⟩, hrest, heq⟩ := Option.map_eq_some_iff.1 h
      cases heq
      obtain ⟨rfl, hn⟩ := ih hrest
      refine ⟨rfl, ?_⟩
      rw [byteSize_cons]
      omega
    | case4 n c t hsize =>
      rw [splitAt?, if_neg hsize] at h
      cases h
  · rintro ⟨rfl, rfl⟩
    exact splitAt?_append before after

@[simp] theorem slice?_append (before middle after : Text) :
    (before ++ (middle ++ after)).slice? before.byteSize (before.byteSize + middle.byteSize) =
      some middle := by
  have hsize : before.byteSize + middle.byteSize - before.byteSize = middle.byteSize := by omega
  simp [slice?, hsize]

theorem slice?_left (s t : Text) : (s ++ t).slice? 0 s.byteSize = some s := by
  simpa using slice?_append [] s t

theorem slice?_right (s t : Text) : (s ++ t).slice? s.byteSize (s ++ t).byteSize = some t := by
  simpa using slice?_append s t []

/-- A byte offset in a text that is not inside a character. -/
def Boundary (t : Text) (n : Nat) : Prop :=
  ∃ before after, t = before ++ after ∧ n = byteSize before

theorem slice?_eq_some_iff {t middle : Text} {start stop : Nat} :
    t.slice? start stop = some middle ↔
      ∃ before after, t = before ++ (middle ++ after) ∧ start = before.byteSize ∧
        stop = before.byteSize + middle.byteSize := by
  constructor
  · intro h
    unfold slice? at h
    split at h
    next hle =>
      obtain ⟨⟨before, rest⟩, hbefore, h⟩ := Option.bind_eq_some_iff.1 h
      obtain ⟨⟨part, after⟩, hpart, heq⟩ := Option.map_eq_some_iff.1 h
      obtain ⟨rfl, hstart⟩ := splitAt?_eq_some_iff.1 hbefore
      obtain ⟨rfl, hstop⟩ := splitAt?_eq_some_iff.1 hpart
      obtain rfl : part = middle := heq
      exact ⟨before, after, rfl, hstart, by omega⟩
    next => cases h
  · rintro ⟨before, after, rfl, rfl, rfl⟩
    exact slice?_append before middle after

end ScriptLens.Text

namespace ScriptLens

/-- Accepted characters do not go on at the beginning of a text. -/
def Stops (accepts : Char → Bool) (rest : Text) : Prop :=
  rest.head?.any accepts = false

@[simp] theorem stops_cons {accepts : Char → Bool} {c : Char} {rest : Text} :
    Stops accepts (c :: rest) ↔ accepts c = false := by
  simp [Stops]

@[simp] theorem stops_nil {accepts : Char → Bool} : Stops accepts [] := rfl

theorem stops_append {accepts : Char → Bool} {s t : Text} (hs : Stops accepts s)
    (ht : Stops accepts t) : Stops accepts (s ++ t) := by
  cases s with
  | nil => exact ht
  | cons c s => exact stops_cons.2 (stops_cons.1 hs)

theorem stops_of_forall {accepts : Char → Bool} {t : Text} (h : ∀ c ∈ t, accepts c = false) :
    Stops accepts t := by
  cases t with
  | nil => rfl
  | cons c t => exact stops_cons.2 (h c List.mem_cons_self)

theorem stops_dropWhile (accepts : Char → Bool) (t : Text) : Stops accepts (t.dropWhile accepts) := by
  induction t with
  | nil => rfl
  | cons c t ih => by_cases h : accepts c = true <;> simp_all

theorem takeWhile_of_stops {accepts : Char → Bool} {t rest : Text} (ht : t.all accepts = true)
    (hr : Stops accepts rest) : (t ++ rest).takeWhile accepts = t := by
  rw [List.takeWhile_append_of_pos (by simpa using ht)]
  cases rest with
  | nil => simp
  | cons c rest => simp [stops_cons.1 hr]

theorem dropWhile_of_stops {accepts : Char → Bool} {t rest : Text} (ht : t.all accepts = true)
    (hr : Stops accepts rest) : (t ++ rest).dropWhile accepts = rest := by
  rw [List.dropWhile_append_of_pos (by simpa using ht)]
  cases rest with
  | nil => simp
  | cons c rest => simp [stops_cons.1 hr]

namespace Text

/-! Cuts at a character. -/

theorem splitFirst?_eq (stop : Char → Bool) (t : Text) :
    splitFirst? stop t =
      (t.dropWhile (!stop ·)).tail?.map fun after => (t.takeWhile (!stop ·), after) := by
  induction t with
  | nil => rfl
  | cons c t ih =>
    by_cases hc : stop c = true
    · simp [splitFirst?, hc]
    · rw [splitFirst?, if_neg hc, ih]
      simp [hc, Function.comp_def]

theorem splitFirst?_append {stop : Char → Bool} {t : Text} (rest : Text) {c : Char}
    (ht : ∀ d ∈ t, stop d = false) (hc : stop c = true) :
    splitFirst? stop (t ++ c :: rest) = some (t, rest) := by
  have hall : t.all (!stop ·) = true := List.all_eq_true.2 fun d hd => by simp [ht d hd]
  have hstops : Stops (!stop ·) (c :: rest) := stops_cons.2 (by simp [hc])
  rw [splitFirst?_eq, takeWhile_of_stops hall hstops, dropWhile_of_stops hall hstops]
  rfl

theorem splitFirst?_eq_none_iff {stop : Char → Bool} {t : Text} :
    splitFirst? stop t = none ↔ ∀ c ∈ t, stop c = false := by
  induction t with
  | nil => simp [splitFirst?]
  | cons c t ih => by_cases hc : stop c = true <;> simp [splitFirst?, hc, ih]

theorem splitFirst?_eq_some_iff {stop : Char → Bool} {t before after : Text} :
    splitFirst? stop t = some (before, after) ↔
      ∃ c, stop c = true ∧ t = before ++ c :: after ∧ ∀ d ∈ before, stop d = false := by
  constructor
  · intro h
    rw [splitFirst?_eq] at h
    obtain ⟨_, htail, heq⟩ := Option.map_eq_some_iff.1 h
    cases heq
    have hbefore : ∀ d ∈ t.takeWhile (!stop ·), stop d = false := fun d hd => by
      simpa using List.all_eq_true.1 List.all_takeWhile d hd
    cases hdrop : t.dropWhile (!stop ·) with
    | nil =>
      rw [hdrop] at htail
      cases htail
    | cons c rest =>
      rw [hdrop] at htail
      cases htail
      have hstops := stops_dropWhile (!stop ·) t
      rw [hdrop, stops_cons] at hstops
      refine ⟨c, by simpa using hstops, ?_, hbefore⟩
      rw [← hdrop, List.takeWhile_append_dropWhile]
  · rintro ⟨c, hc, rfl, hbefore⟩
    exact splitFirst?_append after hbefore hc

theorem splitLast?_append {stop : Char → Bool} (t : Text) {rest : Text} {c : Char}
    (hrest : ∀ d ∈ rest, stop d = false) (hc : stop c = true) :
    splitLast? stop (t ++ c :: rest) = some (t, rest) := by
  have hreverse : (t ++ c :: rest).reverse = rest.reverse ++ c :: t.reverse := by simp
  rw [splitLast?, hreverse, splitFirst?_append _ (fun d hd => hrest d (List.mem_reverse.1 hd)) hc]
  simp

theorem splitLast?_eq_some_iff {stop : Char → Bool} {t before after : Text} :
    splitLast? stop t = some (before, after) ↔
      ∃ c, stop c = true ∧ t = before ++ c :: after ∧ ∀ d ∈ after, stop d = false := by
  constructor
  · intro h
    obtain ⟨⟨l, r⟩, hsplit, heq⟩ := Option.map_eq_some_iff.1 h
    cases heq
    obtain ⟨c, hc, ht, hl⟩ := splitFirst?_eq_some_iff.1 hsplit
    refine ⟨c, hc, ?_, fun d hd => hl d (List.mem_reverse.1 hd)⟩
    rw [← List.reverse_reverse t, ht]
    simp
  · rintro ⟨c, hc, rfl, hafter⟩
    exact splitLast?_append before hafter hc

theorem splitLast?_eq_none_iff {stop : Char → Bool} {t : Text} :
    splitLast? stop t = none ↔ ∀ c ∈ t, stop c = false := by
  simp [splitLast?, splitFirst?_eq_none_iff]

end Text

end ScriptLens
