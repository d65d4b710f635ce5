import ScriptLens.Proofs.Trimming
import ScriptLens.Schema.Selector

/-!
Selectors as they are written. Reading a written selector gives back its steps, whatever stands
between the quotes of a predicate, because slashes cut a text outside its brackets only; and a text
with nothing between two slashes, or after the last one, is no selector.
-/

namespace ScriptLens

namespace SelectorStep

/-- A step that can be written: its parts have none of the characters that would end them. -/
structure Writable (step : SelectorStep) : Prop where
  name_ne : ∀ name, step.name = some name → name ≠ [] ∧ name ≠ ['*']
  name : ∀ name, step.name = some name → ∀ c ∈ name, c ≠ '/' ∧ c ≠ '[' ∧ c ≠ ']' ∧ isBlank c = false
  key : ∀ key value?, step.predicate = some (key, value?) →
    ∀ c ∈ key, c ≠ '=' ∧ c ≠ '[' ∧ c ≠ ']' ∧ isBlank c = false ∧ isQuote c = false
  value : ∀ key value, step.predicate = some (key, some value) →
    ∀ c ∈ value, c ≠ ']' ∧ isQuote c = false

def condition (key : Text) : Option Text → Text
  | none => key
  | some value => key ++ '=' :: '\'' :: value ++ ['\'']

def brackets : Option (Text × Option Text) → Text
  | none => []
  | some (key, value?) => '[' :: ('@' :: condition key value? ++ [']'])

/-- No name is written as a star. -/
def render (step : SelectorStep) : Text :=
  step.name.getD ['*'] ++ brackets step.predicate

def slash (step : SelectorStep) : Text :=
  if step.descendant then ['/', '/'] else ['/']

end SelectorStep

namespace Selector

/-- Each step after its slash; a short writing leaves out a double slash at the beginning. -/
def render (short : Bool) : Selector → Text
  | [] => []
  | step :: rest =>
    (if short && step.descendant then [] else step.slash) ++
      (step.render ++ rest.flatMap fun step => step.slash ++ step.render)

def LeavesOpen (t : Text) : Prop :=
  ∃ l r, t = l ++ '[' :: r ∧ ']' ∉ r

/-- A step without a character: after the last slash, or between the second and the third of three
slashes in a row that are not in brackets. -/
def HasEmptyStep (t : Text) : Prop :=
  (∃ l, Text.trim t = l ++ ['/']) ∨
    ∃ before after, Text.trim t = before ++ '/' :: '/' :: '/' :: after ∧ ¬LeavesOpen before

/-! Cutting at slashes. -/

def inside (inBrackets : Bool) (c : Char) : Bool :=
  if c = '[' then true else if c = ']' then false else inBrackets

def Uncut : (inBrackets : Bool) → Text → Prop
  | _, [] => True
  | inBrackets, c :: t => ¬(c = '/' ∧ inBrackets = false) ∧ Uncut (inside inBrackets c) t

section Pieces

variable {b : Bool} {s t : Text}

theorem pieces_ne_nil (b : Bool) (t : Text) : pieces b t ≠ [] := by
  cases t with
  | nil => simp [pieces]
  | cons c t =>
    unfold pieces
    split
    · simp
    · split <;> simp

theorem pieces_slash (t : Text) : pieces false ('/' :: t) = [] :: pieces false t := by
  simp [pieces]

theorem pieces_cons {c : Char} (h : ¬(c = '/' ∧ b = false)) (t : Text) :
    pieces b (c :: t) = (pieces (inside b c) t).modifyHead (c :: ·) := by
  rw [pieces, if_neg h, inside]
  split
  next hnil => exact absurd hnil (pieces_ne_nil _ _)
  next piece more hpieces => rw [hpieces, List.modifyHead_cons]

theorem uncut_append : Uncut b (s ++ t) ↔ Uncut b s ∧ Uncut (s.foldl inside b) t := by
  induction s generalizing b with
  | nil => simp [Uncut]
  | cons c s ih => simp only [List.cons_append, Uncut, ih, List.foldl_cons, and_assoc]

theorem uncut_of_no_slash (h : '/' ∉ t) (b : Bool) : Uncut b t := by
  induction t generalizing b with
  | nil => trivial
  | cons c t ih =>
    rw [List.mem_cons, not_or] at h
    exact ⟨fun hslash => h.1 hslash.1.symm, ih h.2 _⟩

theorem foldl_inside_of_no_bracket (h : ∀ c ∈ t, c ≠ '[' ∧ c ≠ ']') (b : Bool) :
    t.foldl inside b = b := by
  induction t with
  | nil => rfl
  | cons c t ih =>
    obtain ⟨hc, ht⟩ := List.forall_mem_cons.1 h
    rw [List.foldl_cons, inside, if_neg hc.1, if_neg hc.2, ih ht]

theorem uncut_inside (h : ']' ∉ t) : Uncut true t ∧ t.foldl inside true = true := by
  induction t with
  | nil => exact ⟨trivial, rfl⟩
  | cons c t ih =>
    rw [List.mem_cons, not_or] at h
    have hinside : inside true c = true := by simp [inside, Ne.symm h.1]
    rw [Uncut, List.foldl_cons, hinside]
    exact ⟨⟨by simp, (ih h.2).1⟩, (ih h.2).2⟩

theorem pieces_of_uncut (h : Uncut b s) (t : Text) :
    pieces b (s ++ t) = (pieces (s.foldl inside b) t).modifyHead (s ++ ·) := by
  induction s generalizing b with
  | nil =>
    obtain ⟨piece, more, hpieces⟩ := List.exists_cons_of_ne_nil (pieces_ne_nil b t)
    simp [hpieces]
  | cons c s ih =>
    rw [List.cons_append, pieces_cons h.1, ih h.2, List.modifyHead_modifyHead, List.foldl_cons]
    rfl

theorem pieces_of_whole (h : Uncut b s) : pieces b s = [s] := by
  have hpieces := pieces_of_uncut h []
  simpa [pieces] using hpieces

theorem pieces_append_slash (h : s.foldl inside b = false) (t : Text) :
    pieces b (s ++ '/' :: t) = pieces b s ++ pieces false t := by
  induction s generalizing b with
  | nil =>
    obtain rfl : b = false := h
    exact pieces_slash t
  | cons c s ih =>
    by_cases hc : c = '/' ∧ b = false
    · obtain ⟨rfl, rfl⟩ := hc
      rw [List.cons_append, pieces_slash, pieces_slash, ih (by simpa [inside] using h)]
      rfl
    · obtain ⟨piece, more, hpieces⟩ := List.exists_cons_of_ne_nil (pieces_ne_nil (inside b c) s)
      rw [List.cons_append, pieces_cons hc, pieces_cons hc, ih h, hpieces]
      rfl

/-- What is not cut stands in the last piece with all that follows the last cut before it. -/
theorem exists_last_piece (s : Text) (h : Uncut (s.foldl inside b) t) :
    ∃ ps q, pieces b (s ++ t) = ps ++ [q ++ t] := by
  induction s generalizing b with
  | nil => exact ⟨[], [], pieces_of_whole h⟩
  | cons c s ih =>
    obtain ⟨ps, q, hpieces⟩ := ih h
    by_cases hc : c = '/' ∧ b = false
    · obtain ⟨rfl, rfl⟩ := hc
      exact ⟨[] :: ps, q, by rw [List.cons_append, pieces_slash]; exact congrArg _ hpieces⟩
    · rw [List.cons_append, pieces_cons hc, hpieces]
      cases ps with
      | nil => exact ⟨[], c :: q, rfl⟩
      | cons p ps => exact ⟨(c :: p) :: ps, q, rfl⟩

theorem foldl_inside_iff : t.foldl inside b = true ↔ LeavesOpen t ∨ b = true ∧ ']' ∉ t := by
  have hcons : ∀ (c : Char) (t : Text),
      LeavesOpen (c :: t) ↔ c = '[' ∧ ']' ∉ t ∨ LeavesOpen t := by
    intro c t
    constructor
    · rintro ⟨l, r, h, hr⟩
      cases l with
      | nil =>
        obtain ⟨rfl, rfl⟩ := List.cons.inj h
        exact .inl ⟨rfl, hr⟩
      | cons d l =>
        obtain ⟨rfl, rfl⟩ := List.cons.inj h
        exact .inr ⟨l, r, rfl, hr⟩
    · rintro (⟨rfl, hr⟩ | ⟨l, r, rfl, hr⟩)
      · exact ⟨[], t, rfl, hr⟩
      · exact ⟨c :: l, r, rfl, hr⟩
  induction t generalizing b with
  | nil => simp [LeavesOpen]
  | cons c t ih =>
    rw [List.foldl_cons]
    refine ih.trans ?_
    rw [hcons, inside, List.mem_cons, not_or]
    grind

end Pieces

end Selector

/-! Reading a step. -/

namespace SelectorStep

variable {step : SelectorStep}

theorem unquoted {value : Text} (h : ∀ c ∈ value, isQuote c = false) :
    Text.trimEndWhile isQuote
      ((Text.trim ('\'' :: value ++ ['\''])).dropWhile isQuote) = value := by
  have htrim : Text.trim ('\'' :: value ++ ['\'']) = '\'' :: value ++ ['\''] :=
    Text.trim_of_isTrimmed (Text.isTrimmed_of_ends (t := '\'' :: value) (by decide) (by decide) rfl)
  have hstops : Stops isQuote value := by
    cases value with
    | nil => rfl
    | cons c value => exact stops_cons.2 (h c List.mem_cons_self)
  have hreverse : Stops isQuote value.reverse := by
    rcases List.eq_nil_or_concat value with rfl | ⟨t, c, rfl⟩
    · rfl
    · rw [List.concat_eq_append, List.reverse_concat]
      exact stops_cons.2 (h c (by simp))
  rw [htrim]
  cases value with
  | nil => decide
  | cons c value =>
    have hstart : ('\'' :: (c :: value) ++ ['\'']).dropWhile isQuote = (c :: value) ++ ['\''] :=
      dropWhile_of_stops (t := ['\'']) (by decide) (stops_cons.2 (stops_cons.1 hstops))
    have hend : ('\'' :: (c :: value).reverse).dropWhile isQuote = (c :: value).reverse :=
      dropWhile_of_stops (t := ['\'']) (by decide) hreverse
    rw [hstart, Text.trimEndWhile, List.reverse_concat, hend, List.reverse_reverse]

theorem predicate?_condition (h : step.Writable) {key : Text} {value? : Option Text}
    (hpredicate : step.predicate = some (key, value?)) :
    predicate? ('@' :: condition key value? ++ [']']) = some (key, value?) := by
  have hkey := h.key key value? hpredicate
  have htrim : Text.trim key = key :=
    Text.trim_of_isTrimmed (Text.isTrimmed_of_all fun c hc => (hkey c hc).2.2.2.1)
  have hbefore : Text.before? [']'] ('@' :: condition key value? ++ [']']) =
      some ('@' :: condition key value?) :=
    Text.before?_eq_some_iff.2 rfl
  have hafter : Text.after? ['@'] ('@' :: condition key value?) = some (condition key value?) :=
    Text.after?_append ['@'] _
  rw [predicate?, hbefore, Option.bind_some, hafter, Option.map_some]
  cases value? with
  | none =>
    rw [condition, Text.splitFirst?_eq_none_iff.2 fun c hc => by simpa using (hkey c hc).1, htrim]
  | some value =>
    have hvalue := h.value key value hpredicate
    have hsplit : Text.splitFirst? (· == '=') (condition key (some value)) =
        some (key, '\'' :: value ++ ['\'']) := by
      rw [condition, List.cons_append, List.append_assoc]
      exact Text.splitFirst?_append _ (fun c hc => by simpa using (hkey c hc).1) rfl
    rw [hsplit]
    simp only [htrim, unquoted fun c hc => (hvalue c hc).2]

theorem ofText?_render (h : step.Writable) : ofText? step.descendant step.render = some step := by
  have hname : ∀ c ∈ step.name.getD ['*'], (c == '[') = false := by
    intro c hc
    cases hstep : step.name with
    | none =>
      obtain rfl : c = '*' := by simpa [hstep] using hc
      rfl
    | some name =>
      rw [hstep, Option.getD_some] at hc
      simpa using (h.name name hstep c hc).2.1
  have hofName : ∀ predicate, ofName? step.descendant (step.name.getD ['*']) predicate =
      some ⟨step.descendant, step.name, predicate⟩ := by
    intro predicate
    cases hstep : step.name with
    | none => rfl
    | some name => simp [ofName?, h.name_ne name hstep]
  unfold ofText? render
  cases hpredicate : step.predicate with
  | none =>
    rw [brackets, List.append_nil, Text.splitFirst?_eq_none_iff.2 hname]
    exact (hofName none).trans (by rw [← hpredicate])
  | some p =>
    obtain ⟨key, value?⟩ := p
    rw [brackets, Text.splitFirst?_append _ hname rfl]
    simp only [predicate?_condition h hpredicate, Option.bind_some, hofName]
    rw [← hpredicate]

/-- A slash in a written step is in its brackets, and these are closed. -/
theorem uncut_render (h : step.Writable) :
    Selector.Uncut false step.render ∧ step.render.foldl Selector.inside false = false := by
  have hname : ∀ c ∈ step.name.getD ['*'], c ≠ '/' ∧ c ≠ '[' ∧ c ≠ ']' := by
    intro c hc
    cases hstep : step.name with
    | none =>
      obtain rfl : c = '*' := by simpa [hstep] using hc
      decide
    | some name =>
      rw [hstep, Option.getD_some] at hc
      exact ⟨(h.name name hstep c hc).1, (h.name name hstep c hc).2.1,
        (h.name name hstep c hc).2.2.1⟩
  have hslash : '/' ∉ step.name.getD ['*'] := fun hmem => (hname _ hmem).1 rfl
  have hinside := Selector.foldl_inside_of_no_bracket (fun c hc => (hname c hc).2) false
  rw [render, Selector.uncut_append, List.foldl_append, hinside]
  cases hpredicate : step.predicate with
  | none => exact ⟨⟨Selector.uncut_of_no_slash hslash false, trivial⟩, rfl⟩
  | some p =>
    obtain ⟨key, value?⟩ := p
    have hkey : ']' ∉ key := fun hmem => (h.key key value? hpredicate _ hmem).2.2.1 rfl
    have hcondition : ']' ∉ '@' :: condition key value? := by
      cases value? with
      | none => simpa [condition] using hkey
      | some value =>
        have hvalue : ']' ∉ value := fun hmem => (h.value key value hpredicate _ hmem).1 rfl
        simp [condition, hkey, hvalue]
    obtain ⟨huncut, hopen⟩ := Selector.uncut_inside hcondition
    have hopened : Selector.inside false '[' = true := rfl
    rw [brackets, Selector.Uncut, hopened, Selector.uncut_append, hopen, List.foldl_cons, hopened,
      List.foldl_append, hopen]
    have hclosing : Selector.Uncut true [']'] := by simp [Selector.Uncut]
    exact ⟨⟨Selector.uncut_of_no_slash hslash false, by simp, huncut, hclosing⟩, rfl⟩

theorem render_ends (h : step.Writable) :
    (∃ c t, step.render = c :: t ∧ isBlank c = false) ∧
      ∃ t c, step.render = t ++ [c] ∧ isBlank c = false := by
  have hname : step.name.getD ['*'] ≠ [] ∧ ∀ c ∈ step.name.getD ['*'], isBlank c = false := by
    cases hstep : step.name with
    | none => exact ⟨List.cons_ne_nil _ _, List.forall_mem_singleton.2 (by decide)⟩
    | some name => exact ⟨(h.name_ne name hstep).1, fun c hc => (h.name name hstep c hc).2.2.2⟩
  constructor
  · obtain ⟨c, t, hcons⟩ := List.exists_cons_of_ne_nil hname.1
    refine ⟨c, t ++ brackets step.predicate, ?_, hname.2 c (by simp [hcons])⟩
    rw [render, hcons, List.cons_append]
  · cases hpredicate : step.predicate with
    | none =>
      obtain ⟨t, c, hconcat⟩ := (List.eq_nil_or_concat (step.name.getD ['*'])).resolve_left hname.1
      rw [List.concat_eq_append] at hconcat
      refine ⟨t, c, ?_, hname.2 c (by simp [hconcat])⟩
      rw [render, hpredicate, brackets, List.append_nil, hconcat]
    | some p =>
      obtain ⟨key, value?⟩ := p
      refine ⟨step.name.getD ['*'] ++ '[' :: '@' :: condition key value?, ']', ?_, by decide⟩
      simp [render, hpredicate, brackets]

end SelectorStep

namespace Selector

/-! Reading a selector. -/

/-- The pieces that steps are written as: an empty one stands between the two slashes of a
descendant. -/
def writtenPieces (steps : List SelectorStep) : List Text :=
  steps.flatMap fun step => if step.descendant then [[], step.render] else [step.render]

theorem afterSlash_writtenPieces {steps : List SelectorStep} (h : ∀ step ∈ steps, step.Writable) :
    afterSlash (writtenPieces steps) = some steps := by
  induction steps with
  | nil => rfl
  | cons step rest ih =>
    obtain ⟨hstep, hrest⟩ := List.forall_mem_cons.1 h
    have hread := SelectorStep.ofText?_render hstep
    obtain ⟨⟨c, t, hcons, -⟩, -⟩ := SelectorStep.render_ends hstep
    rw [writtenPieces, List.flatMap_cons, ← writtenPieces]
    cases hdescendant : step.descendant with
    | true =>
      rw [hdescendant] at hread
      rw [if_pos rfl, List.cons_append, List.singleton_append, afterSlash, hread, ih hrest]
      rfl
    | false =>
      rw [hdescendant] at hread
      rw [if_neg Bool.false_ne_true, List.singleton_append]
      rw [hcons] at hread ⊢
      rw [afterSlash, hread, ih hrest]
      · rfl
      · simp

theorem pieces_written {s : Text} (huncut : Uncut false s) (hclosed : s.foldl inside false = false)
    {steps : List SelectorStep} (h : ∀ step ∈ steps, step.Writable) :
    pieces false (s ++ steps.flatMap fun step => step.slash ++ step.render) =
      s :: writtenPieces steps := by
  induction steps generalizing s with
  | nil =>
    rw [List.flatMap_nil, List.append_nil, pieces_of_whole huncut, writtenPieces, List.flatMap_nil]
  | cons step rest ih =>
    obtain ⟨hstep, hrest⟩ := List.forall_mem_cons.1 h
    obtain ⟨hcut, hends⟩ := SelectorStep.uncut_render hstep
    have hself := pieces_of_whole huncut
    have hmore := ih hcut hends hrest
    rw [writtenPieces, List.flatMap_cons, List.flatMap_cons, ← writtenPieces, SelectorStep.slash]
    cases step.descendant with
    | true =>
      rw [if_pos rfl, if_pos rfl, List.append_assoc]
      simp only [List.cons_append, List.nil_append]
      rw [pieces_append_slash hclosed, hself, pieces_slash, hmore]
      rfl
    | false =>
      rw [if_neg Bool.false_ne_true, if_neg Bool.false_ne_true, List.append_assoc]
      simp only [List.cons_append, List.nil_append]
      rw [pieces_append_slash hclosed, hself, hmore]
      rfl

/-! A written selector begins and ends with ink. -/

theorem exists_cons_render (short : Bool) {selector : Selector} (hne : selector ≠ [])
    (h : ∀ step ∈ selector, step.Writable) :
    ∃ c t, selector.render short = c :: t ∧ isBlank c = false := by
  obtain ⟨step, rest, rfl⟩ := List.exists_cons_of_ne_nil hne
  obtain ⟨⟨c, t, hcons, hc⟩, -⟩ := SelectorStep.render_ends (h step List.mem_cons_self)
  rw [render, SelectorStep.slash]
  split
  next => exact ⟨c, _, by rw [hcons]; rfl, hc⟩
  next =>
    split
    next => exact ⟨'/', _, rfl, by decide⟩
    next => exact ⟨'/', _, rfl, by decide⟩

theorem exists_concat_render (short : Bool) {selector : Selector} (hne : selector ≠ [])
    (h : ∀ step ∈ selector, step.Writable) :
    ∃ t c, selector.render short = t ++ [c] ∧ isBlank c = false := by
  obtain ⟨step, rest, rfl⟩ := List.exists_cons_of_ne_nil hne
  rw [render]
  rcases List.eq_nil_or_concat rest with rfl | ⟨more, last, rfl⟩
  · obtain ⟨-, t, c, hconcat, hc⟩ := SelectorStep.render_ends (h step List.mem_cons_self)
    rw [List.flatMap_nil, List.append_nil, hconcat, ← List.append_assoc]
    exact ⟨_, c, rfl, hc⟩
  · obtain ⟨-, t, c, hconcat, hc⟩ := SelectorStep.render_ends (h last (by simp))
    rw [List.concat_eq_append, List.flatMap_append, List.flatMap_singleton, hconcat]
    simp only [← List.append_assoc]
    exact ⟨_, c, rfl, hc⟩

theorem isTrimmed_render (short : Bool) {selector : Selector} (hne : selector ≠ [])
    (h : ∀ step ∈ selector, step.Writable) : Text.IsTrimmed (selector.render short) := by
  obtain ⟨c, t, hcons, hc⟩ := exists_cons_render short hne h
  obtain ⟨s, d, hconcat, hd⟩ := exists_concat_render short hne h
  rw [hcons] at hconcat ⊢
  exact Text.isTrimmed_of_ends hc hd hconcat

theorem ofText?_render (short : Bool) {selector : Selector} (hne : selector ≠ [])
    (h : ∀ step ∈ selector, step.Writable) {before after : Text}
    (hbefore : before.all isBlank = true) (hafter : after.all isBlank = true) :
    ofText? (before ++ (selector.render short ++ after)) = some selector := by
  rw [ofText?, Text.trim_append_left hbefore, Text.trim_append_right _ hafter,
    Text.trim_of_isTrimmed (isTrimmed_render short hne h)]
  obtain ⟨step, rest, rfl⟩ := List.exists_cons_of_ne_nil hne
  obtain ⟨hstep, hrest⟩ := List.forall_mem_cons.1 h
  obtain ⟨⟨c, t, hcons, -⟩, -⟩ := SelectorStep.render_ends hstep
  obtain ⟨huncut, hclosed⟩ := SelectorStep.uncut_render hstep
  have hpieces := pieces_written huncut hclosed hrest
  have hread := SelectorStep.ofText?_render hstep
  cases hshort : short && step.descendant with
  | true =>
    rw [(Bool.and_eq_true_iff.1 hshort).2] at hread
    have hrender : render short (step :: rest) =
        step.render ++ rest.flatMap fun step => step.slash ++ step.render := by
      rw [render, if_pos hshort, List.nil_append]
    rw [hrender]
    rw [hcons] at hpieces hread ⊢
    simp only [List.cons_append] at hpieces ⊢
    rw [hpieces]
    simp only [hread, Option.bind_some, afterSlash_writtenPieces hrest, Option.map_some]
  | false =>
    have hrender : render short (step :: rest) =
        [] ++ (step :: rest).flatMap fun step => step.slash ++ step.render := by
      rw [render, if_neg (by simp [hshort]), List.flatMap_cons, List.append_assoc, List.nil_append]
    have hpieces := pieces_written (s := []) trivial rfl h
    obtain ⟨d, u, hcons, -⟩ := exists_cons_render short hne h
    rw [← hrender, hcons] at hpieces
    rw [hcons]
    simp only [hpieces]
    exact afterSlash_writtenPieces h

/-! Refusing a selector. -/

section Refused

variable {ps rest : List Text}

/-- What cannot be read cannot be read after other pieces either; the last of these may be the empty
one that makes a slash a double one. -/
theorem afterSlash_append_eq_none (h : afterSlash rest = none) (h' : afterSlash ([] :: rest) = none)
    (ps : List Text) : afterSlash (ps ++ rest) = none := by
  induction ps using afterSlash.induct with
  | case1 => exact h
  | case2 piece more ih =>
    rw [List.cons_append, List.cons_append, afterSlash, ih]
    exact Option.bind_fun_none _
  | case3 piece more hpiece ih =>
    by_cases hlast : piece = [] ∧ more = []
    · obtain ⟨rfl, rfl⟩ := hlast
      exact h'
    · rw [List.cons_append, afterSlash, ih]
      · exact Option.bind_fun_none _
      · rintro piece' more' rfl hmore
        cases more with
        | nil => exact hlast ⟨rfl, rfl⟩
        | cons p ps => exact hpiece p ps rfl rfl

theorem ofText?_eq_none {t : Text} (hpieces : pieces false (Text.trim t) = ps ++ rest)
    (hfirst : ps ≠ [] ∨ rest.head? ≠ some []) (h : afterSlash rest = none)
    (h' : afterSlash ([] :: rest) = none) : ofText? t = none := by
  unfold ofText?
  split
  next => rfl
  next c u htrim =>
    rw [htrim] at hpieces
    rw [hpieces]
    split
    next more hmore =>
      cases ps with
      | nil =>
        obtain rfl : rest = [] :: more := hmore
        exact absurd rfl (hfirst.resolve_left fun hnil => hnil rfl)
      | cons p ps =>
        obtain ⟨rfl, rfl⟩ := List.cons.inj hmore
        exact afterSlash_append_eq_none h h' ps
    next piece more hne hmore =>
      have hnone := afterSlash_append_eq_none h h' ([] :: ps)
      rwa [List.cons_append, hmore, afterSlash] at hnone
    next => rfl

theorem afterSlash_unread {q : Text} (hne : q ≠ [])
    (hq : ∀ descendant, SelectorStep.ofText? descendant q = none) :
    afterSlash [q] = none ∧ afterSlash [[], q] = none := by
  obtain ⟨c, t, rfl⟩ := List.exists_cons_of_ne_nil hne
  constructor
  · rw [afterSlash, hq]
    · rfl
    · simp
  · rw [afterSlash, hq]
    rfl

theorem step_eq_none_of_unclosed (x r : Text) (descendant : Bool) :
    SelectorStep.ofText? descendant (x ++ '[' :: r ++ ['/']) = none := by
  cases hsplit : Text.splitFirst? (· == '[') (x ++ '[' :: r ++ ['/']) with
  | none =>
    have hbracket := Text.splitFirst?_eq_none_iff.1 hsplit '[' (by simp)
    cases hbracket
  | some cut =>
    obtain ⟨name, inner⟩ := cut
    have hbefore : Text.before? [']'] inner = none := by
      cases hinner : Text.before? [']'] inner with
      | none => rfl
      | some body =>
        obtain ⟨c, -, hcut, -⟩ := Text.splitFirst?_eq_some_iff.1 hsplit
        rw [Text.before?_eq_some_iff.1 hinner, ← List.cons_append, ← List.append_assoc] at hcut
        have hlast := congrArg List.getLast? hcut
        rw [List.getLast?_concat, List.getLast?_concat] at hlast
        exact absurd (Option.some.inj hlast) (by decide)
    rw [SelectorStep.ofText?, hsplit]
    simp only [SelectorStep.predicate?, hbefore, Option.bind_none]

theorem ofText?_of_endsWith_slash {t l : Text} (ht : Text.trim t = l ++ ['/']) :
    ofText? t = none := by
  by_cases hopen : LeavesOpen l
  · obtain ⟨x, r, rfl, hr⟩ := hopen
    have huncut : ∀ b, Uncut b ('[' :: r ++ ['/']) := fun b =>
      ⟨by simp, (uncut_inside (by simpa using hr)).1⟩
    obtain ⟨ps, q, hpieces⟩ := exists_last_piece x (huncut _)
    rw [← List.append_assoc, ← ht] at hpieces
    have hlast := step_eq_none_of_unclosed q r
    rw [List.append_assoc] at hlast
    obtain ⟨hnone, hnone'⟩ := afterSlash_unread (by simp) hlast
    exact ofText?_eq_none hpieces (.inr (by simp)) hnone hnone'
  · have hclosed : l.foldl inside false = false := by
      rw [← Bool.not_eq_true, foldl_inside_iff]
      simpa using hopen
    have hpieces := pieces_append_slash hclosed []
    rw [← ht] at hpieces
    exact ofText?_eq_none hpieces (.inl (pieces_ne_nil _ _)) rfl rfl

theorem ofText?_of_three_slashes {t before after : Text}
    (ht : Text.trim t = before ++ '/' :: '/' :: '/' :: after) (hclosed : ¬LeavesOpen before) :
    ofText? t = none := by
  have hclosed : before.foldl inside false = false := by
    rw [← Bool.not_eq_true, foldl_inside_iff]
    simpa using hclosed
  have hpieces := pieces_append_slash hclosed ('/' :: '/' :: after)
  rw [← ht, pieces_slash, pieces_slash] at hpieces
  exact ofText?_eq_none hpieces (.inl (pieces_ne_nil _ _)) rfl rfl

end Refused

/-- Reading gives back the steps of every written selector, in either writing and with any white
space around it; and a text with an empty step is refused. -/
theorem reads_written_steps :
    (∀ (selector : Selector) (short : Bool) (before after : Text), selector ≠ [] →
      (∀ step ∈ selector, step.Writable) → before.all isBlank = true → after.all isBlank = true →
        ofText? (before ++ (selector.render short ++ after)) = some selector) ∧
      ∀ t, HasEmptyStep t → ofText? t = none := by
  constructor
  · intro selector short before after hne hwritable hbefore hafter
    exact ofText?_render short hne hwritable hbefore hafter
  · rintro t (⟨l, ht⟩ | ⟨before, after, ht, hclosed⟩)
    · exact ofText?_of_endsWith_slash ht
    · exact ofText?_of_three_slashes ht hclosed

section LooseValue

def looseValue : Selector :=
  [⟨true, some "group".toList, some ("id".toList, some "a/b = c".toList)⟩,
    ⟨false, none, some (['k'], none)⟩]

theorem writable_looseValue : ∀ step ∈ looseValue, step.Writable := by
  intro step hstep
  simp only [looseValue, List.mem_cons, List.not_mem_nil, or_false] at hstep
  rcases hstep with rfl | rfl
  · constructor <;> simp <;> decide
  · constructor <;> simp
    decide

theorem looseValue_reads_written :
    ofText? " group[@id='a/b = c']/*[@k]\n".toList = some looseValue ∧
      HasEmptyStep "/a//".toList ∧ ofText? "/a//".toList = none := by
  have hread := reads_written_steps.1 looseValue true [' '] ['\n'] (by decide) writable_looseValue
    (by decide) (by decide)
  have hempty : HasEmptyStep "/a//".toList := .inl ⟨"/a/".toList, by decide⟩
  exact ⟨hread, hempty, reads_written_steps.2 _ hempty⟩

end LooseValue

end Selector

end ScriptLens
