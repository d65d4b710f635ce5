import ScriptLens.Proofs.Foreign.Words

/-!
Texts that a template spells. Reading takes as much as it can, which loses nothing if every run of
white space or digits is followed by something else; and where no template begins inside a text that
one of them spells, a search from left to right finds all such texts.
-/

namespace ScriptLens

namespace Template

structure Spaces where
  text : Text
  valid : text.all isBlank = true

structure Digits where
  text : Text
  nonempty : text ≠ []
  valid : text.all isDigit = true

theorem not_mem_of_all {accepts : Char → Bool} {t : Text} (h : t.all accepts = true) {c : Char}
    (hc : accepts c = false) : c ∉ t := by
  intro hmem
  rw [List.all_eq_true.1 h c hmem] at hc
  cases hc

def Spells : Template → List Text → Text → Prop
  | [], numbers, t => numbers = [] ∧ t = []
  | .literal expected :: parts, numbers, t =>
    ∃ rest, t = expected ++ rest ∧ Spells parts numbers rest
  | .blanks :: parts, numbers, t =>
    ∃ (s : Spaces) (rest : Text), t = s.text ++ rest ∧ Spells parts numbers rest
  | .gap :: parts, numbers, t =>
    ∃ (g : Foreign.Gap) (rest : Text), t = g.text ++ rest ∧ Spells parts numbers rest
  | .number :: parts, numbers, t =>
    ∃ (d : Digits) (more : List Text) (rest : Text),
      numbers = d.text :: more ∧ t = d.text ++ rest ∧ Spells parts more rest

theorem exists_spells {template : Template} {t rest : Text} {numbers : List Text}
    (h : match? template t = some (numbers, rest)) :
    ∃ w, template.Spells numbers w ∧ t = w ++ rest := by
  induction template generalizing t numbers with
  | nil =>
    cases h
    exact ⟨[], ⟨rfl, rfl⟩, rfl⟩
  | cons part parts ih =>
    cases part with
    | literal expected =>
      obtain ⟨after, hafter, hparts⟩ := Option.bind_eq_some_iff.1 h
      obtain ⟨w, hw, rfl⟩ := ih hparts
      refine ⟨expected ++ w, ⟨w, rfl, hw⟩, ?_⟩
      rw [Text.after?_eq_some_iff.1 hafter, List.append_assoc]
    | blanks =>
      obtain ⟨w, hw, hrest⟩ := ih h
      refine ⟨t.takeWhile isBlank ++ w, ⟨⟨_, List.all_takeWhile⟩, w, rfl, hw⟩, ?_⟩
      rw [List.append_assoc, ← hrest, Text.trimStart, List.takeWhile_append_dropWhile]
    | gap =>
      rw [match?] at h
      split at h
      next hhead =>
        obtain ⟨w, hw, hrest⟩ := ih h
        obtain ⟨-, g, hg⟩ := Foreign.afterGap?_eq_some_iff.1
          (show Declaration.afterGap? t = some (Text.trimStart t) from if_pos hhead)
        exact ⟨g.text ++ w, ⟨g, w, rfl, hw⟩, by rw [List.append_assoc, ← hrest, ← hg]⟩
      next => cases h
    | number =>
      rw [match?] at h
      split at h
      next hhead =>
        obtain ⟨⟨more, after⟩, hparts, heq⟩ := Option.map_eq_some_iff.1 h
        cases heq
        obtain ⟨w, hw, hrest⟩ := ih hparts
        have hne : t.takeWhile isDigit ≠ [] := by
          cases t with
          | nil => cases hhead
          | cons c t =>
            have hc : isDigit c = true := hhead
            simp [hc]
        refine ⟨t.takeWhile isDigit ++ w, ⟨⟨_, hne, List.all_takeWhile⟩, more, w, rfl, rfl, hw⟩, ?_⟩
        rw [List.append_assoc, ← hrest, List.takeWhile_append_dropWhile]
      next => cases h

/-! Where runs of white space and digits end. -/

/-- What a template takes as much of as there is. -/
inductive Stretch where
  | blanks
  | digits
  deriving DecidableEq

namespace Stretch

def accepts : Stretch → Char → Bool
  | blanks => isBlank
  | digits => isDigit

theorem isBlank_of_isDigit {c : Char} (h : isDigit c = true) : isBlank c = false := by
  refine Foreign.isBlank_of_isWordPart ?_
  obtain ⟨hdigit, hage⟩ := Bool.and_eq_true_iff.1 h
  simp only [isWordPart, hdigit, hage, Bool.or_true, Bool.true_or, Bool.and_self]

theorem apart {s t : Stretch} (hne : s ≠ t) {c : Char} (h : t.accepts c = true) :
    s.accepts c = false := by
  cases s with
  | blanks =>
    cases t with
    | blanks => exact absurd rfl hne
    | digits => exact isBlank_of_isDigit h
  | digits =>
    cases t with
    | digits => exact absurd rfl hne
    | blanks =>
      refine Bool.eq_false_iff.2 fun hdigit => ?_
      rw [accepts, isBlank_of_isDigit hdigit] at h
      cases h

end Stretch

/-- Whether all that a template spells begins, and with nothing that belongs to a stretch. -/
def avoids (s : Stretch) : Template → Bool
  | [] => false
  | .literal [] :: parts => avoids s parts
  | .literal (c :: _) :: _ => !s.accepts c
  | .blanks :: parts => s ≠ .blanks && avoids s parts
  | .gap :: _ => s ≠ .blanks
  | .number :: _ => s ≠ .digits

/-- Whether every stretch in a template is followed by something else. -/
def delimited : Template → Bool
  | [] => true
  | .literal _ :: parts => delimited parts
  | .blanks :: parts => avoids .blanks parts && delimited parts
  | .gap :: parts => avoids .blanks parts && delimited parts
  | .number :: parts => avoids .digits parts && delimited parts

theorem stops_of_avoids {s : Stretch} {template : Template} (h : template.avoids s = true)
    {numbers : List Text} {w : Text} (hw : template.Spells numbers w) (rest : Text) :
    Stops s.accepts (w ++ rest) := by
  induction template generalizing numbers w with
  | nil => cases h
  | cons part parts ih =>
    cases part with
    | literal expected =>
      obtain ⟨w, rfl, hw⟩ := hw
      cases expected with
      | nil => exact ih h hw
      | cons c expected => exact stops_cons.2 (Bool.not_eq_true' _ ▸ h)
    | blanks =>
      obtain ⟨hne, hparts⟩ := Bool.and_eq_true_iff.1 h
      obtain ⟨⟨text, hblank⟩, w, rfl, hw⟩ := hw
      rw [List.append_assoc]
      cases text with
      | nil => exact ih hparts hw
      | cons c text =>
        have hc : isBlank c = true := (Bool.and_eq_true_iff.1 hblank).1
        exact stops_cons.2 (Stretch.apart (of_decide_eq_true hne) (t := .blanks) hc)
    | gap =>
      obtain ⟨g, w, rfl, hw⟩ := hw
      rw [List.append_assoc]
      exact Foreign.stops_of_all g.nonempty g.valid
        (fun c hc => Stretch.apart (of_decide_eq_true h) (t := .blanks) hc) _
    | number =>
      obtain ⟨d, more, w, rfl, rfl, hw⟩ := hw
      rw [List.append_assoc]
      exact Foreign.stops_of_all d.nonempty d.valid
        (fun c hc => Stretch.apart (of_decide_eq_true h) (t := .digits) hc) _

theorem match?_of_spells {template : Template} (h : template.delimited = true)
    {numbers : List Text} {w : Text} (hw : template.Spells numbers w) (rest : Text) :
    match? template (w ++ rest) = some (numbers, rest) := by
  induction template generalizing numbers w with
  | nil =>
    obtain ⟨rfl, rfl⟩ := hw
    rfl
  | cons part parts ih =>
    cases part with
    | literal expected =>
      obtain ⟨w, rfl, hw⟩ := hw
      rw [List.append_assoc, match?, Text.after?_append]
      exact ih h hw
    | blanks =>
      obtain ⟨havoids, hparts⟩ := Bool.and_eq_true_iff.1 h
      obtain ⟨s, w, rfl, hw⟩ := hw
      rw [List.append_assoc, match?, Text.trimStart,
        dropWhile_of_stops s.valid (stops_of_avoids havoids hw rest)]
      exact ih hparts hw
    | gap =>
      obtain ⟨havoids, hparts⟩ := Bool.and_eq_true_iff.1 h
      obtain ⟨g, w, rfl, hw⟩ := hw
      rw [List.append_assoc, match?, if_pos (Foreign.head?_of_all g.nonempty g.valid _),
        g.trimStart_append (stops_of_avoids havoids hw rest)]
      exact ih hparts hw
    | number =>
      obtain ⟨havoids, hparts⟩ := Bool.and_eq_true_iff.1 h
      obtain ⟨d, more, w, rfl, rfl, hw⟩ := hw
      have hstops : Stops isDigit (w ++ rest) := stops_of_avoids havoids hw rest
      rw [List.append_assoc, match?, if_pos (Foreign.head?_of_all d.nonempty d.valid _),
        dropWhile_of_stops d.valid hstops, takeWhile_of_stops d.valid hstops, ih hparts hw]
      rfl

/-! Searches. -/

/-- Of several templates, none begins inside a text that one of them spells. -/
structure Separate (templates : List Template) : Prop where
  delimited : ∀ template ∈ templates, template.delimited = true
  nonempty : ∀ template ∈ templates, ∀ {numbers w}, template.Spells numbers w → w ≠ []
  alone : ∀ template ∈ templates, ∀ {numbers w}, template.Spells numbers w → ∀ s, s <:+ w →
    s ≠ [] → ∀ other ∈ templates, (s ≠ w ∨ other ≠ template) → ∀ rest,
      match? other (s ++ rest) = none

structure Place (templates : List Template) (t : Text) where
  before : Text
  template : Template
  numbers : List Text
  body : Text
  after : Text
  listed : template ∈ templates
  spelled : template.Spells numbers body
  laid : t = before ++ (body ++ after)

namespace Place

variable {templates : List Template} {t : Text}

def found (p : Place templates t) (offset : Nat) : Found :=
  ⟨offset + p.before.byteSize, offset + p.before.byteSize + p.body.byteSize, p.numbers⟩

def leading {template : Template} {numbers : List Text} {body after : Text}
    (listed : template ∈ templates) (spelled : template.Spells numbers body)
    (laid : t = body ++ after) : Place templates t :=
  ⟨[], template, numbers, body, after, listed, spelled, laid⟩

def push (c : Char) (p : Place templates t) : Place templates (c :: t) :=
  { p with
    before := c :: p.before
    laid := congrArg (c :: ·) p.laid }

theorem found_push (c : Char) (p : Place templates t) (offset : Nat) :
    (p.push c).found offset = p.found (offset + c.utf8Size) := by
  simp only [found, push, Text.byteSize_cons, Nat.add_assoc]

theorem exists_push {c : Char} (p : Place templates (c :: t)) (hne : p.before ≠ []) :
    ∃ q : Place templates t, p = q.push c := by
  obtain ⟨before, template, numbers, body, after, hlisted, hspelled, hlaid⟩ := p
  obtain ⟨d, before, rfl⟩ := List.exists_cons_of_ne_nil hne
  obtain ⟨rfl, ht⟩ := List.cons.inj hlaid
  exact ⟨⟨before, template, numbers, body, after, hlisted, hspelled, ht⟩, rfl⟩

end Place

section Search

variable {templates : List Template}

theorem exists_of_leading? {t rest : Text} {numbers : List Text}
    (h : leading? templates t = some (numbers, rest)) :
    ∃ template ∈ templates, ∃ w, template.Spells numbers w ∧ t = w ++ rest := by
  obtain ⟨template, hlisted, hmatch⟩ := List.exists_of_findSome?_eq_some h
  exact ⟨template, hlisted, exists_spells hmatch⟩

variable (h : Separate templates)

include h

theorem leading?_of_spells {template : Template} (hlisted : template ∈ templates)
    {numbers : List Text} {w : Text} (hw : template.Spells numbers w) (rest : Text) :
    leading? templates (w ++ rest) = some (numbers, rest) := by
  obtain ⟨earlier, later, heq, hfirst⟩ := List.eq_append_cons_of_mem hlisted
  refine List.findSome?_eq_some_iff.2 ⟨earlier, template, later, heq,
    match?_of_spells (h.delimited template hlisted) hw rest, fun other hother => ?_⟩
  exact h.alone template hlisted hw w List.suffix_rfl (h.nonempty template hlisted hw) other
    (heq ▸ List.mem_append_left _ hother) (.inr fun hsame => hfirst (hsame ▸ hother)) rest

/-- Past the beginning of what a template spells, none begins before its end. -/
theorem leading?_inside {template : Template} (hlisted : template ∈ templates)
    {numbers : List Text} {w : Text} (hw : template.Spells numbers w) {s : Text} (hs : s <:+ w)
    (hne : s ≠ []) (hinside : s ≠ w) (rest : Text) : leading? templates (s ++ rest) = none :=
  List.findSome?_eq_none_iff.2 fun other hother =>
    h.alone template hlisted hw s hs hne other hother (.inl hinside) rest

theorem leading?_of_place {t : Text} (p : Place templates t) :
    leading? templates (p.body ++ p.after) = some (p.numbers, p.after) :=
  leading?_of_spells h p.listed p.spelled p.after

theorem length_le_of_places {t : Text} (p q : Place templates t) (hp : p.before = [])
    (hq : q.before ≠ []) : p.body.length ≤ q.before.length := by
  refine Nat.le_of_not_lt fun hlt => ?_
  have hrest : p.body.drop q.before.length ++ p.after = q.body ++ q.after := by
    have hdrop := congrArg (List.drop q.before.length) (p.laid.symm.trans q.laid)
    rwa [hp, List.nil_append, List.drop_append_of_le_length (by omega), List.drop_left] at hdrop
  have hinside := leading?_inside h p.listed p.spelled (List.drop_suffix q.before.length p.body)
    (by simp; omega) (fun heq => ?_) p.after
  · rw [hrest, leading?_of_place h q] at hinside
    cases hinside
  · have hlength := congrArg List.length heq
    have := List.length_pos_iff.2 hq
    rw [List.length_drop] at hlength
    omega

theorem found_eq_of_places {t : Text} (p q : Place templates t) (hp : p.before = [])
    (hq : q.before = []) (offset : Nat) : p.found offset = q.found offset := by
  have hlaid : p.body ++ p.after = q.body ++ q.after := by
    have heq := p.laid.symm.trans q.laid
    rwa [hp, hq] at heq
  have hlead := leading?_of_place h p
  rw [hlaid, leading?_of_place h q] at hlead
  obtain ⟨hnumbers, hafter⟩ := Prod.mk.inj (Option.some.inj hlead)
  rw [hafter] at hlaid
  rw [Place.found, Place.found, hp, hq, hnumbers, List.append_cancel_right hlaid]

theorem mem_allFrom_iff {skip offset : Nat} {t : Text} {found : Found} :
    found ∈ allFrom templates skip offset t ↔
      ∃ p : Place templates t, skip ≤ p.before.length ∧ p.found offset = found := by
  induction t generalizing skip offset with
  | nil =>
    rw [allFrom]
    refine ⟨fun hfound => absurd hfound List.not_mem_nil, ?_⟩
    rintro ⟨p, -, -⟩
    have hbody := (List.append_eq_nil_iff.1 (List.append_eq_nil_iff.1 p.laid.symm).2).1
    exact absurd hbody (h.nonempty p.template p.listed p.spelled)
  | cons c t ih =>
    have hpushed : ∀ {skip}, found ∈ allFrom templates skip (offset + c.utf8Size) t →
        ∃ p : Place templates (c :: t), skip + 1 ≤ p.before.length ∧ p.found offset = found := by
      intro skip hfound
      obtain ⟨q, hskip, rfl⟩ := ih.1 hfound
      exact ⟨q.push c, Nat.succ_le_succ hskip, q.found_push c offset⟩
    have hlater : ∀ {skip} (p : Place templates (c :: t)), p.found offset = found →
        skip + 1 ≤ p.before.length → found ∈ allFrom templates skip (offset + c.utf8Size) t := by
      intro skip p hp hskip
      obtain ⟨q, rfl⟩ := p.exists_push
        (List.length_pos_iff.1 (Nat.lt_of_lt_of_le skip.succ_pos hskip))
      exact ih.2 ⟨q, Nat.le_of_succ_le_succ hskip, (q.found_push c offset).symm.trans hp⟩
    cases skip with
    | succ skip =>
      rw [allFrom]
      refine ⟨hpushed, ?_⟩
      rintro ⟨p, hskip, hp⟩
      exact hlater p hp hskip
    | zero =>
      rw [allFrom]
      split
      next numbers rest hlead =>
        obtain ⟨template, hlisted, w, hw, hlaid⟩ := exists_of_leading? hlead
        have htaken : (c :: t).take (t.length + 1 - rest.length) = w := by
          have hlength := congrArg List.length hlaid
          rw [List.length_cons, List.length_append] at hlength
          rw [hlaid, hlength, Nat.add_sub_cancel, List.take_left]
        have hfirst : (Place.leading hlisted hw hlaid).found offset =
            ⟨offset, offset + w.byteSize, numbers⟩ := rfl
        simp only [htaken, List.mem_cons, ← hfirst]
        constructor
        · rintro (rfl | hfound)
          · exact ⟨.leading hlisted hw hlaid, Nat.zero_le _, rfl⟩
          · obtain ⟨p, -, hp⟩ := hpushed hfound
            exact ⟨p, Nat.zero_le _, hp⟩
        · rintro ⟨p, -, rfl⟩
          by_cases hbefore : p.before = []
          · exact .inl (found_eq_of_places h p (.leading hlisted hw hlaid) hbefore rfl offset)
          · have hlength : w.length ≤ p.before.length :=
              length_le_of_places h (.leading hlisted hw hlaid) p rfl hbefore
            have hpos : 0 < w.length := List.length_pos_iff.2 (h.nonempty template hlisted hw)
            exact .inr (hlater p rfl (by omega))
      next hlead =>
        constructor
        · intro hfound
          obtain ⟨p, -, hp⟩ := hpushed hfound
          exact ⟨p, Nat.zero_le _, hp⟩
        · rintro ⟨p, -, rfl⟩
          refine hlater p rfl (List.length_pos_iff.2 fun hbefore => ?_)
          have hplace := leading?_of_place h p
          have hlaid := p.laid
          rw [hbefore, List.nil_append] at hlaid
          rw [← hlaid, hlead] at hplace
          cases hplace

theorem mem_all_iff {t : Text} {found : Found} :
    found ∈ all templates t ↔ ∃ p : Place templates t, p.found 0 = found := by
  rw [all, mem_allFrom_iff h]
  exact exists_congr fun p => and_iff_right (Nat.zero_le _)

theorem pairwise_allFrom (skip offset : Nat) (t : Text) :
    (allFrom templates skip offset t).Pairwise fun a b => a.start < b.start := by
  induction t generalizing skip offset with
  | nil => exact .nil
  | cons c t ih =>
    cases skip with
    | succ skip => exact ih skip _
    | zero =>
      rw [allFrom]
      split
      next =>
        refine List.pairwise_cons.2 ⟨fun found hfound => ?_, ih _ _⟩
        obtain ⟨p, -, rfl⟩ := (mem_allFrom_iff h).1 hfound
        have := c.utf8Size_pos
        simp only [Place.found]
        omega
      next => exact ih 0 _

theorem find?_all_eq_some_iff {t : Text} {wanted : Found → Bool} {found : Found} :
    (all templates t).find? wanted = some found ↔
      found ∈ all templates t ∧ wanted found = true ∧
        ∀ other ∈ all templates t, wanted other = true → found.start ≤ other.start := by
  have hsorted : (all templates t).Pairwise fun a b => a.start < b.start := pairwise_allFrom h 0 0 t
  generalize all templates t = reports at *
  constructor
  · intro hfind
    obtain ⟨hwanted, earlier, later, rfl, hnone⟩ := List.find?_eq_some_iff_append.1 hfind
    refine ⟨by simp, hwanted, fun other hother hwant => ?_⟩
    rcases List.mem_append.1 hother with hearlier | hlater
    · have hnot := hnone other hearlier
      rw [hwant] at hnot
      cases hnot
    · rcases List.mem_cons.1 hlater with rfl | hlater
      · exact Nat.le_refl _
      · exact Nat.le_of_lt
          ((List.pairwise_cons.1 (List.pairwise_append.1 hsorted).2.1).1 other hlater)
  · rintro ⟨hmem, hwanted, hleft⟩
    obtain ⟨earlier, later, rfl⟩ := List.append_of_mem hmem
    refine List.find?_eq_some_iff_append.2 ⟨hwanted, earlier, later, rfl, fun other hother => ?_⟩
    have hlt := (List.pairwise_append.1 hsorted).2.2 other hother found List.mem_cons_self
    cases hwant : wanted other with
    | false => rfl
    | true =>
      have hle := hleft other (List.mem_append_left _ hother) hwant
      exact absurd hle (Nat.not_le_of_lt hlt)

end Search

/-! Templates that are told apart by the character they begin with. -/

def initial? : Template → Option Char
  | .literal (c :: _) :: _ => some c
  | _ => none

def letters : Template → Text
  | [] => []
  | .literal t :: parts => t ++ letters parts
  | _ :: parts => letters parts

theorem mem_of_spells {template : Template} {numbers : List Text} {w : Text}
    (hw : template.Spells numbers w) {c : Char} (hc : c ∈ w) :
    c ∈ template.letters ∨ isBlank c = true ∨ isDigit c = true := by
  induction template generalizing numbers w with
  | nil =>
    obtain ⟨-, rfl⟩ := hw
    cases hc
  | cons part parts ih =>
    cases part with
    | literal expected =>
      obtain ⟨w, rfl, hw⟩ := hw
      rcases List.mem_append.1 hc with hhere | hlater
      · exact .inl (List.mem_append_left _ hhere)
      · exact (ih hw hlater).imp_left (List.mem_append_right _)
    | blanks =>
      obtain ⟨s, w, rfl, hw⟩ := hw
      rcases List.mem_append.1 hc with hhere | hlater
      · exact .inr (.inl (List.all_eq_true.1 s.valid c hhere))
      · exact ih hw hlater
    | gap =>
      obtain ⟨g, w, rfl, hw⟩ := hw
      rcases List.mem_append.1 hc with hhere | hlater
      · exact .inr (.inl (List.all_eq_true.1 g.valid c hhere))
      · exact ih hw hlater
    | number =>
      obtain ⟨d, more, w, -, rfl, hw⟩ := hw
      rcases List.mem_append.1 hc with hhere | hlater
      · exact .inr (.inr (List.all_eq_true.1 d.valid c hhere))
      · exact ih hw hlater

/-- Whether the character that another template begins with stands at the beginning of what a
template spells, if at all. -/
def keepsOut (template other : Template) : Bool :=
  other.initial?.any fun c => c ∉ template.letters.tail && !isBlank c && !isDigit c

section Initial

variable {template other : Template} {c : Char} (h : template.initial? = some c)

include h

theorem exists_parts_of_initial? :
    ∃ expected parts, template = .literal (c :: expected) :: parts := by
  unfold initial? at h
  split at h
  next d expected parts =>
    obtain rfl := Option.some.inj h
    exact ⟨expected, parts, rfl⟩
  next => cases h

theorem match?_of_initial?_ne {d : Char} (hne : d ≠ c) (t : Text) :
    match? template (d :: t) = none := by
  obtain ⟨expected, parts, rfl⟩ := exists_parts_of_initial? h
  rw [match?, Text.after?, if_neg hne.symm]
  rfl

theorem exists_cons_of_initial? {numbers : List Text} {w : Text}
    (hw : template.Spells numbers w) :
    ∃ rest, w = c :: rest ∧ ∀ d ∈ rest, d ∈ template.letters.tail ∨ isBlank d = true ∨
      isDigit d = true := by
  obtain ⟨expected, parts, rfl⟩ := exists_parts_of_initial? h
  obtain ⟨w, rfl, hw⟩ := hw
  have hrest : Template.Spells (.literal expected :: parts) numbers (expected ++ w) := ⟨w, rfl, hw⟩
  exact ⟨expected ++ w, rfl, fun d hd => mem_of_spells hrest hd⟩

theorem match?_of_keepsOut (hout : template.keepsOut other = true) {numbers : List Text} {w : Text}
    (hw : template.Spells numbers w) {s : Text} (hs : s <:+ w) (hne : s ≠ []) (hinside : s ≠ w)
    (rest : Text) : match? other (s ++ rest) = none := by
  obtain ⟨initial, hinitial, hkept⟩ := (Option.any_eq_true _ _).1 hout
  simp only [Bool.and_eq_true, decide_eq_true_eq, Bool.not_eq_true'] at hkept
  obtain ⟨⟨hletter, hblank⟩, hdigit⟩ := hkept
  obtain ⟨w, rfl, hmem⟩ := exists_cons_of_initial? h hw
  obtain ⟨d, s, rfl⟩ := List.exists_cons_of_ne_nil hne
  have hd : d ∈ w :=
    ((List.suffix_cons_iff.1 hs).resolve_left hinside).subset List.mem_cons_self
  refine match?_of_initial?_ne hinitial ?_ (s ++ rest)
  rintro rfl
  rcases hmem d hd with hmem | hmem | hmem
  · exact hletter hmem
  · rw [hblank] at hmem
    cases hmem
  · rw [hdigit] at hmem
    cases hmem

end Initial

/-- Templates that begin with characters of their own, none of which stands further on in what they
spell, except where a template does not match. -/
theorem separate_of_initials {templates : List Template}
    (hdelimited : ∀ template ∈ templates, template.delimited = true)
    (hinitial : ∀ template ∈ templates, template.initial?.isSome = true)
    (hown : ∀ template ∈ templates, ∀ other ∈ templates,
      other.initial? = template.initial? → other = template)
    (hinside : ∀ template ∈ templates, ∀ other ∈ templates, template.keepsOut other = true ∨
      ∀ numbers w, template.Spells numbers w → ∀ s, s <:+ w → s ≠ [] → s ≠ w → ∀ rest,
        match? other (s ++ rest) = none) :
    Separate templates where
  delimited := hdelimited
  nonempty := by
    intro template hlisted numbers w hw
    obtain ⟨c, hc⟩ := Option.isSome_iff_exists.1 (hinitial template hlisted)
    obtain ⟨rest, rfl, -⟩ := exists_cons_of_initial? hc hw
    exact List.cons_ne_nil c rest
  alone := by
    intro template hlisted numbers w hw s hs hne other hother hdiffers rest
    obtain ⟨c, hc⟩ := Option.isSome_iff_exists.1 (hinitial template hlisted)
    by_cases hwhole : s = w
    · subst hwhole
      obtain ⟨d, hd⟩ := Option.isSome_iff_exists.1 (hinitial other hother)
      obtain ⟨w, rfl, -⟩ := exists_cons_of_initial? hc hw
      refine match?_of_initial?_ne hd (fun heq => ?_) (w ++ rest)
      have hsame := hown template hlisted other hother (by rw [hc, hd, heq])
      exact hdiffers.elim (fun hs => hs rfl) (fun hne => hne hsame)
    · rcases hinside template hlisted other hother with hout | hnone
      · exact match?_of_keepsOut hc hout hw hs hne hwhole rest
      · exact hnone numbers w hw s hs hne hwhole rest

end Template

end ScriptLens
