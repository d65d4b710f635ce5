import ScriptLens.Markup.Token

/-!
The lexemes of a text: its tokens in order, with a fault wherever reading broke off. After a fault
reading takes up again at the next `<`, as in a fragment without a root element of its own, so every
text has lexemes to its end (`lexemes` is total because `next` always moves forward).
-/

namespace ScriptLens.Markup

inductive Stage where
  | start
  | declaration
  | prolog
  | doctype
  | beforeRoot
  | content
  | tag
  | afterRoot
  deriving DecidableEq, Repr

/-- The stages that can be left without taking a character come before the others. -/
def Stage.rank : Stage → Nat
  | .start => 3
  | .declaration => 2
  | .prolog => 1
  | _ => 0

structure Mode where
  stage : Stage
  /-- The number of open elements. -/
  depth : Nat
  /-- A fragment may have any number of elements at its top. -/
  fragment : Bool
  deriving DecidableEq, Repr

namespace Mode

def document : Mode := ⟨.start, 0, false⟩

def resumed : Mode := ⟨.content, 0, true⟩

def enter (m : Mode) (stage : Stage) : Mode := { m with stage }

def leave (m : Mode) : Mode :=
  m.enter (if m.depth = 0 && !m.fragment then .afterRoot else .content)

def tagClosed (m : Mode) : Mode := { m with depth := m.depth - 1 }.leave

def afterPart (m : Mode) : Token → Mode
  | .tagEnd => { m with depth := m.depth + 1 }.leave
  | .emptyTagEnd => m.leave
  | _ => m

end Mode

/-- One attempt at a token: a token, something that leaves none, or a fault. -/
inductive Step where
  | skip (m : Mode) (s : Cursor)
  | token (t : Token) (m : Mode) (s : Cursor)
  | fail (f : Fault)

/-- Reads one construct; its faults count from where the attempt began. -/
def Step.reading {α : Type} (construct : Construct) (s : Cursor) (r : Reader α) (token : α → Token)
    (mode : α → Mode) : Step :=
  match r s with
  | .ok (a, s') => .token (token a) (mode a) s'
  | .error cause => .fail (.invalid construct cause s.offset)

/-- Comments and instructions, which may stand between all other things. -/
def aside? (m : Mode) (s : Cursor) : Option Step :=
  if s.startsWith "<!--".toList then
    some (.reading .comment s .comment (fun _ => .aside) fun _ => m)
  else if s.startsWith "<?xml ".toList then some (.fail (.unknown s.offset))
  else if s.startsWith "<?".toList then
    some (.reading .instruction s .instruction (fun _ => .aside) fun _ => m)
  else none

def gap? (m : Mode) (s : Cursor) : Option Step :=
  match s.rest with
  | [] => none
  | c :: rest =>
    if isSpace c then
      some (.skip m ((s.past [c] rest).takeWhile isSpace).2)
    else none

def tagStep (m : Mode) (s : Cursor) : Step :=
  .reading .element s .tagStart id fun _ => m.enter .tag

namespace Stage

def prologStep (m : Mode) (s : Cursor) : Step :=
  if s.startsWith "<!DOCTYPE".toList then
    .reading .doctype s .doctype (fun _ => .aside) fun opened =>
      m.enter (if opened then .doctype else .beforeRoot)
  else (aside? m s <|> gap? m s).getD (.skip (m.enter .beforeRoot) s)

def opaqueDeclarations : List Text :=
  ["<!ELEMENT".toList, "<!ATTLIST".toList, "<!NOTATION".toList]

def doctypeStep (m : Mode) (s : Cursor) : Step :=
  if s.startsWith "<!ENTITY".toList then
    .reading .entity s .entity (fun _ => .aside) fun _ => m
  else if s.startsWith "]".toList then
    .reading .doctype s .doctypeEnd (fun _ => .aside) fun _ => m.enter .beforeRoot
  else if opaqueDeclarations.any s.startsWith then
    match Reader.opaqueDeclaration s with
    | .ok (_, s') => .skip m s'
    | .error _ => .fail (.unknown s.offset)
  else (aside? m s <|> gap? m s).getD (.fail (.unknown s.offset))

def beforeRootStep (m : Mode) (s : Cursor) : Step :=
  (aside? m s <|> gap? m s).getD <|
    if s.startsWith "<".toList && !s.startsWith "<!".toList then tagStep m s
    else .fail (.unknown s.offset)

def contentStep (m : Mode) (s : Cursor) : Step :=
  (aside? m s).getD <|
    if s.startsWith "<![CDATA[".toList then .reading .cdata s .cdata .cdata fun _ => m
    else if s.startsWith "<!".toList then .fail (.unknown s.offset)
    else if s.startsWith "</".toList then .reading .element s .closeTag id fun _ => m.tagClosed
    else if s.rest = ['<'] then .fail (.unknown s.offset)
    else if s.startsWith "<".toList then tagStep m s
    else .reading .text s .text id fun _ => m

def afterRootStep (m : Mode) (s : Cursor) : Step :=
  (aside? m s <|> gap? m s).getD (.fail (.unknown s.offset))

end Stage

/-- A byte order mark, which only a whole document may begin with. -/
def byteOrderMark : Text := ['\uFEFF']

def step (m : Mode) (s : Cursor) : Step :=
  match m.stage with
  | .start => .skip (m.enter .declaration) ((s.after? byteOrderMark).getD s)
  | .declaration =>
    if s.startsWith "<?xml ".toList then
      .reading .declaration s .declaration (fun _ => .aside) fun _ => m.enter .prolog
    else .skip (m.enter .prolog) s
  | .prolog => Stage.prologStep m s
  | .doctype => Stage.doctypeStep m s
  | .beforeRoot => Stage.beforeRootStep m s
  | .content => Stage.contentStep m s
  | .tag => .reading .attribute s .tagPart id m.afterPart
  | .afterRoot => Stage.afterRootStep m s

/-! Every attempt that succeeds takes at least one character, or moves on to a later stage. -/

/-- What is still ahead, and the stages that can be passed without taking any of it. -/
def ahead (m : Mode) (s : Cursor) : Nat :=
  4 * s.rest.length + m.stage.rank

theorem Stage.rank_le (stage : Stage) : stage.rank ≤ 3 := by
  cases stage <;> decide

namespace Step

def Advances (m : Mode) (s : Cursor) : Step → Prop
  | .skip m' s' => s.Reaches s' ∧ ahead m' s' < ahead m s
  | .token _ _ s' => s.Reaches s' ∧ s'.rest.length < s.rest.length
  | .fail _ => True

variable {m : Mode} {s : Cursor}

theorem reading_advances {α : Type} {construct : Construct} {r : Reader α} {token : α → Token}
    {mode : α → Mode} (hr : Consumes r) : (reading construct s r token mode).Advances m s := by
  unfold reading
  split
  next a s' h => exact hr h
  next => trivial

theorem fail_advances {f : Fault} : (fail f).Advances m s := trivial

theorem skip_shorter_advances {m' : Mode} {s' : Cursor} (hs : s.Reaches s')
    (h : s'.rest.length < s.rest.length) : (skip m' s').Advances m s := by
  refine ⟨hs, ?_⟩
  have := m'.stage.rank_le
  simp only [ahead]
  omega

theorem skip_stage_advances {m' : Mode} {s' : Cursor} (hs : s.Reaches s')
    (h : m'.stage.rank < m.stage.rank) : (skip m' s').Advances m s := by
  refine ⟨hs, ?_⟩
  have := hs.length_le
  simp only [ahead]
  omega

theorem of_ite {P : Step → Prop} {c : Prop} [Decidable c] {a b : Step} (ha : P a) (hb : P b) :
    P (if c then a else b) := by
  split
  · exact ha
  · exact hb

theorem of_getD {P : Step → Prop} {o : Option Step} {other : Step}
    (ho : ∀ step, o = some step → P step) (h : P other) : P (o.getD other) := by
  cases o with
  | none => exact h
  | some step => exact ho step rfl

theorem aside_cases {step : Step} (h : aside? m s = some step) :
    step = .reading .comment s .comment (fun _ => .aside) (fun _ => m) ∨
      step = .fail (.unknown s.offset) ∨
      step = .reading .instruction s .instruction (fun _ => .aside) fun _ => m := by
  unfold aside? at h
  split at h
  · cases h; exact .inl rfl
  · split at h
    · cases h; exact .inr (.inl rfl)
    · split at h
      · cases h; exact .inr (.inr rfl)
      · cases h

theorem gap_cases {step : Step} (h : gap? m s = some step) :
    ∃ s' : Cursor, s.Reaches s' ∧ s'.rest.length < s.rest.length ∧ step = .skip m s' := by
  unfold gap? at h
  split at h
  next => cases h
  next c rest hs =>
    split at h
    next =>
      cases h
      have hp : s.Reaches (s.past [c] rest) := Cursor.reaches_past (by simp [hs])
      have ht := (s.past [c] rest).reaches_takeWhile isSpace
      refine ⟨_, hp.trans ht, Nat.lt_of_le_of_lt ht.length_le ?_, rfl⟩
      simp [Cursor.past, hs]
    next => cases h

theorem aside_or_gap {step : Step} (h : (aside? m s <|> gap? m s) = some step) :
    aside? m s = some step ∨ gap? m s = some step := by
  cases ha : aside? m s with
  | none => exact .inr (by simpa [ha] using h)
  | some step' => exact .inl (by simpa [ha] using h)

theorem aside_advances {step : Step} (h : aside? m s = some step) : step.Advances m s := by
  rcases aside_cases h with rfl | rfl | rfl
  · exact reading_advances .comment
  · exact fail_advances
  · exact reading_advances .instruction

theorem aside_or_gap_advances {step : Step} (h : (aside? m s <|> gap? m s) = some step) :
    step.Advances m s := by
  rcases aside_or_gap h with ha | hg
  · exact aside_advances ha
  · obtain ⟨s', hreaches, hshorter, rfl⟩ := gap_cases hg
    exact skip_shorter_advances hreaches hshorter

end Step

open Step in
theorem Stage.contentStep_advances {m : Mode} {s : Cursor} (hs : s.rest ≠ []) :
    (contentStep m s).Advances m s := by
  refine of_getD (fun _ => aside_advances) ?_
  refine of_ite (reading_advances .cdata) (of_ite fail_advances
    (of_ite (reading_advances .closeTag) (of_ite fail_advances ?_)))
  split
  next => exact reading_advances .tagStart
  next h =>
    obtain ⟨c, t, hct⟩ := List.exists_cons_of_ne_nil hs
    have hc : Reader.atTag (c :: t) = false := by
      by_cases hl : c = '<'
      · simp [Cursor.startsWith, Text.startsWith, hct, Text.after?, hl] at h
      · simp [Reader.atTag, hl]
    unfold reading
    split
    next a s' hr =>
      refine ⟨Reads.text hr, ?_⟩
      obtain ⟨taken, s'', hu, hp⟩ := bind_eq_ok.1 hr
      split at hp
      · cases hp
      · cases hp
        exact length_lt_of_charsUntil hct hc hu
    next => trivial

open Step in
theorem step_advances {m : Mode} {s : Cursor} (hs : s.rest ≠ []) : (step m s).Advances m s := by
  unfold step
  split
  next h =>
    have hm : s.Reaches ((s.after? byteOrderMark).getD s) := by
      cases ha : s.after? byteOrderMark with
      | none => exact .refl s
      | some s' => exact Cursor.reaches_of_after? ha
    exact skip_stage_advances hm (by simp [Mode.enter, h, Stage.rank])
  next h =>
    exact of_ite (reading_advances .declaration)
      (skip_stage_advances (.refl s) (by simp [Mode.enter, h, Stage.rank]))
  next h =>
    exact of_ite (reading_advances .doctype) (of_getD (fun _ => aside_or_gap_advances)
      (skip_stage_advances (.refl s) (by simp [Mode.enter, h, Stage.rank])))
  next =>
    refine of_ite (reading_advances .entity) (of_ite (reading_advances .doctypeEnd) ?_)
    split
    · split
      next s' hr =>
        exact skip_shorter_advances (Consumes.opaqueDeclaration hr).1
          (Consumes.opaqueDeclaration hr).2
      next => trivial
    · exact of_getD (fun _ => aside_or_gap_advances) fail_advances
  next =>
    exact of_getD (fun _ => aside_or_gap_advances)
      (of_ite (reading_advances .tagStart) fail_advances)
  next => exact Stage.contentStep_advances hs
  next => exact reading_advances .tagPart
  next => exact of_getD (fun _ => aside_or_gap_advances) fail_advances

inductive Next where
  | token (t : Token) (m : Mode) (s : Cursor)
  | fail (f : Fault)
  | finish

def next (m : Mode) (s : Cursor) : Next :=
  if _hs : s.rest = [] then .finish
  else match _h : step m s with
    | .skip m' s' => next m' s'
    | .token t m' s' => .token t m' s'
    | .fail f => .fail f
termination_by ahead m s
decreasing_by
  have ha := step_advances (m := m) _hs
  rw [_h] at ha
  exact ha.2

theorem next_token {m m' : Mode} {s s' : Cursor} {t : Token} (h : next m s = .token t m' s') :
    s.Reaches s' ∧ s'.rest.length < s.rest.length := by
  fun_induction next m s with
  | case1 => cases h
  | case2 m s hs m₁ s₁ hstep ih =>
    have ha := step_advances (m := m) hs
    rw [hstep] at ha
    have ih := ih h
    exact ⟨ha.1.trans ih.1, Nat.lt_of_lt_of_le ih.2 ha.1.length_le⟩
  | case3 m s hs t₁ m₁ s₁ hstep =>
    have ha := step_advances (m := m) hs
    rw [hstep] at ha
    cases h
    exact ha
  | case4 => cases h

theorem next_fail {m : Mode} {s : Cursor} {f : Fault} (h : next m s = .fail f) : s.rest ≠ [] := by
  intro hs
  unfold next at h
  simp [hs] at h

/-- A part of a text and its end: a token, or what was skipped after a fault. -/
inductive Lexeme where
  | token (t : Token) (stop : Nat)
  | fault (f : Fault) (skipped : Text) (stop : Nat)
  deriving DecidableEq, Repr

namespace Cursor

/-- What is skipped after a fault: the first character, and all up to the next `<`. -/
def skipped (s : Cursor) : Text :=
  match s.rest with
  | [] => []
  | c :: t => c :: t.takeWhile (· != '<')

def resumption (s : Cursor) : Cursor :=
  s.past s.skipped (s.rest.drop s.skipped.length)

theorem length_resumption_lt {s : Cursor} (hs : s.rest ≠ []) :
    s.resumption.rest.length < s.rest.length := by
  obtain ⟨c, t, hct⟩ := List.exists_cons_of_ne_nil hs
  simp only [resumption, past, skipped, hct, List.length_cons, List.drop_succ_cons,
    List.length_drop]
  omega

end Cursor

def lexemesFrom (m : Mode) (s : Cursor) : List Lexeme :=
  match _h : next m s with
  | .finish => []
  | .token t m' s' => .token t s'.offset :: lexemesFrom m' s'
  | .fail f => .fault f s.skipped s.resumption.offset :: lexemesFrom .resumed s.resumption
termination_by s.rest.length
decreasing_by
  · exact (next_token _h).2
  · exact Cursor.length_resumption_lt (next_fail _h)

def lexemes (document : Text) : List Lexeme :=
  lexemesFrom .document ⟨0, document⟩

end ScriptLens.Markup
