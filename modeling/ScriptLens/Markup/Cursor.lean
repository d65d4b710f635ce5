import ScriptLens.Markup.Fault

/-!
A cursor is a place in a text: what follows it, and how many bytes precede it. Readers take
something off the front of what follows. `Reads` says that a reader only ever moves forward and
keeps the count of bytes; every reader of the library has it, and so has every composition.
-/

namespace ScriptLens.Markup

structure Cursor where
  offset : Nat
  rest : Text
  deriving DecidableEq, Repr

namespace Cursor

def past (s : Cursor) (taken rest : Text) : Cursor :=
  ⟨s.offset + taken.byteSize, rest⟩

def after? (s : Cursor) (start : Text) : Option Cursor :=
  (Text.after? start s.rest).map (s.past start)

def startsWith (s : Cursor) (start : Text) : Bool :=
  Text.startsWith start s.rest

def takeWhile (s : Cursor) (accepts : Char → Bool) : Text × Cursor :=
  let taken := s.rest.takeWhile accepts
  (taken, s.past taken (s.rest.dropWhile accepts))

def Reaches (s s' : Cursor) : Prop :=
  ∃ taken, s.rest = taken ++ s'.rest ∧ s'.offset = s.offset + Text.byteSize taken

namespace Reaches

theorem refl (s : Cursor) : s.Reaches s := ⟨[], by simp, by simp⟩

theorem trans {a b c : Cursor} (h : a.Reaches b) (h' : b.Reaches c) : a.Reaches c := by
  obtain ⟨u, hu, ho⟩ := h
  obtain ⟨v, hv, ho'⟩ := h'
  exact ⟨u ++ v, by simp [hu, hv], by simp [ho, ho']; omega⟩

theorem length_le {a b : Cursor} (h : a.Reaches b) : b.rest.length ≤ a.rest.length := by
  obtain ⟨u, hu, _⟩ := h
  simp [hu]

end Reaches

theorem reaches_past {s : Cursor} {taken rest : Text} (h : s.rest = taken ++ rest) :
    s.Reaches (s.past taken rest) := ⟨taken, h, rfl⟩

theorem reaches_of_after? {s s' : Cursor} {start : Text} (h : s.after? start = some s') :
    s.Reaches s' := by
  obtain ⟨rest, hr, rfl⟩ := Option.map_eq_some_iff.1 h
  exact reaches_past (Text.after?_eq_some_iff.1 hr)

theorem reaches_takeWhile (s : Cursor) (accepts : Char → Bool) :
    s.Reaches (s.takeWhile accepts).2 :=
  reaches_past (List.takeWhile_append_dropWhile ..).symm

end Cursor

abbrev Reader (α : Type) := StateT Cursor (Except Cause) α

def Reads {α : Type} (r : Reader α) : Prop :=
  ∀ ⦃s a s'⦄, r s = .ok (a, s') → s.Reaches s'

/-- A reader that takes at least one character when it succeeds. -/
def Consumes {α : Type} (r : Reader α) : Prop :=
  ∀ ⦃s a s'⦄, r s = .ok (a, s') → s.Reaches s' ∧ s'.rest.length < s.rest.length

section Composition

variable {α β : Type} {r : Reader α} {f : α → Reader β}

theorem bind_eq_ok {s s' : Cursor} {b : β} :
    (r >>= f) s = .ok (b, s') ↔ ∃ a t, r s = .ok (a, t) ∧ f a t = .ok (b, s') := by
  have hb : (r >>= f) s = Except.bind (r s) fun p => f p.1 p.2 := rfl
  rw [hb]
  cases h : r s with
  | error e => simp [Except.bind]
  | ok p =>
    constructor
    · intro h
      exact ⟨p.1, p.2, rfl, h⟩
    · rintro ⟨a, t, he, hf⟩
      cases he
      exact hf

theorem Reads.bind (hr : Reads r) (hf : ∀ a, Reads (f a)) : Reads (r >>= f) := by
  intro s b s' h
  obtain ⟨a, t, ha, hb⟩ := bind_eq_ok.1 h
  exact (hr ha).trans (hf a hb)

theorem Consumes.bind (hr : Consumes r) (hf : ∀ a, Reads (f a)) : Consumes (r >>= f) := by
  intro s b s' h
  obtain ⟨a, t, ha, hb⟩ := bind_eq_ok.1 h
  exact ⟨(hr ha).1.trans (hf a hb), Nat.lt_of_le_of_lt (hf a hb).length_le (hr ha).2⟩

theorem Reads.bind_consumes (hr : Reads r) (hf : ∀ a, Consumes (f a)) : Consumes (r >>= f) := by
  intro s b s' h
  obtain ⟨a, t, ha, hb⟩ := bind_eq_ok.1 h
  exact ⟨(hr ha).trans (hf a hb).1, Nat.lt_of_lt_of_le (hf a hb).2 (hr ha).length_le⟩

theorem Consumes.reads (hr : Consumes r) : Reads r :=
  fun _ _ _ h => (hr h).1

theorem Reads.pure (a : α) : Reads (Pure.pure a : Reader α) := by
  intro s b s' h
  cases h
  exact .refl s

end Composition

namespace Reader

def fail {α : Type} (cause : Cause) : Reader α :=
  fun _ => .error cause

def here : Reader Cursor :=
  fun s => .ok (s, s)

def takeWhile (accepts : Char → Bool) : Reader Text :=
  fun s => .ok (s.takeWhile accepts)

def skipSpaces : Reader Unit := do
  let _ ← takeWhile isSpace

def optional (expected : Text) : Reader Bool :=
  fun s => match s.after? expected with
    | some s' => .ok (true, s')
    | none => .ok (false, s)

def literal (expected : Text) : Reader Unit :=
  fun s => match s.after? expected with
    | some s' => .ok ((), s')
    | none => .error (.missing [expected] s.offset)

/-- Takes one character that is accepted; otherwise `cause` explains the byte found. -/
def one (accepts : Char → Bool) (cause : Char → Nat → Cause) : Reader Char :=
  fun s => match s.rest with
    | [] => .error .endOfText
    | c :: rest =>
      if accepts c then .ok (c, s.past [c] rest) else .error (cause (leadByte c) s.offset)

def char (expected : Char) : Reader Unit := do
  let _ ← one (· == expected) (.unexpected [expected])

def quote : Reader Char :=
  one isQuote .notQuote

def spaces : Reader Unit := do
  let _ ← one isSpace .notSpace
  skipSpaces

def equals : Reader Unit := do
  skipSpaces
  char '='
  skipSpaces

def spanUntil (stop : Text → Bool) : Text → Text × Text
  | [] => ([], [])
  | c :: t =>
    if stop (c :: t) then ([], c :: t)
    else
      let (taken, rest) := spanUntil stop t
      (c :: taken, rest)

/-- Whether the character in front may not stand in a document. -/
def atForbidden : Text → Bool
  | [] => false
  | c :: _ => !isAllowed c

/-- Takes characters up to the first place where `stop` holds; a character that may not stand in
a document is an error there and before. -/
def charsUntil (stop : Text → Bool) : Reader Text :=
  fun s =>
    let (taken, rest) := spanUntil (fun t => atForbidden t || stop t) s.rest
    match rest with
    | [] => .ok (taken, s.past taken rest)
    | c :: _ =>
      if isAllowed c then .ok (taken, s.past taken rest)
      else .error (.notAllowed c (s.past taken rest).offset)

def quotedBytes : Reader Text := do
  let q ← quote
  let value ← takeWhile (· != q)
  char q
  pure value

/-- Takes a name, which is empty at the end of the text only. -/
def nameOrEnd : Reader Text :=
  fun s => match s.rest with
    | [] => .ok ([], s)
    | c :: _ => if isNameStart c then .ok (s.takeWhile isNameChar) else .error .badName

def name : Reader Text := do
  let taken ← nameOrEnd
  if taken.isEmpty then fail .badName else pure taken

/-- A name with at most one prefix before a colon; an empty prefix is dropped with its colon. -/
def splitName : List Text → Option Text
  | [part] => if part.head?.any isNameStart then some part else none
  | [outer, part] =>
    if part.head?.any isNameStart && (outer.isEmpty || outer.head?.any isNameStart) then
      some (if outer.isEmpty then part else outer ++ ':' :: part)
    else none
  | _ => none

def qualifiedName : Reader Text := do
  let taken ← takeWhile isNameChar
  match splitName (taken.fields ':') with
  | some result => pure result
  | none => fail .badName

end Reader

namespace Reads

open Reader

variable {α : Type}

theorem fail (cause : Cause) : Reads (Reader.fail cause : Reader α) := by
  intro s a s' h
  cases h

theorem here : Reads Reader.here := by
  intro s a s' h
  cases h
  exact .refl s

theorem takeWhile (accepts : Char → Bool) : Reads (Reader.takeWhile accepts) := by
  intro s a s' h
  have he : s.takeWhile accepts = (a, s') := Except.ok.inj h
  simpa [he] using s.reaches_takeWhile accepts

theorem skipSpaces : Reads Reader.skipSpaces :=
  (takeWhile _).bind fun _ => .pure _

theorem optional (expected : Text) : Reads (Reader.optional expected) := by
  intro s a s' h
  unfold Reader.optional at h
  split at h
  next t ht => cases h; exact Cursor.reaches_of_after? ht
  next => cases h; exact .refl s

theorem literal (expected : Text) : Reads (Reader.literal expected) := by
  intro s a s' h
  unfold Reader.literal at h
  split at h
  next t ht => cases h; exact Cursor.reaches_of_after? ht
  next => cases h

theorem one (accepts : Char → Bool) (cause : Char → Nat → Cause) :
    Reads (Reader.one accepts cause) := by
  intro s a s' h
  unfold Reader.one at h
  split at h
  next => cases h
  next c rest hs =>
    split at h
    next => cases h; exact Cursor.reaches_past (by simp [hs])
    next => cases h

theorem char (expected : Char) : Reads (Reader.char expected) :=
  (one _ _).bind fun _ => .pure _

theorem quote : Reads Reader.quote := one _ _

theorem spaces : Reads Reader.spaces := (one _ _).bind fun _ => skipSpaces

theorem equals : Reads Reader.equals :=
  skipSpaces.bind fun _ => (char _).bind fun _ => skipSpaces

theorem append_spanUntil (stop : Text → Bool) (t : Text) :
    (spanUntil stop t).1 ++ (spanUntil stop t).2 = t := by
  induction t with
  | nil => rfl
  | cons c t ih => unfold spanUntil; split <;> simp [ih]

theorem charsUntil (stop : Text → Bool) : Reads (Reader.charsUntil stop) := by
  intro s a s' h
  have hs := append_spanUntil (fun t => atForbidden t || stop t) s.rest
  unfold Reader.charsUntil at h
  split at h
  next taken rest he =>
    rw [he] at hs
    split at h
    · cases h; exact Cursor.reaches_past hs.symm
    · split at h
      · cases h; exact Cursor.reaches_past hs.symm
      · cases h

theorem quotedBytes : Reads Reader.quotedBytes :=
  quote.bind fun _ => (takeWhile _).bind fun _ => (char _).bind fun _ => .pure _

theorem nameOrEnd : Reads Reader.nameOrEnd := by
  intro s a s' h
  unfold Reader.nameOrEnd at h
  split at h
  · cases h; exact .refl s
  · split at h
    · exact takeWhile isNameChar h
    · cases h

theorem name : Reads Reader.name :=
  nameOrEnd.bind fun _ => by
    split
    · exact fail _
    · exact .pure _

theorem qualifiedName : Reads Reader.qualifiedName :=
  (takeWhile _).bind fun _ => by
    split
    · exact .pure _
    · exact fail _

end Reads

namespace Consumes

theorem one (accepts : Char → Bool) (cause : Char → Nat → Cause) :
    Consumes (Reader.one accepts cause) := by
  intro s a s' h
  refine ⟨Reads.one accepts cause h, ?_⟩
  unfold Reader.one at h
  split at h
  next => cases h
  next c rest hs =>
    split at h
    next => cases h; simp [Cursor.past, hs]
    next => cases h

theorem char (expected : Char) : Consumes (Reader.char expected) :=
  (one _ _).bind fun _ => .pure _

theorem literal {expected : Text} (h : expected ≠ []) : Consumes (Reader.literal expected) := by
  intro s a s' hr
  refine ⟨Reads.literal expected hr, ?_⟩
  unfold Reader.literal at hr
  split at hr
  next t hs =>
    cases hr
    obtain ⟨rest, hrest, rfl⟩ := Option.map_eq_some_iff.1 hs
    have hs := congrArg List.length (Text.after?_eq_some_iff.1 hrest)
    have hp : 0 < expected.length := List.length_pos_iff.2 h
    simp only [List.length_append] at hs
    simp only [Cursor.past]
    omega
  next => cases hr

end Consumes

open Reader in
theorem length_lt_of_charsUntil {stop : Text → Bool} {s s' : Cursor} {c : Char} {t taken : Text}
    (hs : s.rest = c :: t) (hc : stop (c :: t) = false) (h : charsUntil stop s = .ok (taken, s')) :
    s'.rest.length < s.rest.length := by
  have ha := Reads.append_spanUntil (fun t => atForbidden t || stop t) s.rest
  cases hf : atForbidden (c :: t) with
  | true =>
    have hn : isAllowed c = false := by simpa [atForbidden] using hf
    simp [charsUntil, hs, spanUntil, hf, hn] at h
  | false =>
    unfold charsUntil at h
    rw [hs] at h ha
    simp only [spanUntil, hf, hc, Bool.or_self, Bool.false_eq_true, if_false] at h ha
    have hr : s'.rest = (spanUntil (fun t => atForbidden t || stop t) t).2 := by
      split at h
      · cases h; rfl
      · split at h
        · cases h; rfl
        · cases h
    have hl := congrArg List.length ha
    simp only [List.cons_append, List.length_cons, List.length_append] at hl
    rw [hr, hs]
    simp only [List.length_cons]
    omega

end ScriptLens.Markup
