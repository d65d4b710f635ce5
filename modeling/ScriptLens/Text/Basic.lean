import ScriptLens.Text.Class

/-!
Texts as lists of characters, and the searches and cuts that the rest of the library is written
with. A byte offset counts the UTF-8 bytes before a place; `splitAt?` is the only way from an
offset back to a place, so an offset inside a character is never cut at.
-/

namespace ScriptLens

abbrev Text := List Char

namespace Text

def byteSize : Text → Nat
  | [] => 0
  | c :: t => c.utf8Size + byteSize t

@[simp] theorem byteSize_nil : byteSize [] = 0 := rfl

@[simp] theorem byteSize_cons (c : Char) (t : Text) :
    byteSize (c :: t) = c.utf8Size + byteSize t := rfl

@[simp] theorem byteSize_append (s t : Text) : byteSize (s ++ t) = byteSize s + byteSize t := by
  induction s with
  | nil => simp
  | cons c s ih => simp [ih, Nat.add_assoc]

theorem length_le_byteSize (t : Text) : t.length ≤ byteSize t := by
  induction t with
  | nil => simp
  | cons c t ih =>
    have := c.utf8Size_pos
    simp only [List.length_cons, byteSize_cons]
    omega

/-- Cuts a text at a byte offset; `none` past its end and inside a character. -/
def splitAt? : Nat → Text → Option (Text × Text)
  | 0, t => some ([], t)
  | _ + 1, [] => none
  | n + 1, c :: t =>
    if c.utf8Size ≤ n + 1 then
      (splitAt? (n + 1 - c.utf8Size) t).map fun (before, after) => (c :: before, after)
    else none

/-- The text between two byte offsets, if both fall between characters and are in order. -/
def slice? (t : Text) (start stop : Nat) : Option Text :=
  if start ≤ stop then
    (splitAt? start t).bind fun (_, rest) =>
      (splitAt? (stop - start) rest).map fun (middle, _) => middle
  else none

def after? : (start t : Text) → Option Text
  | [], t => some t
  | _ :: _, [] => none
  | c :: start, d :: t => if c = d then after? start t else none

theorem after?_eq_some_iff {start t rest : Text} :
    after? start t = some rest ↔ t = start ++ rest := by
  induction start generalizing t with
  | nil => simp [after?, eq_comm]
  | cons c start ih =>
    cases t with
    | nil => simp [after?]
    | cons d t =>
      by_cases h : c = d
      · simp [after?, h, ih]
      · simp [after?, h, Ne.symm h]

@[simp] theorem after?_append (start rest : Text) : after? start (start ++ rest) = some rest :=
  after?_eq_some_iff.2 rfl

def startsWith (start t : Text) : Bool :=
  (after? start t).isSome

def before? (tail t : Text) : Option Text :=
  (after? tail.reverse t.reverse).map List.reverse

def endsWith (tail t : Text) : Bool :=
  (before? tail t).isSome

def contains (part : Text) : Text → Bool
  | [] => part.isEmpty
  | c :: t => startsWith part (c :: t) || contains part t

def splitFirst? (stop : Char → Bool) : Text → Option (Text × Text)
  | [] => none
  | c :: t =>
    if stop c then some ([], t)
    else (splitFirst? stop t).map fun (before, after) => (c :: before, after)

theorem length_of_splitFirst? {p : Char → Bool} {t before after : Text}
    (h : splitFirst? p t = some (before, after)) : before.length + after.length + 1 = t.length := by
  induction t generalizing before after with
  | nil => simp [splitFirst?] at h
  | cons c t ih =>
    unfold splitFirst? at h
    split at h
    · simp only [Option.some.injEq, Prod.mk.injEq] at h
      simp [← h.1, ← h.2]
    · obtain ⟨⟨b, a⟩, hs, hb⟩ := Option.map_eq_some_iff.1 h
      simp only [Prod.mk.injEq] at hb
      have := ih hs
      simp only [← hb.1, ← hb.2, List.length_cons]
      omega

def splitLast? (stop : Char → Bool) (t : Text) : Option (Text × Text) :=
  (splitFirst? stop t.reverse).map fun (after, before) => (before.reverse, after.reverse)

/-- The pieces of a text between separators; a text without any is its own only piece. -/
def fields (separator : Char) : Text → List Text
  | [] => [[]]
  | c :: t =>
    if c = separator then [] :: fields separator t
    else match fields separator t with
      | [] => [[c]]
      | piece :: more => (c :: piece) :: more

def trimStart (t : Text) : Text :=
  t.dropWhile isBlank

def trimEndWhile (p : Char → Bool) (t : Text) : Text :=
  (t.reverse.dropWhile p).reverse

def trimEnd (t : Text) : Text :=
  trimEndWhile isBlank t

def trim (t : Text) : Text :=
  trimEnd (trimStart t)

def words : Text → List Text
  | [] => []
  | c :: t =>
    if isBlank c then words t
    else match t, words t with
      | d :: _, w :: more => if isBlank d then [c] :: w :: more else (c :: w) :: more
      | _, more => [c] :: more

def replaceFirst (old new : Text) : Text → Text
  | [] => if old.isEmpty then new else []
  | c :: t =>
    match after? old (c :: t) with
    | some rest => new ++ rest
    | none => c :: replaceFirst old new t

/-- The order of texts by code points, which is also the order of their UTF-8 bytes. -/
def le : Text → Text → Bool
  | [], _ => true
  | _ :: _, [] => false
  | a :: s, b :: t => a < b || (a == b && le s t)

def sortedDistinct (ts : List Text) : List Text :=
  (ts.mergeSort le).eraseReps

end Text

end ScriptLens
