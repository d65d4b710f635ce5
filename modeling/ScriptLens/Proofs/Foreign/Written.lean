import ScriptLens.Proofs.Foreign.Words

/-!
Declarations as they are written, a line each or a type with a body on several lines, and how they
are read. A type with a body ends at its closing line, so the next declaration is read as if it were
the first.
-/

namespace ScriptLens

namespace Foreign

open Declaration

def typedefWord : Text := "typedef".toList

structure Synonym where
  first : Gap
  type : Word
  second : Gap
  name : Word

def Synonym.line (s : Synonym) : Text :=
  typedefWord ++ (s.first.text ++ (s.type.text ++ (s.second.text ++ (s.name.text ++ [';']))))

inductive BodyKind where
  | struct
  | enum
  | union
  deriving DecidableEq, Repr

def BodyKind.word : BodyKind → Word
  | struct => ⟨"struct".toList, by decide, by decide⟩
  | enum => ⟨"enum".toList, by decide, by decide⟩
  | union => ⟨"union".toList, by decide, by decide⟩

def closing (gap : Gap) (name : Word) : Text :=
  '\x7d' :: (gap.text ++ (name.text ++ [';']))

structure FieldLine where
  text : Text
  notTypedef : Text.startsWith typedefWord text = false
  notClosing : ∀ gap name, text ≠ closing gap name

structure Body where
  first : Gap
  kind : BodyKind
  second : Gap
  fields : List FieldLine
  third : Gap
  name : Word

namespace Body

def opening (b : Body) : Text :=
  typedefWord ++ (b.first.text ++ (b.kind.word.text ++ (b.second.text ++ ['\x7b'])))

def lines (b : Body) : List Text :=
  b.opening :: (b.fields.map (·.text) ++ [closing b.third b.name])

def content (b : Body) : Text :=
  List.intercalate [' '] b.lines

end Body

structure Prototype where
  /-- Words, stars and spaces. -/
  result : Text
  nonempty : result ≠ []
  valid : result.all isSignaturePart = true
  trimmed : result.IsTrimmed
  notTypedef : Text.startsWith typedefWord result = false
  gap : Gap
  name : Word
  /-- White space before the parameters, perhaps none. -/
  space : Text
  blank : space.all isBlank = true
  parameters : Text

def Prototype.line (p : Prototype) : Text :=
  p.result ++ (p.gap.text ++ (p.name.text ++
    (p.space ++ '(' :: (p.parameters ++ ");".toList))))

inductive Written where
  | synonym (s : Synonym)
  | body (b : Body)
  | prototype (p : Prototype)

namespace Written

def lines : Written → List Text
  | .synonym s => [s.line]
  | .body b => b.lines
  | .prototype p => [p.line]

def declaration : Written → Declaration
  | .synonym s => .typedef s.name.text s.line
  | .body b => .typedef b.name.text b.content
  | .prototype p => .prototype p.result p.name.text p.parameters

end Written

/-! Type declarations. -/

theorem typeName?_eq (t : Text) :
    typeName? t = ((Text.after? typedefWord t).bind afterGap?).bind fun rest =>
      ((afterWord? rest).bind afterGap?).bind fun rest => terminated? (afterBody rest) := rfl

theorem typeName?_typedef (first : Gap) (type : Word) (second : Gap) {tail : Text}
    (h : Stops isBlank tail) :
    typeName? (typedefWord ++ (first.text ++ (type.text ++ (second.text ++ tail)))) =
      terminated? (afterBody tail) := by
  rw [typeName?_eq, Text.after?_append, Option.bind_some,
    afterGap?_gap first (type.stops_isBlank _), Option.bind_some,
    afterWord?_word type (second.stops_isWordPart _), Option.bind_some, afterGap?_gap second h,
    Option.bind_some]

theorem afterBody_word (w : Word) (rest : Text) : afterBody (w.text ++ rest) = w.text ++ rest := by
  rw [afterBody, w.after?_eq_none (isWordPart_of_punctuation _ (by decide))]

/-- A body ends at the last brace. -/
theorem afterBody_body (inside : Text) {rest : Text} (h : '\x7d' ∉ rest) :
    afterBody ('\x7b' :: (inside ++ '\x7d' :: rest)) = Text.trimStart rest := by
  have hlast : Text.splitLast? (· == '\x7d') (inside ++ '\x7d' :: rest) = some (inside, rest) :=
    Text.splitLast?_append inside
      (fun d hd => beq_false_of_ne fun heq => h (heq ▸ hd)) rfl
  have hbrace : Text.after? ['\x7b'] ('\x7b' :: (inside ++ '\x7d' :: rest)) =
      some (inside ++ '\x7d' :: rest) := Text.after?_append ['\x7b'] _
  simp only [afterBody, hbrace, hlast, Option.map_some, Option.getD_some]

theorem typeName?_synonym (s : Synonym) : typeName? s.line = some s.name.text := by
  have hname := typeName?_typedef s.first s.type s.second (s.name.stops_isBlank [';'])
  rw [afterBody_word, terminated?_word] at hname
  exact hname

theorem typeName?_body (b : Body) : typeName? b.content = some b.name.text := by
  have hcontent : ∃ inside, b.content = typedefWord ++ (b.first.text ++ (b.kind.word.text ++
      (b.second.text ++ '\x7b' :: (inside ++ closing b.third b.name)))) := by
    refine ⟨[' '] ++ (b.fields.map (·.text)).flatMap (· ++ [' ']), ?_⟩
    rw [Body.content, Body.lines, ← List.cons_append, Text.intercalate_concat]
    simp only [Body.opening, List.flatMap_cons, List.append_assoc, List.cons_append,
      List.nil_append]
  obtain ⟨inside, hcontent⟩ := hcontent
  have hrest : '\x7d' ∉ b.third.text ++ (b.name.text ++ [';']) := by
    have hgap : '\x7d' ∉ b.third.text := b.third.not_mem (by decide)
    have hname : '\x7d' ∉ b.name.text :=
      b.name.not_mem (isWordPart_of_punctuation _ (by decide))
    simp [hgap, hname]
  have hbrace : Stops isBlank ('\x7b' :: (inside ++ closing b.third b.name)) :=
    stops_cons.2 (by decide)
  have hname := typeName?_typedef b.first b.kind.word b.second hbrace
  rw [closing, afterBody_body inside hrest, b.third.trimStart_append (b.name.stops_isBlank _),
    terminated?_word] at hname
  rw [hcontent]
  exact hname

def bodyOpening (kind : BodyKind) : Template :=
  [.literal typedefWord, .gap, .literal kind.word.text, .blanks, .literal ['\x7b'], .blanks]

theorem opensBody_eq (line : Text) :
    opensBody line =
      [BodyKind.struct, .enum, .union].any fun kind => (bodyOpening kind).matchesAll line := rfl

theorem opensBody_opening (b : Body) : opensBody b.opening = true := by
  have hbrace : Stops isBlank ['\x7b'] := stops_cons.2 (by decide)
  have hmatch : (bodyOpening b.kind).matchesAll b.opening = true := by
    rw [Template.matchesAll, bodyOpening, Body.opening, Template.match?, Text.after?_append,
      Option.bind_some, Template.match?, if_pos (head?_of_all b.first.nonempty b.first.valid _),
      b.first.trimStart_append (b.kind.word.stops_isBlank _), Template.match?, Text.after?_append,
      Option.bind_some, Template.match?, b.second.trimStart_append hbrace]
    rfl
  rw [opensBody_eq, List.any_eq_true]
  exact ⟨b.kind, by cases b.kind <;> simp, hmatch⟩

/-! Lines that begin no type declaration. -/

section NotTypedef

variable {line : Text} (h : Text.startsWith typedefWord line = false)

include h

theorem after?_typedefWord : Text.after? typedefWord line = none := by
  simpa [Text.startsWith] using h

theorem typeName?_of_not_typedef : typeName? line = none := by
  rw [typeName?_eq, after?_typedefWord h]
  rfl

theorem opensBody_of_not_typedef : opensBody line = false := by
  rw [opensBody_eq, List.any_eq_false]
  intro kind _
  rw [Template.matchesAll, bodyOpening, Template.match?, after?_typedefWord h]
  exact Bool.false_ne_true

end NotTypedef

theorem FieldLine.closesBody (f : FieldLine) : closesBody f.text = false := by
  refine Bool.eq_false_iff.2 fun h => ?_
  obtain ⟨gap, name, hclosing⟩ := closesBody_iff.1 h
  exact f.notClosing gap name hclosing

/-! The lines of a type with a body, one after another. -/

section Lines

variable {opened : List Text} {line name : Text} (rest : List Text)

theorem typedef?_of_typeName? (h : typeName? line = some name) :
    typedef? line = some (.typedef name line) := by
  rw [typedef?, h, Option.map_some]

theorem ofLines_single (h : typeName? line = some name) :
    ofLines [] (line :: rest) = .typedef name line :: ofLines [] rest := by
  cases hopens : opensBody line <;> simp [ofLines, h, hopens, typedef?_of_typeName? h]

theorem ofLines_opening (hopens : opensBody line = true) (hcloses : closesBody line = false)
    (hname : typeName? line = none) : ofLines [] (line :: rest) = ofLines [line] rest := by
  simp [ofLines, hopens, hcloses, hname]

theorem ofLines_field (hopened : opened ≠ []) (hcloses : closesBody line = false)
    (hname : typeName? line = none) :
    ofLines opened (line :: rest) = ofLines (opened ++ [line]) rest := by
  simp [ofLines, hopened, hcloses, hname]

theorem ofLines_closing (hopened : opened ≠ []) (hcloses : closesBody line = true) :
    ofLines opened (line :: rest) =
      (typedef? (List.intercalate [' '] (opened ++ [line]))).toList ++ ofLines [] rest := by
  simp [ofLines, hopened, hcloses]

theorem ofLines_prototype (hopens : opensBody line = false) (hname : typeName? line = none) :
    ofLines [] (line :: rest) = (prototype? line).toList ++ ofLines [] rest := by
  simp [ofLines, hopens, hname]

theorem ofLines_fields (hopened : opened ≠ []) (fields : List FieldLine) :
    ofLines opened (fields.map (·.text) ++ rest) =
      ofLines (opened ++ fields.map (·.text)) rest := by
  induction fields generalizing opened with
  | nil => simp
  | cons f fields ih =>
    rw [List.map_cons, List.cons_append,
      ofLines_field _ hopened f.closesBody (typeName?_of_not_typedef f.notTypedef),
      ih (List.append_ne_nil_of_right_ne_nil opened (List.cons_ne_nil _ _)), List.append_assoc,
      List.singleton_append]

end Lines

theorem closesBody_opening (b : Body) : closesBody b.opening = false := by
  refine Bool.eq_false_iff.2 fun h => ?_
  obtain ⟨gap, name, hclosing⟩ := closesBody_iff.1 h
  cases hclosing

theorem typeName?_opening (b : Body) : typeName? b.opening = none := by
  have hbrace : Stops isBlank ['\x7b'] := stops_cons.2 (by decide)
  rw [Body.opening, typeName?_typedef b.first b.kind.word b.second hbrace]
  rfl

/-- A type with a body is read from its lines, and none of it is left open. -/
theorem ofLines_body (b : Body) (rest : List Text) :
    ofLines [] (b.lines ++ rest) = .typedef b.name.text b.content :: ofLines [] rest := by
  have hcloses : closesBody (closing b.third b.name) = true :=
    closesBody_iff.2 ⟨b.third, b.name, rfl⟩
  have hopened : [b.opening] ++ b.fields.map (·.text) ≠ [] := List.cons_ne_nil _ _
  have hcontent : List.intercalate [' '] ([b.opening] ++ b.fields.map (·.text) ++
      [closing b.third b.name]) = b.content := by
    rw [Body.content, Body.lines, List.append_assoc, List.singleton_append]
  rw [Body.lines, List.cons_append, List.append_assoc, List.singleton_append,
    ofLines_opening _ (opensBody_opening b) (closesBody_opening b) (typeName?_opening b),
    ofLines_fields _ (List.cons_ne_nil _ _), ofLines_closing _ hopened hcloses, hcontent,
    typedef?_of_typeName? (typeName?_body b)]
  rfl

/-! Prototypes. -/

theorem resultType?_gap {result : Text} (hne : result ≠ []) (h : result.IsTrimmed) (g : Gap) :
    resultType? (result ++ g.text) = some result := by
  obtain ⟨c, more, hgap⟩ := List.exists_cons_of_ne_nil g.reversed.nonempty
  obtain ⟨hc, hmore⟩ : isBlank c = true ∧ more.all isBlank = true := by
    have hvalid := g.reversed.valid
    rwa [hgap, List.all_cons, Bool.and_eq_true] at hvalid
  obtain ⟨d, before, hbefore⟩ := List.exists_cons_of_ne_nil
    (List.append_ne_nil_of_right_ne_nil more (List.reverse_ne_nil_iff.2 hne))
  have hreverse : (result ++ g.text).reverse = c :: d :: before := by
    rw [List.reverse_append, ← hbefore, ← List.cons_append, ← hgap]
    rfl
  have htrim : Text.trim (d :: before).reverse = result := by
    rw [← hbefore, List.reverse_append, List.reverse_reverse,
      Text.trim_append_right result (by rwa [List.all_reverse]), Text.trim_of_isTrimmed h]
  obtain ⟨r, rest, hresult⟩ := List.exists_cons_of_ne_nil hne
  rw [resultType?, hreverse]
  simp only [hc, if_true, htrim, hresult]

theorem trimEnd_word (s : Text) (w : Word) : Text.trimEnd (s ++ w.text) = s ++ w.text := by
  have hstops := w.reversed.stops_isBlank s.reverse
  have hreverse : (s ++ w.text).reverse = w.reversed.text ++ s.reverse := List.reverse_append
  have hkept : (s ++ w.text).reverse.dropWhile isBlank = (s ++ w.text).reverse := by
    rw [hreverse]
    exact dropWhile_of_stops (t := []) rfl hstops
  rw [Text.trimEnd, Text.trimEndWhile, hkept, List.reverse_reverse]

def Prototype.signature (p : Prototype) : Text :=
  p.result ++ p.gap.text ++ p.name.text

theorem all_isSignaturePart (p : Prototype) :
    (p.signature ++ p.space).all isSignaturePart = true := by
  have hall : ∀ {t : Text} {accepts : Char → Bool}, t.all accepts = true →
      (∀ c, accepts c = true → isSignaturePart c = true) → t.all isSignaturePart = true :=
    fun h hpart => List.all_eq_true.2 fun c hc => hpart c (List.all_eq_true.1 h c hc)
  have hblank : ∀ c, isBlank c = true → isSignaturePart c = true := by
    intro c hc
    simp [isSignaturePart, hc]
  have hword : ∀ c, isWordPart c = true → isSignaturePart c = true := by
    intro c hc
    simp [isSignaturePart, hc]
  simp only [Prototype.signature, List.all_append, Bool.and_eq_true]
  exact ⟨⟨⟨p.valid, hall p.gap.valid hblank⟩, hall p.name.valid hword⟩, hall p.blank hblank⟩

theorem prototype?_line (p : Prototype) :
    prototype? p.line = some (.prototype p.result p.name.text p.parameters) := by
  have hline : p.line = p.signature ++ p.space ++ '(' :: (p.parameters ++ ");".toList) := by
    simp only [Prototype.line, Prototype.signature, List.append_assoc]
  have hparenthesis : isSignaturePart '(' = false := by
    rw [isSignaturePart, isWordPart_of_punctuation '(' (by decide)]
    decide
  have hstops : Stops isSignaturePart ('(' :: (p.parameters ++ ");".toList)) :=
    stops_cons.2 hparenthesis
  have hopening : Text.after? ['('] ('(' :: (p.parameters ++ ");".toList)) =
      some (p.parameters ++ ");".toList) := Text.after?_append ['('] _
  have hparameters : Text.before? ");".toList (p.parameters ++ ");".toList) = some p.parameters :=
    Text.before?_eq_some_iff.2 rfl
  have hsignature : Text.trimEnd (p.signature ++ p.space) = p.signature := by
    rw [Text.trimEnd_append _ p.blank]
    exact trimEnd_word _ p.name
  have hvalid := all_isSignaturePart p
  rw [prototype?, hline, dropWhile_of_stops hvalid hstops, takeWhile_of_stops hvalid hstops,
    hopening, Option.bind_some, hparameters, Option.bind_some, hsignature]
  -- The name is the last word of the signature.
  have hreverse : p.signature.reverse = p.name.reversed.text ++ (p.result ++ p.gap.text).reverse :=
    List.reverse_append
  have hgap : Stops isWordPart (p.result ++ p.gap.text).reverse := by
    rw [List.reverse_append]
    exact p.gap.reversed.stops_isWordPart _
  have hname : (p.signature.reverse.takeWhile isWordPart).reverse = p.name.text := by
    rw [hreverse, takeWhile_of_stops p.name.reversed.valid hgap]
    exact List.reverse_reverse _
  have hresult : (p.signature.reverse.dropWhile isWordPart).reverse = p.result ++ p.gap.text := by
    rw [hreverse, dropWhile_of_stops p.name.reversed.valid hgap, List.reverse_reverse]
  have hnonempty : p.name.text.isEmpty = false := List.isEmpty_eq_false_iff.2 p.name.nonempty
  simp only [hname, hresult, hnonempty, resultType?_gap p.nonempty p.trimmed, Bool.false_eq_true,
    if_false, Option.map_some]

/-- White space ends a keyword, so a line does not begin with one if what stands before does not. -/
theorem startsWith_gap {start t : Text} (hstart : start.all (fun c => !isBlank c) = true) (g : Gap)
    (rest : Text) (h : Text.startsWith start t = false) :
    Text.startsWith start (t ++ (g.text ++ rest)) = false := by
  induction start generalizing t with
  | nil => simp at h
  | cons c start ih =>
    obtain ⟨hc, hmore⟩ := Bool.and_eq_true_iff.1 hstart
    cases t with
    | nil =>
      obtain ⟨d, gap, hgap⟩ := List.exists_cons_of_ne_nil g.nonempty
      have hd : isBlank d = true := List.all_eq_true.1 g.valid d (hgap ▸ List.mem_cons_self)
      have hne : c ≠ d := by
        rintro rfl
        simp [hd] at hc
      simp [hgap, hne]
    | cons d t =>
      rw [Text.startsWith_cons] at h
      rw [List.cons_append, Text.startsWith_cons]
      cases hhead : c == d with
      | false => rfl
      | true =>
        rw [hhead, Bool.true_and] at h
        exact ih hmore h

theorem startsWith_line (p : Prototype) : Text.startsWith typedefWord p.line = false :=
  startsWith_gap (by decide) p.gap _ p.notTypedef

theorem ofLines_written (w : Written) (rest : List Text) :
    ofLines [] (w.lines ++ rest) = w.declaration :: ofLines [] rest := by
  cases w with
  | synonym s => exact ofLines_single rest (typeName?_synonym s)
  | body b => exact ofLines_body b rest
  | prototype p =>
    have hline := startsWith_line p
    have hread := ofLines_prototype rest (opensBody_of_not_typedef hline)
      (typeName?_of_not_typedef hline)
    rw [prototype?_line] at hread
    exact hread

theorem ofLines_declarations (ws : List Written) :
    ofLines [] (ws.flatMap (·.lines)) = ws.map (·.declaration) := by
  induction ws with
  | nil => rfl
  | cons w ws ih => rw [List.flatMap_cons, ofLines_written, ih, List.map_cons]

end Foreign

end ScriptLens
