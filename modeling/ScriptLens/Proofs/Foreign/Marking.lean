import ScriptLens.Proofs.Foreign.Adding
import ScriptLens.Proofs.Foreign.Written

/-!
Where the description of a type marks its name. The declared name is the last word of the
declaration, and what is marked is its first occurrence; a name that occurs in the text before is
marked there.
-/

namespace ScriptLens

namespace Text

structure CutAtFirst (part t first rest : Text) : Prop where
  eq : t = first ++ (part ++ rest)
  least : ∀ l r, t = l ++ (part ++ r) → first.length ≤ l.length

theorem exists_cutAtFirst_replaceFirst {old t : Text} (new : Text) (h : contains old t = true) :
    ∃ first rest, CutAtFirst old t first rest ∧
      replaceFirst old new t = first ++ (new ++ rest) := by
  induction t with
  | nil =>
    obtain rfl : old = [] := List.isEmpty_iff.1 h
    exact ⟨[], [], ⟨rfl, fun _ _ _ => Nat.zero_le _⟩, (List.append_nil new).symm⟩
  | cons c t ih =>
    cases hcut : after? old (c :: t) with
    | some rest =>
      have heq : c :: t = old ++ rest := after?_eq_some_iff.1 hcut
      refine ⟨[], rest, ⟨heq, fun _ _ _ => Nat.zero_le _⟩, ?_⟩
      rw [replaceFirst, hcut]
      rfl
    | none =>
      have hlater : contains old t = true := by
        rwa [contains, startsWith, hcut, Option.isSome_none, Bool.false_or] at h
      obtain ⟨first, rest, hfirst, hreplaced⟩ := ih hlater
      refine ⟨c :: first, rest, ⟨congrArg (c :: ·) hfirst.eq, fun l r heq => ?_⟩, ?_⟩
      · cases l with
        | nil =>
          rw [List.nil_append] at heq
          rw [heq, after?_append] at hcut
          cases hcut
        | cons d l => exact Nat.succ_le_succ (hfirst.least l r (List.cons.inj heq).2)
      · rw [replaceFirst, hcut, hreplaced]
        rfl

end Text

namespace Foreign

open Declaration

structure EndsWithName (start name content : Text) : Prop where
  eq : content = start ++ (name ++ [';'])
  nonempty : name ≠ []
  valid : name.all isWordPart = true
  /-- The word does not reach further back. -/
  whole : Stops isWordPart start.reverse

theorem exists_append_afterBody (t : Text) :
    ∃ body, t = body ++ afterBody t ∧ Stops isWordPart body.reverse := by
  cases hopen : Text.after? ['\x7b'] t with
  | none => exact ⟨[], by simp [afterBody, hopen], stops_nil⟩
  | some rest =>
    cases hclose : Text.splitLast? (· == '\x7d') rest with
    | none => exact ⟨[], by simp [afterBody, hopen, hclose], stops_nil⟩
    | some cut =>
      obtain ⟨inside, after⟩ := cut
      obtain ⟨c, hc, rfl, hafter⟩ := Text.splitLast?_eq_some_iff.1 hclose
      obtain rfl : c = '\x7d' := beq_iff_eq.1 hc
      obtain rfl := Text.after?_eq_some_iff.1 hopen
      have hlast : '\x7d' ∉ after := fun hmem => absurd (hafter _ hmem) (by decide)
      have hbody : afterBody (['\x7b'] ++ (inside ++ '\x7d' :: after)) = Text.trimStart after :=
        afterBody_body inside hlast
      refine ⟨'\x7b' :: (inside ++ '\x7d' :: after.takeWhile isBlank), ?_, ?_⟩
      · rw [hbody, Text.trimStart]
        simp only [List.cons_append, List.append_assoc, List.nil_append,
          List.takeWhile_append_dropWhile]
      · have hbrace : Stops isWordPart ('\x7d' :: (inside.reverse ++ ['\x7b'])) :=
          stops_cons.2 (isWordPart_of_punctuation _ (by decide))
        have hblank : Stops isWordPart (after.takeWhile isBlank).reverse :=
          stops_of_forall fun c hc => isWordPart_of_isBlank
            (List.all_eq_true.1 List.all_takeWhile c (List.mem_reverse.1 hc))
        have hends := stops_append hblank hbrace
        simpa using hends

/-- What a complete type declaration declares is its last word. -/
theorem exists_endsWithName {content name : Text} (h : typeName? content = some name) :
    ∃ start, EndsWithName start name content := by
  rw [typeName?_eq] at h
  obtain ⟨tail, htail, hread⟩ := Option.bind_eq_some_iff.1 h
  obtain ⟨gapped, htypedef, hgap⟩ := Option.bind_eq_some_iff.1 htail
  obtain rfl := Text.after?_eq_some_iff.1 htypedef
  obtain ⟨-, first, rfl⟩ := afterGap?_eq_some_iff.1 hgap
  obtain ⟨rest, hrest, hname⟩ := Option.bind_eq_some_iff.1 hread
  obtain ⟨spaced, hword, hgap⟩ := Option.bind_eq_some_iff.1 hrest
  obtain ⟨-, second, rfl⟩ := afterGap?_eq_some_iff.1 hgap
  obtain ⟨word, rfl⟩ : ∃ word, tail = word ++ (second.text ++ rest) := by
    rw [afterWord?] at hword
    split at hword
    next =>
      rw [← Option.some.inj hword]
      exact ⟨_, List.takeWhile_append_dropWhile.symm⟩
    next => cases hword
  obtain ⟨body, hbody, hends⟩ := exists_append_afterBody rest
  obtain ⟨w, rfl, hafter⟩ := terminated?_eq_some_iff.1 hname
  refine ⟨typedefWord ++ (first.text ++ (word ++ (second.text ++ body))), ?_, w.nonempty, w.valid,
    ?_⟩
  · rw [hbody, hafter]
    simp only [List.append_assoc]
  · have hstart : (typedefWord ++ (first.text ++ (word ++ (second.text ++ body)))).reverse =
        body.reverse ++
          (second.reversed.text ++ (typedefWord ++ (first.text ++ word)).reverse) := by
      simp [Gap.reversed]
    rw [hstart]
    exact stops_append hends (second.reversed.stops_isWordPart _)

/-! Every type that is read is read from a complete declaration of its name. -/

theorem typeName?_of_typedef? {t name content : Text}
    (h : typedef? t = some (.typedef name content)) : typeName? content = some name := by
  obtain ⟨declared, hdeclared, heq⟩ := Option.map_eq_some_iff.1 h
  cases heq
  exact hdeclared

theorem prototype?_ne_typedef (line name content : Text) :
    prototype? line ≠ some (.typedef name content) := by
  intro h
  obtain ⟨parameters, -, h⟩ := Option.bind_eq_some_iff.1 h
  dsimp only at h
  split at h
  · cases h
  · obtain ⟨result, -, heq⟩ := Option.map_eq_some_iff.1 h
    cases heq

theorem typeName?_of_mem_ofLines {opened lines : List Text} {name content : Text}
    (h : .typedef name content ∈ ofLines opened lines) : typeName? content = some name := by
  fun_induction ofLines opened lines with
  | case1 => cases h
  | case2 opened line rest single hprototype ih =>
    rcases List.mem_append.1 h with hline | hrest
    · exact absurd (Option.mem_toList.1 hline) (prototype?_ne_typedef line name content)
    · exact ih hrest
  | case3 opened line rest single hprototype opened' hends content' ih =>
    rcases List.mem_append.1 h with hline | hrest
    · exact typeName?_of_typedef? (Option.mem_toList.1 hline)
    · exact ih hrest
  | case4 opened line rest single hprototype opened' hends ih => exact ih h

theorem typeName?_of_mem_ofSource {source name content : Text}
    (h : .typedef name content ∈ ofSource source) : typeName? content = some name := by
  rw [ofSource] at h
  cases hblock : block? source with
  | none =>
    rw [hblock] at h
    cases h
  | some block =>
    rw [hblock] at h
    exact typeName?_of_mem_ofLines h

/-! The name at the end and its first occurrence. -/

section Marked

variable {start name content first rest : Text} (hends : EndsWithName start name content)
  (hcut : Text.CutAtFirst name content first rest)

include hends

theorem EndsWithName.contains : Text.contains name content = true :=
  Text.contains_iff.2 ⟨start, [';'], hends.eq⟩

include hcut

theorem exists_append_of_cutAtFirst :
    ∃ between, start = first ++ between ∧ between ++ (name ++ [';']) = name ++ rest := by
  have hfirst : first <+: content := ⟨_, hcut.eq.symm⟩
  have hstart : start <+: content := ⟨_, hends.eq.symm⟩
  obtain ⟨between, rfl⟩ :=
    List.prefix_of_prefix_length_le hfirst hstart (hcut.least _ _ hends.eq)
  have heq : first ++ (between ++ (name ++ [';'])) = first ++ (name ++ rest) := by
    rw [← List.append_assoc, ← hends.eq, hcut.eq]
  exact ⟨between, rfl, List.append_cancel_left heq⟩

/-- An occurrence does not begin in front of the last word and end in it. -/
theorem cut_eq_of_not_contains (h : Text.contains name start = false) :
    first = start ∧ rest = [';'] := by
  obtain ⟨between, rfl, hbetween⟩ := exists_append_of_cutAtFirst hends hcut
  rcases List.append_eq_append_iff.1 hbetween with ⟨more, hname, -⟩ | ⟨more, hstart, -⟩
  · obtain rfl : between = [] := by
      refine Classical.byContradiction fun hne => ?_
      have hvalid := hends.valid
      rw [hname, List.all_append, Bool.and_eq_true] at hvalid
      have hhead := head?_of_all (List.reverse_ne_nil_iff.2 hne)
        (by rw [List.all_reverse]; exact hvalid.1) first.reverse
      have hwhole := hends.whole
      rw [List.reverse_append, Stops, hhead] at hwhole
      cases hwhole
    rw [List.nil_append] at hbetween
    exact ⟨(List.append_nil first).symm, (List.append_cancel_left hbetween).symm⟩
  · rw [Text.contains_iff.2 ⟨first, more, by rw [hstart]⟩] at h
    cases h

theorem marked_ne_of_contains (h : Text.contains name start = true) :
    first ++ (ForeignIndex.marked name ++ rest) ≠
      start ++ (ForeignIndex.marked name ++ [';']) := by
  obtain ⟨between, rfl, hbetween⟩ := exists_append_of_cutAtFirst hends hcut
  intro heq
  rw [List.append_assoc] at heq
  have hmarked := List.append_cancel_left heq
  obtain ⟨c, more, rfl⟩ := List.exists_cons_of_ne_nil hends.nonempty
  cases between with
  | nil =>
    -- The first occurrence would stand in front of itself.
    obtain ⟨l, r, hstart⟩ := Text.contains_iff.1 h
    have hleast := hcut.least l (r ++ (c :: more ++ [';'])) (by
      rw [hends.eq, hstart]
      simp only [List.append_assoc])
    have hlength := congrArg List.length hstart
    simp only [List.append_nil, List.length_append, List.length_cons] at hlength
    omega
  | cons d between =>
    -- A mark is no part of a word.
    obtain ⟨rfl, -⟩ := List.cons.inj hbetween
    obtain ⟨rfl, -⟩ := List.cons.inj hmarked
    have hmark : isWordPart '\x60' = true := (Bool.and_eq_true_iff.1 hends.valid).1
    rw [isWordPart_of_punctuation _ (by decide)] at hmark
    cases hmark

theorem marked_eq_iff :
    first ++ (ForeignIndex.marked name ++ rest) = start ++ (ForeignIndex.marked name ++ [';']) ↔
      Text.contains name start = false := by
  constructor
  · intro heq
    cases h : Text.contains name start with
    | false => rfl
    | true => exact absurd heq (marked_ne_of_contains hends hcut h)
  · intro h
    obtain ⟨rfl, rfl⟩ := cut_eq_of_not_contains hends hcut h
    rfl

end Marked

end Foreign

namespace ForeignIndex

open Foreign

theorem get?_types_addSource_of_last (index : ForeignIndex) {source name content : Text}
    {before after : List Declaration}
    (hread : Declaration.ofSource source = before ++ .typedef name content :: after)
    (hlast : ∀ other, .typedef name other ∉ after) :
    (index.addSource source).types.get? name = some (typeDescription name content) := by
  have hafter : under name (after.filterMap (·.type?)) = [] := by
    rw [under, List.map_eq_nil_iff, List.filter_eq_nil_iff]
    intro type htype hname
    obtain ⟨d, hd, hdeclared⟩ := List.mem_filterMap.1 htype
    cases d with
    | typedef declared other =>
      obtain rfl := Option.some.inj hdeclared
      obtain rfl : declared = name := of_decide_eq_true hname
      exact hlast other hd
    | prototype result declared parameters => cases hdeclared
  have htypes : (before ++ .typedef name content :: after).filterMap (·.type?) =
      before.filterMap (·.type?) ++
        (name, typeDescription name content) :: after.filterMap (·.type?) := by
    rw [List.filterMap_append]
    rfl
  rw [addSource, hread, types_foldl_add, htypes, OrderedMap.get?_putAll, under_append, under_cons,
    hafter, if_pos rfl, List.getLast?_concat, Option.some_or]

/-- In the description of a type its name is marked where it occurs first in the declaration. The
declared name is the last word of the declaration, and it is what is marked exactly if the name does
not occur in front of it, in another word or as one. -/
theorem type_marked_at_first (index : ForeignIndex) {source name content : Text}
    {before after : List Declaration}
    (hread : Declaration.ofSource source = before ++ .typedef name content :: after)
    (hlast : ∀ other, .typedef name other ∉ after) :
    ∃ start first rest, EndsWithName start name content ∧
      Text.CutAtFirst name content first rest ∧
      (index.addSource source).types.get? name = some (first ++ (marked name ++ rest)) ∧
      ((index.addSource source).types.get? name = some (start ++ (marked name ++ [';'])) ↔
        Text.contains name start = false) := by
  have hmem : .typedef name content ∈ Declaration.ofSource source := by
    rw [hread]
    exact List.mem_append_right _ List.mem_cons_self
  obtain ⟨start, hends⟩ := exists_endsWithName (typeName?_of_mem_ofSource hmem)
  obtain ⟨first, rest, hcut, hreplaced⟩ :=
    Text.exists_cutAtFirst_replaceFirst (marked name) hends.contains
  have hget := get?_types_addSource_of_last index hread hlast
  rw [typeDescription, hreplaced] at hget
  refine ⟨start, first, rest, hends, hcut, hget, ?_⟩
  rw [hget, Option.some_inj]
  exact marked_eq_iff hends hcut

section Node

def nodeSource : Text :=
  ("local ffi = require(\"ffi\")\nlocal C = ffi.C\nffi.cdef[[\n" ++
    "typedef struct \x7b\nNode* next;\n\x7d Node;\n]]\n").toList

def nodeName : Text :=
  "Node".toList

def nodeContent : Text :=
  "typedef struct \x7b Node* next; \x7d Node;".toList

theorem ofSource_nodeSource :
    Declaration.ofSource nodeSource = [] ++ .typedef nodeName nodeContent :: [] := by
  decide +kernel

theorem node_marked_at_first :
    Declaration.ofSource nodeSource = [] ++ .typedef nodeName nodeContent :: [] ∧
      ∃ start first rest, EndsWithName start nodeName nodeContent ∧
        Text.CutAtFirst nodeName nodeContent first rest ∧
        (empty.addSource nodeSource).types.get? nodeName =
          some (first ++ (marked nodeName ++ rest)) ∧
        ((empty.addSource nodeSource).types.get? nodeName =
            some (start ++ (marked nodeName ++ [';'])) ↔
          Text.contains nodeName start = false) :=
  ⟨ofSource_nodeSource,
    type_marked_at_first empty ofSource_nodeSource fun _ => List.not_mem_nil⟩

theorem node_marked_in_body :
    (empty.addSource nodeSource).types.get? nodeName =
        some "typedef struct \x7b `Node`* next; \x7d Node;".toList ∧
      (empty.addSource nodeSource).types.get? nodeName ≠
        some "typedef struct \x7b Node* next; \x7d `Node`;".toList := by
  rw [addSource, ofSource_nodeSource]
  decide

end Node

end ForeignIndex

end ScriptLens
