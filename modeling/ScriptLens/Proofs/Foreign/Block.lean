import ScriptLens.Proofs.Foreign.Words

/-!
Blocks of declarations in a Lua source: the brackets after the header of the source, and between
them lines with any white space around them and any blank lines.
-/

namespace ScriptLens

namespace Template

section Ending

variable (init : Template) (c : Char) (literal : Text)

theorem match?_nil_of_literal : match? (init ++ [.literal (c :: literal)]) [] = none := by
  induction init with
  | nil => rfl
  | cons part init ih =>
    rw [List.cons_append]
    cases part with
    | literal expected =>
      cases expected with
      | nil => exact ih
      | cons d expected => rfl
    | blanks => exact ih
    | gap => rfl
    | number => rfl

variable {init c literal}

theorem dropWhile_append_of_match? {accepts : Char → Bool} {t : Text} {found : List Text × Text}
    (h : match? (init ++ [.literal (c :: literal)]) (t.dropWhile accepts) = some found)
    (rest : Text) : (t ++ rest).dropWhile accepts = t.dropWhile accepts ++ rest := by
  rw [List.dropWhile_append]
  split
  next hnil =>
    rw [List.isEmpty_iff.1 hnil, match?_nil_of_literal] at h
    cases h
  next => rfl

/-- A template that ends with a literal takes the same text whatever follows it. -/
theorem match?_append {t after : Text} {numbers : List Text}
    (h : match? (init ++ [.literal (c :: literal)]) t = some (numbers, after)) (rest : Text) :
    match? (init ++ [.literal (c :: literal)]) (t ++ rest) = some (numbers, after ++ rest) := by
  have hhead : ∀ {accepts : Char → Bool} {t : Text}, t.head?.any accepts = true →
      (t ++ rest).head?.any accepts = true := by
    intro accepts t ht
    cases t with
    | nil => cases ht
    | cons d t => exact ht
  have hliteral : ∀ {parts : Template} {expected t : Text} {numbers : List Text},
      match? (.literal expected :: parts) t = some (numbers, after) →
        ∃ left, t = expected ++ left ∧ match? parts left = some (numbers, after) := by
    intro parts expected t numbers h
    obtain ⟨left, hleft, hparts⟩ := Option.bind_eq_some_iff.1 h
    exact ⟨left, Text.after?_eq_some_iff.1 hleft, hparts⟩
  induction init generalizing t numbers with
  | nil =>
    obtain ⟨left, rfl, hparts⟩ := hliteral h
    cases hparts
    rw [List.nil_append, List.append_assoc, match?, Text.after?_append]
    rfl
  | cons part init ih =>
    rw [List.cons_append] at h ⊢
    cases part with
    | literal expected =>
      obtain ⟨left, rfl, hparts⟩ := hliteral h
      rw [List.append_assoc, match?, Text.after?_append, Option.bind_some, ih hparts]
    | blanks =>
      rw [match?] at h ⊢
      rw [Text.trimStart, dropWhile_append_of_match? h]
      exact ih h
    | gap =>
      rw [match?] at h ⊢
      split at h
      next ht =>
        rw [if_pos (hhead ht), Text.trimStart, dropWhile_append_of_match? h]
        exact ih h
      next => cases h
    | number =>
      rw [match?] at h ⊢
      split at h
      next ht =>
        obtain ⟨⟨ns, left⟩, hparts, heq⟩ := Option.map_eq_some_iff.1 h
        cases heq
        have hdigits : (t ++ rest).takeWhile isDigit = t.takeWhile isDigit := by
          refine (List.append_left_inj (t.dropWhile isDigit ++ rest)).1 ?_
          rw [← dropWhile_append_of_match? hparts, List.takeWhile_append_dropWhile,
            dropWhile_append_of_match? hparts, ← List.append_assoc,
            List.takeWhile_append_dropWhile]
        rw [if_pos (hhead ht), dropWhile_append_of_match? hparts, ih hparts, hdigits]
        rfl
      next => cases h

end Ending

theorem first?_append {template : Template} {preamble t : Text} {found : List Text × Text}
    (hnone : ∀ after, after <:+ preamble → after ≠ [] → match? template (after ++ t) = none)
    (hmatch : match? template t = some found) (ht : t ≠ []) :
    first? [template] (preamble ++ t) = some found := by
  induction preamble with
  | nil =>
    obtain ⟨c, rest, rfl⟩ := List.exists_cons_of_ne_nil ht
    simp [first?, leading?, hmatch]
  | cons c preamble ih =>
    have hhere := hnone (c :: preamble) (List.suffix_refl _) (List.cons_ne_nil _ _)
    have hlater := ih fun after hafter hne =>
      hnone after (hafter.trans (List.suffix_cons c preamble)) hne
    rw [List.cons_append] at hhere ⊢
    simp [first?, leading?, hhere, hlater]

end Template

theorem Declaration.header_ends :
    ∃ init c literal, Declaration.header = init ++ [.literal (c :: literal)] :=
  ⟨Declaration.header.dropLast, 'f', "fi.cdef[[".toList, by decide⟩

theorem Declaration.match?_header {t : Text}
    (h : Template.matchesAll Declaration.header t = true) (rest : Text) :
    ∃ numbers, Template.match? Declaration.header (t ++ rest) = some (numbers, rest) := by
  obtain ⟨⟨numbers, after⟩, hmatch, hafter⟩ := (Option.any_eq_true _ _).1 h
  obtain rfl : after = [] := List.isEmpty_iff.1 hafter
  obtain ⟨init, c, literal, hends⟩ := Declaration.header_ends
  rw [hends] at hmatch ⊢
  exact ⟨numbers, Template.match?_append hmatch rest⟩

namespace Foreign

open Declaration

structure Row where
  indent : Text
  line : Text
  tail : Text
  indentBlank : indent.all isBlank = true
  trimmed : line.IsTrimmed
  tailBlank : tail.all isBlank = true
  oneLine : '\n' ∉ indent ++ line ++ tail

def Row.render (r : Row) : Text :=
  r.indent ++ r.line ++ r.tail

def blockOf (rows : List Row) : Text :=
  List.intercalate ['\n'] (rows.map Row.render)

def linesOf (rows : List Row) : List Text :=
  (rows.map (·.line)).filter (· ≠ [])

theorem trim_render (r : Row) : Text.trim r.render = r.line := by
  rw [Row.render, Text.trim_append_right _ r.tailBlank, Text.trim_append_left r.indentBlank,
    Text.trim_of_isTrimmed r.trimmed]

theorem lines_blockOf (rows : List Row) : Declaration.lines (blockOf rows) = linesOf rows := by
  cases rows with
  | nil => decide
  | cons r rows =>
    have hlines : ∀ t ∈ r.render :: rows.map Row.render, '\n' ∉ t := by
      intro t ht
      rw [← List.map_cons] at ht
      obtain ⟨r', _, rfl⟩ := List.mem_map.1 ht
      exact r'.oneLine
    have htrim : (rows.map Row.render).map Text.trim = rows.map (·.line) := by
      rw [List.map_map]
      exact List.map_congr_left fun r _ => trim_render r
    rw [Declaration.lines, blockOf, List.map_cons, Text.fields_intercalate hlines, List.map_cons,
      trim_render, htrim]
    rfl

/-- A block ends where its closing brackets are, if none are in it and it does not end with one. -/
theorem untilBrackets?_append {block : Text} (hnone : Text.contains "]]".toList block = false)
    (hlast : block.getLast? ≠ some ']') (rest : Text) :
    untilBrackets? (block ++ ("]]".toList ++ rest)) = some block := by
  have hbrackets : "]]".toList = [']', ']'] := rfl
  rw [hbrackets] at hnone ⊢
  induction block with
  | nil => rfl
  | cons c block ih =>
    obtain ⟨hhere, hlater⟩ := Bool.or_eq_false_iff.1 hnone
    have hstart : Text.startsWith [']', ']'] (c :: (block ++ ([']', ']'] ++ rest))) = false := by
      cases block with
      | nil =>
        have hc : ']' ≠ c := fun heq => hlast (heq ▸ rfl)
        simp [hc]
      | cons d block => simpa using hhere
    have hrest : untilBrackets? (block ++ ([']', ']'] ++ rest)) = some block := by
      refine ih hlater fun hblock => hlast ?_
      rw [List.getLast?_cons, hblock]
      rfl
    rw [List.cons_append, untilBrackets?, hbrackets, hstart, hrest]
    rfl

/-- What a block may end with: nothing, white space or a semicolon. -/
def Closed (t : Text) : Prop :=
  ∀ c, t.getLast? = some c → isBlank c = true ∨ c = ';'

theorem closed_append {s t : Text} (hs : Closed s) (ht : Closed t) : Closed (s ++ t) := by
  intro c hc
  rw [List.getLast?_append] at hc
  cases hlast : t.getLast? with
  | none =>
    rw [hlast] at hc
    exact hs c hc
  | some d =>
    rw [hlast] at hc
    exact ht c (hlast.trans hc)

theorem closed_of_blank {t : Text} (h : t.all isBlank = true) : Closed t :=
  fun c hc => .inl (List.all_eq_true.1 h c (List.mem_of_getLast? hc))

theorem closed_broken (pieces : List Text) : Closed (pieces.flatMap (· ++ ['\n'])) := by
  rcases List.eq_nil_or_concat pieces with rfl | ⟨pieces, piece, rfl⟩
  · exact closed_of_blank rfl
  · intro c hc
    rw [List.concat_eq_append, List.flatMap_append, List.flatMap_singleton, ← List.append_assoc,
      List.getLast?_concat] at hc
    obtain rfl := Option.some.inj hc
    exact .inl (by decide)

theorem closed_blockOf {rows : List Row}
    (h : ∀ line, (linesOf rows).getLast? = some line → Closed line) : Closed (blockOf rows) := by
  rcases List.eq_nil_or_concat rows with rfl | ⟨rows, r, rfl⟩
  · exact closed_of_blank rfl
  · rw [List.concat_eq_append] at h ⊢
    have hline : Closed r.line := by
      by_cases hblank : r.line = []
      · rw [hblank]
        exact closed_of_blank rfl
      · refine h r.line ?_
        simp [linesOf, hblank]
    have hrender : Closed r.render :=
      closed_append (closed_append (closed_of_blank r.indentBlank) hline)
        (closed_of_blank r.tailBlank)
    rw [blockOf, List.map_append, List.map_singleton, Text.intercalate_concat]
    exact closed_append (closed_broken _) hrender

end Foreign

end ScriptLens
