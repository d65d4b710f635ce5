import ScriptLens.Proofs.Document.Run
import ScriptLens.Schema.Hover

/-!
The word under a cursor and the path that ends with it. Both are runs at the same column, of two
classes of characters. The characters of words belong to paths, so wherever there is a word there is
a path, which begins no later (`Run.Touches.exists_before`); and since no dot is in a word, the word
ends the last segment of its path.
-/

namespace ScriptLens

namespace HoverTarget

theorem isPathChar_of_isWordChar {c : Char} (h : isWordChar c = true) : isPathChar c = true := by
  simp [isPathChar, h]

theorem isWordChar_dot : isWordChar '.' = false := by
  decide +kernel

variable {line : Text} {column : Nat} {target : HoverTarget}

theorem isSome_at? (line : Text) (column : Nat) :
    (at? line column).isSome = (runAt isWordChar line column).isSome := by
  cases hword : runAt isWordChar line column with
  | none => rw [at?, hword]; rfl
  | some word =>
    have hpath : (runAt isPathChar line column).isSome = true :=
      isSome_runAt_of_wider (fun c => isPathChar_of_isWordChar) (by rw [hword]; rfl)
    rw [at?, hword, Option.bind_some, Option.isSome_map, hpath]
    rfl

theorem exists_runs_of_at? (h : at? line column = some target) :
    ∃ word path first, runAt isWordChar line column = some word ∧
      runAt isPathChar line column = some path ∧ word.before = path.before ++ first ∧
        target = ⟨word.body, Text.fields '.' (first ++ word.body)⟩ := by
  obtain ⟨word, hword, h⟩ := Option.bind_eq_some_iff.1 h
  obtain ⟨path, hpath, rfl⟩ := Option.map_eq_some_iff.1 h
  obtain ⟨first, hfirst⟩ := (touches_of_runAt hword).1.exists_before (touches_of_runAt hpath).1
    fun c => isPathChar_of_isWordChar
  refine ⟨word, path, first, hword, hpath, hfirst, ?_⟩
  rw [hfirst, List.append_assoc, List.drop_left]

theorem dot_not_mem_word {word : Run} (h : runAt isWordChar line column = some word) :
    '.' ∉ word.body := by
  intro hdot
  have haccepted := (touches_of_runAt h).1.accepted '.' hdot
  rw [isWordChar_dot] at haccepted
  cases haccepted

/-- On any line, the run of a class of characters at a column exists exactly if the character just
before or just after the cursor is in the class, and then it is the longest run around the cursor.
So there is a target wherever there is a word, and it can be read off the line: the path begins no
later than the word, its segments joined by dots are the text from its beginning to the end of the
word, and the last of them ends with the word. -/
theorem runs_at_cursor (line : Text) (column : Nat) :
    (line.Boundary (line.columnOffset column) ∧
      ∀ accepts : Char → Bool,
        ((runAt accepts line column).isSome = true ↔
          (line.charBefore? (line.columnOffset column)).any accepts = true ∨
            (line.charAfter? (line.columnOffset column)).any accepts = true) ∧
          ∀ run, runAt accepts line column = some run →
            run.Surrounds accepts line (line.columnOffset column)) ∧
      (at? line column).isSome = (runAt isWordChar line column).isSome ∧
        ∀ target, at? line column = some target →
          ∃ word path : Run, runAt isWordChar line column = some word ∧
            runAt isPathChar line column = some path ∧
              target.word = word.body ∧ path.start ≤ word.start ∧
                line.slice? path.start word.stop =
                  some (List.intercalate ['.'] target.parts) ∧
                  (∀ part ∈ target.parts, '.' ∉ part) ∧
                    ∃ last, target.parts.getLast? = some last ∧ target.word <:+ last := by
  refine ⟨⟨Text.boundary_columnOffset line column, fun accepts => ⟨isSome_runAt_iff _ _ _, ?_⟩⟩,
    isSome_at? line column, ?_⟩
  · intro run hrun
    obtain ⟨htouches, hbody⟩ := touches_of_runAt hrun
    exact htouches.surrounds hbody
  · intro target htarget
    obtain ⟨word, path, first, hword, hpath, hfirst, rfl⟩ := exists_runs_of_at? htarget
    obtain ⟨hstart, hslice⟩ := (touches_of_runAt hword).1.slice?_from hfirst
    refine ⟨word, path, hword, hpath, rfl, hstart, ?_, fun part => Text.not_mem_of_mem_fields,
      Text.exists_getLast?_fields first (dot_not_mem_word hword)⟩
    rw [Text.intercalate_fields, hslice]

/-- The cursor stands between a word and a dot; what comes after the word is not in its path. -/
example : at? "x=\"$a.be.c\"".toList 8 = some ⟨"be".toList, ["$a".toList, "be".toList]⟩ := by
  decide +kernel

end HoverTarget

end ScriptLens
