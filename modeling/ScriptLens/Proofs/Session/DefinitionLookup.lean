import ScriptLens.Proofs.Document.Run
import ScriptLens.Proofs.Ends
import ScriptLens.Proofs.OrderedMap
import ScriptLens.Proofs.Session.Renaming

/-!
Where a path in a script is defined. What is between quotes at a place is looked up as it stands and
then without its first segments, one after another; the search ends, since each step drops a dot
(`DefinitionSearch.step_iterate`), and it finds the longest end that the schema defines.
-/

namespace ScriptLens

/-- An end of a path that is looked up: all of it, or what follows one of its dots. -/
def IsPathEnd (path key : Text) : Prop :=
  key ≠ [] ∧ (key = path ∨ '.' :: key <:+ path)

namespace Game

variable {t key before rest : Text} {c : Char}

theorem afterDots_cons (c : Char) (t : Text) :
    afterDots (c :: t) = if c = '.' ∧ t ≠ [] then t :: afterDots t else afterDots t :=
  rfl

theorem mem_afterDots : key ∈ afterDots t ↔ key ≠ [] ∧ '.' :: key <:+ t := by
  induction t with
  | nil => simp [afterDots]
  | cons c t ih =>
    rw [afterDots_cons, List.suffix_cons_iff]
    split
    next h =>
      obtain ⟨rfl, hsome⟩ := h
      simp only [List.mem_cons, ih, List.cons.injEq, true_and]
      constructor
      · rintro (rfl | ⟨hkey, hsuffix⟩)
        · exact ⟨hsome, .inl rfl⟩
        · exact ⟨hkey, .inr hsuffix⟩
      · rintro ⟨hkey, rfl | hsuffix⟩
        · exact .inl rfl
        · exact .inr ⟨hkey, hsuffix⟩
    next h =>
      rw [ih]
      refine and_congr_right fun hkey => ⟨.inr, fun hsuffix => hsuffix.resolve_left ?_⟩
      rintro ⟨rfl, rfl⟩
      exact h ⟨rfl, hkey⟩

theorem length_lt_of_mem_afterDots (h : key ∈ afterDots t) : key.length < t.length := by
  have hlength := (mem_afterDots.1 h).2.length_le
  rwa [List.length_cons] at hlength

theorem pairwise_afterDots (t : Text) :
    (t :: afterDots t).Pairwise fun longer shorter => shorter.length < longer.length := by
  refine List.pairwise_cons.2 ⟨fun key hkey => length_lt_of_mem_afterDots hkey, ?_⟩
  induction t with
  | nil => exact .nil
  | cons c t ih =>
    rw [afterDots_cons]
    split
    · exact List.pairwise_cons.2 ⟨fun key hkey => length_lt_of_mem_afterDots hkey, ih⟩
    · exact ih

theorem mem_candidates (ht : t ≠ []) : key ∈ t :: afterDots t ↔ IsPathEnd t key := by
  rw [List.mem_cons, mem_afterDots, IsPathEnd]
  constructor
  · rintro (rfl | ⟨hkey, hsuffix⟩)
    · exact ⟨ht, .inl rfl⟩
    · exact ⟨hkey, .inr hsuffix⟩
  · rintro ⟨hkey, rfl | hsuffix⟩
    · exact .inl rfl
    · exact .inr ⟨hkey, hsuffix⟩

theorem afterDots_append (hbefore : '.' ∉ before) (t : Text) :
    afterDots (before ++ t) = afterDots t := by
  induction before with
  | nil => rfl
  | cons c before ih =>
    obtain ⟨hc, hbefore⟩ := List.ne_and_not_mem_of_not_mem_cons hbefore
    rw [List.cons_append, afterDots_cons, if_neg fun h => hc h.1.symm, ih hbefore]

end Game

/-! The search, step by step. -/

inductive DefinitionSearch where
  | at (candidate : Text)
  | ended (answer : Option Location)

namespace DefinitionSearch

open Game

variable (lookup : Text → Option Location)

/-- After a part that is not defined comes what follows its first dot, if that is anything. -/
def step : DefinitionSearch → DefinitionSearch
  | .at candidate =>
    match lookup candidate with
    | some location => .ended (some location)
    | none =>
      match Text.splitFirst? (· = '.') candidate with
      | some (_, rest) => if rest = [] then .ended none else .at rest
      | none => .ended none
  | .ended answer => .ended answer

theorem step_at_undotted {candidate : Text} (h : '.' ∉ candidate) :
    step lookup (.at candidate) = .ended (lookup candidate) := by
  have hnone : Text.splitFirst? (· = '.') candidate = none :=
    Text.splitFirst?_eq_none_iff.2 fun c hc => decide_eq_false fun hdot => h (hdot ▸ hc)
  rw [step, hnone]
  cases lookup candidate <;> rfl

theorem step_at_dotted {before : Text} (h : '.' ∉ before) (rest : Text) :
    step lookup (.at (before ++ '.' :: rest)) =
      match lookup (before ++ '.' :: rest) with
      | some location => .ended (some location)
      | none => if rest = [] then .ended none else .at rest := by
  have hsome : Text.splitFirst? (· = '.') (before ++ '.' :: rest) = some (before, rest) :=
    Text.splitFirst?_append rest (fun c hc => decide_eq_false fun hdot => h (hdot ▸ hc)) rfl
  rw [step, hsome]

theorem iterate_ended (answer : Option Location) (n : Nat) :
    (step lookup)^[n] (.ended answer) = .ended answer :=
  Function.iterate_fixed rfl n

/-- The search ends, within one step more than there are dots. -/
theorem iterate_at (candidate : Text) :
    (step lookup)^[candidate.count '.' + 1] (.at candidate) =
      .ended ((candidate :: afterDots candidate).findSome? lookup) := by
  -- By the dots that are left: a step that goes on drops the first of them.
  generalize hn : candidate.count '.' = n
  induction n generalizing candidate with
  | zero =>
    have hdots : '.' ∉ candidate := List.count_eq_zero.1 hn
    have hnone : afterDots candidate = [] := by simpa [afterDots] using afterDots_append hdots []
    rw [hnone, Function.iterate_one, step_at_undotted lookup hdots, List.findSome?_singleton]
  | succ n ih =>
    have hdot : '.' ∈ candidate := List.count_pos_iff.1 (by omega)
    obtain ⟨before, rest, rfl, hbefore⟩ := List.eq_append_cons_of_mem hdot
    have hcount : rest.count '.' = n := by
      rw [List.count_append, List.count_eq_zero.2 hbefore, List.count_cons_self] at hn
      omega
    rw [Function.iterate_succ_apply, step_at_dotted lookup hbefore, List.findSome?_cons,
      afterDots_append hbefore, afterDots_cons]
    cases lookup (before ++ '.' :: rest) with
    | some location => exact iterate_ended lookup _ _
    | none =>
      by_cases hrest : rest = []
      · subst hrest
        exact iterate_ended lookup _ _
      · simp only [hrest, if_false, ne_eq, not_false_eq_true, and_true, if_true]
        exact ih rest hcount

end DefinitionSearch

/-! What a session answers. -/

def Game.Defines (game : Game) (path key : Text) : Prop :=
  IsPathEnd path key ∧ key ∈ game.schema.locations.keys

namespace Game

variable {game : Game} {path key : Text}

theorem Defines.suffix (h : game.Defines path key) : key <:+ path := by
  obtain ⟨⟨-, rfl | hsuffix⟩, -⟩ := h
  · exact List.suffix_rfl
  · exact (List.suffix_cons '.' key).trans hsuffix

theorem not_defines_nil : ¬ game.Defines [] key := by
  rintro ⟨⟨hkey, rfl | hsuffix⟩, -⟩
  · exact hkey rfl
  · exact absurd hsuffix.length_le (by simp)

theorem defines_iff (hpath : path ≠ []) :
    game.Defines path key ↔
      key ∈ path :: afterDots path ∧ (game.schema.locations.get? key).isSome = true := by
  rw [Defines, mem_candidates hpath, ← OrderedMap.contains_iff, OrderedMap.contains]

theorem findSome?_candidates (hpath : path ≠ []) (location : Location) :
    (path :: afterDots path).findSome? game.schema.locations.get? = some location ↔
      ∃ key, LongestEnd (game.Defines path) path key ∧
        game.schema.locations.get? key = some location := by
  rw [findSome?_eq_some_iff_longest (pairwise_afterDots path)]
  refine exists_congr fun key => ⟨?_, ?_⟩
  · rintro ⟨hkey, hfound, hlongest⟩
    have hdefines : game.Defines path key := (defines_iff hpath).2 ⟨hkey, by rw [hfound]; rfl⟩
    refine ⟨⟨hdefines.suffix, hdefines, fun longer _ hlength h => ?_⟩, hfound⟩
    obtain ⟨hlonger, hsome⟩ := (defines_iff hpath).1 h
    rw [hlongest longer hlonger hlength] at hsome
    cases hsome
  · rintro ⟨hend, hfound⟩
    refine ⟨((defines_iff hpath).1 hend.holds).1, hfound, fun longer hlonger hlength => ?_⟩
    by_contra hsome
    have hdefines := (defines_iff hpath).2 ⟨hlonger, Option.isSome_iff_ne_none.2 hsome⟩
    exact hend.longest longer hdefines.suffix hlength hdefines

theorem exists_location (h : game.Defines path key) :
    ∃ longest location, LongestEnd (game.Defines path) path longest ∧
      game.schema.locations.get? longest = some location := by
  obtain ⟨longest, hlongest⟩ := LongestEnd.exists_of_suffix (P := game.Defines path) h.suffix h
  have hsome := OrderedMap.contains_iff.2 hlongest.holds.2
  obtain ⟨location, hlocation⟩ := Option.isSome_iff_exists.1 hsome
  exact ⟨longest, location, hlongest, hlocation⟩

theorem schemaDefinition?_eq {d : Document} {p : Position} {line : Line} {run : Run}
    (hline : d.line? p.line = some line)
    (hrun : runAt (· ≠ '"') line.content p.column = if run.body = [] then none else some run) :
    game.schemaDefinition? d p = if run.body = [] then none else
      (run.body :: afterDots run.body).findSome? game.schema.locations.get? := by
  rw [schemaDefinition?, hline, Option.bind_some, hrun]
  split <;> rfl

theorem schemaDefinition?_eq_some_iff {d : Document} {p : Position} {line : Line} {run : Run}
    (hline : d.line? p.line = some line)
    (hrun : runAt (· ≠ '"') line.content p.column = if run.body = [] then none else some run)
    (location : Location) :
    game.schemaDefinition? d p = some location ↔
      ∃ key, LongestEnd (game.Defines run.body) run.body key ∧
        game.schema.locations.get? key = some location := by
  rw [schemaDefinition?_eq hline hrun]
  split
  next hbody =>
    rw [hbody]
    exact ⟨(nomatch ·), fun ⟨key, hend, _⟩ => absurd hend.holds not_defines_nil⟩
  next hbody => exact findSome?_candidates hbody location

end Game

theorem Session.ask_definition {s : Session} {game : Game} {uri : Text} {p : Position}
    {d : Document} (hgame : s.game = some game) (hd : s.workspace.documents.get? uri = some d)
    (hscript : (s.workspace.tellDialect uri d).1.isSome = true)
    (hvariable : s.workspace.variableAt? uri p = none) :
    (s.ask uri p .definition).1 = (game.schemaDefinition? d p).map .definition := by
  obtain ⟨dialect, hdialect⟩ := Option.isSome_iff_exists.1 hscript
  have htracker : (s.workspace.tellDialect uri d).2.variableAt? uri p = none := by
    rw [Workspace.variableAt?, (Workspace.tellDialect_snd _ _ _).2]
    exact hvariable
  rw [Session.ask_of_game hgame]
  simp only [Workspace.ask, Workspace.definition, hd, hdialect, htracker, Option.bind_some,
    Prod.map_fst]

/-- In a script, where no variable is found, a session answers with the place of the longest end of
the path between quotes that the schema defines, and with nothing if there is no such end. -/
theorem Session.definition_of_longest {s : Session} {game : Game} {uri : Text} {p : Position}
    {d : Document} {line : Line} (hgame : s.game = some game)
    (hd : s.workspace.documents.get? uri = some d)
    (hscript : (s.workspace.tellDialect uri d).1.isSome = true)
    (hline : d.line? p.line = some line) (hvariable : s.workspace.variableAt? uri p = none) :
    ∃ run : Run, run.Touches (· ≠ '"') line.content p.column ∧
      (run.body ≠ [] → ∃ answer,
        (DefinitionSearch.step game.schema.locations.get?)^[run.body.count '.' + 1]
          (.at run.body) = .ended answer ∧
        (s.ask uri p .definition).1 = answer.map .definition) ∧
      (∀ location, (s.ask uri p .definition).1 = some (.definition location) ↔
        ∃ key, LongestEnd (game.Defines run.body) run.body key ∧
          game.schema.locations.get? key = some location) ∧
      ((s.ask uri p .definition).1 = none ↔ ∀ key, ¬ game.Defines run.body key) := by
  obtain ⟨run, htouches, hrun⟩ := exists_touches (· ≠ '"') line.content p.column
  have hplace : ∀ location, game.schemaDefinition? d p = some location ↔ _ :=
    Game.schemaDefinition?_eq_some_iff hline hrun
  rw [ask_definition hgame hd hscript hvariable]
  refine ⟨run, htouches, fun hbody => ⟨_, DefinitionSearch.iterate_at _ _, ?_⟩, ?_, ?_⟩
  · rw [Game.schemaDefinition?_eq hline hrun, if_neg hbody]
  · intro location
    rw [← hplace location]
    simp
  · rw [Option.map_eq_none_iff]
    constructor
    · intro hnone key hkey
      obtain ⟨longest, location, hlongest, hlocation⟩ := Game.exists_location hkey
      rw [(hplace location).2 ⟨longest, hlongest, hlocation⟩] at hnone
      cases hnone
    · intro hnone
      by_contra hsome
      obtain ⟨location, hlocation⟩ := Option.ne_none_iff_exists'.1 hsome
      obtain ⟨key, hend, -⟩ := (hplace location).1 hlocation
      exact hnone key hend.holds

section Dotted

def propertyPlace : Location := ⟨"file:///s.xml".toList, ⟨⟨1, 0⟩, ⟨1, 20⟩⟩⟩

def dottedGame : Game where
  schema := ⟨.empty, ∅, .ofList
    [("c".toList, ⟨"file:///s.xml".toList, ⟨⟨2, 0⟩, ⟨2, 20⟩⟩⟩), ("b.c".toList, propertyPlace)]⟩
  texts := ⟨"44".toList, false, ∅⟩
  foreign := .empty

def dottedScript : Text := "<aiscript a=\"x.b.c\"/>".toList

def dottedSession : Session where
  settings := .standard
  game := some dottedGame
  workspace := Workspace.empty.edit "file:///a.xml".toList (.opened .markup dottedScript)

theorem dottedSession_definition :
    dottedSession.workspace.documents.get? "file:///a.xml".toList = some ⟨dottedScript, .markup⟩ ∧
      (dottedSession.workspace.tellDialect "file:///a.xml".toList
        ⟨dottedScript, .markup⟩).1.isSome = true ∧
      dottedSession.workspace.variableAt? "file:///a.xml".toList ⟨0, 17⟩ = none ∧
      ∃ run : Run, run.Touches (· ≠ '"') dottedScript 17 ∧
        ∃ key, LongestEnd (dottedGame.Defines run.body) run.body key ∧
          dottedGame.schema.locations.get? key = some propertyPlace := by
  have hd : dottedSession.workspace.documents.get? "file:///a.xml".toList =
      some ⟨dottedScript, .markup⟩ := by decide +kernel
  have hscript : (dottedSession.workspace.tellDialect "file:///a.xml".toList
      ⟨dottedScript, .markup⟩).1.isSome = true := by decide +kernel
  have hline : Document.line? ⟨dottedScript, .markup⟩ 0 = some ⟨0, dottedScript⟩ := by
    decide +kernel
  have hvariable : dottedSession.workspace.variableAt? "file:///a.xml".toList ⟨0, 17⟩ = none := by
    decide +kernel
  have hanswer : (dottedSession.ask "file:///a.xml".toList ⟨0, 17⟩ .definition).1 =
      some (.definition propertyPlace) := by decide +kernel
  obtain ⟨run, htouches, -, hplace, -⟩ :=
    dottedSession.definition_of_longest (p := ⟨0, 17⟩) rfl hd hscript hline hvariable
  exact ⟨hd, hscript, hvariable, run, htouches, (hplace propertyPlace).1 hanswer⟩

end Dotted

end ScriptLens
