import ScriptLens.Proofs.Foreign.Adding
import ScriptLens.Proofs.Foreign.Block
import ScriptLens.Proofs.Foreign.Written

/-!
What a Lua source declares. Every declaration in its block is read; a type is described by its last
declaration and a function by its first, with the types that are declared up to there.
-/

namespace ScriptLens

namespace Foreign

def Written.type? : Written → Option (Text × Text)
  | .synonym s => some (s.name.text, ForeignIndex.typeDescription s.name.text s.line)
  | .body b => some (b.name.text, ForeignIndex.typeDescription b.name.text b.content)
  | .prototype _ => none

def Written.prototype? : Written → Option Prototype
  | .prototype p => some p
  | _ => none

def typesIn (ws : List Written) : List (Text × Text) :=
  ws.filterMap (·.type?)

def prototypesIn (ws : List Written) : List Prototype :=
  ws.filterMap (·.prototype?)

def Prototype.qualified (p : Prototype) : Text :=
  ForeignIndex.qualified p.name.text

def knownTypes (ws : List Written) : OrderedMap Text Text :=
  OrderedMap.fill (fun _ description => description) ∅ (typesIn ws)

theorem get?_knownTypes (ws : List Written) (name : Text) :
    (knownTypes ws).get? name = (under name (typesIn ws)).getLast? := by
  rw [knownTypes, OrderedMap.get?_fill_last _ (f := id) fun _ _ => rfl, Option.map_id_apply]

theorem keys_knownTypes (ws : List Written) :
    (knownTypes ws).keys = distinct ((typesIn ws).map Prod.fst) :=
  OrderedMap.keys_fill_empty _ _

def Prototype.description (p : Prototype) (before : List Written) : Text :=
  ForeignIndex.functionDescription ⟨knownTypes before, ∅⟩ p.result p.name.text p.parameters

end Foreign

namespace ForeignIndex

open Foreign

section Add

variable (index : ForeignIndex) (ws : List Written)

def addAll : ForeignIndex :=
  (ws.map (·.declaration)).foldl add index

theorem addAll_cons (w : Written) :
    index.addAll (w :: ws) = (index.add w.declaration).addAll ws := rfl

theorem addAll_append (vs : List Written) :
    index.addAll (ws ++ vs) = (index.addAll ws).addAll vs := by
  rw [addAll, List.map_append, List.foldl_append]
  rfl

theorem add_prototype_of_contains {p : Prototype}
    (h : index.functions.contains p.qualified = true) :
    index.add (Written.prototype p).declaration = index := if_pos h

theorem add_prototype_of_new {p : Prototype}
    (h : index.functions.contains p.qualified = false) :
    index.add (Written.prototype p).declaration =
      { index with
        functions := index.functions.insert p.qualified
          (index.functionDescription p.result p.name.text p.parameters) } :=
  if_neg (Bool.eq_false_iff.1 h)

theorem types_addAll :
    (index.addAll ws).types =
      OrderedMap.fill (fun _ description => description) index.types (typesIn ws) := by
  have hdeclared : (fun w : Written => w.declaration.type?) = Written.type? := by
    funext w
    cases w <;> rfl
  have htypes := types_foldl_add index (ws.map (·.declaration))
  rw [List.filterMap_map] at htypes
  rw [typesIn, ← hdeclared]
  exact htypes

theorem keys_functions_addAll :
    (index.addAll ws).functions.keys =
      ((prototypesIn ws).map (·.qualified)).foldl addNew index.functions.keys := by
  induction ws generalizing index with
  | nil => rfl
  | cons w ws ih =>
    rw [addAll_cons, ih]
    cases w with
    | synonym s => rfl
    | body b => rfl
    | prototype p =>
      have hkeys : (index.add (Written.prototype p).declaration).functions.keys =
          addNew index.functions.keys p.qualified := by
        cases h : index.functions.contains p.qualified with
        | true =>
          rw [add_prototype_of_contains _ h, addNew, if_pos (OrderedMap.contains_iff.1 h)]
        | false =>
          rw [add_prototype_of_new _ h]
          exact OrderedMap.keys_insert _ _ _
      rw [hkeys]
      rfl

theorem get?_functions_addAll {key description : Text}
    (h : index.functions.get? key = some description) :
    (index.addAll ws).functions.get? key = some description :=
  OrderedMap.get?_of_isPrefix (isPrefix_functions_foldl_add index _) h

theorem functionDescription_of_types {index index' : ForeignIndex}
    (h : index.types = index'.types) :
    index.functionDescription = index'.functionDescription := by
  unfold functionDescription parameterTypes
  rw [h]

end Add

theorem qualified_inj {name name' : Text} : qualified name = qualified name' ↔ name = name' :=
  List.append_right_inj _

theorem keys_functions (ws : List Written) :
    (empty.addAll ws).functions.keys = distinct ((prototypesIn ws).map (·.qualified)) :=
  (keys_functions_addAll empty ws).trans (foldl_addNew_nil _)

theorem get?_functions_of_first {before : List Written} {p : Prototype} (after : List Written)
    (hfirst : ∀ q ∈ prototypesIn before, q.name.text ≠ p.name.text) :
    (empty.addAll (before ++ .prototype p :: after)).functions.get? p.qualified =
      some (p.description before) := by
  have hnew : (empty.addAll before).functions.contains p.qualified = false := by
    refine Bool.eq_false_iff.2 fun hheld => ?_
    rw [OrderedMap.contains_iff, keys_functions, mem_distinct] at hheld
    obtain ⟨q, hq, hname⟩ := List.mem_map.1 hheld
    exact hfirst q hq (qualified_inj.1 hname)
  have htypes : (empty.addAll before).types = (ForeignIndex.mk (knownTypes before) ∅).types :=
    types_addAll empty before
  have hdescription : (empty.addAll before).functionDescription p.result p.name.text
      p.parameters = p.description before := by
    rw [functionDescription_of_types htypes, Prototype.description]
  rw [addAll_append, addAll_cons, add_prototype_of_new _ hnew]
  refine get?_functions_addAll _ _ ?_
  rw [OrderedMap.get?_insert, if_pos rfl, hdescription]

end ForeignIndex

structure ForeignSource where
  preamble : Text
  header : Text
  rows : List Foreign.Row
  rest : Text
  declarations : List Foreign.Written
  /-- The lines of the block are those of the declarations, one after another. -/
  laid : Foreign.linesOf rows = declarations.flatMap (·.lines)
  noBrackets : Text.contains "]]".toList (Foreign.blockOf rows) = false
  spelled : Template.matchesAll Declaration.header header = true
  /-- The header is the first of the source. -/
  first : ∀ after, after <:+ preamble → after ≠ [] →
    Template.match? Declaration.header
      (after ++ (header ++ (Foreign.blockOf rows ++ ("]]".toList ++ rest)))) = none

namespace ForeignSource

open Foreign

def render (s : ForeignSource) : Text :=
  s.preamble ++ (s.header ++ (blockOf s.rows ++ ("]]".toList ++ s.rest)))

theorem closed_of_last {w : Written} {line : Text} (h : w.lines.getLast? = some line) :
    Closed line := by
  obtain ⟨before, rfl⟩ : ∃ before, line = before ++ [';'] := by
    cases w with
    | synonym s =>
      obtain rfl : s.line = line := Option.some.inj h
      refine ⟨typedefWord ++ (s.first.text ++ (s.type.text ++ (s.second.text ++ s.name.text))), ?_⟩
      simp only [Synonym.line, List.append_assoc]
    | body b =>
      rw [Written.lines, Body.lines, ← List.cons_append, List.getLast?_concat] at h
      obtain rfl := Option.some.inj h
      exact ⟨'\x7d' :: (b.third.text ++ b.name.text), by simp [closing]⟩
    | prototype p =>
      obtain rfl : p.line = line := Option.some.inj h
      refine ⟨p.result ++ (p.gap.text ++ (p.name.text ++
        (p.space ++ '(' :: (p.parameters ++ [')'])))), ?_⟩
      simp [Prototype.line]
  intro c hc
  rw [List.getLast?_concat] at hc
  exact .inr (Option.some.inj hc).symm

theorem getLast?_block (s : ForeignSource) : (blockOf s.rows).getLast? ≠ some ']' := by
  have hclosed : Closed (blockOf s.rows) := by
    refine closed_blockOf fun line hline => ?_
    rw [s.laid, List.getLast?_flatMap] at hline
    obtain ⟨w, _, hw⟩ := List.exists_of_findSome?_eq_some hline
    exact closed_of_last hw
  intro hlast
  rcases hclosed ']' hlast with hblank | hsemicolon
  · exact absurd hblank (by decide)
  · cases hsemicolon

theorem block?_render (s : ForeignSource) :
    Declaration.block? s.render = some (blockOf s.rows) := by
  obtain ⟨numbers, hmatch⟩ :=
    Declaration.match?_header s.spelled (blockOf s.rows ++ ("]]".toList ++ s.rest))
  have hne : s.header ++ (blockOf s.rows ++ ("]]".toList ++ s.rest)) ≠ [] :=
    List.append_ne_nil_of_right_ne_nil _
      (List.append_ne_nil_of_right_ne_nil _ (List.cons_ne_nil _ _))
  rw [Declaration.block?, render, Template.first?_append s.first hmatch hne]
  exact untilBrackets?_append s.noBrackets (getLast?_block s) s.rest

theorem ofSource_render (s : ForeignSource) :
    Declaration.ofSource s.render = s.declarations.map (·.declaration) := by
  rw [Declaration.ofSource, block?_render, Option.map_some, Option.getD_some, lines_blockOf, s.laid,
    ofLines_declarations]

section Ware

def row (line : Text) (trimmed : line.IsTrimmed) (oneLine : '\n' ∉ line ++ []) : Row :=
  ⟨[], line, [], rfl, trimmed, rfl, oneLine⟩

def space : Gap := ⟨[' '], by decide, by decide⟩

def wareInfo : Word := ⟨"WareInfo".toList, by decide, by decide⟩

def wareSource : ForeignSource where
  preamble := []
  header := "local ffi = require(\"ffi\")\nlocal C = ffi.C\nffi.cdef[[".toList
  rows := [row [] (by decide) (by decide),
    row "typedef struct \x7b".toList (by decide) (by decide),
    row "int amount;".toList (by decide) (by decide),
    row "\x7d WareInfo;".toList (by decide) (by decide),
    row "WareInfo GetWareInfo(int index);".toList (by decide) (by decide)]
  rest := []
  declarations :=
    [.body ⟨space, .struct, space, [⟨"int amount;".toList, by decide, nofun⟩], space, wareInfo⟩,
      .prototype ⟨wareInfo.text, by decide, by decide, by decide, by decide, space,
        ⟨"GetWareInfo".toList, by decide, by decide⟩, [], rfl, "int index".toList⟩]
  laid := by decide +kernel
  noBrackets := by decide +kernel
  spelled := by decide +kernel
  first := by
    rintro after hafter hne
    exact absurd (List.suffix_nil.1 hafter) hne

example : (ForeignIndex.empty.addSource wareSource.render).functions.get? "C.GetWareInfo".toList =
    some ("WareInfo `C.GetWareInfo`(int `index`)\n".toList ++
      "\n***\ntypedef struct \x7b int amount; \x7d `WareInfo`;".toList) := by
  rw [ForeignIndex.addSource, ofSource_render]
  decide +kernel

end Ware

end ForeignSource

end ScriptLens
