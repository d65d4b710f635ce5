import Mathlib.Data.List.Nodup
import ScriptLens.Proofs.Markup.Angles
import ScriptLens.Proofs.Text
import ScriptLens.Schema.Hover

/-!
What is said of a path that a schema describes: one line for each property on the way, under the
path that leads to it, and one for each property that the last segment could mean besides
(`Schema.pathText_of_path`). The walk keeps the properties of the type reached so far, and along
such a path it finds exactly one property at each segment but the last.
-/

namespace ScriptLens

namespace SchemaProperty

def trail (name : Text) (path : List SchemaProperty) : Text :=
  name ++ path.flatMap fun p => '.' :: p.name

def line (name : Text) (path : List SchemaProperty) : Text :=
  "- ".toList ++ trail name path ++ ": ".toList ++ (path.getLast?.bind (·.result)).getD []

theorem trail_cons (name : Text) (p : SchemaProperty) (path : List SchemaProperty) :
    trail name (p :: path) = trail (name ++ '.' :: p.name) path := by
  simp [trail]

theorem trail_concat (name : Text) (path : List SchemaProperty) (p : SchemaProperty) :
    trail name (path ++ [p]) = trail name path ++ '.' :: p.name := by
  simp [trail]

theorem line_cons (name : Text) (p : SchemaProperty) {path : List SchemaProperty}
    (h : path ≠ []) : line name (p :: path) = line (name ++ '.' :: p.name) path := by
  obtain ⟨q, more, rfl⟩ := List.exists_cons_of_ne_nil h
  rw [line, trail_cons, List.getLast?_cons_cons, line]

variable {p : SchemaProperty} {properties : List SchemaProperty}

theorem exists_around (keep : SchemaProperty → Bool) (hp : p ∈ properties) (hkeep : keep p = true)
    (hunique : (properties.map (·.name)).Nodup) :
    ∃ before after, properties.filter keep = before ++ p :: after ∧
      p.name ∉ (before ++ after).map (·.name) := by
  obtain ⟨before, after, hsplit⟩ := List.append_of_mem (List.mem_filter.2 ⟨hp, hkeep⟩)
  have hnodup : ((properties.filter keep).map (·.name)).Nodup :=
    hunique.sublist (List.filter_sublist.map _)
  refine ⟨before, after, hsplit, ?_⟩
  rw [hsplit, List.map_append, List.map_cons, List.nodup_middle, List.nodup_cons] at hnodup
  rw [List.map_append]
  exact hnodup.1

theorem filter_name (hp : p ∈ properties) (hunique : (properties.map (·.name)).Nodup) :
    properties.filter (·.name = p.name) = [p] := by
  obtain ⟨before, after, hsplit, hother⟩ :=
    exists_around (·.name = p.name) hp (by simp) hunique
  have hnone : before ++ after = [] := by
    refine List.eq_nil_iff_forall_not_mem.2 fun q hq => hother ?_
    have hkept : q ∈ properties.filter (·.name = p.name) := by
      rw [hsplit]
      exact (List.sublist_cons_self p after).append_left before |>.subset hq
    rw [← of_decide_eq_true (List.mem_filter.1 hkept).2]
    exact List.mem_map_of_mem hq
  obtain ⟨rfl, rfl⟩ := List.append_eq_nil_iff.1 hnone
  exact hsplit

end SchemaProperty

namespace Schema

open SchemaProperty

/-- A path of properties, each with a result and the only one of its name in its list, from one list
to another: after a property come those of the datatype that its type names. -/
inductive Leads (schema : Schema) :
    List SchemaProperty → List SchemaProperty → List SchemaProperty → Prop where
  | here (properties : List SchemaProperty) : schema.Leads properties [] properties
  | through {properties path last : List SchemaProperty} {p : SchemaProperty} {result type : Text}
    {d : Datatype} (mem : p ∈ properties) (unique : (properties.map (·.name)).Nodup)
    (said : p.result = some result) (typed : p.type = some type)
    (found : schema.datatype? type = some d) (rest : schema.Leads d.properties path last) :
    schema.Leads properties (p :: path) last

def heading (entry : SchemaEntry) : Text :=
  "Keyword: ".toList ++ entry.name ++ '\n' ::
    (details entry).flatMap fun (label, value) => '\n' :: label ++ ": ".toList ++ value ++ ['\n']

theorem name_eq_of_entry {schema : Schema} {name : Text} {entry : SchemaEntry}
    (h : schema.entry? name = some entry) : entry.name = name := by
  unfold entry? at h
  split at h
  next k hk =>
    obtain rfl := Option.some.inj h
    have hfound := List.find?_some (Option.filter_eq_some_iff.1 hk).1
    exact of_decide_eq_true hfound
  next =>
    obtain ⟨d, hd, rfl⟩ := Option.map_eq_some_iff.1 h
    have hfound := List.find?_some hd
    exact of_decide_eq_true hfound

variable {schema : Schema} {p : SchemaProperty} {properties inner last : List SchemaProperty}

theorem mentions_self (p : SchemaProperty) : mentions p.name p = true := by
  have hself := Text.startsWith_append p.name []
  rw [List.append_nil] at hself
  rw [mentions, Text.contains_of_startsWith hself, Bool.true_or]

theorem propertyLine_eq (name : Text) (path : List SchemaProperty) (q : SchemaProperty) :
    propertyLine (trail name path) q = q.result.map fun _ => line name (path ++ [q]) := by
  unfold propertyLine line
  rw [trail_concat, List.getLast?_concat]
  cases hresult : q.result with
  | none => rfl
  | some result => simp [hresult]

theorem filterMap_propertyLine (name : Text) (path found : List SchemaProperty) :
    found.filterMap (propertyLine (trail name path)) =
      (found.filter (·.result.isSome)).map fun q => line name (path ++ [q]) := by
  induction found with
  | nil => rfl
  | cons q found ih =>
    rw [List.filterMap_cons, propertyLine_eq, ih]
    cases hresult : q.result with
    | none => simp [hresult]
    | some result => simp [hresult]

theorem walkLines_named (name : Text) {rest : List Text} (hrest : rest ≠ []) {result type : Text}
    {d : Datatype} (hp : p ∈ properties) (hunique : (properties.map (·.name)).Nodup)
    (hresult : p.result = some result) (htype : p.type = some type)
    (hdatatype : schema.datatype? type = some d) :
    schema.walkLines name properties (p.name :: rest) =
      line name [p] :: schema.walkLines (name ++ '.' :: p.name) d.properties rest := by
  have hempty : rest.isEmpty = false := List.isEmpty_eq_false_iff.2 hrest
  have hnamed : schema.named properties p.name = [p] := by
    rw [named, filter_name hp hunique]
  have hline : [p].filterMap (propertyLine name) = [line name [p]] := by
    have hline := filterMap_propertyLine name [] [p]
    rw [trail, List.flatMap_nil, List.append_nil] at hline
    rw [hline, List.filter_cons_of_pos (by simp [hresult])]
    rfl
  have hfollowing : schema.following [p] properties = d.properties := by
    simp [following, hresult, htype, propertiesOf, hdatatype]
  rw [walkLines, hempty, if_neg Bool.false_ne_true, hnamed]
  simp only [hline, hfollowing, List.singleton_append]

/-- Along a path there is one line for each property; then the walk goes on in the last list. -/
theorem walkLines_of_leads (h : schema.Leads properties inner last) (name : Text)
    {rest : List Text} (hrest : rest ≠ []) :
    schema.walkLines name properties (inner.map (·.name) ++ rest) =
      (List.range inner.length).map (fun i => line name (inner.take (i + 1))) ++
        schema.walkLines (trail name inner) last rest := by
  induction h generalizing name with
  | here properties => simp [trail]
  | @through properties path last p _ _ d hp hunique hresult htype hdatatype _ ih =>
    -- A prefix of the path is `p` and a prefix of the rest, which is told from the name of `p` on.
    have hlines : ∀ i ∈ List.range path.length,
        line (name ++ '.' :: p.name) (path.take (i + 1)) =
          line name ((p :: path).take (i + 2)) := by
      intro i hi
      have hne : path.take (i + 1) ≠ [] := by
        have hpos := List.mem_range.1 hi
        rw [← List.length_pos_iff, List.length_take]
        omega
      rw [List.take_succ_cons, line_cons name p hne]
    rw [List.map_cons, List.cons_append, walkLines_named name (by simp [hrest]) hp hunique hresult
      htype hdatatype, ih, trail_cons, List.map_congr_left hlines, List.length_cons,
      List.range_succ_eq_map, List.map_cons, List.map_map, List.cons_append]
    rfl

theorem walkLines_last (name part : Text) (path last : List SchemaProperty) :
    schema.walkLines (trail name path) last [part] =
      (last.filter fun q => mentions part q && q.result.isSome).map fun q =>
        line name (path ++ [q]) := by
  have hlines : (last.filter (mentions part)).filterMap (propertyLine (trail name path)) =
      (last.filter fun q => mentions part q && q.result.isSome).map fun q =>
        line name (path ++ [q]) := by
    rw [filterMap_propertyLine, List.filter_filter]
    simp only [Bool.and_comm]
  rw [← hlines, walkLines, List.isEmpty_nil, if_pos rfl]
  cases last.filter (mentions part) with
  | nil => rfl
  | cons q found => simp only [walkLines, List.append_nil]

theorem pathText_of_lines {entry : SchemaEntry} {parts lines : List Text} (hlines : lines ≠ [])
    (h : schema.walkLines entry.name entry.properties (parts.drop 1) = lines) :
    schema.pathText entry parts =
      Markup.escapeAngles (heading entry) ++
        lines.flatMap fun line => '\n' :: '\n' :: Markup.escapeAngles line := by
  have hescaped : Markup.escapeAngles (lines.flatMap fun line => '\n' :: '\n' :: line) =
      lines.flatMap fun line => '\n' :: '\n' :: Markup.escapeAngles line := by
    rw [Markup.escapeAngles, List.flatMap_assoc]
    rfl
  unfold pathText
  rw [h]
  cases lines with
  | nil => exact absurd rfl hlines
  | cons line more =>
    dsimp only
    rw [Markup.escapeAngles_append, hescaped]
    rfl

/-- What is said of a path that the schema describes. There is a line for every property on the
way, and after these the properties with a result that the last segment could mean: the one it
names, and others, in the order of the list. -/
theorem pathText_of_path {name result : Text} {entry : SchemaEntry}
    (hentry : schema.entry? name = some entry) (hinner : schema.Leads entry.properties inner last)
    (hp : p ∈ last) (hunique : (last.map (·.name)).Nodup) (hresult : p.result = some result) :
    ∃ before after : List SchemaProperty,
      (last.filter fun q => mentions p.name q && q.result.isSome) = before ++ p :: after ∧
      p.name ∉ (before ++ after).map (·.name) ∧
      schema.pathText entry (name :: (inner ++ [p]).map (·.name)) =
        Markup.escapeAngles (heading entry) ++
          ((List.range inner.length).map (fun i => line name (inner.take (i + 1))) ++
            (before ++ p :: after).map fun q => line name (inner ++ [q])).flatMap fun line =>
              '\n' :: '\n' :: Markup.escapeAngles line := by
  have hkeep : (mentions p.name p && p.result.isSome) = true := by
    rw [mentions_self, hresult]
    rfl
  obtain ⟨before, after, hsplit, hother⟩ :=
    exists_around (fun q => mentions p.name q && q.result.isSome) hp hkeep hunique
  refine ⟨before, after, hsplit, hother, pathText_of_lines (by simp) ?_⟩
  rw [name_eq_of_entry hentry, List.drop_one, List.tail_cons, List.map_append,
    walkLines_of_leads hinner name (by simp), ← hsplit]
  exact congrArg _ (walkLines_last name p.name inner last)

section Ship

def cargo : SchemaProperty :=
  ⟨"cargo".toList, some "what it <carries>".toList, some "hold".toList⟩

def amount : SchemaProperty := ⟨"amount".toList, some "how much".toList, none⟩

def hold : Datatype :=
  ⟨"hold".toList, none, none,
    [⟨"amount.\x7b$ware\x7d".toList, some "of a ware".toList, none⟩, amount,
      ⟨"amounts".toList, none, none⟩, ⟨"free".toList, some "room left".toList, none⟩]⟩

def ship : Datatype :=
  ⟨"ship".toList, none, some "is one".toList,
    [⟨"cargoname".toList, some "its name".toList, none⟩, cargo]⟩

def ships : Schema := ⟨[], [ship, hold]⟩

theorem ship_leads : ships.Leads ship.properties [cargo] hold.properties :=
  .through (by decide) (by decide) rfl rfl (by decide) (.here _)

theorem shipAmount_text :
    (∃ before after : List SchemaProperty,
      (hold.properties.filter fun q => mentions amount.name q && q.result.isSome) =
        before ++ amount :: after ∧
      amount.name ∉ (before ++ after).map (·.name) ∧
      ships.pathText (.datatype ship) ("ship".toList :: [cargo.name, amount.name]) =
        Markup.escapeAngles (heading (.datatype ship)) ++
          ([line "ship".toList [cargo]] ++ (before ++ amount :: after).map fun q =>
            line "ship".toList ([cargo] ++ [q])).flatMap fun line =>
              '\n' :: '\n' :: Markup.escapeAngles line) ∧
    ships.pathText (.datatype ship) ["ship".toList, "cargo".toList, "amount".toList] =
      "Keyword: ship\n\nSuffix: is one\n".toList ++
        "\n\n- ship.cargo: what it &lt;carries&gt;".toList ++
        "\n\n- ship.cargo.amount.\x7b$ware\x7d: of a ware".toList ++
        "\n\n- ship.cargo.amount: how much".toList := by
  have hentry : ships.entry? "ship".toList = some (.datatype ship) := by decide
  have hamount : amount ∈ hold.properties := by decide
  have hunique : (hold.properties.map (·.name)).Nodup := by decide
  exact ⟨pathText_of_path hentry ship_leads hamount hunique rfl, by decide +kernel⟩

end Ship

end Schema

end ScriptLens
