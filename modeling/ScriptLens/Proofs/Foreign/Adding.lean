import ScriptLens.Foreign.Index
import ScriptLens.Proofs.OrderedMap

/-!
What declarations add to an index. A type is described by the last declaration of it; the functions
only grow at their end, and those that are described keep what they have. So the same source adds
nothing when it is read again at once.
-/

namespace ScriptLens

def Declaration.type? : Declaration → Option (Text × Text)
  | .typedef name content => some (name, ForeignIndex.typeDescription name content)
  | .prototype .. => none

def Declaration.function? : Declaration → Option Text
  | .typedef .. => none
  | .prototype _ name _ => some (ForeignIndex.qualified name)

namespace ForeignIndex

theorem eq_of_parts {index index' : ForeignIndex} (htypes : index.types = index'.types)
    (hfunctions : index.functions = index'.functions) : index = index' := by
  cases index
  cases index'
  cases htypes
  cases hfunctions
  rfl

section Run

variable (index : ForeignIndex) (d : Declaration) (ds : List Declaration)

theorem types_add : (index.add d).types = index.types.putAll d.type?.toList := by
  cases d with
  | typedef name content => rfl
  | prototype result name parameters =>
    rw [add]
    split <;> rfl

theorem types_foldl_add :
    (ds.foldl add index).types = index.types.putAll (ds.filterMap (·.type?)) := by
  induction ds generalizing index with
  | nil => rfl
  | cons d ds ih =>
    rw [List.foldl_cons, ih, types_add]
    cases d with
    | typedef name content => rfl
    | prototype result name parameters => rfl

theorem isPrefix_functions_add :
    index.functions.entries <+: (index.add d).functions.entries := by
  cases d with
  | typedef name content => exact List.prefix_rfl
  | prototype result name parameters =>
    rw [add]
    split
    next => exact List.prefix_rfl
    next hnew =>
      rw [OrderedMap.contains_iff] at hnew
      exact ⟨_, (OrderedMap.put_of_not_mem hnew).symm⟩

theorem isPrefix_functions_foldl_add :
    index.functions.entries <+: (ds.foldl add index).functions.entries := by
  induction ds generalizing index with
  | nil => exact List.prefix_rfl
  | cons d ds ih => exact (isPrefix_functions_add index d).trans (ih (index.add d))

variable {d} in
theorem mem_functions_add {key : Text} (h : d.function? = some key) :
    key ∈ (index.add d).functions.keys := by
  cases d with
  | typedef name content => cases h
  | prototype result name parameters =>
    obtain rfl := Option.some.inj h
    rw [add]
    split
    next hheld => exact OrderedMap.contains_iff.1 hheld
    next => exact OrderedMap.mem_keys_put.2 (.inl rfl)

theorem mem_functions_foldl_add {key : Text} (h : key ∈ ds.filterMap (·.function?)) :
    key ∈ (ds.foldl add index).functions.keys := by
  induction ds generalizing index with
  | nil => cases h
  | cons d ds ih =>
    obtain ⟨e, he, hkey⟩ := List.mem_filterMap.1 h
    rcases List.mem_cons.1 he with rfl | he
    · exact (isPrefix_functions_foldl_add (index.add e) ds).map Prod.fst |>.subset
        (mem_functions_add index hkey)
    · exact ih (index.add d) (List.mem_filterMap.2 ⟨e, he, hkey⟩)

variable {ds} in
theorem functions_foldl_add_of_described
    (h : ∀ key ∈ ds.filterMap (·.function?), key ∈ index.functions.keys) :
    (ds.foldl add index).functions = index.functions := by
  induction ds generalizing index with
  | nil => rfl
  | cons d ds ih =>
    have hstep : (index.add d).functions = index.functions := by
      cases d with
      | typedef name content => rfl
      | prototype result name parameters =>
        exact congrArg functions (if_pos (OrderedMap.contains_iff.2 (h _ List.mem_cons_self)))
    rw [List.foldl_cons, ih, hstep]
    intro key hkey
    rw [hstep]
    refine h key ?_
    rw [List.filterMap_cons]
    split
    next => exact hkey
    next => exact List.mem_cons_of_mem _ hkey

end Run

theorem isPrefix_functions_foldl_addSource (index : ForeignIndex) (sources : List Text) :
    index.functions.entries <+: (sources.foldl addSource index).functions.entries := by
  induction sources generalizing index with
  | nil => exact List.prefix_rfl
  | cons source sources ih =>
    exact (isPrefix_functions_foldl_add index _).trans (ih (index.addSource source))

/-- A source that is read twice in a row leaves the index as it is after the first time, whatever
was read before it, and nothing that is read later changes the description of a function or the
order of those that are there. -/
theorem reading_again (index : ForeignIndex) (source : Text) (more : List Text) :
    (index.addSource source).addSource source = index.addSource source ∧
      index.functions.entries <+: (more.foldl addSource index).functions.entries ∧
      ∀ key description, index.functions.get? key = some description →
        (more.foldl addSource index).functions.get? key = some description := by
  have hlater := isPrefix_functions_foldl_addSource index more
  refine ⟨eq_of_parts ?_ ?_, hlater, fun _ _ => OrderedMap.get?_of_isPrefix hlater⟩
  · simp only [addSource, types_foldl_add, OrderedMap.putAll_putAll]
  · exact functions_foldl_add_of_described _ fun key => mem_functions_foldl_add index _

end ForeignIndex

end ScriptLens
