import ScriptLens.Proofs.Markup.Report
import ScriptLens.Schema.Selector

/-!
What a selector finds in a written tree. The stack of open elements is at each opened tag the path
from there to the root, because content closes whatever it opens; so the values that are found are
those on the selected paths of the tree, in the order in which the tree is written.
-/

namespace ScriptLens

namespace Markup

/-! The paths of the elements that are opened, in order. A path has its innermost tag first. -/

def Leaf.paths (outer : List StartTag) : Leaf → List (List StartTag)
  | .empty tag => [tag :: outer]
  | _ => []

def Content.paths (outer : List StartTag) : Content → List (List StartTag)
  | .last _ => []
  | .leaf _ l rest => l.paths outer ++ rest.paths outer
  | .element _ tag inner _ rest =>
    (tag :: outer) :: inner.paths (tag :: outer) ++ rest.paths outer

def Element.paths : Element → List (List StartTag)
  | .empty tag => [[tag]]
  | .paired tag inner _ => [tag] :: inner.paths [tag]

def Tree.paths (t : Tree) : List (List StartTag) :=
  t.root.paths

namespace StartTag

def Distinct (tag : StartTag) : Prop :=
  (tag.attributes.map (·.name.text)).Nodup

instance (tag : StartTag) : Decidable tag.Distinct :=
  inferInstanceAs (Decidable (tag.attributes.map (·.name.text)).Nodup)

end StartTag

end Markup

namespace Element

open Markup

def ofStartTag (tag : StartTag) : Element where
  name := tag.name.text
  attributes := tag.attributes.map fun a => (a.name.text, unescape a.value)

theorem decoded_placeAll (offset : Nat) (as : List WrittenAttribute) :
    (WrittenAttribute.placeAll offset as).map (fun a => (a.name, a.decoded)) =
      as.map fun a => (a.name.text, unescape a.value) := by
  induction as generalizing offset with
  | nil => rfl
  | cons a as ih =>
    simp only [WrittenAttribute.placeAll, List.map_cons, ih]
    rfl

@[simp] theorem ofTag_placed (tag : StartTag) (isEmpty : Bool) (offset : Nat) :
    ofTag (tag.placed isEmpty offset) = ofStartTag tag := by
  unfold ofTag ofStartTag StartTag.placed
  rw [decoded_placeAll]

/-- Of two attributes with one name the last counts, which makes no difference if there are none. -/
theorem lookup_reverse {as : List WrittenAttribute} (h : (as.map (·.name.text)).Nodup) (name : Text) :
    (as.map fun a => (a.name.text, unescape a.value)).reverse.lookup name =
      (as.find? (·.name.text = name)).map fun a => unescape a.value := by
  induction as with
  | nil => rfl
  | cons a as ih =>
    rw [List.map_cons, List.nodup_cons] at h
    simp only [List.map_cons, List.reverse_cons, List.lookup_append, ih h.2]
    by_cases hname : a.name.text = name
    · have hnone : as.find? (·.name.text = name) = none := by
        refine List.find?_eq_none.2 fun b hb hbname => h.1 ?_
        rw [hname, ← of_decide_eq_true hbname]
        exact List.mem_map_of_mem hb
      simp [hname, hnone]
    · have hother : (name == a.name.text) = false := by simpa using Ne.symm hname
      simp [hname, List.lookup_cons, hother]

theorem attribute?_ofStartTag {tag : StartTag} (h : tag.Distinct) (name : Text) :
    (ofStartTag tag).attribute? name = tag.value? name :=
  lookup_reverse h name

/-- What a selector finds at the end of a path: the value of an attribute, if it selects the path and
the element there carries the attribute. -/
def foundAt (selector : Selector) (name : Text) (path : List StartTag) : Option Text :=
  if selector.selects (path.map ofStartTag) then path.head?.bind (·.value? name) else none

def foundOn (selector : Selector) (name : Text) (paths : List (List StartTag)) : List Text :=
  paths.filterMap (foundAt selector name)

section Reading

variable (selector : Selector) (name : Text) (rest : List Event)

theorem foundOn_cons (path : List StartTag) (paths : List (List StartTag)) :
    foundOn selector name (path :: paths) =
      (foundAt selector name path).toList ++ foundOn selector name paths := by
  unfold foundOn
  rw [List.filterMap_cons]
  cases foundAt selector name path <;> rfl

theorem foundOn_append (paths more : List (List StartTag)) :
    foundOn selector name (paths ++ more) =
      foundOn selector name paths ++ foundOn selector name more :=
  List.filterMap_append

theorem map_nil_append {ε α : Type} (r : Except ε (List α)) : r.map ([] ++ ·) = r := by
  cases r <;> rfl

theorem map_append_map {ε α : Type} (r : Except ε (List α)) (as bs : List α) :
    (r.map (bs ++ ·)).map (as ++ ·) = r.map (as ++ bs ++ ·) := by
  cases r <;> simp [Except.map]

theorem valuesIn_opened {tag : StartTag} (h : tag.Distinct) (outer : List StartTag) (isEmpty : Bool)
    (offset : Nat) :
    valuesIn selector name (outer.map ofStartTag) (.opened (tag.placed isEmpty offset) :: rest) =
      (valuesIn selector name ((tag :: outer).map ofStartTag) rest).map
        ((foundAt selector name (tag :: outer)).toList ++ ·) := by
  simp only [valuesIn, ofTag_placed, foundAt, List.map_cons, List.head?_cons, Option.bind_some,
    attribute?_ofStartTag h]
  split <;> rfl

theorem valuesIn_closed (tag : StartTag) (outer : List StartTag) (closing : Text) :
    valuesIn selector name ((tag :: outer).map ofStartTag) (.closed closing :: rest) =
      valuesIn selector name (outer.map ofStartTag) rest := rfl

theorem valuesIn_text (stack : List Element) (t : CharData) :
    valuesIn selector name stack (t.events ++ rest) = valuesIn selector name stack rest := by
  unfold CharData.events
  split <;> rfl

theorem valuesIn_leaf (outer : List StartTag) (l : Leaf) (offset : Nat)
    (h : ∀ path ∈ l.paths outer, ∀ tag ∈ path, tag.Distinct) :
    valuesIn selector name (outer.map ofStartTag) (l.events offset ++ rest) =
      (valuesIn selector name (outer.map ofStartTag) rest).map
        (foundOn selector name (l.paths outer) ++ ·) := by
  cases l with
  | comment c => exact (map_nil_append _).symm
  | cdata t => exact (map_nil_append _).symm
  | empty tag =>
    have htag : tag.Distinct := h (tag :: outer) List.mem_cons_self tag List.mem_cons_self
    simp only [Leaf.events, List.cons_append, List.nil_append]
    rw [valuesIn_opened _ _ _ htag, valuesIn_closed, Leaf.paths, foundOn_cons]
    simp [foundOn]

/-- What is found in content is what is found on its paths, and all after it is read as if it were
not there. -/
theorem valuesIn_content (outer : List StartTag) (c : Content) (offset : Nat)
    (h : ∀ path ∈ c.paths outer, ∀ tag ∈ path, tag.Distinct) :
    valuesIn selector name (outer.map ofStartTag) (c.events offset ++ rest) =
      (valuesIn selector name (outer.map ofStartTag) rest).map
        (foundOn selector name (c.paths outer) ++ ·) := by
  induction c generalizing outer rest offset with
  | last t =>
    rw [Content.events, valuesIn_text]
    exact (map_nil_append _).symm
  | leaf t l more ih =>
    obtain ⟨hleaf, hmore⟩ := List.forall_mem_append.1 h
    simp only [Content.events, List.append_assoc]
    rw [valuesIn_text, valuesIn_leaf _ _ _ _ _ _ hleaf, ih _ _ _ hmore, map_append_map,
      ← foundOn_append]
    rfl
  | element t tag inner space more ihInner ihMore =>
    obtain ⟨hpath, hrest⟩ := List.forall_mem_cons.1 h
    obtain ⟨hinner, hmore⟩ := List.forall_mem_append.1 hrest
    have htag : tag.Distinct := hpath tag List.mem_cons_self
    simp only [Content.events, List.append_assoc, List.cons_append]
    rw [valuesIn_text, valuesIn_opened _ _ _ htag, ihInner _ _ _ hinner, valuesIn_closed,
      ihMore _ _ _ hmore, map_append_map, map_append_map]
    simp [Content.paths, foundOn_cons, foundOn_append]

theorem valuesIn_element (e : Markup.Element) (offset : Nat)
    (h : ∀ path ∈ e.paths, ∀ tag ∈ path, tag.Distinct) :
    valuesIn selector name [] (e.events offset) = .ok (foundOn selector name e.paths) := by
  cases e with
  | empty tag =>
    have htag : tag.Distinct := h [tag] List.mem_cons_self tag List.mem_cons_self
    have hopened := valuesIn_opened selector name [.closed tag.name.text] htag [] true offset
    rw [valuesIn_closed] at hopened
    exact hopened.trans (congrArg Except.ok (foundOn_cons selector name [tag] []).symm)
  | paired tag inner space =>
    obtain ⟨hpath, hinner⟩ := List.forall_mem_cons.1 h
    have htag : tag.Distinct := hpath tag List.mem_cons_self
    have hopened := valuesIn_opened selector name
      (inner.events (offset + (tag.render false).byteSize) ++ [.closed tag.name.text]) htag [] false
      offset
    rw [valuesIn_content selector name _ [tag] inner _ hinner, valuesIn_closed, map_append_map]
      at hopened
    refine hopened.trans (congrArg Except.ok ?_)
    simp [Element.paths, foundOn_cons]

end Reading

theorem targetAttribute_eq {target name : Text}
    (h : target = '@' :: name ∨ target = name ∧ name.head? ≠ some '@') :
    targetAttribute target = name := by
  unfold targetAttribute
  rcases h with rfl | ⟨rfl, hsign⟩
  · rfl
  · cases target with
    | nil => rfl
    | cons c t =>
      have hc : ¬ '@' = c := by
        rintro rfl
        exact hsign rfl
      simp [Text.after?, hc]

/-- A selector finds in a written tree, in order and decoded, the values of an attribute on those
elements that carry it and to which a selected path leads. -/
theorem values_of_tree (t : Tree) (selector : Selector) {target name : Text}
    (hdistinct : ∀ path ∈ t.paths, ∀ tag ∈ path, tag.Distinct)
    (htarget : target = '@' :: name ∨ target = name ∧ name.head? ≠ some '@') :
    values selector target t.render =
      .ok (t.paths.filterMap fun path =>
        if selector.selects (path.map ofStartTag) then path.head?.bind (·.value? name) else none) := by
  unfold values
  rw [targetAttribute_eq htarget, scan_eq_events]
  exact valuesIn_element selector name t.root _ hdistinct

def groupedItems : Tree where
  prolog := .none
  root :=
    .paired (.withAttribute (.letter 'r' rfl) (.letter 'k' rfl) .double ['a'] rfl)
      (.element .none (.withAttribute (.letter 'g' rfl) (.letter 'k' rfl) .double ['b'] rfl)
        (.leaf .none
          (.empty (.withAttribute (.letter 'i' rfl) (.letter 'k' rfl) .double "&lt;".toList rfl))
          (.last .none))
        .none
        (.leaf .none
          (.empty (.withAttribute (.letter 'i' rfl) (.letter 'k' rfl) .double ['c'] rfl))
          (.last .none)))
      .none
  tail := .none

theorem groupedItems_values :
    ∃ selector, Selector.ofText? "//g[@k='b']/*".toList = some selector ∧
      (∀ path ∈ groupedItems.paths, ∀ tag ∈ path, tag.Distinct) ∧
      values selector ['@', 'k'] groupedItems.render = .ok [['<']] := by
  have hdistinct : ∀ path ∈ groupedItems.paths, ∀ tag ∈ path, tag.Distinct := by decide +kernel
  let selector : Selector :=
    [⟨true, some ['g'], some (['k'], some ['b'])⟩, ⟨false, none, none⟩]
  refine ⟨selector, by decide +kernel, hdistinct, ?_⟩
  exact (values_of_tree groupedItems selector hdistinct (.inl rfl)).trans
    (congrArg Except.ok (by decide +kernel))

end Element

end ScriptLens
