import ScriptLens.Markup.Event

/-!
Selectors of elements by their path: `/a/b` for a child, `//b` for a descendant, `*` for any name,
and `[@x]` or `[@x='v']` for an attribute. A selector that begins with a name selects at any depth.
-/

namespace ScriptLens

/-- An open element with its decoded attributes; of two with one name the last counts. -/
structure Element where
  name : Text
  attributes : List (Text × Text)
  deriving DecidableEq, Repr

def Element.attribute? (e : Element) (name : Text) : Option Text :=
  e.attributes.reverse.lookup name

structure SelectorStep where
  descendant : Bool
  /-- No name accepts every name. -/
  name : Option Text
  /-- An attribute that must be there, and the value that it must have. -/
  predicate : Option (Text × Option Text)
  deriving DecidableEq, Repr

abbrev Selector := List SelectorStep

namespace SelectorStep

def accepts (step : SelectorStep) (e : Element) : Bool :=
  (step.name.isNone || step.name = some e.name) &&
    match step.predicate with
    | none => true
    | some (key, none) => (e.attribute? key).isSome
    | some (key, some value) => e.attribute? key = some value

def isQuote (c : Char) : Bool :=
  c == '\'' || c == '"'

def predicate? (t : Text) : Option (Text × Option Text) :=
  (Text.before? [']'] t).bind fun inner =>
    (Text.after? ['@'] inner).map fun inner =>
      match Text.splitFirst? (· == '=') inner with
      | some (key, value) =>
        (Text.trim key,
          some (Text.trimEndWhile isQuote ((Text.trim value).dropWhile isQuote)))
      | none => (Text.trim inner, none)

def ofName? (descendant : Bool) (name : Text) (predicate : Option (Text × Option Text)) :
    Option SelectorStep :=
  if name.isEmpty then none
  else some { descendant, name := if name = ['*'] then none else some name, predicate }

def ofText? (descendant : Bool) (t : Text) : Option SelectorStep :=
  match Text.splitFirst? (· == '[') t with
  | some (name, rest) => (predicate? rest).bind fun p => ofName? descendant name (some p)
  | none => ofName? descendant t none

end SelectorStep

namespace Selector

/-- The pieces between slashes; a slash inside brackets does not count. -/
def pieces : (inBrackets : Bool) → Text → List Text
  | _, [] => [[]]
  | inBrackets, c :: t =>
    if c = '/' ∧ inBrackets = false then [] :: pieces false t
    else
      match pieces (if c = '[' then true else if c = ']' then false else inBrackets) t with
      | [] => [[c]]
      | piece :: more => (c :: piece) :: more

/-- The steps of the pieces after a slash; an empty piece makes the slash a double one. -/
def afterSlash : List Text → Option Selector
  | [] => some []
  | [] :: piece :: more =>
    (SelectorStep.ofText? true piece).bind fun step => (afterSlash more).map (step :: ·)
  | piece :: more =>
    (SelectorStep.ofText? false piece).bind fun step => (afterSlash more).map (step :: ·)

def ofText? (t : Text) : Option Selector :=
  match Text.trim t with
  | [] => none
  | c :: t =>
    match pieces false (c :: t) with
    | [] :: more => afterSlash more
    | piece :: more =>
      (SelectorStep.ofText? true piece).bind fun step => (afterSlash more).map (step :: ·)
    | [] => none

def outers : List Element → List (List Element)
  | [] => [[]]
  | e :: rest => (e :: rest) :: outers rest

/-- Whether the steps, last one first, lead from the bottom of a stack to its top. The stack has its
innermost element first. -/
def leads : List SelectorStep → List Element → Bool
  | [], stack => stack.isEmpty
  | _ :: _, [] => false
  | step :: earlier, e :: outer =>
    step.accepts e &&
      if step.descendant then (outers outer).any (leads earlier) else leads earlier outer

def selects (selector : Selector) (stack : List Element) : Bool :=
  leads selector.reverse stack

end Selector

namespace Element

open Markup

def ofTag (tag : Tag) : Element where
  name := tag.name
  attributes := tag.attributes.map fun a => (a.name, a.decoded)

/-- The values of an attribute on the selected elements. A closing tag closes the innermost element,
whatever its name; a fault is an error. -/
def valuesIn (selector : Selector) (key : Text) : List Element → List Event →
    Except Fault (List Text)
  | _, [] => .ok []
  | _, .fault f :: _ => .error f
  | stack, .text _ :: events => valuesIn selector key stack events
  | stack, .closed _ :: events => valuesIn selector key stack.tail events
  | stack, .opened tag :: events =>
    let e := ofTag tag
    let found := if selector.selects (e :: stack) then (e.attribute? key).toList else []
    (valuesIn selector key (e :: stack) events).map (found ++ ·)

/-- A target names an attribute, with or without a sign in front. -/
def targetAttribute (target : Text) : Text :=
  (Text.after? ['@'] target).getD target

def values (selector : Selector) (target : Text) (t : Text) : Except Fault (List Text) :=
  valuesIn selector (targetAttribute target) [] (scan t)

end Element

end ScriptLens
