import ScriptLens.Markup.Name
import ScriptLens.Proofs.Markup.Entity

/-!
Writing a text as a value between double quotes, so that decoding the value gives the text back. A
character that no document may hold is left out.
-/

namespace ScriptLens

namespace Markup

def valueEntities : List (Char × Text) :=
  [('&', "amp".toList), ('<', "lt".toList), ('>', "gt".toList), ('"', "quot".toList)]

def escapeValueChar (c : Char) : Text :=
  match valueEntities.find? (·.1 == c) with
  | some (_, entity) => '&' :: (entity ++ [';'])
  | none => if isAllowed c then [c] else []

def escapeValue (t : Text) : Text :=
  t.flatMap escapeValueChar

@[simp] theorem escapeValue_nil : escapeValue [] = [] := rfl

@[simp] theorem escapeValue_cons (c : Char) (t : Text) :
    escapeValue (c :: t) = escapeValueChar c ++ escapeValue t := rfl

theorem encodedChar_escapeValueChar {c : Char} (h : isAllowed c = true) :
    EncodedChar c (escapeValueChar c) := by
  rw [escapeValueChar]
  split
  next c' entity hfound =>
    obtain rfl : c' = c := by simpa using List.find?_some hfound
    have hnamed : ∀ p ∈ valueEntities, p ∈ namedEntities := by decide
    exact .named (hnamed _ (List.mem_of_find?_eq_some hfound))
  next hnone =>
    have hamp : c ≠ '&' := by
      rintro rfl
      cases hnone
    rw [if_pos h]
    exact .plain hamp

theorem unescape_escapeValue {t : Text} (h : t.all isAllowed = true) :
    unescape (escapeValue t) = t := by
  induction t with
  | nil => rw [escapeValue_nil, unescape]
  | cons c t ih =>
    obtain ⟨hc, ht⟩ := Bool.and_eq_true_iff.1 h
    rw [escapeValue_cons, unescape_encodedChar (encodedChar_escapeValueChar hc), ih ht]

def isQuotable (c : Char) : Bool :=
  isAllowed c && c != '<' && c != '"'

theorem isQuotable_escapeValue (t : Text) : (escapeValue t).all isQuotable = true := by
  rw [escapeValue, List.all_flatMap, List.all_eq_true]
  intro c _
  rw [escapeValueChar]
  split
  next c' entity hfound =>
    have hall : ∀ p ∈ valueEntities, ('&' :: (p.2 ++ [';'])).all isQuotable = true := by
      decide
    exact hall _ (List.mem_of_find?_eq_some hfound)
  next hnone =>
    have hplain : c ≠ '<' ∧ c ≠ '"' := by
      constructor <;> (rintro rfl; cases hnone)
    split
    next hc => simp [isQuotable, hc, hplain]
    next => rfl

end Markup

end ScriptLens
