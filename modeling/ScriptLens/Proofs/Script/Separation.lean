import ScriptLens.Proofs.Markup.Attributes
import ScriptLens.Proofs.Script.TableRenaming

/-!
The variables of any text, well formed or not. Its attributes stand in it one after another, so it
can be cut into pieces as a written one can (`cut_ofDocument`); and no piece begins with its
variable, so something stands between any two of them.
-/

namespace ScriptLens

open Markup Occurrence

def Cut (offset : Nat) (t : Text) (found : List Occurrence) : Prop :=
  ∃ pieces : List Piece, (∀ q ∈ pieces, q.Valid) ∧ t = spell pieces ∧
    found = occurrencesIn offset pieces

section Cuts

variable {offset : Nat} {t u : Text}

theorem cut_bare (offset : Nat) (t : Text) : Cut offset t [] :=
  ⟨[.other t], by simp [Piece.Valid], by simp [Piece.text],
    by simp [occurrencesIn, Piece.occurrence?]⟩

theorem Cut.append {found more : List Occurrence} (h : Cut offset t found)
    (h' : Cut (offset + t.byteSize) u more) : Cut offset (t ++ u) (found ++ more) := by
  obtain ⟨pieces, hvalid, rfl, rfl⟩ := h
  obtain ⟨others, hothers, rfl, rfl⟩ := h'
  refine ⟨pieces ++ others, fun q hq => ?_, (spell_append _ _).symm,
    (occurrencesIn_append _ _ _).symm⟩
  rcases List.mem_append.1 hq with hq | hq
  · exact hvalid q hq
  · exact hothers q hq

theorem stillAssigned_quote {quote : Char} (h : isQuote quote = true) :
    stillAssigned false quote = false := by
  rcases isQuote_iff.1 h with rfl | rfl <;> decide

/-- The value of an attribute is cut with its quotes: a declared name is one piece, and any other
value begins with its opening quote as the piece before a variable does. -/
theorem cut_quoted {a : Attribute} (hquote : isQuote a.quote = true)
    (hstart : a.valueStart = offset + a.quote.utf8Size) (parent : Option Text) (tag : Text) :
    Cut offset a.quoted (inAttribute parent tag a) := by
  unfold inAttribute
  split
  next =>
    refine ⟨[.declared a.quote a.value], by simpa [Piece.Valid] using hquote, ?_, ?_⟩
    · simp [Piece.text, Attribute.quoted]
    · simp [occurrencesIn, Piece.occurrence?, hstart]
  next =>
    obtain ⟨pieces, hspell, hspelled⟩ :=
      Spelled.exists_pieces (Text.contains tableMarker a.value) false a.quote a.value
    have hvalue := hspelled.inValue_eq hspell offset
    rw [stillAssigned_quote hquote, ← hstart] at hvalue
    have hpieces : Cut offset (a.quote :: a.value) (occurrencesIn offset pieces) :=
      ⟨pieces, hspelled.valid, hspell.symm, rfl⟩
    have hclosed := hpieces.append (cut_bare _ [a.quote])
    rw [List.append_nil] at hclosed
    rw [hvalue]
    exact hclosed

theorem cut_laid {as : List Attribute} (h : Laid offset t as) (parent : Option Text) (tag : Text) :
    Cut offset t (as.flatMap (inAttribute parent tag)) := by
  induction h with
  | nil => exact cut_bare _ _
  | @cons offset gap rest a as quote start others ih =>
    have hquoted : Cut (offset + gap.byteSize) a.quoted (inAttribute parent tag a) :=
      cut_quoted quote (by simp [start, Nat.add_assoc]) parent tag
    rw [Text.byteSize_append, ← Nat.add_assoc] at ih
    exact (cut_bare offset gap).append (hquoted.append ih)

theorem cut_ofEvents {events : List Event} (h : Laid offset t (events.flatMap Event.attributes))
    (opened : List Text) : Cut offset t (ofEvents opened events) := by
  induction events generalizing offset t opened with
  | nil => exact cut_bare offset t
  | cons event rest ih =>
    rw [List.flatMap_cons] at h
    cases event with
    | opened tag =>
      obtain ⟨u, v, rfl, htag, hrest⟩ := h.exists_cut
      exact (cut_laid htag opened.head? tag.name).append (ih hrest _)
    | closed name => exact ih h _
    | text content => exact ih h _
    | fault f => exact ih h _

theorem cut_ofDocument (t : Text) : Cut 0 t (ofDocument t) :=
  cut_ofEvents (laid_scan t) []

end Cuts

/-! Something stands between two variables. -/

theorem Place.Before.stop_lt {p q : Place} (h : p.Before q) :
    p.occurrence.stop < q.occurrence.start := by
  obtain ⟨x, hx, hbefore⟩ := h
  obtain ⟨c, y, rfl⟩ := List.exists_cons_of_ne_nil hx
  have hpos := c.utf8Size_pos
  simp only [occurrence, hbefore, Text.byteSize_append, Text.byteSize_cons]
  omega

theorem Place.start_le (p : Place) : p.occurrence.start ≤ p.occurrence.stop := by
  simp [occurrence]

theorem exists_places (uri : Text) (d : Document) :
    ∃ found : List Place, found.Pairwise Place.Before ∧
      Occurrence.ofDocument d.text = found.map Place.occurrence ∧
      VariableTable.scanned uri d = found.map (VariableTable.recorded uri) := by
  obtain ⟨pieces, hvalid, htext, hfound⟩ := cut_ofDocument d.text
  have hplaces := occurrencesIn_eq [] pieces
  rw [Text.byteSize_nil] at hplaces
  exact ⟨places [] pieces, pairwise_places [] pieces, hfound.trans hplaces,
    VariableTable.scanned_eq uri hvalid htext hfound⟩

end ScriptLens
