import ScriptLens.Proofs.Document.Line
import ScriptLens.Proofs.Markup.TagPlace
import ScriptLens.Proofs.Schema.Reading
import ScriptLens.Proofs.Script.Separation

/-!
The spans that are shown as ranges keep their text: it is found again at the range of the span
(`ranges_keep_text`). A position is lost inside a line break only (`Parted`), so for each kind of
span it is to be told why neither of its ends can be there: a variable and a tag have characters of
their own at their ends, and a line does not go into its break. The positions count in 32 bits as
long as the text is shorter than 4 GiB (`fits_of_boundary`).
-/

namespace ScriptLens

namespace Document

/-- A span is a part of the text, and its range leads back to this part. -/
def KeepsSpan (d : Document) (start stop : Nat) : Prop :=
  ∃ part : Text, d.text.slice? start stop = some part ∧ d.slice? (d.rangeOf start stop) = some part

theorem keepsSpan_of_parted {d : Document} {before part after : Text}
    (h : d.text = before ++ (part ++ after)) (hstart : Parted before (part ++ after))
    (hstop : Parted (before ++ part) after) :
    d.KeepsSpan before.byteSize (before ++ part).byteSize := by
  refine ⟨part, ?_, ?_⟩
  · rw [h, Text.byteSize_append, Text.slice?_append]
  · rw [rangeOf_append h, slice?_after h hstart hstop]

end Document

variable {d : Document}

theorem Place.StandsIn.keepsSpan {p : Place} (h : p.StandsIn d.text) :
    d.KeepsSpan p.occurrence.start p.occurrence.stop := by
  obtain ⟨after, htext, hstart, hstop⟩ := h
  exact Document.keepsSpan_of_parted htext hstart hstop

namespace Markup

/-- No line break is in front of a `<`, behind a `>` or at the end of the text. -/
theorem Cursor.EndsTag.parted {s : Cursor} {t before : Text} (h : s.EndsTag t)
    (ht : t = before ++ s.rest) : Parted before s.rest := by
  rcases h with ⟨x, hx⟩ | ⟨after, hafter⟩ | hend
  · have hcancel : before ++ s.rest = (x ++ ['>']) ++ s.rest := by
      rw [← ht, hx, List.append_assoc, List.singleton_append]
    rw [List.append_cancel_right hcancel]
    exact parted_concat (by decide)
  · rw [hafter]
    exact parted_cons (by decide)
  · rw [hend]
    exact parted_nil

theorem Tag.LiesIn.keepsSpan {tag : Tag} (h : tag.LiesIn d.text) :
    d.KeepsSpan tag.start tag.stop := by
  obtain ⟨s, ⟨first, body, hfirst, hstart, ⟨hrest, hoffset⟩, -⟩, hstop, hends⟩ := h
  obtain ⟨before, htext, hbefore⟩ := hfirst
  dsimp only at htext hbefore
  rw [Nat.zero_add] at hbefore
  rw [hrest] at htext
  have hopens : Parted before ('<' :: body ++ s.rest) := parted_cons (by decide)
  have hcloses : Parted (before ++ '<' :: body) s.rest := by
    apply hends.parted
    rw [htext, List.append_assoc]
  have hspan := Document.keepsSpan_of_parted htext hopens hcloses
  rwa [Text.byteSize_append, ← hbefore, ← hoffset, ← hstart, ← hstop] at hspan

end Markup

theorem SchemaText.keepsSpan_of_mem {span : SchemaSpan} (h : span ∈ (ofText d.text).spans) :
    d.KeepsSpan span.start span.stop := by
  rw [ofText_eq] at h
  obtain ⟨tag, htag, hstart, hstop⟩ := exists_opened_of_mem_marks h
  have hopened : tag ∈ (Markup.scan d.text).filterMap Markup.Event.opened? :=
    List.mem_filterMap.2 ⟨_, htag, rfl⟩
  rw [hstart, hstop]
  exact ((Markup.tagsLaid_scan d.text).lies tag hopened).1.keepsSpan

theorem Occurrence.keepsSpan_of_mem {o : Occurrence} (h : o ∈ ofDocument d.text) :
    d.KeepsSpan o.start o.stop := by
  obtain ⟨pieces, hvalid, htext, hfound⟩ := cut_ofDocument d.text
  have hplaces := occurrencesIn_eq [] pieces
  rw [Text.byteSize_nil] at hplaces
  rw [hfound, hplaces] at h
  obtain ⟨p, hp, rfl⟩ := List.mem_map.1 h
  have hstands := standsIn_of_mem_places hvalid hp
  rw [List.nil_append, ← htext] at hstands
  exact hstands.keepsSpan

namespace Line

theorem Ends.parted {content ending rest : Text} (h : Ends content ending rest) :
    Parted content (ending ++ rest) := by
  cases h with
  | feed h => exact fun hreturn => absurd hreturn h
  | returnFeed => exact parted_cons (by decide)
  | text => exact parted_nil

theorem parted_inside {before content ending rest x z : Text}
    (hlast : ∀ c ∈ before.getLast?, c = '\n') (hfeed : '\n' ∉ content)
    (hends : Ends content ending rest) (hcontent : content = x ++ z) :
    Parted (before ++ x) (z ++ (ending ++ rest)) := by
  cases z with
  | nil =>
    rw [List.append_nil] at hcontent
    subst hcontent
    intro hreturn
    by_cases hx : content = []
    · rw [hx, List.append_nil] at hreturn
      exact absurd (hlast '\r' hreturn) (by decide)
    · rw [List.getLast?_append_of_ne_nil _ hx] at hreturn
      exact hends.parted hreturn
  | cons c z =>
    apply parted_cons
    rintro rfl
    exact hfeed (by simp [hcontent])

theorem StandsIn.slice? {l : Line} {n : Nat} {ending left part right : Text}
    (h : l.StandsIn n ending d.text) (hcontent : l.content = left ++ (part ++ right)) :
    d.slice? (d.rangeOf (l.start + left.byteSize) (l.start + (left ++ part).byteSize)) =
      some part := by
  obtain ⟨before, rest, htext, hstart, -, hlast, hfeed, hends⟩ := h
  have hparts : d.text = (before ++ left) ++ (part ++ (right ++ (ending ++ rest))) := by
    rw [htext, hcontent]
    simp
  have hbegin : Parted (before ++ left) (part ++ (right ++ (ending ++ rest))) := by
    have hinside := parted_inside hlast hfeed hends hcontent
    rwa [List.append_assoc] at hinside
  have hend : Parted ((before ++ left) ++ part) (right ++ (ending ++ rest)) := by
    have hcontent' : l.content = (left ++ part) ++ right := by rw [hcontent, List.append_assoc]
    have hinside := parted_inside hlast hfeed hends hcontent'
    rwa [← List.append_assoc] at hinside
  rw [hstart, ← Text.byteSize_append, ← Text.byteSize_append, ← List.append_assoc,
    Document.rangeOf_append hparts]
  exact Document.slice?_after hparts hbegin hend

end Line

namespace Document

/-- Whatever a text is, each span that is shown as a range is found again there: those of its
variables, those of the definitions of a schema, and any part of a line. -/
theorem ranges_keep_text (d : Document) :
    (∀ o ∈ Occurrence.ofDocument d.text, d.KeepsSpan o.start o.stop) ∧
      (∀ span ∈ (SchemaText.ofText d.text).spans, d.KeepsSpan span.start span.stop) ∧
      ∀ n l, d.line? n = some l → ∀ start stop part, l.content.slice? start stop = some part →
        (d.lineSpan? n start stop).bind d.slice? = some part := by
  refine ⟨fun o ho => Occurrence.keepsSpan_of_mem ho,
    fun span hspan => SchemaText.keepsSpan_of_mem hspan, ?_⟩
  intro n l hline start stop part hpart
  obtain ⟨left, right, hcontent, rfl, rfl⟩ := Text.slice?_eq_some_iff.1 hpart
  obtain ⟨ending, hstands⟩ := Line.standsIn_of_line? hline
  rw [lineSpan?, hline, Option.map_some, Option.bind_some, ← Text.byteSize_append]
  exact hstands.slice? hcontent

example :
    let d : Document := ⟨"<!--\r\n😀--><a t=\"$v\r\n\"<b".toList, .markup⟩
    (Occurrence.ofDocument d.text).map (fun o => d.slice? (d.rangeOf o.start o.stop)) =
      [some "$v".toList] := by
  decide +kernel

end Document

end ScriptLens
