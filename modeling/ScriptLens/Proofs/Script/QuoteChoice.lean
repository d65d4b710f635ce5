import Mathlib.Data.List.Forall2
import ScriptLens.Proofs.Markup.Attributes
import ScriptLens.Proofs.Script.Piece
import ScriptLens.Proofs.Script.TreeVariables

/-!
One tree written twice, with other quotes around its values the second time. The quote is the
character before a value, so it counts where a value begins with a variable and nowhere else: such a
variable is found in double quotes only (`variables_by_quotes`).
-/

namespace ScriptLens

namespace Markup

/-! Trees that differ in the quotes around values alone. -/

structure WrittenAttribute.SameButQuote (a b : WrittenAttribute) : Prop where
  gap : a.gap = b.gap
  name : a.name = b.name
  before : a.quoting.before = b.quoting.before
  after : a.quoting.after = b.quoting.after
  value : a.value = b.value

structure StartTag.SameButQuotes (tag tag' : StartTag) : Prop where
  name : tag.name = tag'.name
  attributes : List.Forall₂ WrittenAttribute.SameButQuote tag.attributes tag'.attributes
  tail : tag.tail = tag'.tail

inductive Leaf.SameButQuotes : Leaf → Leaf → Prop
  | comment (c : Comment) : SameButQuotes (.comment c) (.comment c)
  | cdata (t : CharSection) : SameButQuotes (.cdata t) (.cdata t)
  | empty {tag tag' : StartTag} (htag : tag.SameButQuotes tag') :
    SameButQuotes (.empty tag) (.empty tag')

inductive Content.SameButQuotes : Content → Content → Prop
  | last (t : CharData) : SameButQuotes (.last t) (.last t)
  | leaf {l l' : Leaf} {rest rest' : Content} (t : CharData) (hl : l.SameButQuotes l')
    (hrest : SameButQuotes rest rest') : SameButQuotes (.leaf t l rest) (.leaf t l' rest')
  | element {tag tag' : StartTag} {inner inner' rest rest' : Content} (t : CharData)
    (htag : tag.SameButQuotes tag') (hinner : SameButQuotes inner inner') (space : Spaces)
    (hrest : SameButQuotes rest rest') :
    SameButQuotes (.element t tag inner space rest) (.element t tag' inner' space rest')

inductive Element.SameButQuotes : Element → Element → Prop
  | empty {tag tag' : StartTag} (htag : tag.SameButQuotes tag') :
    SameButQuotes (.empty tag) (.empty tag')
  | paired {tag tag' : StartTag} {inner inner' : Content} (htag : tag.SameButQuotes tag')
    (hinner : inner.SameButQuotes inner') (space : Spaces) :
    SameButQuotes (.paired tag inner space) (.paired tag' inner' space)

structure Tree.SameButQuotes (t u : Tree) : Prop where
  prolog : t.prolog = u.prolog
  root : t.root.SameButQuotes u.root
  tail : t.tail = u.tail

/-! The attributes of a document, each with what is around it. -/

structure Site extends Attribute where
  parent : Option Text
  tag : Text

def Tag.sites (parent : Option Text) (tag : Tag) : List Site :=
  tag.attributes.map fun a => ⟨a, parent, tag.name⟩

def sitesOf (tags : List (Option Text × Tag)) : List Site :=
  tags.flatMap fun (parent, tag) => tag.sites parent

def Tree.sites (t : Tree) : List Site :=
  sitesOf t.tags

def Site.withQuote (x : Site) (quote : Char) : Site :=
  { x with quote }

structure Site.SameButQuote (x y : Site) : Prop where
  quoted : isQuote x.quote = true
  requoted : isQuote y.quote = true
  eq : y = x.withQuote y.quote

section SameButQuotes

theorem WrittenAttribute.SameButQuote.lead_byteSize {a b : WrittenAttribute}
    (h : a.SameButQuote b) : a.lead.byteSize = b.lead.byteSize := by
  simp [WrittenAttribute.lead, Quoting.render, h.gap, h.name, h.before, h.after,
    utf8Size_of_isQuote a.quoting.valid, utf8Size_of_isQuote b.quoting.valid]

theorem WrittenAttribute.SameButQuote.render_byteSize {a b : WrittenAttribute}
    (h : a.SameButQuote b) : a.render.byteSize = b.render.byteSize := by
  simp [WrittenAttribute.render, h.lead_byteSize, h.value, utf8Size_of_isQuote a.quoting.valid,
    utf8Size_of_isQuote b.quoting.valid]

theorem sites_placeAll {as bs : List WrittenAttribute}
    (h : List.Forall₂ WrittenAttribute.SameButQuote as bs) (parent : Option Text) (tag : Text)
    (offset : Nat) :
    List.Forall₂ Site.SameButQuote
      ((WrittenAttribute.placeAll offset as).map fun a => ⟨a, parent, tag⟩)
      ((WrittenAttribute.placeAll offset bs).map fun a => ⟨a, parent, tag⟩) := by
  induction h generalizing offset with
  | nil => exact .nil
  | @cons a b as bs hab _ ih =>
    rw [WrittenAttribute.placeAll, WrittenAttribute.placeAll, ← hab.render_byteSize]
    refine .cons ⟨a.quoting.valid, b.quoting.valid, ?_⟩ (ih _)
    simp [WrittenAttribute.placed, Site.withQuote, hab.name, hab.value, hab.lead_byteSize]

theorem byteSize_flatMap_render {as bs : List WrittenAttribute}
    (h : List.Forall₂ WrittenAttribute.SameButQuote as bs) :
    Text.byteSize (as.flatMap WrittenAttribute.render) =
      Text.byteSize (bs.flatMap WrittenAttribute.render) := by
  induction h with
  | nil => rfl
  | cons hab _ ih => simp [hab.render_byteSize, ih]

namespace StartTag.SameButQuotes

variable {tag tag' : StartTag}

theorem byteSize (h : tag.SameButQuotes tag') (isEmpty : Bool) :
    (tag.render isEmpty).byteSize = (tag'.render isEmpty).byteSize := by
  simp [StartTag.render, h.name, h.tail, byteSize_flatMap_render h.attributes]

theorem closing (h : tag.SameButQuotes tag') (space : Spaces) :
    tag.closing space = tag'.closing space := by
  simp [StartTag.closing, h.name]

theorem sites (h : tag.SameButQuotes tag') (isEmpty : Bool) (parent : Option Text) (offset : Nat) :
    List.Forall₂ Site.SameButQuote ((tag.placed isEmpty offset).sites parent)
      ((tag'.placed isEmpty offset).sites parent) := by
  simp only [Tag.sites, StartTag.placed, h.name]
  exact sites_placeAll h.attributes parent _ _

end StartTag.SameButQuotes

theorem Leaf.SameButQuotes.byteSize {l l' : Leaf} (h : l.SameButQuotes l') :
    l.render.byteSize = l'.render.byteSize := by
  cases h with
  | comment c => rfl
  | cdata t => rfl
  | empty htag => exact htag.byteSize true

theorem Leaf.SameButQuotes.sites {l l' : Leaf} (h : l.SameButQuotes l') (parent : Text)
    (offset : Nat) :
    List.Forall₂ Site.SameButQuote (sitesOf (l.tags parent offset))
      (sitesOf (l'.tags parent offset)) := by
  cases h with
  | comment c => exact .nil
  | cdata t => exact .nil
  | empty htag =>
    simp only [Leaf.tags, sitesOf, List.flatMap_cons]
    exact List.rel_append (htag.sites true _ _) .nil

theorem Content.SameButQuotes.byteSize {c c' : Content} (h : c.SameButQuotes c') :
    c.render.byteSize = c'.render.byteSize := by
  induction h with
  | last t => rfl
  | leaf t hl _ ih => simp [Content.render, hl.byteSize, ih]
  | element t htag _ space _ ihInner ihRest =>
    simp [Content.render, htag.byteSize, htag.closing, ihInner, ihRest]

/-- Other quotes move nothing. -/
theorem Content.SameButQuotes.sites {c c' : Content} (h : c.SameButQuotes c') (parent : Text)
    (offset : Nat) :
    List.Forall₂ Site.SameButQuote (sitesOf (c.tags parent offset))
      (sitesOf (c'.tags parent offset)) := by
  induction h generalizing parent offset with
  | last t => exact .nil
  | leaf t hl _ ih =>
    simp only [Content.tags, sitesOf, List.flatMap_append, ← hl.byteSize]
    exact List.rel_append (hl.sites parent _) (ih parent _)
  | element t htag hinner space _ ihInner ihRest =>
    simp only [Content.tags, sitesOf, List.cons_append, List.flatMap_cons, List.flatMap_append,
      ← htag.byteSize, ← hinner.byteSize, ← htag.closing, ← htag.name]
    exact List.rel_append (htag.sites false _ _)
      (List.rel_append (ihInner _ _) (ihRest parent _))

theorem Element.SameButQuotes.sites {e e' : Element} (h : e.SameButQuotes e') (offset : Nat) :
    List.Forall₂ Site.SameButQuote (sitesOf (e.tags offset)) (sitesOf (e'.tags offset)) := by
  cases h with
  | empty htag =>
    simp only [Element.tags, sitesOf, List.flatMap_cons]
    exact List.rel_append (htag.sites true _ _) .nil
  | paired htag hinner space =>
    simp only [Element.tags, sitesOf, List.flatMap_cons, ← htag.byteSize, ← htag.name]
    exact List.rel_append (htag.sites false _ _) (hinner.sites _ _)

theorem Tree.SameButQuotes.sites {t u : Tree} (h : t.SameButQuotes u) :
    List.Forall₂ Site.SameButQuote t.sites u.sites := by
  unfold Tree.sites Tree.tags
  rw [← h.prolog]
  exact h.root.sites _

end SameButQuotes

/-! Where the attributes of a document stand. -/

theorem map_toAttribute_sitesOf (tags : List (Option Text × Tag)) :
    (sitesOf tags).map Site.toAttribute = tags.flatMap fun (_, tag) => tag.attributes := by
  simp [sitesOf, Tag.sites, List.map_flatMap, Function.comp_def]

theorem attributes_text (t : CharData) : t.events.flatMap Event.attributes = [] := by
  unfold CharData.events
  split <;> rfl

theorem attributes_leaf (l : Leaf) (parent : Text) (offset : Nat) :
    (l.events offset).flatMap Event.attributes =
      (l.tags parent offset).flatMap fun (_, tag) => tag.attributes := by
  cases l <;> rfl

theorem attributes_content (c : Content) (parent : Text) (offset : Nat) :
    (c.events offset).flatMap Event.attributes =
      (c.tags parent offset).flatMap fun (_, tag) => tag.attributes := by
  induction c generalizing parent offset with
  | last t => exact attributes_text t
  | leaf t l rest ih =>
    simp only [Content.events, Content.tags, List.flatMap_append, attributes_text,
      attributes_leaf l parent, ih parent, List.nil_append]
  | element t tag inner space rest ihInner ihRest =>
    simp only [Content.events, Content.tags, List.flatMap_append, List.flatMap_cons,
      List.cons_append, attributes_text, ihInner tag.name.text, ihRest parent, List.nil_append]
    simp [Event.attributes]

theorem attributes_tree (t : Tree) :
    t.events.flatMap Event.attributes = t.sites.map Site.toAttribute := by
  rw [Tree.sites, map_toAttribute_sitesOf, Tree.events, Tree.tags]
  cases t.root with
  | empty tag => rfl
  | paired tag inner space =>
    simp only [Element.events, Element.tags, List.flatMap_cons, List.flatMap_append,
      List.cons_append, attributes_content inner tag.name.text]
    rw [List.flatMap_nil]
    simp [Event.attributes]

theorem sites_apart (t : Tree) :
    (∀ x ∈ t.sites, isQuote x.quote = true) ∧
      t.sites.Pairwise fun x y => x.valueStart + x.value.byteSize < y.valueStart := by
  have hlaid := laid_scan t.render
  rw [scan_eq_events, attributes_tree] at hlaid
  obtain ⟨hquoted, hpairwise⟩ := hlaid.apart
  exact ⟨fun x hx => (hquoted _ (List.mem_map_of_mem hx)).1, List.pairwise_map.1 hpairwise⟩

end Markup

open Markup

instance (t : Text) : Decidable (Refers t) :=
  inferInstanceAs (Decidable (_ ∧ _))

namespace Occurrence

/-! The first place of a value and the others. -/

def lead (a : Attribute) : Occurrence :=
  let name := identifier a.value.tail
  ⟨.plain, name, a.valueStart, a.valueStart + 1 + name.byteSize⟩

def laterReferences (a : Attribute) : List Occurrence :=
  a.value.cuts.tail.filterMap fun (before, after) => referenceAt? a before after

section Value

variable {a : Attribute} {o : Occurrence}

theorem cuts_eq_cons (t : Text) : t.cuts = ([], t) :: t.cuts.tail := by
  cases t <;> rfl

theorem mem_tail_cuts {t before after : Text} (h : (before, after) ∈ t.cuts.tail) :
    before ≠ [] ∧ t = before ++ after := by
  refine ⟨?_, Text.mem_cuts.1 (List.mem_of_mem_tail h)⟩
  cases t with
  | nil => simp [Text.cuts] at h
  | cons c t =>
    simp only [Text.cuts, List.tail_cons, List.mem_map, Prod.mk.injEq, Prod.exists] at h
    obtain ⟨l, r, -, rfl, -⟩ := h
    simp

theorem references_eq (a : Attribute) :
    references a = (referenceAt? a [] a.value).toList ++ laterReferences a := by
  unfold references laterReferences
  rw [cuts_eq_cons, List.filterMap_cons]
  cases h : referenceAt? a [] a.value <;> simp [h]

theorem refers_cons {c : Char} {t : Text} : Refers (c :: t) ↔ c = '$' ∧ identifier t ≠ [] := by
  simp [Refers, identifier_ne_nil_iff]

theorem takeWhile_starts_iff (t : Text) :
    (t.takeWhile isIdentifierPart).head?.any isIdentifierStart = true ↔ identifier t ≠ [] := by
  rw [identifier_eq]
  by_cases h : (t.takeWhile isIdentifierPart).head?.any isIdentifierStart = true
  · have hne : t.takeWhile isIdentifierPart ≠ [] := by
      intro hnil
      simp [hnil] at h
    simp [h, hne]
  · simp [h]

theorem quote_mem_admitted (h : isQuote a.quote = true) :
    a.quote ∈ admitted a.value ↔ a.quote = '"' ∧ ¬BuildsTable a.value := by
  unfold admitted
  rcases isQuote_iff.1 h with hq | hq <;> by_cases htable : BuildsTable a.value <;>
    simp [hq, htable]

theorem reference_nil {name : Text} (h : isQuote a.quote = true) (htable : ¬BuildsTable a.value)
    (hname : identifier a.value.tail = name) : reference a [] name = lead a := by
  have hdot : a.quote ≠ '.' := by
    rintro hdot
    rw [hdot] at h
    exact absurd h (by decide)
  simp [reference, kindAt, previous, htable, hdot, lead, hname]

theorem referenceAt?_nil (h : isQuote a.quote = true) :
    referenceAt? a [] a.value =
      if a.quote = '"' ∧ Refers a.value ∧ ¬BuildsTable a.value then some (lead a) else none := by
  have hadmitted := quote_mem_admitted h
  cases hvalue : a.value with
  | nil => simp [referenceAt?, Refers]
  | cons c t =>
    have hprevious : previous a [] = a.quote := rfl
    rw [hvalue] at hadmitted
    simp only [referenceAt?, hvalue, takeWhile_starts_iff, hprevious, hadmitted, refers_cons]
    by_cases hfound : c = '$' ∧ identifier t ≠ [] ∧ a.quote = '"' ∧ ¬BuildsTable (c :: t)
    · obtain ⟨hc, hname, hquote, htable⟩ := hfound
      have htake : identifier a.value.tail = t.takeWhile isIdentifierPart := by
        rw [hvalue, List.tail_cons, identifier_eq, if_pos ((takeWhile_starts_iff t).2 hname)]
      rw [if_pos ⟨hc, hname, hquote, htable⟩, if_pos ⟨hquote, ⟨hc, hname⟩, htable⟩,
        reference_nil h (hvalue ▸ htable) htake]
    · rw [if_neg hfound, if_neg]
      rintro ⟨hquote, ⟨hc, hname⟩, htable⟩
      exact hfound ⟨hc, hname, hquote, htable⟩

theorem referenceAt?_withQuote {before : Text} (hbefore : before ≠ []) (quote : Char)
    (after : Text) :
    referenceAt? { a with quote } before after = referenceAt? a before after := by
  have hprevious : previous { a with quote } before = previous a before := by
    simp [previous, List.getLast?_eq_some_getLast hbefore]
  cases after with
  | nil => rfl
  | cons c t => simp only [referenceAt?, reference, kindAt, hprevious]

theorem laterReferences_withQuote (a : Attribute) (quote : Char) :
    laterReferences { a with quote } = laterReferences a := by
  unfold laterReferences
  exact List.filterMap_congr fun p hp => referenceAt?_withQuote (mem_tail_cuts hp).1 quote p.2

theorem start_of_referenceAt? {before after : Text} (h : referenceAt? a before after = some o) :
    o.start = a.valueStart + before.byteSize := by
  cases after with
  | nil => simp [referenceAt?] at h
  | cons c t =>
    simp only [referenceAt?, Option.ite_none_right_eq_some, Option.some.injEq] at h
    rw [← h.2]
    rfl

theorem start_of_mem_laterReferences (h : o ∈ laterReferences a) : a.valueStart < o.start := by
  obtain ⟨⟨before, after⟩, hcut, ho⟩ := List.mem_filterMap.1 h
  obtain ⟨c, rest, rfl⟩ := List.exists_cons_of_ne_nil (mem_tail_cuts hcut).1
  have hpos := c.utf8Size_pos
  rw [start_of_referenceAt? ho, Text.byteSize_cons]
  omega

theorem start_of_mem_ofAttribute {parent : Option Text} {tag : Text}
    (h : o ∈ ofAttribute parent tag a) :
    a.valueStart ≤ o.start ∧ o.start ≤ a.valueStart + a.value.byteSize := by
  unfold ofAttribute at h
  split at h
  · obtain rfl := List.mem_singleton.1 h
    exact ⟨Nat.le_refl _, Nat.le_add_right _ _⟩
  · obtain ⟨⟨before, after⟩, hcut, ho⟩ := List.mem_filterMap.1 h
    rw [start_of_referenceAt? ho, Text.mem_cuts.1 hcut, Text.byteSize_append]
    omega

end Value

end Occurrence

/-! The variables of a document, attribute after attribute. -/

open Occurrence

namespace Markup.Site

def found (x : Site) : List Occurrence :=
  ofAttribute x.parent x.tag x.toAttribute

/-- A value begins with a variable; it is no parameter's name and builds no table. -/
def Leads (x : Site) : Prop :=
  declares x.parent x.tag x.toAttribute = false ∧ Refers x.value ∧ ¬BuildsTable x.value

instance (x : Site) : Decidable x.Leads :=
  inferInstanceAs (Decidable (_ ∧ _))

def leading? (x : Site) : Option (Occurrence × Char) :=
  if x.Leads then some (lead x.toAttribute, x.quote) else none

variable {x y : Site}

theorem found_eq_inAttribute (x : Site) :
    x.found = inAttribute x.parent x.tag x.toAttribute :=
  (inAttribute_eq x.parent x.tag x.toAttribute).symm

theorem found_of_references (h : declares x.parent x.tag x.toAttribute = false) :
    x.found = references x.toAttribute := by
  rw [found_eq_inAttribute, inAttribute, if_neg (by simp [h]), inValue_eq_references]

theorem found_of_leads (hquote : isQuote x.quote = true) (h : x.Leads) :
    x.found =
      (if x.quote = '"' then [lead x.toAttribute] else []) ++ laterReferences x.toAttribute := by
  obtain ⟨hdeclares, hrefers, htable⟩ := h
  rw [found_of_references hdeclares, references_eq, referenceAt?_nil hquote]
  by_cases hdouble : x.quote = '"' <;> simp [hdouble, hrefers, htable]

theorem found_of_not_leads (hquote : isQuote x.quote = true) (h : ¬x.Leads)
    (hdeclares : declares x.parent x.tag x.toAttribute = false) :
    x.found = laterReferences x.toAttribute := by
  have hvalue : ¬(x.quote = '"' ∧ Refers x.value ∧ ¬BuildsTable x.value) :=
    fun ⟨_, hrefers, htable⟩ => h ⟨hdeclares, hrefers, htable⟩
  rw [found_of_references hdeclares, references_eq, referenceAt?_nil hquote, if_neg hvalue]
  rfl

theorem SameButQuote.leads_iff (h : x.SameButQuote y) : x.Leads ↔ y.Leads := by
  rw [h.eq]
  rfl

theorem SameButQuote.lead_eq (h : x.SameButQuote y) : lead x.toAttribute = lead y.toAttribute := by
  rw [h.eq]
  rfl

theorem SameButQuote.later_eq (h : x.SameButQuote y) :
    laterReferences x.toAttribute = laterReferences y.toAttribute := by
  rw [h.eq]
  exact (laterReferences_withQuote x.toAttribute y.quote).symm

/-- Where no variable begins a value, its quotes do not count. -/
theorem SameButQuote.found_eq (h : x.SameButQuote y) (hleads : ¬x.Leads) : x.found = y.found := by
  have hdeclares : declares y.parent y.tag y.toAttribute = declares x.parent x.tag x.toAttribute := by
    rw [h.eq]
    rfl
  cases hx : declares x.parent x.tag x.toAttribute with
  | true =>
    rw [hx] at hdeclares
    rw [found_eq_inAttribute, found_eq_inAttribute, inAttribute, inAttribute, if_pos hx,
      if_pos hdeclares, h.eq]
    rfl
  | false =>
    rw [hx] at hdeclares
    rw [found_of_not_leads h.quoted hleads hx,
      found_of_not_leads h.requoted (mt h.leads_iff.2 hleads) hdeclares, h.later_eq]

end Markup.Site

section Sites

variable {xs ys : List Site}

def leadingIn (xs : List Site) : List (Occurrence × Char) :=
  xs.filterMap Site.leading?

theorem leadingIn_cons_of_leads {x : Site} (h : x.Leads) :
    leadingIn (x :: xs) = (lead x.toAttribute, x.quote) :: leadingIn xs := by
  simp [leadingIn, Site.leading?, h]

theorem leadingIn_cons_of_not_leads {x : Site} (h : ¬x.Leads) :
    leadingIn (x :: xs) = leadingIn xs := by
  simp [leadingIn, Site.leading?, h]

theorem found_eq_of_leadingIn_eq (h : List.Forall₂ Site.SameButQuote xs ys)
    (hleading : leadingIn xs = leadingIn ys) : xs.flatMap Site.found = ys.flatMap Site.found := by
  induction h with
  | nil => rfl
  | @cons x y xs ys hxy _ ih =>
    by_cases hx : x.Leads
    · have hy := hxy.leads_iff.1 hx
      rw [leadingIn_cons_of_leads hx, leadingIn_cons_of_leads hy, List.cons.injEq,
        Prod.mk.injEq] at hleading
      obtain ⟨⟨-, hquote⟩, hleading⟩ := hleading
      rw [List.flatMap_cons, List.flatMap_cons, ih hleading, Site.found_of_leads hxy.quoted hx,
        Site.found_of_leads hxy.requoted hy, hquote, hxy.lead_eq, hxy.later_eq]
    · have hy := mt hxy.leads_iff.2 hx
      rw [leadingIn_cons_of_not_leads hx, leadingIn_cons_of_not_leads hy] at hleading
      rw [List.flatMap_cons, List.flatMap_cons, ih hleading, hxy.found_eq hx]

def SameLeading : List (Occurrence × Char) → List (Occurrence × Char) → Prop :=
  List.Forall₂ fun p q => p.1 = q.1 ∧ isQuote p.2 = true ∧ isQuote q.2 = true

theorem sameLeading_of_sameButQuote (h : List.Forall₂ Site.SameButQuote xs ys) :
    SameLeading (leadingIn xs) (leadingIn ys) := by
  induction h with
  | nil => exact .nil
  | @cons x y xs ys hxy _ ih =>
    by_cases hx : x.Leads
    · rw [leadingIn_cons_of_leads hx, leadingIn_cons_of_leads (hxy.leads_iff.1 hx)]
      exact .cons ⟨hxy.lead_eq, hxy.quoted, hxy.requoted⟩ ih
    · rw [leadingIn_cons_of_not_leads hx, leadingIn_cons_of_not_leads (mt hxy.leads_iff.2 hx)]
      exact ih

theorem SameLeading.eq {ps qs : List (Occurrence × Char)} (h : SameLeading ps qs)
    (found : List Occurrence) (hp : ∀ p ∈ ps, p.1 ∈ found ↔ p.2 = '"')
    (hq : ∀ q ∈ qs, q.1 ∈ found ↔ q.2 = '"') : ps = qs := by
  induction h with
  | nil => rfl
  | @cons p q ps qs hpq _ ih =>
    obtain ⟨hlead, hp', hq'⟩ := hpq
    have hdouble : p.2 = '"' ↔ q.2 = '"' := by
      rw [← hp p List.mem_cons_self, hlead, hq q List.mem_cons_self]
    have hquote : p.2 = q.2 := by
      rcases isQuote_iff.1 hp' with hp' | hp' <;> rcases isQuote_iff.1 hq' with hq' | hq' <;>
        simp_all
    rw [Prod.ext hlead hquote, ih (fun p hp'' => hp p (List.mem_cons_of_mem _ hp''))
      fun q hq'' => hq q (List.mem_cons_of_mem _ hq'')]

theorem filter_found_eq (h : List.Forall₂ Site.SameButQuote xs ys) (keeps : Occurrence → Bool)
    (hkeeps : ∀ p ∈ leadingIn xs, keeps p.1 = false) :
    (xs.flatMap Site.found).filter keeps = (ys.flatMap Site.found).filter keeps := by
  induction h with
  | nil => rfl
  | @cons x y xs ys hxy _ ih =>
    rw [List.flatMap_cons, List.flatMap_cons, List.filter_append, List.filter_append]
    by_cases hx : x.Leads
    · have hy := hxy.leads_iff.1 hx
      rw [leadingIn_cons_of_leads hx] at hkeeps
      have hlead : keeps (lead x.toAttribute) = false := hkeeps _ List.mem_cons_self
      rw [ih fun p hp => hkeeps p (List.mem_cons_of_mem _ hp), Site.found_of_leads hxy.quoted hx,
        Site.found_of_leads hxy.requoted hy, ← hxy.lead_eq, ← hxy.later_eq]
      by_cases hq : x.quote = '"' <;> by_cases hq' : y.quote = '"' <;> simp [hq, hq', hlead]
    · rw [leadingIn_cons_of_not_leads hx] at hkeeps
      rw [ih hkeeps, hxy.found_eq hx]

/-- A variable that begins a value is found in double quotes only: no other attribute has a variable
there. -/
theorem lead_mem_found_iff (hquoted : ∀ x ∈ xs, isQuote x.quote = true)
    (hpairwise : xs.Pairwise fun x y => x.valueStart + x.value.byteSize < y.valueStart)
    {p : Occurrence × Char} (hp : p ∈ leadingIn xs) : p.1 ∈ xs.flatMap Site.found ↔ p.2 = '"' := by
  obtain ⟨x, hx, hleading⟩ := List.mem_filterMap.1 hp
  simp only [Site.leading?, Option.ite_none_right_eq_some, Option.some.injEq] at hleading
  obtain ⟨hleads, rfl⟩ := hleading
  have hfound := Site.found_of_leads (hquoted x hx) hleads
  constructor
  · intro hmem
    obtain ⟨before, after, rfl⟩ := List.append_of_mem hx
    obtain ⟨-, hafter, hbefore⟩ := List.pairwise_append.1 hpairwise
    simp only [List.flatMap_append, List.flatMap_cons, List.mem_append, List.mem_flatMap] at hmem
    rcases hmem with ⟨y, hy, hmem⟩ | hmem | ⟨y, hy, hmem⟩
    · have hapart := hbefore y hy x List.mem_cons_self
      have hstart : x.valueStart ≤ y.valueStart + y.value.byteSize := (start_of_mem_ofAttribute hmem).2
      omega
    · rw [hfound] at hmem
      rcases List.mem_append.1 hmem with hmem | hmem
      · by_contra hq
        simp [show x.quote ≠ '"' from hq] at hmem
      · exact absurd (start_of_mem_laterReferences hmem) (Nat.lt_irrefl _)
    · have hapart := List.rel_of_pairwise_cons hafter hy
      have hstart : y.valueStart ≤ x.valueStart := (start_of_mem_ofAttribute hmem).1
      omega
  · intro hq
    refine List.mem_flatMap.2 ⟨x, hx, ?_⟩
    rw [hfound, if_pos hq]
    exact List.mem_append_left _ List.mem_cons_self

end Sites

theorem inTag_eq_found (parent : Option Text) (tag : Tag) :
    inTag parent tag = (tag.sites parent).flatMap Site.found := by
  rw [Occurrence.inTag_eq, Tag.sites, List.flatMap_map]
  rfl

theorem ofDocument_eq_found (t : Tree) : ofDocument t.render = t.sites.flatMap Site.found := by
  rw [ofDocument_eq, Tree.sites, sitesOf, List.flatMap_assoc]
  congr
  funext p
  exact inTag_eq_found p.1 p.2

/-- The variables that begin values of a tree, and the quotes around each such value. Names of
parameters and values that build tables are left out. -/
def Markup.Tree.leading (t : Tree) : List (Occurrence × Char) :=
  leadingIn t.sites

theorem lead_mem_ofDocument_iff (t : Tree) :
    ∀ p ∈ t.leading, p.1 ∈ ofDocument t.render ↔ p.2 = '"' := by
  obtain ⟨hquoted, hpairwise⟩ := sites_apart t
  intro p hp
  rw [ofDocument_eq_found]
  exact lead_mem_found_iff hquoted hpairwise hp

/-- Other quotes around the values of a tree change only which of the variables that begin a value
are found: those in double quotes. All others are found either way. -/
theorem variables_by_quotes {t u : Tree} (h : t.SameButQuotes u) :
    (ofDocument t.render = ofDocument u.render ↔ t.leading = u.leading) ∧
      (∀ p ∈ t.leading, p.1 ∈ ofDocument t.render ↔ p.2 = '"') ∧
      (ofDocument t.render).filter (· ∉ t.leading.map Prod.fst) =
        (ofDocument u.render).filter (· ∉ t.leading.map Prod.fst) := by
  refine ⟨⟨fun heq => ?_, fun hleading => ?_⟩, lead_mem_ofDocument_iff t, ?_⟩
  · have hu := lead_mem_ofDocument_iff u
    rw [← heq] at hu
    exact (sameLeading_of_sameButQuote h.sites).eq _ (lead_mem_ofDocument_iff t) hu
  · rw [ofDocument_eq_found, ofDocument_eq_found]
    exact found_eq_of_leadingIn_eq h.sites hleading
  · rw [ofDocument_eq_found, ofDocument_eq_found]
    refine filter_found_eq h.sites _ fun p hp => ?_
    simpa using ⟨p.2, hp⟩

def doubleQuoted : Tree :=
  ⟨.none, .empty (.withAttribute (.letter 'a' rfl) (.letter 'b' rfl) .double "$c,$d".toList rfl),
    .none⟩

def singleQuoted : Tree :=
  ⟨.none, .empty (.withAttribute (.letter 'a' rfl) (.letter 'b' rfl) .single "$c,$d".toList rfl),
    .none⟩

theorem doubleQuoted_sameButQuotes : doubleQuoted.SameButQuotes singleQuoted :=
  ⟨rfl, .empty ⟨rfl, .cons ⟨rfl, rfl, rfl, rfl, rfl⟩ .nil, rfl⟩, rfl⟩

theorem doubleQuoted_variables_by_quotes :
    doubleQuoted.SameButQuotes singleQuoted ∧
      doubleQuoted.leading = [(⟨.plain, ['c'], 6, 8⟩, '"')] ∧
      ⟨.plain, ['c'], 6, 8⟩ ∈ ofDocument doubleQuoted.render := by
  have hleading : doubleQuoted.leading = [(⟨.plain, ['c'], 6, 8⟩, '"')] := by
    decide +kernel
  refine ⟨doubleQuoted_sameButQuotes, hleading, ?_⟩
  exact ((variables_by_quotes doubleQuoted_sameButQuotes).2.1 _ (hleading ▸ List.mem_cons_self)).2
    rfl

theorem singleQuoted_variables_differ :
    doubleQuoted.SameButQuotes singleQuoted ∧
      (∀ x ∈ doubleQuoted.sites, '"' ∉ x.value ∧ '\'' ∉ x.value) ∧
      ofDocument doubleQuoted.render = [⟨.plain, ['c'], 6, 8⟩, ⟨.plain, ['d'], 9, 11⟩] ∧
      ofDocument singleQuoted.render = [⟨.plain, ['d'], 9, 11⟩] := by
  refine ⟨doubleQuoted_sameButQuotes, ?_⟩
  decide +kernel

end ScriptLens
