import ScriptLens.Settings.Reading

/-!
Reading settings from an object. Each setting is read on its own: it gets what stands under its key,
or keeps its default (`ofMembers_eq_ok_iff`), and an object is refused exactly if one of these values
is of a wrong type. Nothing else in the object counts, and nothing around it if it stands in a
section (`reads_written`).
-/

namespace ScriptLens

/-- The values that a form admits; only a path may be unset. -/
inductive SettingForm.Fits : SettingForm → Json → Prop
  | unset : Fits .path .null
  | path (t : Text) : Fits .path (.string t)
  | text (t : Text) : Fits .text (.string t)
  | flag (b : Bool) : Fits .flag (.bool b)

namespace Setting

def form : Setting → SettingForm
  | .unpackedFileLocation | .extensionsFolder => .path
  | .languageNumber => .text
  | .limitLanguageOutput | .exceedinglyVerbose => .flag

theorem mem_all (setting : Setting) : setting ∈ all := by
  cases setting <;> decide

theorem mem_byKey (setting : Setting) : setting ∈ byKey := by
  cases setting <;> decide

theorem key_inj {setting other : Setting} (h : setting.key = other.key) : setting = other := by
  cases setting <;> cases other <;> revert h <;> decide

theorem key_ne_sectionKey (setting : Setting) : setting.key ≠ Settings.sectionKey := by
  cases setting <;> decide

end Setting

namespace Settings

def pathJson : Option Text → Json
  | none => .null
  | some t => .string t

def value (s : Settings) : Setting → Json
  | .unpackedFileLocation => pathJson s.unpackedFileLocation
  | .extensionsFolder => pathJson s.extensionsFolder
  | .languageNumber => .string s.languageNumber
  | .limitLanguageOutput => .bool s.limitLanguageOutput
  | .exceedinglyVerbose => .bool s.exceedinglyVerbose

theorem pathJson_inj {p p' : Option Text} (h : pathJson p = pathJson p') : p = p' := by
  cases p <;> cases p' <;> cases h <;> rfl

theorem fits_pathJson (p : Option Text) : SettingForm.path.Fits (pathJson p) := by
  cases p with
  | none => exact .unset
  | some t => exact .path t

theorem fits_value (s : Settings) (setting : Setting) : setting.form.Fits (s.value setting) := by
  cases setting with
  | unpackedFileLocation => exact fits_pathJson _
  | extensionsFolder => exact fits_pathJson _
  | languageNumber => exact .text _
  | limitLanguageOutput => exact .flag _
  | exceedinglyVerbose => exact .flag _

theorem ext_value {s s' : Settings} (h : ∀ setting, s.value setting = s'.value setting) :
    s = s' := by
  obtain ⟨unpacked, extensions, number, limit, verbose⟩ := s
  obtain ⟨unpacked', extensions', number', limit', verbose'⟩ := s'
  obtain rfl : unpacked = unpacked' := pathJson_inj (h .unpackedFileLocation)
  obtain rfl : extensions = extensions' := pathJson_inj (h .extensionsFolder)
  obtain rfl : number = number' := Json.string.inj (h .languageNumber)
  obtain rfl : limit = limit' := Json.bool.inj (h .limitLanguageOutput)
  obtain rfl : verbose = verbose' := Json.bool.inj (h .exceedinglyVerbose)
  rfl

variable {s s' : Settings} {setting : Setting} {v : Json}

theorem exists_set (s : Settings) (h : setting.form.Fits v) : ∃ s', s.set setting v = .ok s' := by
  cases setting <;> cases h <;> exact ⟨_, rfl⟩

theorem fits_of_set (h : s.set setting v = .ok s') : setting.form.Fits v := by
  cases setting <;> cases v <;> first | constructor | cases h

theorem value_of_set (h : s.set setting v = .ok s') (other : Setting) :
    s'.value other = if other = setting then v else s.value other := by
  have hfits := fits_of_set h
  cases setting <;> cases hfits <;> cases h <;> cases other <;> rfl

section Members

variable (members : List (Text × Json))

def take (s : Settings) (setting : Setting) : Except SettingsError Settings :=
  match members.lookup setting.key with
  | some v => s.set setting v
  | none => .ok s

theorem ofMembers_eq : ofMembers members = Setting.byKey.foldlM (take members) standard := rfl

theorem value_of_take (h : s.take members setting = .ok s') (other : Setting) :
    s'.value other =
      if other = setting then (members.lookup setting.key).getD (s.value setting)
      else s.value other := by
  unfold take at h
  split at h
  next v hv => rw [value_of_set h other, hv, Option.getD_some]
  next hnone =>
    cases h
    rw [hnone, Option.getD_none]
    split
    next heq => rw [heq]
    next => rfl

theorem exists_take (s : Settings)
    (h : ∀ v, members.lookup setting.key = some v → setting.form.Fits v) :
    ∃ s', s.take members setting = .ok s' := by
  unfold take
  split
  next v hv => exact exists_set s (h v hv)
  next => exact ⟨s, rfl⟩

theorem foldlM_take_cons (rest : List Setting) :
    (setting :: rest).foldlM (take members) s = .ok s' ↔
      ∃ next, s.take members setting = .ok next ∧ rest.foldlM (take members) next = .ok s' := by
  rw [List.foldlM_cons]
  cases s.take members setting with
  | error e => exact ⟨(nomatch ·), fun ⟨_, h, _⟩ => nomatch h⟩
  | ok next => exact ⟨fun h => ⟨next, rfl, h⟩, fun ⟨_, h, hrest⟩ => by cases h; exact hrest⟩

theorem value_of_foldlM {settings : List Setting}
    (h : settings.foldlM (take members) s = .ok s') (other : Setting) :
    s'.value other =
      if other ∈ settings then (members.lookup other.key).getD (s.value other)
      else s.value other := by
  induction settings generalizing s with
  | nil =>
    cases h
    rfl
  | cons setting rest ih =>
    obtain ⟨next, hnext, hrest⟩ := (foldlM_take_cons members rest).1 h
    rw [ih hrest, value_of_take members hnext]
    by_cases hfirst : other = setting
    · subst hfirst
      cases members.lookup other.key <;> simp
    · simp [hfirst]

theorem exists_foldlM (settings : List Setting) (s : Settings)
    (h : ∀ setting ∈ settings, ∀ v, members.lookup setting.key = some v → setting.form.Fits v) :
    ∃ s', settings.foldlM (take members) s = .ok s' := by
  induction settings generalizing s with
  | nil => exact ⟨s, rfl⟩
  | cons setting rest ih =>
    obtain ⟨hfirst, hrest⟩ := List.forall_mem_cons.1 h
    obtain ⟨next, hnext⟩ := exists_take members s hfirst
    obtain ⟨s', hs'⟩ := ih next hrest
    exact ⟨s', (foldlM_take_cons members rest).2 ⟨next, hnext, hs'⟩⟩

theorem value_of_ofMembers (h : ofMembers members = .ok s) (setting : Setting) :
    s.value setting = (members.lookup setting.key).getD (standard.value setting) := by
  rw [ofMembers_eq] at h
  rw [value_of_foldlM members h, if_pos setting.mem_byKey]

theorem exists_ofMembers
    (h : ∀ (setting : Setting) v, members.lookup setting.key = some v → setting.form.Fits v) :
    ∃ s, ofMembers members = .ok s :=
  exists_foldlM members Setting.byKey standard fun setting _ => h setting

theorem ofMembers_eq_ok_iff :
    ofMembers members = .ok s ↔
      ∀ setting, s.value setting = (members.lookup setting.key).getD (standard.value setting) := by
  refine ⟨value_of_ofMembers members, fun h => ?_⟩
  obtain ⟨s', hs'⟩ : ∃ s', ofMembers members = .ok s' := by
    refine exists_ofMembers members fun setting v hv => ?_
    have hvalue := h setting
    rw [hv, Option.getD_some] at hvalue
    exact hvalue ▸ s.fits_value setting
  rw [hs', ext_value fun setting => (value_of_ofMembers members hs' setting).trans (h setting).symm]

theorem ofMembers_eq_error_iff :
    (∃ e, ofMembers members = .error e) ↔
      ∃ (setting : Setting) (v : Json),
        members.lookup setting.key = some v ∧ ¬ setting.form.Fits v := by
  constructor
  · rintro ⟨e, he⟩
    refine Classical.byContradiction fun hno => ?_
    obtain ⟨s, hs⟩ := exists_ofMembers members fun setting v hv =>
      Classical.byContradiction fun hfits => hno ⟨setting, v, hv, hfits⟩
    rw [he] at hs
    cases hs
  · rintro ⟨setting, v, hv, hfits⟩
    cases hread : ofMembers members with
    | error e => exact ⟨e, rfl⟩
    | ok s =>
      have hvalue := value_of_ofMembers members hread setting
      rw [hv, Option.getD_some] at hvalue
      exact absurd (hvalue ▸ s.fits_value setting) hfits

end Members

/-! Settings that were written. -/

def members (s : Settings) (given : Setting → Bool) : List (Text × Json) :=
  (Setting.all.filter given).map fun setting => (setting.key, s.value setting)

/-- An object that gives some of the settings, and anything under keys that are not theirs. -/
def Gives (s : Settings) (given : Setting → Bool) (object : List (Text × Json)) : Prop :=
  ∃ further, object.Perm (s.members given ++ further) ∧
    ∀ m ∈ further, m.1 ≠ sectionKey ∧ ∀ setting : Setting, m.1 ≠ setting.key

namespace Gives

variable {given : Setting → Bool} {object : List (Text × Json)}

theorem value_of_mem (h : s.Gives given object) (hv : (setting.key, v) ∈ object) :
    v = s.value setting := by
  obtain ⟨further, hperm, hfurther⟩ := h
  rcases List.mem_append.1 (hperm.mem_iff.1 hv) with hmember | hother
  · obtain ⟨other, -, hentry⟩ := List.mem_map.1 hmember
    obtain ⟨hkey, rfl⟩ := Prod.mk.inj hentry
    rw [Setting.key_inj hkey]
  · exact absurd rfl ((hfurther _ hother).2 setting)

theorem mem_of_given (h : s.Gives given object) (hgiven : given setting = true) :
    (setting.key, s.value setting) ∈ object := by
  obtain ⟨further, hperm, -⟩ := h
  have hmember : (setting.key, s.value setting) ∈ s.members given :=
    List.mem_map.2 ⟨setting, List.mem_filter.2 ⟨setting.mem_all, hgiven⟩, rfl⟩
  exact hperm.mem_iff.2 (List.mem_append_left _ hmember)

theorem lookup_sectionKey (h : s.Gives given object) : object.lookup sectionKey = none := by
  obtain ⟨further, hperm, hfurther⟩ := h
  refine List.lookup_eq_none_iff.2 fun m hm => ?_
  rcases List.mem_append.1 (hperm.mem_iff.1 hm) with hmember | hother
  · obtain ⟨setting, -, rfl⟩ := List.mem_map.1 hmember
    simpa using setting.key_ne_sectionKey.symm
  · simpa using (hfurther m hother).1.symm

theorem lookup_key (h : s.Gives given object) (setting : Setting) :
    object.lookup setting.key = some (s.value setting) ∨
      object.lookup setting.key = none ∧ given setting = false := by
  cases hlookup : object.lookup setting.key with
  | some v =>
    obtain ⟨before, after, hobject, -⟩ := List.lookup_eq_some_iff.1 hlookup
    exact .inl (congrArg some (h.value_of_mem (by simp [hobject])))
  | none =>
    refine .inr ⟨rfl, ?_⟩
    cases hgiven : given setting with
    | false => rfl
    | true =>
      have hkey := List.lookup_eq_none_iff.1 hlookup _ (h.mem_of_given hgiven)
      simp at hkey

theorem ofMembers_eq (h : s.Gives given object)
    (homitted : ∀ setting, given setting = false → s.value setting = standard.value setting) :
    ofMembers object = .ok s := by
  refine (ofMembers_eq_ok_iff object).2 fun setting => ?_
  rcases h.lookup_key setting with hvalue | ⟨hnone, hgiven⟩
  · rw [hvalue, Option.getD_some]
  · rw [hnone, Option.getD_none, homitted setting hgiven]

end Gives

theorem ofJson_of_no_section {object : List (Text × Json)} (h : object.lookup sectionKey = none) :
    ofJson (.object object) = ofMembers object := by
  rw [ofJson, h]

theorem ofJson_of_section {object inner : List (Text × Json)}
    (h : object.lookup sectionKey = some (.object inner)) :
    ofJson (.object object) = ofMembers inner := by
  rw [ofJson, h]

/-- Whatever the settings are, they are read back from an object that gives them, among any members
under other keys, and from any object that holds such an object as its section; settings that have
their default values can be left out. An object without a section is refused exactly if it has a
value of a wrong type under the key of a setting. -/
theorem reads_written (s : Settings) (given : Setting → Bool) (object : List (Text × Json))
    (hgives : s.Gives given object)
    (homitted : ∀ setting, given setting = false → s.value setting = standard.value setting) :
    ofJson (.object object) = .ok s ∧
      (∀ outer : List (Text × Json), outer.lookup sectionKey = some (.object object) →
        ofJson (.object outer) = .ok s) ∧
        ∀ bare : List (Text × Json), bare.lookup sectionKey = none →
          ((∃ e, ofJson (.object bare) = .error e) ↔
            ∃ (setting : Setting) (v : Json),
              bare.lookup setting.key = some v ∧ ¬ setting.form.Fits v) := by
  refine ⟨?_, fun outer houter => ?_, fun bare hbare => ?_⟩
  · rw [ofJson_of_no_section hgives.lookup_sectionKey, hgives.ofMembers_eq homitted]
  · rw [ofJson_of_section houter, hgives.ofMembers_eq homitted]
  · rw [ofJson_of_no_section hbare]
    exact ofMembers_eq_error_iff bare

def halfSet : Settings :=
  { unpackedFileLocation := some "/g".toList, languageNumber := "49".toList }

def sent (setting : Setting) : Bool :=
  setting = .unpackedFileLocation || setting = .languageNumber

def sentObject : List (Text × Json) :=
  (halfSet.members sent ++ [("theme".toList, Json.array [.null])]).reverse

theorem sentObject_read :
    (halfSet.Gives sent sentObject ∧
      (∀ setting, sent setting = false → halfSet.value setting = standard.value setting) ∧
      ofJson (.object sentObject) = .ok halfSet) ∧
      ofJson (.object [(sectionKey, .object sentObject)]) = .ok halfSet ∧
      ∃ e, ofJson (.object [("languageNumber".toList, .null)]) = .error e := by
  have hgives : halfSet.Gives sent sentObject := by
    refine ⟨_, List.reverse_perm _, fun m hm => ?_⟩
    obtain rfl := List.mem_singleton.1 hm
    exact ⟨by decide, fun setting => by cases setting <;> decide⟩
  have homitted : ∀ setting, sent setting = false →
      halfSet.value setting = standard.value setting := by
    intro setting hsent
    cases setting <;> first | rfl | cases hsent
  obtain ⟨hbare, hsection, hrefused⟩ := reads_written halfSet sent sentObject hgives homitted
  exact ⟨⟨hgives, homitted, hbare⟩, hsection _ rfl,
    (hrefused [("languageNumber".toList, .null)] rfl).2 ⟨.languageNumber, .null, rfl, (nomatch ·)⟩⟩

end Settings

end ScriptLens
