import ScriptLens.Text.Numeral

/-!
Numbers written in the digits of a base read back, with any number of zeros before them and their
letters in either case. What reads as a number consists of digits, but for a plus in front.
-/

namespace ScriptLens.Text

/-- A number in the digits of a base after any number of zeros, letters in either case. -/
def IsNumeral (base n : Nat) (written : Text) : Prop :=
  ∃ zeros, written.map Char.toLower = List.replicate zeros '0' ++ Nat.toDigits base n

/-- A reader of single digits takes the digits of a base, in either case, and no sign. -/
structure ReadsDigits (base : Nat) (digit? : Char → Option Nat) : Prop where
  one_lt : 1 < base
  digitChar : ∀ d < base, digit? d.digitChar = some d
  toLower : ∀ c, digit? c.toLower = digit? c
  plus : digit? '+' = none

theorem toLower_of_ge {c : Char} (h : 91 ≤ c.toNat) : c.toLower = c := by
  refine dif_neg ?_
  rintro ⟨_, hle⟩
  exact absurd (show c.toNat ≤ 90 from hle) (by omega)

/-- No capital letter comes later, so the characters up to the last one are tried. -/
theorem digit?_toLower {digit? : Char → Option Nat}
    (h : ∀ n < 91, digit? (Char.ofNat n).toLower = digit? (Char.ofNat n)) (c : Char) :
    digit? c.toLower = digit? c := by
  by_cases hc : c.toNat < 91
  · rw [← Char.ofNat_toNat c]
    exact h c.toNat hc
  · rw [toLower_of_ge (Nat.not_lt.1 hc)]

theorem readsDigits_decimal : ReadsDigits 10 decimalValue? where
  one_lt := by decide
  digitChar := by decide
  toLower := digit?_toLower (by decide)
  plus := by decide

theorem readsDigits_hex : ReadsDigits 16 hexValue? where
  one_lt := by decide
  digitChar := by decide
  toLower := digit?_toLower (by decide)
  plus := by decide

section

variable {base : Nat} {digit? : Char → Option Nat}

theorem digitsFrom?_append (value : Nat) (s t : Text) :
    digitsFrom? base digit? value (s ++ t) =
      (digitsFrom? base digit? value s).bind fun value => digitsFrom? base digit? value t := by
  induction s generalizing value with
  | nil => rfl
  | cons c s ih => simp only [List.cons_append, digitsFrom?, ih, Option.bind_assoc]

theorem digitsFrom?_map (f : Char → Char) (hf : ∀ c, digit? (f c) = digit? c) (value : Nat)
    (t : Text) : digitsFrom? base digit? value (t.map f) = digitsFrom? base digit? value t := by
  induction t generalizing value with
  | nil => rfl
  | cons c t ih => simp only [List.map_cons, digitsFrom?, hf, ih]

theorem digitsFrom?_zeros (hzero : digit? '0' = some 0) (zeros : Nat) :
    digitsFrom? base digit? 0 (List.replicate zeros '0') = some 0 := by
  induction zeros with
  | zero => rfl
  | succ zeros ih => simp [List.replicate_succ, digitsFrom?, hzero, ih]

theorem not_mem_of_digitsFrom? {t : Text} {value n : Nat} {c : Char}
    (h : digitsFrom? base digit? value t = some n) (hc : digit? c = none) : c ∉ t := by
  induction t generalizing value with
  | nil => exact List.not_mem_nil
  | cons first t ih =>
    obtain ⟨d, hd, hrest⟩ := Option.bind_eq_some_iff.1 h
    refine List.not_mem_cons_of_ne_of_not_mem ?_ (ih hrest)
    rintro rfl
    rw [hc] at hd
    cases hd

theorem digitsFrom?_toDigits (h : ReadsDigits base digit?) (n : Nat) :
    digitsFrom? base digit? 0 (Nat.toDigits base n) = some n := by
  induction n using Nat.strongRecOn with
  | _ n ih =>
    rw [Nat.toDigits_eq_if h.one_lt]
    split
    next hlt => simp [digitsFrom?, h.digitChar n hlt]
    next hle =>
      have hbase : 0 < base := Nat.lt_of_succ_lt h.one_lt
      have hdiv : n / base < n := Nat.div_lt_self (by omega) h.one_lt
      have hlast := h.digitChar (n % base) (Nat.mod_lt n hbase)
      rw [digitsFrom?_append, ih _ hdiv]
      simp [digitsFrom?, hlast, Nat.div_add_mod']

theorem digitsFrom?_of_isNumeral (h : ReadsDigits base digit?) {n : Nat} {written : Text}
    (hwritten : IsNumeral base n written) : digitsFrom? base digit? 0 written = some n := by
  obtain ⟨zeros, heq⟩ := hwritten
  have hzero : digit? '0' = some 0 := h.digitChar 0 (Nat.lt_of_succ_lt h.one_lt)
  rw [← digitsFrom?_map Char.toLower h.toLower, heq, digitsFrom?_append,
    digitsFrom?_zeros hzero]
  exact digitsFrom?_toDigits h n

theorem numeral?_of_isNumeral (h : ReadsDigits base digit?) {n : Nat} {written : Text}
    (hwritten : IsNumeral base n written) : numeral? base digit? written = some n := by
  have hread := digitsFrom?_of_isNumeral h hwritten
  cases written with
  | nil =>
    obtain ⟨zeros, heq⟩ := hwritten
    exact absurd (List.append_eq_nil_iff.1 heq.symm).2 Nat.toDigits_ne_nil
  | cons c t =>
    have hplus : '+' ≠ c := List.ne_of_not_mem_cons (not_mem_of_digitsFrom? hread h.plus)
    have hsign : after? ['+'] (c :: t) = none := by rw [after?, if_neg hplus]
    rw [numeral?, hsign]
    exact hread

theorem not_mem_of_numeral? {t : Text} {n : Nat} {c : Char} (h : numeral? base digit? t = some n)
    (hplus : c ≠ '+') (hc : digit? c = none) : c ∉ t := by
  unfold numeral? at h
  split at h
  next => cases h
  next d digits hsign =>
    have hdigits := not_mem_of_digitsFrom? h hc
    cases hrest : after? ['+'] t with
    | none =>
      rw [hrest, Option.getD_none] at hsign
      rwa [hsign]
    | some rest =>
      rw [hrest, Option.getD_some] at hsign
      rw [after?_eq_some_iff.1 hrest, hsign]
      exact List.not_mem_cons_of_ne_of_not_mem hplus hdigits

end

end ScriptLens.Text
