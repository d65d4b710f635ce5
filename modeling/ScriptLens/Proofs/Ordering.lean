import Mathlib.Data.List.Sort
import ScriptLens.Text.Basic

/-!
The order of texts is that of their UTF-8 bytes, and texts in order without repetitions are told by
which texts there are.
-/

namespace ScriptLens.Text

def bytes (t : Text) : List UInt8 :=
  t.flatMap String.utf8EncodeChar

theorem bytes_cons (c : Char) (t : Text) : bytes (c :: t) = String.utf8EncodeChar c ++ bytes t :=
  List.flatMap_cons

theorem byte_lt_iff {m n : Nat} (hm : m < 256) (hn : n < 256) :
    UInt8.ofNat m < UInt8.ofNat n ↔ m < n := by
  rw [UInt8.lt_iff_toNat_lt, UInt8.toNat_ofNat', UInt8.toNat_ofNat', Nat.mod_eq_of_lt hm,
    Nat.mod_eq_of_lt hn]

theorem byte_eq_iff {m n : Nat} (hm : m < 256) (hn : n < 256) :
    UInt8.ofNat m = UInt8.ofNat n ↔ m = n := by
  rw [← UInt8.toNat_inj, UInt8.toNat_ofNat', UInt8.toNat_ofNat', Nat.mod_eq_of_lt hm,
    Nat.mod_eq_of_lt hn]

/-- Numbers are compared by their digits, the last one of which is split off. -/
theorem digits_lt {m n : Nat} (scale base : Nat) (h : m / scale < n / scale) :
    m / (scale * base) < n / (scale * base) ∨
      m / (scale * base) = n / (scale * base) ∧ m / scale % base < n / scale % base := by
  rw [← Nat.div_div_eq_div_mul, ← Nat.div_div_eq_div_mul]
  rcases Nat.lt_or_eq_of_le (Nat.div_le_div_right (c := base) h.le) with hlt | heq
  · exact .inl hlt
  · have hm := Nat.div_add_mod (m / scale) base
    have hn := Nat.div_add_mod (n / scale) base
    rw [heq] at hm
    exact .inr ⟨heq, by omega⟩

theorem bytes_lt_of_lt {c d : Char} (h : c < d) (s t : Text) : bytes (c :: s) < bytes (d :: t) := by
  have hlt : c.val.toNat < d.val.toNat := UInt32.lt_iff_toNat_lt.1 (Char.lt_def.1 h)
  have hvalid : d.val.toNat < 1114112 := by
    rcases d.valid with hd | hd <;> omega
  rw [bytes_cons, bytes_cons]
  unfold String.utf8EncodeChar
  dsimp only
  generalize c.val.toNat = m at *
  generalize d.val.toNat = n at *
  have hlast : m / 64 < n / 64 ∨ m / 64 = n / 64 ∧ m % 64 < n % 64 := by omega
  have hthird : m / 64 < n / 64 →
      m / 4096 < n / 4096 ∨ m / 4096 = n / 4096 ∧ m / 64 % 64 < n / 64 % 64 := digits_lt 64 64
  have hsecond : m / 4096 < n / 4096 → m / 262144 < n / 262144 ∨
      m / 262144 = n / 262144 ∧ m / 4096 % 64 < n / 4096 % 64 := digits_lt 4096 64
  have hm : m / 262144 % 8 = m / 262144 := Nat.mod_eq_of_lt (by omega)
  have hn : n / 262144 % 8 = n / 262144 := Nat.mod_eq_of_lt (by omega)
  rw [hm, hn]
  -- The first byte tells how many there are, so characters of unlike length differ in it.
  split_ifs <;>
    simp (disch := omega) only [List.cons_append, List.cons_lt_cons_iff, byte_lt_iff,
      byte_eq_iff] <;>
    omega

theorem append_lt_append_iff (u s t : List UInt8) : u ++ s < u ++ t ↔ s < t := by
  induction u with
  | nil => rfl
  | cons b u ih => simp [ih]

theorem le_eq_false_iff (s t : Text) : le s t = false ↔ bytes t < bytes s := by
  induction s generalizing t with
  | nil => simp [le, bytes, List.not_lt_nil]
  | cons c s ih =>
    cases t with
    | nil =>
      have hsome : bytes (c :: s) ≠ [] := by
        rw [bytes_cons, ← List.length_pos_iff, List.length_append, String.length_utf8EncodeChar]
        exact Nat.add_pos_left c.utf8Size_pos _
      obtain ⟨b, more, hbytes⟩ := List.exists_cons_of_ne_nil hsome
      rw [hbytes]
      exact ⟨fun _ => List.nil_lt_cons b more, fun _ => rfl⟩
    | cons d t =>
      rcases Std.lt_trichotomy c d with hlt | rfl | hgt
      · have hbytes := bytes_lt_of_lt hlt s t
        simp [le, hlt, List.lt_asymm hbytes]
      · rw [bytes_cons, bytes_cons, append_lt_append_iff, ← ih]
        simp [le]
      · have hbytes := bytes_lt_of_lt hgt t s
        simp [le, hbytes, Char.lt_asymm hgt, Ne.symm (Char.ne_of_lt hgt)]

theorem le_iff_bytes_le (s t : Text) : le s t = true ↔ bytes s ≤ bytes t := by
  rw [← Bool.not_eq_false, le_eq_false_iff, List.not_lt]

theorem le_antisymm {s t : Text} (h : le s t = true) (h' : le t s = true) : s = t := by
  induction s generalizing t with
  | nil =>
    cases t with
    | nil => rfl
    | cons d t => cases h'
  | cons c s ih =>
    cases t with
    | nil => cases h
    | cons d t =>
      simp only [le, Bool.or_eq_true, Bool.and_eq_true, decide_eq_true_eq, beq_iff_eq] at h h'
      grind

theorem bytes_lt_of_le {s t : Text} (h : le s t = true) (hne : s ≠ t) : bytes s < bytes t := by
  rw [← le_eq_false_iff, ← Bool.not_eq_true]
  exact fun h' => hne (le_antisymm h h')

theorem pairwise_mergeSort_le (ts : List Text) : (ts.mergeSort le).Pairwise (le · · = true) := by
  refine List.pairwise_mergeSort (fun s t u hs ht => ?_) (fun s t => ?_) ts
  · rw [le_iff_bytes_le] at *
    exact List.le_trans hs ht
  · rw [Bool.or_eq_true, le_iff_bytes_le, le_iff_bytes_le]
    exact List.le_total _ _

section Repetitions

theorem loop_eraseReps (t : Text) (ts kept : List Text) :
    List.eraseRepsBy.loop (· == ·) t ts kept = kept.reverse ++ (t :: ts).eraseReps := by
  induction ts generalizing t kept with
  | nil => simp [List.eraseReps, List.eraseRepsBy, List.eraseRepsBy.loop]
  | cons u ts ih =>
    simp only [List.eraseReps, List.eraseRepsBy, List.eraseRepsBy.loop]
    cases t == u <;> simp [ih]

theorem eraseReps_cons_cons (t u : Text) (ts : List Text) :
    (t :: u :: ts).eraseReps =
      if t = u then (u :: ts).eraseReps else t :: (u :: ts).eraseReps := by
  rw [List.eraseReps, List.eraseRepsBy, List.eraseRepsBy.loop]
  by_cases h : t = u
  · subst h
    simp [loop_eraseReps]
  · simp [beq_eq_false_iff_ne.2 h, h, loop_eraseReps]

theorem mem_eraseReps {t : Text} {ts : List Text} : t ∈ ts.eraseReps ↔ t ∈ ts := by
  induction ts with
  | nil => rfl
  | cons u ts ih =>
    cases ts with
    | nil => rfl
    | cons v ts =>
      rw [eraseReps_cons_cons]
      split
      next h => simp [ih, h]
      next => simp [ih]

/-- Equal texts in order stand side by side, so one of each is left. -/
theorem pairwise_eraseReps {ts : List Text} (h : ts.Pairwise (le · · = true)) :
    ts.eraseReps.Pairwise fun s t => bytes s < bytes t := by
  induction ts with
  | nil => exact .nil
  | cons u ts ih =>
    obtain ⟨hu, hts⟩ := List.pairwise_cons.1 h
    cases ts with
    | nil => exact List.pairwise_singleton _ u
    | cons v ts =>
      rw [eraseReps_cons_cons]
      split
      next => exact ih hts
      next hne =>
        refine List.pairwise_cons.2 ⟨fun t ht => ?_, ih hts⟩
        rw [mem_eraseReps] at ht
        refine bytes_lt_of_le (hu t ht) ?_
        rintro rfl
        rcases List.mem_cons.1 ht with rfl | ht'
        · exact hne rfl
        · exact hne (le_antisymm (hu v List.mem_cons_self) ((List.pairwise_cons.1 hts).1 u ht'))

end Repetitions

theorem pairwise_sortedDistinct (ts : List Text) :
    (sortedDistinct ts).Pairwise fun s t => bytes s < bytes t :=
  pairwise_eraseReps (pairwise_mergeSort_le ts)

@[simp] theorem mem_sortedDistinct {t : Text} {ts : List Text} :
    t ∈ sortedDistinct ts ↔ t ∈ ts := by
  rw [sortedDistinct, mem_eraseReps, List.mem_mergeSort]

theorem sortedDistinct_congr {ts ts' : List Text} (h : ∀ t, t ∈ ts ↔ t ∈ ts') :
    sortedDistinct ts = sortedDistinct ts' := by
  have : Std.Irrefl fun s t : Text => bytes s < bytes t := ⟨fun s => List.lt_irrefl (bytes s)⟩
  have : Std.Antisymm fun s t : Text => bytes s < bytes t :=
    ⟨fun _ _ hs ht => absurd ht (List.lt_asymm hs)⟩
  refine (pairwise_sortedDistinct ts).eq_of_mem_iff (pairwise_sortedDistinct ts') fun t => ?_
  rw [mem_sortedDistinct, mem_sortedDistinct, h]

end ScriptLens.Text
