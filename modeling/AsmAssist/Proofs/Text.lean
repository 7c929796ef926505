import AsmAssist.Position

/-!
# Blank ends and columns of a text

A text is its visible part followed by its trailing blanks. A column counts the units of the text in front
of it, so cutting at the column where a part ends gives that part back.
-/

namespace AsmAssist.Text

/-! ## Blank ends -/

/-- The blanks at the end of a text. -/
def trailing (s : Text) : Text := (s.reverse.takeWhile isBlank).reverse

theorem isAllBlank_iff {s : Text} : isAllBlank s = true ↔ ∀ c ∈ s, isBlank c = true := by
  simp [isAllBlank]

@[simp] theorem isAllBlank_nil : isAllBlank [] = true := rfl

@[simp] theorem isAllBlank_cons (c : Char) (s : Text) :
    isAllBlank (c :: s) = (isBlank c && isAllBlank s) := rfl

@[simp] theorem isAllBlank_append (s t : Text) :
    isAllBlank (s ++ t) = (isAllBlank s && isAllBlank t) := by simp [isAllBlank]

@[simp] theorem trimEnd_nil : trimEnd [] = [] := rfl

theorem trimEnd_cons (c : Char) (s : Text) :
    trimEnd (c :: s) = if trimEnd s = [] ∧ isBlank c = true then [] else c :: trimEnd s := by
  simp only [trimEnd, List.reverse_cons, List.dropWhile_append, List.isEmpty_iff,
    List.reverse_eq_nil_iff]
  cases hc : isBlank c <;> by_cases hs : s.reverse.dropWhile isBlank = [] <;> simp [hs, hc]

theorem trimEnd_append_trailing (s : Text) : trimEnd s ++ trailing s = s := by
  rw [trimEnd, trailing, ← List.reverse_append, List.takeWhile_append_dropWhile,
    List.reverse_reverse]

theorem isAllBlank_trailing (s : Text) : isAllBlank (trailing s) = true := by
  simp [isAllBlank, trailing, List.all_takeWhile]

theorem trimEnd_isPrefix (s : Text) : trimEnd s <+: s := ⟨trailing s, trimEnd_append_trailing s⟩

theorem trimEnd_eq_nil_iff {s : Text} : trimEnd s = [] ↔ isAllBlank s = true := by
  induction s with
  | nil => simp
  | cons c s ih =>
    rw [trimEnd_cons]
    by_cases hc : isBlank c = true <;> simp_all [isAllBlank]

theorem trimEnd_append_of_blank (s : Text) {w : Text} (h : isAllBlank w = true) :
    trimEnd (s ++ w) = trimEnd s := by
  induction s with
  | nil => rw [List.nil_append, trimEnd_eq_nil_iff.mpr h, trimEnd_nil]
  | cons c s ih => rw [List.cons_append, trimEnd_cons, trimEnd_cons, ih]

theorem trimEnd_append_of_visible (s : Text) {t : Text} (h : trimEnd t ≠ []) :
    trimEnd (s ++ t) = s ++ trimEnd t := by
  induction s with
  | nil => rfl
  | cons c s ih =>
    rw [List.cons_append, trimEnd_cons, ih, if_neg, List.cons_append]
    intro hn
    exact h (List.append_eq_nil_iff.mp hn.1).2

theorem trimEnd_trimEnd (s : Text) : trimEnd (trimEnd s) = trimEnd s := by
  have h := trimEnd_append_of_blank (trimEnd s) (isAllBlank_trailing s)
  rw [trimEnd_append_trailing] at h
  exact h.symm

theorem trimEnd_cons_of_visible {c : Char} (h : isBlank c = false) (s : Text) :
    trimEnd (c :: s) = c :: trimEnd s := by
  rw [trimEnd_cons, if_neg (by simp [h])]

/-- A part at the end of a text without trailing blanks has none either. -/
theorem trimEnd_of_append {s t : Text} (h : trimEnd (s ++ t) = s ++ t) : trimEnd t = t := by
  by_cases hv : trimEnd t = []
  · rw [trimEnd_append_of_blank s (trimEnd_eq_nil_iff.mp hv)] at h
    have hlen := (trimEnd_isPrefix s).length_le
    rw [h, List.length_append] at hlen
    have ht : t = [] := List.length_eq_zero_iff.mp (by omega)
    rw [ht, trimEnd_nil]
  · rw [trimEnd_append_of_visible s hv] at h
    exact List.append_cancel_left h

/-- A visible character and all in front of it survive trimming. -/
theorem trimEnd_append_cons {c : Char} (hc : isBlank c = false) (s t : Text) :
    trimEnd (s ++ c :: t) = s ++ c :: trimEnd t := by
  rw [trimEnd_append_of_visible s (by simp [trimEnd_cons_of_visible hc]), trimEnd_cons_of_visible hc]

theorem drop_of_eq_append {s t r : Text} (h : s = t ++ r) : s.drop t.length = r := by
  rw [h, List.drop_left]

theorem eq_nil_or_snoc (s : Text) : s = [] ∨ ∃ t c, s = t ++ [c] := by
  simpa only [List.concat_eq_append] using List.eq_nil_or_concat s

/-- The visible part ends in no blank. -/
theorem getLast_trimEnd {s : Text} {c : Char} (h : (trimEnd s).getLast? = some c) :
    isBlank c = false := by
  obtain ⟨t, ht⟩ := List.getLast?_eq_some_iff.mp h
  cases hb : isBlank c with
  | false => rfl
  | true =>
    have hc : isAllBlank [c] = true := by simp [isAllBlank, hb]
    have hle : trimEnd (trimEnd s) = trimEnd t := by rw [ht, trimEnd_append_of_blank t hc]
    rw [trimEnd_trimEnd, ht] at hle
    have hlen := (trimEnd_isPrefix t).length_le
    rw [← hle, List.length_append, List.length_singleton] at hlen
    omega

theorem dropWhile_isBlank_of_blank {s : Text} (h : isAllBlank s = true) :
    s.dropWhile isBlank = [] := by
  have hall : (s ++ []).dropWhile isBlank = [] :=
    List.dropWhile_append_of_pos (isAllBlank_iff.mp h)
  rwa [List.append_nil] at hall

/-- A visible character opens the text. -/
def OpensVisible (s : Text) : Prop := ∃ c t, s = c :: t ∧ isBlank c = false

theorem OpensVisible.ne_nil {s : Text} (h : OpensVisible s) : s ≠ [] := by
  obtain ⟨c, t, rfl, -⟩ := h
  exact List.cons_ne_nil c t

theorem OpensVisible.append {s : Text} (h : OpensVisible s) (t : Text) : OpensVisible (s ++ t) := by
  obtain ⟨c, r, rfl, hc⟩ := h
  exact ⟨c, r ++ t, rfl, hc⟩

theorem takeWhile_isBlank_append {w s : Text} (hw : isAllBlank w = true) (hs : OpensVisible s) :
    (w ++ s).takeWhile isBlank = w := by
  obtain ⟨c, t, rfl, hc⟩ := hs
  rw [List.takeWhile_append_of_pos (isAllBlank_iff.mp hw),
    List.takeWhile_cons_of_neg (by simp [hc]), List.append_nil]

theorem dropWhile_isBlank_append {w s : Text} (hw : isAllBlank w = true) (hs : OpensVisible s) :
    (w ++ s).dropWhile isBlank = s := by
  obtain ⟨c, t, rfl, hc⟩ := hs
  rw [List.dropWhile_append_of_pos (isAllBlank_iff.mp hw),
    List.dropWhile_cons_of_neg (by simp [hc])]

theorem isAllBlank_lead (s : Text) : isAllBlank (s.takeWhile isBlank) = true := by
  simp [isAllBlank, List.all_takeWhile]

/-- Past its leading blanks a text is empty or visible. -/
theorem isBlank_of_dropWhile_eq {s t : Text} {c : Char} (h : s.dropWhile isBlank = c :: t) :
    isBlank c = false := by
  have := List.head?_dropWhile_not isBlank s
  rw [h] at this
  exact this

theorem opensVisible_of_trimStart {s : Text} (h : trimStart s = s) (hne : s ≠ []) : OpensVisible s := by
  obtain ⟨c, t, rfl⟩ := List.exists_cons_of_ne_nil hne
  exact ⟨c, t, rfl, isBlank_of_dropWhile_eq h⟩

/-! ## Runs of characters -/

theorem takeWhile_run {p : Char → Bool} {t r : Text} (ht : ∀ c ∈ t, p c = true)
    (hr : ∀ c ∈ r.head?, p c = false) : (t ++ r).takeWhile p = t := by
  have hend : r.takeWhile p = [] := by
    cases r with
    | nil => rfl
    | cons c r => exact List.takeWhile_cons_of_neg (by simp [hr c rfl])
  rw [List.takeWhile_append_of_pos ht, hend, List.append_nil]

/-- Every text is read by passing single characters without a property and whole runs with it. -/
theorem runs_induction {motive : Text → Prop} (p : Char → Bool) (nil : motive [])
    (outside : ∀ c s, p c = false → motive s → motive (c :: s))
    (run : ∀ t r, t ≠ [] → (∀ c ∈ t, p c = true) → (∀ c ∈ r.head?, p c = false) → motive r →
      motive (t ++ r)) (s : Text) : motive s := by
  generalize hn : s.length = n
  induction n using Nat.strongRecOn generalizing s with
  | ind n ih =>
    cases s with
    | nil => exact nil
    | cons c s =>
      cases hc : p c with
      | false => exact outside c s hc (ih s.length (by simp at hn; omega) s rfl)
      | true =>
        have hs : (c :: s).takeWhile p ++ (c :: s).dropWhile p = c :: s :=
          List.takeWhile_append_dropWhile
        have hlen := congrArg List.length hs
        rw [List.length_append, hn] at hlen
        have hne : (c :: s).takeWhile p ≠ [] := by simp [hc]
        have hpos := List.length_pos_iff.mpr hne
        rw [← hs]
        refine run _ _ hne (List.all_eq_true.mp List.all_takeWhile) ?_ (ih _ (by omega) _ rfl)
        intro d hd
        have hfirst := List.head?_dropWhile_not p (c :: s)
        rw [Option.mem_def.mp hd] at hfirst
        simpa using hfirst

/-! ## Columns and bytes -/

@[simp] theorem columns_nil : columns [] = 0 := rfl

@[simp] theorem columns_cons (c : Char) (s : Text) : columns (c :: s) = unitWidth c + columns s := rfl

@[simp] theorem columns_append (s t : Text) : columns (s ++ t) = columns s + columns t := by
  induction s with
  | nil => rw [List.nil_append, columns_nil, Nat.zero_add]
  | cons c s ih => rw [List.cons_append, columns_cons, columns_cons, ih, Nat.add_assoc]

theorem bytes_cons (c : Char) (s : Text) : bytes (c :: s) = c.utf8Size + bytes s := rfl

theorem bytes_append (s t : Text) : bytes (s ++ t) = bytes s + bytes t := by
  induction s with
  | nil => exact (Nat.zero_add _).symm
  | cons c s ih => rw [List.cons_append, bytes_cons, bytes_cons, ih, Nat.add_assoc]

theorem bytes_lt_of_isPrefix {s t : Text} (hp : s <+: t) (hlt : s.length < t.length) :
    bytes s < bytes t := by
  obtain ⟨r, rfl⟩ := hp
  cases r with
  | nil => simp at hlt
  | cons c r =>
    have := Char.utf8Size_pos c
    rw [bytes_append, bytes_cons]
    omega

theorem unitWidth_pos (c : Char) : 0 < unitWidth c := by
  unfold unitWidth
  split <;> omega

theorem columns_le_of_isPrefix {s t : Text} (h : s <+: t) : columns s ≤ columns t := by
  obtain ⟨r, rfl⟩ := h
  rw [columns_append]
  omega

/-- Cutting at the column where a text ends gives that text back. -/
@[simp] theorem takeColumns_columns (s t : Text) : takeColumns (columns s) (s ++ t) = s := by
  induction s with
  | nil => cases t <;> rfl
  | cons c s ih =>
    have hc := unitWidth_pos c
    obtain ⟨k, hk⟩ : ∃ k, unitWidth c + columns s = k + 1 := ⟨unitWidth c + columns s - 1, by omega⟩
    rw [columns_cons, List.cons_append, hk, takeColumns, ← hk, Nat.add_sub_cancel_left, ih]

theorem takeColumns_of_isPrefix {s t : Text} (h : s <+: t) : takeColumns (columns s) t = s := by
  obtain ⟨r, rfl⟩ := h
  exact takeColumns_columns s r

/-- Cutting at the offset where a text ends gives that text back. -/
theorem takeBytes_of_isPrefix {s t : Text} (h : s <+: t) : takeBytes (bytes s) t = s := by
  obtain ⟨r, rfl⟩ := h
  induction s with
  | nil =>
    cases r with
    | nil => rfl
    | cons c r =>
      have hc : ¬ c.utf8Size ≤ 0 := Nat.not_le.mpr (Char.utf8Size_pos c)
      rw [List.nil_append, takeBytes, show bytes [] = 0 from rfl, if_neg hc]
  | cons c s ih =>
    rw [List.cons_append, takeBytes, bytes_cons, if_pos (Nat.le_add_right _ _),
      Nat.add_sub_cancel_left, ih]

/-! ## ASCII characters -/

theorem ascii_of_toUpper {c : Char} (h : c.toUpper.toNat < 0x80) : c.toNat < 0x80 := by
  unfold Char.toUpper at h
  split at h
  next hlower =>
    have hle : c.toNat ≤ 'z'.toNat := UInt32.le_iff_toNat_le.mp hlower.2
    exact Nat.lt_of_le_of_lt hle (by decide)
  · exact h

/-- What can be checked for the ASCII characters one by one. -/
theorem forall_ascii {p : Char → Prop} (h : ∀ n < 0x80, p (Char.ofNat n)) {c : Char} (hc : c.toNat < 0x80) :
    p c := by
  have hp := h c.toNat hc
  rwa [Char.ofNat_toNat] at hp

end AsmAssist.Text
