import AsmAssist.Proofs.Text
import AsmAssist.Word

/-!
# Maximal runs

The scan of a line finds its maximal runs, each with the column where it starts. Between two runs stands at
least one character that belongs to none, so at most one of them touches a column: the word there, if the
runs are those of word characters.
-/

namespace AsmAssist

open Text

/-- `t` is a maximal run in `s` of characters that satisfy `p`, and `before` stands in front of it. -/
structure RunAt (p : Char → Bool) (s before t : Text) : Prop where
  ne_nil : t ≠ []
  inside : ∀ c ∈ t, p c = true
  opens : ∀ c ∈ before.getLast?, p c = false
  closes : ∃ after, s = before ++ t ++ after ∧ ∀ c ∈ after.head?, p c = false

namespace RunAt

variable {p : Char → Bool} {s before t before' t' : Text}

theorem before_isPrefix (h : RunAt p s before t) : before <+: s := by
  obtain ⟨after, rfl, -⟩ := h.closes
  exact ⟨t ++ after, by simp⟩

theorem isPrefix (h : RunAt p s before t) : before ++ t <+: s := by
  obtain ⟨after, rfl, -⟩ := h.closes
  exact List.prefix_append _ _

/-- The run goes on as far as the property does. -/
theorem text_eq (h : RunAt p s before t) : (s.drop before.length).takeWhile p = t := by
  obtain ⟨after, rfl, hafter⟩ := h.closes
  rw [List.append_assoc, List.drop_left, takeWhile_run h.inside hafter]

/-- A later run starts behind a character that ends the earlier one. -/
theorem stop_lt (h : RunAt p s before t) (h' : RunAt p s before' t')
    (hlt : before.length < before'.length) : columns (before ++ t) < columns before' := by
  obtain ⟨after, hs, -⟩ := h.closes
  obtain ⟨x, rfl⟩ := List.prefix_of_prefix_length_le h.before_isPrefix h'.before_isPrefix
    (Nat.le_of_lt hlt)
  obtain ⟨u, c, rfl⟩ : ∃ u c, x = u ++ [c] := by
    refine (eq_nil_or_snoc x).resolve_left ?_
    rintro rfl
    simp at hlt
  have hx : u ++ [c] <+: t ++ after := by
    have hp := h'.before_isPrefix
    rwa [hs, List.append_assoc, List.prefix_append_right_inj] at hp
  have hlen : t.length < (u ++ [c]).length := by
    apply Nat.lt_of_not_le
    intro hle
    have hin := List.prefix_of_prefix_length_le hx (List.prefix_append t after) hle
    have htrue := h.inside c (hin.subset (by simp))
    rw [h'.opens c (by simp [← List.append_assoc])] at htrue
    cases htrue
  obtain ⟨y, rfl⟩ : t <+: u := by
    apply List.prefix_of_prefix_length_le (List.prefix_append t after)
      ((List.prefix_append u [c]).trans hx)
    simp at hlen
    omega
  have hwidth := unitWidth_pos c
  simp only [columns_append, columns_cons, columns_nil]
  omega

/-- Only one run touches a column. -/
theorem unique_of_touches (h : RunAt p s before t) (h' : RunAt p s before' t') {column : Nat}
    (hstart : columns before ≤ column) (hstop : column ≤ columns (before ++ t))
    (hstart' : columns before' ≤ column) (hstop' : column ≤ columns (before' ++ t')) :
    before = before' ∧ t = t' := by
  have hlength : before.length = before'.length := by
    rcases Nat.lt_trichotomy before.length before'.length with hlt | heq | hlt
    · have := h.stop_lt h' hlt
      omega
    · exact heq
    · have := h'.stop_lt h hlt
      omega
  obtain rfl : before = before' :=
    (List.prefix_of_prefix_length_le h.before_isPrefix h'.before_isPrefix (by omega)).eq_of_length hlength
  exact ⟨rfl, h.text_eq.symm.trans h'.text_eq⟩

end RunAt

/-! ## The scan -/

section

variable {p : Char → Bool} {u before t : Text}

theorem runAt_of_all (hu : ∀ c ∈ u, p c = true) :
    RunAt p u before t ↔ before = [] ∧ t = u ∧ u ≠ [] := by
  constructor
  · intro h
    obtain rfl : before = [] := by
      rcases eq_nil_or_snoc before with rfl | ⟨v, c, rfl⟩
      · rfl
      · have htrue := hu c (h.before_isPrefix.subset (by simp))
        rw [h.opens c (by simp)] at htrue
        cases htrue
    have ht : u = t := by
      have hall : (u ++ []).takeWhile p = u ++ [] := List.takeWhile_append_of_pos hu
      rw [List.append_nil] at hall
      rw [← h.text_eq, List.length_nil, List.drop_zero, hall]
    exact ⟨rfl, ht.symm, ht ▸ h.ne_nil⟩
  · rintro ⟨rfl, rfl, hne⟩
    exact ⟨hne, hu, by simp, [], by simp, by simp⟩

/-- The runs of a text with a first run, possibly empty, in front of a character outside the property. -/
theorem runAt_append_cons (hu : ∀ c ∈ u, p c = true) {c : Char} (hc : p c = false) (s : Text) :
    RunAt p (u ++ c :: s) before t ↔
      (before = [] ∧ t = u ∧ u ≠ []) ∨ ∃ b, before = u ++ c :: b ∧ RunAt p s b t := by
  constructor
  · intro h
    have hfront : u ++ [c] <+: u ++ c :: s := ⟨s, by simp⟩
    by_cases hle : before.length ≤ u.length
    · left
      -- the run is one of `u`, since `c` ends it
      obtain ⟨v, rfl⟩ := List.prefix_of_prefix_length_le h.before_isPrefix (List.prefix_append u _) hle
      have ht := h.text_eq
      have hv : ∀ d ∈ v, p d = true := fun d hd => hu d (List.mem_append_right _ hd)
      rw [List.append_assoc, List.drop_left, List.takeWhile_append_of_pos hv,
        List.takeWhile_cons_of_neg (by simp [hc]), List.append_nil] at ht
      apply (runAt_of_all hu).mp
      exact ⟨h.ne_nil, h.inside, h.opens, [], by simp [ht], by simp⟩
    · right
      obtain ⟨b, rfl⟩ := List.prefix_of_prefix_length_le hfront h.before_isPrefix (by simp; omega)
      obtain ⟨after, hs, hafter⟩ := h.closes
      refine ⟨b, by simp, h.ne_nil, h.inside, ?_, after, by simpa using hs, hafter⟩
      intro d hd
      refine h.opens d ?_
      rw [List.getLast?_append, Option.mem_def.mp hd]
      rfl
  · rintro (⟨rfl, rfl, hne⟩ | ⟨b, rfl, h⟩)
    · exact ⟨hne, hu, by simp, c :: s, by simp, by simpa using hc⟩
    · obtain ⟨after, rfl, hafter⟩ := h.closes
      refine ⟨h.ne_nil, h.inside, ?_, after, by simp, hafter⟩
      intro d hd
      rcases eq_nil_or_snoc b with rfl | ⟨v, e, rfl⟩
      · obtain rfl : c = d := by simpa using hd
        exact hc
      · have hlast : u ++ c :: (v ++ [e]) = (u ++ c :: v) ++ [e] := by simp
        rw [hlast, List.getLast?_concat] at hd
        exact h.opens d (by simpa using hd)

end

namespace Run

theorem mem_close {start : Nat} {current : Text} {r : Run} :
    r ∈ close start current ↔ r.start = start ∧ r.text = current.reverse ∧ current ≠ [] := by
  obtain ⟨column, text⟩ := r
  unfold close
  split
  · rename_i h
    simp [h]
  · rename_i h
    simp [h]

theorem columns_reverse (s : Text) : columns s.reverse = columns s := by
  induction s with
  | nil => rfl
  | cons c s ih =>
    simp only [List.reverse_cons, columns_append, columns_cons, columns_nil, ih]
    omega

/-- The scan finds the runs of the rest of a line, the one being read among them. -/
theorem mem_scan {p : Char → Bool} {start : Nat} {current s : Text} {r : Run}
    (hcurrent : ∀ c ∈ current, p c = true) :
    r ∈ scan p start current s ↔
      ∃ before, RunAt p (current.reverse ++ s) before r.text ∧ r.start = start + columns before := by
  induction s generalizing start current with
  | nil =>
    rw [scan, mem_close, List.append_nil]
    simp only [runAt_of_all (u := current.reverse) (by simpa using hcurrent)]
    constructor
    · rintro ⟨hstart, htext, hne⟩
      exact ⟨[], ⟨rfl, htext, by simpa using hne⟩, hstart⟩
    · rintro ⟨before, ⟨rfl, htext, hne⟩, hstart⟩
      exact ⟨hstart, htext, by simpa using hne⟩
  | cons c s ih =>
    rw [scan]
    split
    · rename_i hc
      rw [ih (by simpa using ⟨hc, hcurrent⟩)]
      simp
    · rename_i hc
      have hrest (column : Nat) : r ∈ scan p column [] s ↔
          ∃ before, RunAt p s before r.text ∧ r.start = column + columns before := ih (by simp)
      simp only [List.mem_append, mem_close, hrest,
        runAt_append_cons (u := current.reverse) (by simpa using hcurrent) (by simpa using hc)]
      constructor
      · rintro (⟨hstart, htext, hne⟩ | ⟨b, hb, hstart⟩)
        · exact ⟨[], .inl ⟨rfl, htext, by simpa using hne⟩, hstart⟩
        · refine ⟨current.reverse ++ c :: b, .inr ⟨b, rfl, hb⟩, ?_⟩
          simp only [columns_append, columns_cons, columns_reverse]
          omega
      · rintro ⟨before, ⟨rfl, htext, hne⟩ | ⟨b, rfl, hb⟩, hstart⟩
        · exact .inl ⟨hstart, htext, by simpa using hne⟩
        · refine .inr ⟨b, hb, ?_⟩
          simp only [columns_append, columns_cons, columns_reverse] at hstart
          omega

theorem mem_all {p : Char → Bool} {s : Text} {r : Run} :
    r ∈ all p s ↔ ∃ before, RunAt p s before r.text ∧ r.start = columns before := by
  have h : r ∈ scan p 0 [] s ↔ _ := mem_scan (by simp)
  simp only [List.reverse_nil, List.nil_append, Nat.zero_add] at h
  exact h

section

variable {p : Char → Bool}

theorem scan_append {t : Text} (ht : ∀ c ∈ t, p c = true) (start : Nat) (current r : Text) :
    scan p start current (t ++ r) = scan p start (t.reverse ++ current) r := by
  induction t generalizing current with
  | nil => rfl
  | cons c t ih =>
    obtain ⟨hc, ht⟩ := List.forall_mem_cons.mp ht
    rw [List.cons_append, scan, if_pos hc, ih ht, List.reverse_cons, List.append_assoc]
    rfl

theorem scan_outside {c : Char} (hc : p c = false) (start : Nat) (s : Text) :
    scan p start [] (c :: s) = scan p (start + unitWidth c) [] s := by
  simp [scan, hc, close]

/-- The scan lists a run and goes on behind it. -/
theorem scan_run {t r : Text} (hne : t ≠ []) (ht : ∀ c ∈ t, p c = true)
    (hr : ∀ c ∈ r.head?, p c = false) (start : Nat) :
    scan p start [] (t ++ r) = ⟨start, t⟩ :: scan p (start + columns t) [] r := by
  rw [scan_append ht, List.append_nil]
  cases r with
  | nil => simp [scan, close, hne]
  | cons c r =>
    have hc : p c = false := hr c rfl
    rw [scan_outside hc, scan, if_neg (by simp [hc])]
    simp [close, hne, columns_reverse]

/-- The runs go from left to right, and none starts where the one before it stops. -/
theorem scan_pairwise (p : Char → Bool) (start : Nat) (s : Text) :
    (scan p start [] s).Pairwise fun r later => r.stop < later.start := by
  induction s using runs_induction p generalizing start with
  | nil => exact .nil
  | outside c s hc ih =>
    rw [scan_outside hc]
    exact ih _
  | run t r hne ht hr ih =>
    rw [scan_run hne ht hr]
    refine List.pairwise_cons.mpr ⟨?_, ih _⟩
    intro later hlater
    cases r with
    | nil => simp [scan, close] at hlater
    | cons c r =>
      rw [scan_outside (hr c rfl), mem_scan (by simp)] at hlater
      obtain ⟨before, -, hstart⟩ := hlater
      have hwidth := unitWidth_pos c
      show start + columns t < later.start
      omega

end

end Run

/-! ## The word at the cursor -/

namespace Word

/-- `word` is a word of the line, behind `before`, and the column touches it. -/
structure Touched (raw : Text) (character : Nat) (before word : Text) : Prop where
  run : RunAt isPart raw before word
  starts : columns before ≤ character
  stops : character ≤ columns (before ++ word)

theorem Touched.unique {raw : Text} {character : Nat} {before word before' word' : Text}
    (h : Touched raw character before word) (h' : Touched raw character before' word') :
    before = before' ∧ word = word' :=
  h.run.unique_of_touches h'.run h.starts h.stops h'.starts h'.stops

theorem at?_eq_some_iff {raw : Text} {line character : Nat} {t : Token} :
    at? raw line character = some t ↔
      ∃ before word, Touched raw character before word ∧ t = .after line before word := by
  have htouched {r : Run}
      (hr : (Run.all isPart raw).find? (fun r => r.start ≤ character && character ≤ r.stop) = some r) :
      ∃ before, Touched raw character before r.text ∧ Run.token line 0 r = .after line before r.text := by
    obtain ⟨before, hrun, hstart⟩ := Run.mem_all.mp (List.mem_of_find?_eq_some hr)
    have hcolumn := List.find?_some hr
    simp only [Bool.and_eq_true, decide_eq_true_eq, Run.stop, hstart, ← columns_append] at hcolumn
    refine ⟨before, ⟨hrun, hcolumn.1, hcolumn.2⟩, ?_⟩
    simp [Run.token, Run.stop, Token.after, hstart]
  constructor
  · intro h
    obtain ⟨r, hr, rfl⟩ := Option.map_eq_some_iff.mp h
    obtain ⟨before, ht, he⟩ := htouched hr
    exact ⟨before, r.text, ht, he⟩
  · rintro ⟨before, word, ht, rfl⟩
    have hsome :
        ((Run.all isPart raw).find? fun r => r.start ≤ character && character ≤ r.stop).isSome = true := by
      apply List.find?_isSome.mpr
      refine ⟨⟨columns before, word⟩, Run.mem_all.mpr ⟨before, ht.run, rfl⟩, ?_⟩
      simp only [Bool.and_eq_true, decide_eq_true_eq, Run.stop, ← columns_append]
      exact ⟨ht.starts, ht.stops⟩
    -- the first run that touches the column is the only one
    obtain ⟨r, hr⟩ := Option.isSome_iff_exists.mp hsome
    obtain ⟨before', ht', he⟩ := htouched hr
    obtain ⟨rfl, rfl⟩ := ht.unique ht'
    rw [at?, hr, Option.map_some, he]

end Word

end AsmAssist
