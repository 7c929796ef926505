import AsmAssist.Proofs.Text

/-!
# The words of a text

Words are the maximal runs of visible characters. They do not depend on how wide the blanks between them
are, and each stands at a place of its own: `WordAt` names it by the text in front of the word.
-/

namespace AsmAssist.Text

def words (s : Text) : List Text := (s.splitOnP isBlank).filter (· ≠ [])

/-- The words that a blank follows. -/
def endedWords (s : Text) : List Text := (s.splitOnP isBlank).dropLast.filter (· ≠ [])

def IsWord (s : Text) : Prop := s ≠ [] ∧ ∀ c ∈ s, isBlank c = false

/-- No word goes on from the end of the text in front. -/
def StartsBlank (s : Text) : Prop := ∀ c ∈ s.head?, isBlank c = true

/-- A word may start after the text. -/
def EndsBlank (s : Text) : Prop := ∀ c ∈ s.getLast?, isBlank c = true

instance (s : Text) : Decidable (IsWord s) :=
  decidable_of_iff (s ≠ [] ∧ s.all (fun c => !isBlank c) = true) (by simp [IsWord])

instance (s : Text) : Decidable (StartsBlank s) :=
  decidable_of_iff (s.head?.all isBlank = true) (by simp [StartsBlank, Option.all_eq_true])

instance (s : Text) : Decidable (EndsBlank s) :=
  decidable_of_iff (s.getLast?.all isBlank = true) (by simp [EndsBlank, Option.all_eq_true])

/-- `t` is a word of `s`, and `before` stands in front of it. -/
structure WordAt (s before t : Text) : Prop where
  word : IsWord t
  opens : EndsBlank before
  closes : ∃ rest, s = before ++ t ++ rest ∧ StartsBlank rest

@[simp] theorem words_nil : words [] = [] := by simp [words]

theorem words_append_blank {c : Char} (h : isBlank c = true) (s t : Text) :
    words (s ++ c :: t) = words s ++ words t := by
  rw [words, List.splitOnP_append_cons s t h, List.filter_append, ← words, ← words]

theorem endedWords_append_blank {c : Char} (h : isBlank c = true) (s t : Text) :
    endedWords (s ++ c :: t) = words s ++ endedWords t := by
  rw [endedWords, List.splitOnP_append_cons s t h,
    List.dropLast_append_of_ne_nil (List.splitOnP_ne_nil isBlank t), List.filter_append, ← words,
    ← endedWords]

theorem endedWords_isPrefix (s : Text) : endedWords s <+: words s := by
  have h := List.dropLast_prefix (s.splitOnP isBlank)
  exact h.filter _

theorem words_cons_blank {c : Char} (h : isBlank c = true) (s : Text) : words (c :: s) = words s := by
  have := words_append_blank h [] s
  rwa [words_nil, List.nil_append, List.nil_append] at this

theorem endedWords_cons_blank {c : Char} (h : isBlank c = true) (s : Text) :
    endedWords (c :: s) = endedWords s := by
  have := endedWords_append_blank h [] s
  rwa [words_nil, List.nil_append, List.nil_append] at this

theorem words_of_isWord {s : Text} (h : IsWord s) : words s = [s] := by
  rw [words, List.splitOnP_eq_singleton h.2]
  simp [h.1]

theorem endedWords_of_isWord {s : Text} (h : IsWord s) : endedWords s = [] := by
  rw [endedWords, List.splitOnP_eq_singleton h.2]
  rfl

theorem words_word_append {t r : Text} (ht : IsWord t) (hr : StartsBlank r) :
    words (t ++ r) = t :: words r := by
  cases r with
  | nil => rw [List.append_nil, words_of_isWord ht, words_nil]
  | cons c r =>
    have hc : isBlank c = true := hr c rfl
    rw [words_append_blank hc, words_of_isWord ht, words_cons_blank hc, List.singleton_append]

theorem endedWords_word_append {t r : Text} (ht : IsWord t) (hr : StartsBlank r) :
    endedWords (t ++ r) = if r = [] then [] else t :: endedWords r := by
  cases r with
  | nil => rw [List.append_nil, endedWords_of_isWord ht, if_pos rfl]
  | cons c r =>
    have hc : isBlank c = true := hr c rfl
    rw [endedWords_append_blank hc, words_of_isWord ht, endedWords_cons_blank hc,
      if_neg (List.cons_ne_nil c r), List.singleton_append]

theorem tail_endedWords_word_append {t r : Text} (ht : IsWord t) (hr : StartsBlank r) :
    (endedWords (t ++ r)).tail = endedWords r := by
  rw [endedWords_word_append ht hr]
  split
  · rename_i hn
    rw [hn]
    rfl
  · rfl

theorem words_blank_append {w : Text} (h : isAllBlank w = true) (s : Text) :
    words (w ++ s) = words s := by
  induction w with
  | nil => rfl
  | cons c w ih =>
    obtain ⟨hc, hw⟩ := Bool.and_eq_true_iff.mp h
    rw [List.cons_append, words_cons_blank hc, ih hw]

theorem endedWords_blank_append {w : Text} (h : isAllBlank w = true) (s : Text) :
    endedWords (w ++ s) = endedWords s := by
  induction w with
  | nil => rfl
  | cons c w ih =>
    obtain ⟨hc, hw⟩ := Bool.and_eq_true_iff.mp h
    rw [List.cons_append, endedWords_cons_blank hc, ih hw]

/-- The words on the two sides of a gap do not depend on its width. -/
theorem words_gap (s t : Text) {w : Text} (h : isAllBlank w = true) (hne : w ≠ []) :
    words (s ++ w ++ t) = words s ++ words t := by
  obtain ⟨c, w, rfl⟩ := List.exists_cons_of_ne_nil hne
  obtain ⟨hc, hw⟩ := Bool.and_eq_true_iff.mp h
  rw [List.append_assoc, List.cons_append, words_append_blank hc, words_blank_append hw]

theorem endedWords_gap (s t : Text) {w : Text} (h : isAllBlank w = true) (hne : w ≠ []) :
    endedWords (s ++ w ++ t) = words s ++ endedWords t := by
  obtain ⟨c, w, rfl⟩ := List.exists_cons_of_ne_nil hne
  obtain ⟨hc, hw⟩ := Bool.and_eq_true_iff.mp h
  rw [List.append_assoc, List.cons_append, endedWords_append_blank hc, endedWords_blank_append hw]

theorem words_append_of_blank (s : Text) {w : Text} (h : isAllBlank w = true) :
    words (s ++ w) = words s := by
  cases w with
  | nil => rw [List.append_nil]
  | cons c w =>
    have := words_gap s [] h (List.cons_ne_nil c w)
    rwa [List.append_nil, words_nil, List.append_nil] at this

theorem words_trimEnd (s : Text) : words (trimEnd s) = words s := by
  have := words_append_of_blank (trimEnd s) (isAllBlank_trailing s)
  rw [trimEnd_append_trailing] at this
  exact this.symm

/-- Words are cut apart after a text that ends in a blank. -/
theorem words_append_of_endsBlank {s : Text} (h : EndsBlank s) (t : Text) :
    words (s ++ t) = words s ++ words t := by
  rcases eq_nil_or_snoc s with rfl | ⟨u, c, rfl⟩
  · simp
  · have hc : isBlank c = true := h c (by simp)
    rw [List.append_assoc, List.singleton_append, words_append_blank hc, words_append_blank hc,
      words_nil, List.append_nil]

theorem trimEnd_word_append {t : Text} (ht : IsWord t) (s : Text) :
    trimEnd (t ++ s) = t ++ trimEnd s := by
  obtain ⟨u, c, rfl⟩ := (eq_nil_or_snoc t).resolve_left ht.1
  have hc : isBlank c = false := ht.2 c (by simp)
  rw [List.append_assoc, List.singleton_append, trimEnd_append_cons hc, List.append_assoc,
    List.singleton_append]

theorem trailing_ne_nil {s : Text} (h : EndsBlank s) (hne : s ≠ []) : trailing s ≠ [] := by
  intro hn
  obtain ⟨u, c, rfl⟩ := (eq_nil_or_snoc s).resolve_left hne
  have hb : isBlank c = true := h c (by simp)
  have htrim := trimEnd_append_trailing (u ++ [c])
  rw [hn, List.append_nil] at htrim
  have hv : isBlank c = false := getLast_trimEnd (s := u ++ [c]) (by rw [htrim]; simp)
  rw [hb] at hv
  cases hv

/-! ## Reading word by word -/

theorem startsBlank_dropWhile (s : Text) : StartsBlank (s.dropWhile (!isBlank ·)) := by
  intro c hc
  have := List.head?_dropWhile_not (!isBlank ·) s
  rw [Option.mem_def.mp hc] at this
  simpa using this

theorem isWord_takeWhile {c : Char} {s : Text} (h : isBlank c = false) :
    IsWord ((c :: s).takeWhile (!isBlank ·)) := by
  refine ⟨by simp [h], ?_⟩
  intro d hd
  simpa using List.all_eq_true.mp (List.all_takeWhile (p := (!isBlank ·)) (l := c :: s)) d hd

/-- Every text is read by passing blanks and whole words. -/
theorem words_induction {motive : Text → Prop} (nil : motive [])
    (blank : ∀ c s, isBlank c = true → motive s → motive (c :: s))
    (word : ∀ t r, IsWord t → StartsBlank r → motive r → motive (t ++ r)) (s : Text) : motive s := by
  induction s using runs_induction (!isBlank ·) with
  | nil => exact nil
  | outside c s hc ih => exact blank c s (by simpa using hc) ih
  | run t r hne ht hr ih => exact word t r ⟨hne, by simpa using ht⟩ (by simpa [StartsBlank] using hr) ih

theorem subset_of_mem_words {s t : Text} (h : t ∈ words s) : t ⊆ s := by
  induction s using words_induction with
  | nil => cases h
  | blank c s hc ih =>
    rw [words_cons_blank hc] at h
    exact List.Subset.trans (ih h) (List.subset_cons_self c s)
  | word u r hu hr ih =>
    rw [words_word_append hu hr] at h
    rcases List.mem_cons.mp h with rfl | h
    · exact List.subset_append_left _ _
    · exact List.Subset.trans (ih h) (List.subset_append_right u r)

/-! ## The places of words -/

theorem EndsBlank.append {s t : Text} (ht : EndsBlank t) (hs : t = [] → EndsBlank s) :
    EndsBlank (s ++ t) := by
  rcases eq_nil_or_snoc t with rfl | ⟨u, c, rfl⟩
  · rw [List.append_nil]
    exact hs rfl
  · intro d hd
    rw [← List.append_assoc] at hd
    exact ht d (by simpa using hd)

theorem endsBlank_of_blank {s : Text} (h : isAllBlank s = true) : EndsBlank s := by
  intro c hc
  exact isAllBlank_iff.mp h c (List.mem_of_mem_getLast? hc)

theorem WordAt.words_eq {s before t : Text} (h : WordAt s before t) :
    ∃ rest, s = before ++ t ++ rest ∧ words s = words before ++ t :: words rest := by
  obtain ⟨rest, rfl, hr⟩ := h.closes
  refine ⟨rest, rfl, ?_⟩
  rw [List.append_assoc, words_append_of_endsBlank h.opens, words_word_append h.word hr]

theorem WordAt.mem {s before t : Text} (h : WordAt s before t) : t ∈ words s := by
  obtain ⟨rest, _, he⟩ := h.words_eq
  rw [he]
  simp

theorem StartsBlank.of_isPrefix {s t : Text} (h : StartsBlank t) (hp : s <+: t) : StartsBlank s := by
  obtain ⟨r, rfl⟩ := hp
  intro c hc
  cases s with
  | nil => simp at hc
  | cons d s => exact h c (by simpa using hc)

theorem WordAt.before_isPrefix {s before t : Text} (h : WordAt s before t) : before <+: s := by
  obtain ⟨rest, rfl, _⟩ := h.closes
  exact ⟨t ++ rest, by rw [List.append_assoc]⟩

theorem WordAt.cons_blank {s before t : Text} {c : Char} (h : WordAt s before t)
    (hc : isBlank c = true) : WordAt (c :: s) (c :: before) t := by
  obtain ⟨rest, rfl, hr⟩ := h.closes
  refine ⟨h.word, ?_, rest, rfl, hr⟩
  exact EndsBlank.append (s := [c]) h.opens fun _ => by simpa [EndsBlank] using hc

theorem WordAt.word_append {r before t u : Text} (h : WordAt r before t) (hr : StartsBlank r) :
    WordAt (u ++ r) (u ++ before) t := by
  obtain ⟨rest, rfl, hrest⟩ := h.closes
  refine ⟨h.word, EndsBlank.append h.opens fun hn => ?_, rest, by simp, hrest⟩
  -- `t` is not glued to `u`, since a blank starts what follows `u`
  subst hn
  obtain ⟨c, t, rfl⟩ := List.exists_cons_of_ne_nil h.word.1
  have hb : isBlank c = true := hr c (by simp)
  rw [h.word.2 c (by simp)] at hb
  cases hb

/-- What stands in front of a later word holds every earlier word. -/
theorem WordAt.mem_of_lt {s before t before' t' : Text} (h : WordAt s before t)
    (h' : WordAt s before' t') (hlt : before.length < before'.length) : t ∈ words before' := by
  obtain ⟨rest, hs, hr⟩ := h.closes
  obtain ⟨rest', hs', _⟩ := h'.closes
  obtain ⟨x, rfl⟩ := List.prefix_of_prefix_length_le h.before_isPrefix h'.before_isPrefix
    (Nat.le_of_lt hlt)
  have hx : x <+: t ++ rest := by
    rw [hs, List.append_assoc, List.append_assoc, List.append_assoc,
      List.append_cancel_left_eq] at hs'
    exact ⟨t' ++ rest', hs'.symm⟩
  have hne : x ≠ [] := by
    rintro rfl
    simp at hlt
  -- `x` ends in a blank, so it reaches past the word
  have hlen : t.length ≤ x.length := by
    apply Nat.le_of_not_lt
    intro hshort
    obtain ⟨y, hy⟩ : x <+: t := List.prefix_of_prefix_length_le hx (List.prefix_append _ _)
      (Nat.le_of_lt hshort)
    obtain ⟨u, c, rfl⟩ := (eq_nil_or_snoc x).resolve_left hne
    have hb : isBlank c = true := h'.opens c (by simp)
    rw [h.word.2 c (by rw [← hy]; simp)] at hb
    cases hb
  obtain ⟨y, rfl⟩ : t <+: x := List.prefix_of_prefix_length_le (List.prefix_append _ _) hx hlen
  have hy : StartsBlank y := hr.of_isPrefix (by simpa using hx)
  rw [words_append_of_endsBlank h.opens, words_word_append h.word hy]
  simp

/-- No word starts inside a gap. -/
theorem WordAt.not_inside {s before t front gap : Text} (h : WordAt s before t) (hp : front ++ gap <+: s)
    (hgap : isAllBlank gap = true) (hle : front.length ≤ before.length) :
    (front ++ gap).length ≤ before.length := by
  apply Nat.le_of_not_lt
  intro hlt
  obtain ⟨x, hx⟩ := List.prefix_of_prefix_length_le h.before_isPrefix hp (Nat.le_of_lt hlt)
  obtain ⟨g, rfl⟩ := List.prefix_of_prefix_length_le ((List.prefix_append _ _).trans hp) h.before_isPrefix hle
  rw [List.append_assoc, List.append_cancel_left_eq] at hx
  obtain ⟨rest, hs, -⟩ := h.closes
  obtain ⟨r, rfl⟩ := hp
  rw [← hx, List.append_assoc, List.append_assoc, List.append_assoc, List.append_assoc,
    List.append_cancel_left_eq, List.append_cancel_left_eq] at hs
  -- `x` is what is left of the gap, and the word starts there
  cases x with
  | nil =>
    rw [List.append_nil] at hx
    rw [hx] at hlt
    exact Nat.lt_irrefl _ hlt
  | cons e x =>
    obtain ⟨c, t, rfl⟩ := List.exists_cons_of_ne_nil h.word.1
    obtain ⟨rfl, -⟩ := List.cons.inj hs
    have hblank : isBlank e = true := isAllBlank_iff.mp hgap e (by simp [← hx])
    rw [h.word.2 e List.mem_cons_self] at hblank
    cases hblank

theorem takeWhile_word {t r : Text} (ht : IsWord t) (hr : StartsBlank r) :
    (t ++ r).takeWhile (!isBlank ·) = t ∧ (t ++ r).dropWhile (!isBlank ·) = r := by
  have hall : ∀ c ∈ t, (!isBlank c) = true := fun c hc => by simp [ht.2 c hc]
  rw [List.takeWhile_append_of_pos hall, List.dropWhile_append_of_pos hall]
  cases r with
  | nil => simp
  | cons c r => simp [hr c rfl]

/-- Only one word stands at a place. -/
theorem WordAt.unique {s before t t' : Text} (h : WordAt s before t) (h' : WordAt s before t') :
    t = t' := by
  obtain ⟨rest, hs, hr⟩ := h.closes
  obtain ⟨rest', hs', hr'⟩ := h'.closes
  have he : t ++ rest = t' ++ rest' := by
    rw [hs, List.append_assoc, List.append_assoc, List.append_cancel_left_eq] at hs'
    exact hs'
  rw [← (takeWhile_word h.word hr).1, ← (takeWhile_word h'.word hr').1, he]

end AsmAssist.Text
