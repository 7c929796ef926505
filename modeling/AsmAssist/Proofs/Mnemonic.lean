import AsmAssist.Mnemonic
import AsmAssist.Proofs.Words

/-!
# The first mnemonic of a text

The search keeps the best of the leftmost occurrences of all names. `find?_eq_some_iff` says what that is:
the first word that spells a name, alone or with a condition after a dot.
-/

namespace AsmAssist.Mnemonic

open Text

/-- `text` is `name`, alone or with a condition of one or more letters. -/
def Spells (name text : Text) : Prop :=
  text = name ∨ ∃ condition : Text, condition ≠ [] ∧ (∀ c ∈ condition, c.isAlpha = true) ∧
    text = name ++ '.' :: condition

def IsMnemonic (text : Text) : Prop := ∃ name ∈ names, Spells name text

/-! ## Letters -/

theorem names_letters : ∀ name ∈ names, name ≠ [] ∧ ∀ c ∈ name, c.isAlpha = true := by
  have hall : names.all (fun name => !name.isEmpty && name.all Char.isAlpha) = true := by
    decide +kernel
  simpa using hall

theorem isBlank_of_isAlpha {c : Char} (h : c.isAlpha = true) : isBlank c = false := by
  have hr : 65 ≤ c.toNat ∧ c.toNat ≤ 122 := by
    have hcase : (decide (c.val ≥ 'A'.val ∧ c.val ≤ 'Z'.val) ||
        decide (c.val ≥ 'a'.val) && decide (c.val ≤ 'z'.val)) = true := h
    simp only [Bool.or_eq_true, Bool.and_eq_true, decide_eq_true_eq, UInt32.le_iff_toNat_le,
      ge_iff_le, Char.reduceVal, UInt32.reduceToNat] at hcase
    simp only [Char.toNat]
    omega
  simp only [isBlank, Bool.or_eq_false_iff, Bool.and_eq_false_iff, decide_eq_false_iff_not,
    beq_eq_false_iff_ne]
  omega

theorem Spells.chars {name text : Text} (h : Spells name text) (hn : name ∈ names) :
    text ≠ [] ∧ ∀ c ∈ text, c.isAlpha = true ∨ c = '.' := by
  obtain ⟨hne, hl⟩ := names_letters name hn
  rcases h with rfl | ⟨condition, _, hc, rfl⟩
  · exact ⟨hne, fun c hm => .inl (hl c hm)⟩
  · refine ⟨by simp, ?_⟩
    intro c hm
    rcases List.mem_append.mp hm with hm | hm
    · exact .inl (hl c hm)
    · rcases List.mem_cons.mp hm with rfl | hm
      · exact .inr rfl
      · exact .inl (hc c hm)

theorem Spells.isWord {name text : Text} (h : Spells name text) (hn : name ∈ names) : IsWord text := by
  obtain ⟨hne, hc⟩ := h.chars hn
  refine ⟨hne, fun c hm => ?_⟩
  rcases hc c hm with ha | rfl
  · exact isBlank_of_isAlpha ha
  · decide

theorem IsMnemonic.isWord {text : Text} (h : IsMnemonic text) : IsWord text := by
  obtain ⟨name, hn, hs⟩ := h
  exact hs.isWord hn

/-- A mnemonic is made of letters and dots. -/
theorem IsMnemonic.not_mem {text : Text} (h : IsMnemonic text) {c : Char} (hc : c.isAlpha = false)
    (hd : c ≠ '.') : c ∉ text := by
  obtain ⟨name, hn, hs⟩ := h
  intro hm
  rcases (hs.chars hn).2 c hm with ha | ha
  · rw [hc] at ha
    cases ha
  · exact hd ha

/-- A mnemonic has only one name: what stands in front of the dot. -/
theorem Spells.base_eq {name text : Text} (h : Spells name text) (hn : name ∈ names) :
    base text = name := by
  have hdot : ∀ c ∈ name, (c != '.') = true := by
    intro c hc
    have ha := (names_letters name hn).2 c hc
    by_cases he : c = '.'
    · subst he
      exact absurd ha (by decide)
    · simpa using he
  rcases h with rfl | ⟨condition, _, _, rfl⟩
  · have h : (text ++ []).takeWhile (· != '.') = text ++ [] := List.takeWhile_append_of_pos hdot
    rwa [List.append_nil] at h
  · rw [base, List.takeWhile_append_of_pos hdot]
    simp

/-! ## One name -/

theorem endsToken_iff {s : Text} : endsToken s = true ↔ StartsBlank s := by
  cases s <;> simp [endsToken, StartsBlank]

theorem spelledAt?_eq_some_iff {name s text : Text} :
    spelledAt? name s = some text ↔
      Spells name text ∧ ∃ rest, s = text ++ rest ∧ StartsBlank rest := by
  constructor
  · intro h
    unfold spelledAt? at h
    split at h
    · rename_i hp
      obtain ⟨r, rfl⟩ := List.isPrefixOf_iff_prefix.mp hp
      simp only [List.drop_left] at h
      split at h
      · rename_i he
        cases h
        exact ⟨.inl rfl, r, rfl, endsToken_iff.mp he⟩
      · split at h
        · rename_i tail _
          split at h
          · rename_i hc
            obtain ⟨hne, he⟩ := Bool.and_eq_true_iff.mp hc
            cases h
            refine ⟨.inr ⟨_, by simpa using hne, fun c hm => ?_, rfl⟩,
              tail.drop (tail.takeWhile Char.isAlpha).length, ?_, endsToken_iff.mp he⟩
            · exact List.all_eq_true.mp List.all_takeWhile c hm
            · have := List.takeWhile_prefix (p := Char.isAlpha) (l := tail)
              simp [List.prefix_iff_eq_append.mp this]
          · cases h
        · cases h
    · cases h
  · rintro ⟨hs, rest, rfl, hr⟩
    rcases hs with rfl | ⟨condition, hne, hc, rfl⟩
    · have hp : text.isPrefixOf (text ++ rest) = true :=
        List.isPrefixOf_iff_prefix.mpr (List.prefix_append _ _)
      simp [spelledAt?, hp, endsToken_iff.mpr hr]
    · have ht : (condition ++ rest).takeWhile Char.isAlpha = condition := by
        rw [List.takeWhile_append_of_pos hc]
        cases rest with
        | nil => simp
        | cons d rest =>
          have hd : Char.isAlpha d = false := by
            cases ha : Char.isAlpha d with
            | false => rfl
            | true =>
              have := hr d rfl
              rw [isBlank_of_isAlpha ha] at this
              cases this
          simp [hd]
      have hdot : endsToken ('.' :: (condition ++ rest)) = false := by simp [endsToken]; decide
      simp [spelledAt?, hdot, ht, hne, endsToken_iff.mpr hr]

/-- The occurrence in a text that has `u` in front. -/
def Occurrence.behind (u : Text) (o : Occurrence) : Occurrence := { o with before := u ++ o.before }

theorem spelledAt?_of_blank {name : Text} (hn : name ∈ names) {c : Char} (hc : isBlank c = true)
    (s : Text) : spelledAt? name (c :: s) = none := by
  cases h : spelledAt? name (c :: s) with
  | none => rfl
  | some text =>
    obtain ⟨hs, rest, he, _⟩ := spelledAt?_eq_some_iff.mp h
    have hw := hs.isWord hn
    obtain ⟨d, text, rfl⟩ := List.exists_cons_of_ne_nil hw.1
    rw [List.cons_append, List.cons.injEq] at he
    have := hw.2 d (by simp)
    rw [← he.1, hc] at this
    cases this

theorem leftmostFrom_startsBlank {name : Text} (hn : name ∈ names) {s : Text} (hs : StartsBlank s)
    (fresh : Bool) : leftmostFrom name fresh s = leftmostFrom name true s := by
  cases s with
  | nil => rfl
  | cons c s =>
    have hc : isBlank c = true := hs c rfl
    cases fresh <;> simp [leftmostFrom, spelledAt?_of_blank hn hc]

theorem leftmost?_cons_blank {name : Text} (hn : name ∈ names) {c : Char} (hc : isBlank c = true)
    (s : Text) : leftmost? (c :: s) name = (leftmost? s name).map (.behind [c]) := by
  simp only [leftmost?, leftmostFrom, if_true, spelledAt?_of_blank hn hc, hc]
  rfl

/-- No occurrence starts inside a word. -/
theorem leftmostFrom_inside {name u : Text} (hu : ∀ c ∈ u, isBlank c = false) (r : Text) :
    leftmostFrom name false (u ++ r) = (leftmostFrom name false r).map (.behind u) := by
  induction u with
  | nil =>
    rw [List.nil_append]
    cases leftmostFrom name false r <;> rfl
  | cons c u ih =>
    rw [List.cons_append, leftmostFrom, hu c (by simp), ih fun d hd => hu d (by simp [hd])]
    cases leftmostFrom name false r <;> rfl

theorem leftmost?_word {name t r : Text} (hn : name ∈ names) (ht : IsWord t) (hr : StartsBlank r)
    (hs : ¬ Spells name t) : leftmost? (t ++ r) name = (leftmost? r name).map (.behind t) := by
  obtain ⟨c, t, rfl⟩ := List.exists_cons_of_ne_nil ht.1
  have hnone : spelledAt? name (c :: (t ++ r)) = none := by
    cases h : spelledAt? name (c :: (t ++ r)) with
    | none => rfl
    | some text =>
      obtain ⟨hsp, rest, he, hrest⟩ := spelledAt?_eq_some_iff.mp h
      have h1 := takeWhile_word ht hr
      have h2 := takeWhile_word (hsp.isWord hn) hrest
      rw [List.cons_append, he] at h1
      exact absurd (h1.1.symm.trans h2.1 ▸ hsp) hs
  have hc : isBlank c = false := ht.2 c (by simp)
  rw [leftmost?, leftmost?, List.cons_append, leftmostFrom]
  simp only [if_true, hnone, hc]
  rw [leftmostFrom_inside (fun d hd => ht.2 d (by simp [hd])), leftmostFrom_startsBlank hn hr]
  cases leftmostFrom name true r <;> rfl

theorem leftmost?_spelled {name t r : Text} (ht : t ≠ []) (hr : StartsBlank r) (hs : Spells name t) :
    leftmost? (t ++ r) name = some ⟨name, [], t⟩ := by
  obtain ⟨c, t, rfl⟩ := List.exists_cons_of_ne_nil ht
  have h : spelledAt? name (c :: t ++ r) = some (c :: t) :=
    spelledAt?_eq_some_iff.mpr ⟨hs, r, rfl, hr⟩
  rw [List.cons_append] at h ⊢
  simp only [leftmost?, leftmostFrom, if_true, h]

theorem leftmost?_eq_none {name s : Text} (hn : name ∈ names) (h : leftmost? s name = none) :
    ∀ t ∈ words s, ¬ Spells name t := by
  induction s using words_induction with
  | nil => simp
  | blank c s hc ih =>
    rw [leftmost?_cons_blank hn hc, Option.map_eq_none_iff] at h
    rw [words_cons_blank hc]
    exact ih h
  | word u r hu hr ih =>
    by_cases hs : Spells name u
    · rw [leftmost?_spelled hu.1 hr hs] at h
      cases h
    · rw [leftmost?_word hn hu hr hs, Option.map_eq_none_iff] at h
      rw [words_word_append hu hr]
      intro t ht
      rcases List.mem_cons.mp ht with rfl | ht
      · exact hs
      · exact ih h t ht

theorem leftmost?_eq_some {name s : Text} {o : Occurrence} (hn : name ∈ names)
    (h : leftmost? s name = some o) :
    o.name = name ∧ Spells name o.text ∧ WordAt s o.before o.text ∧
      ∀ t ∈ words o.before, ¬ Spells name t := by
  induction s using words_induction generalizing o with
  | nil => simp [leftmost?, leftmostFrom] at h
  | blank c s hc ih =>
    rw [leftmost?_cons_blank hn hc] at h
    obtain ⟨p, hp, rfl⟩ := Option.map_eq_some_iff.mp h
    obtain ⟨h1, h2, h3, h4⟩ := ih hp
    refine ⟨h1, h2, h3.cons_blank hc, ?_⟩
    intro t ht
    exact h4 t (by simpa [Occurrence.behind, words_cons_blank hc] using ht)
  | word u r hu hr ih =>
    by_cases hs : Spells name u
    · rw [leftmost?_spelled hu.1 hr hs] at h
      cases h
      exact ⟨rfl, hs, ⟨hu, by simp [EndsBlank], r, by simp, hr⟩, by simp⟩
    · rw [leftmost?_word hn hu hr hs] at h
      obtain ⟨p, hp, rfl⟩ := Option.map_eq_some_iff.mp h
      obtain ⟨h1, h2, h3, h4⟩ := ih hp
      refine ⟨h1, h2, h3.word_append hr, ?_⟩
      intro t ht
      have hb := hr.of_isPrefix h3.before_isPrefix
      rw [Occurrence.behind, words_word_append hu hb] at ht
      rcases List.mem_cons.mp ht with rfl | ht
      · exact hs
      · exact h4 t ht

/-! ## All names -/

theorem better_fold_eq_none_iff {held : Option Occurrence} {found : List Occurrence} :
    found.foldl better held = none ↔ held = none ∧ found = [] := by
  induction found generalizing held with
  | nil => simp
  | cons o found ih =>
    rw [List.foldl_cons, ih]
    cases held with
    | none => simp [better]
    | some p => by_cases hp : p.precedes o <;> simp [better, hp]

/-- The fold keeps one of the occurrences, and it precedes all of them. -/
theorem better_fold_eq_some {held : Option Occurrence} {found : List Occurrence} {o : Occurrence}
    (h : found.foldl better held = some o) :
    (held = some o ∨ o ∈ found) ∧ (∀ p, held = some p → o.start ≤ p.start) ∧
      ∀ p ∈ found, o.start ≤ p.start := by
  induction found generalizing held with
  | nil =>
    rw [List.foldl_nil] at h
    subst h
    exact ⟨.inl rfl, fun p hp => Nat.le_of_eq (congrArg _ (Option.some.inj hp)), by simp⟩
  | cons q found ih =>
    rw [List.foldl_cons] at h
    obtain ⟨hmem, hheld, hrest⟩ := ih h
    cases held with
    | none =>
      have hq := hheld q rfl
      refine ⟨.inr ?_, by simp, by simpa using ⟨hq, hrest⟩⟩
      rcases hmem with hm | hm
      · rw [Option.some.inj hm]
        exact List.mem_cons_self
      · exact List.mem_cons_of_mem q hm
    | some p =>
      by_cases hp : p.precedes q
      · simp only [better, hp, if_true] at hmem hheld
        have hop := hheld p rfl
        have hpq : p.start ≤ q.start := by
          simp only [Occurrence.precedes, Bool.or_eq_true, Bool.and_eq_true, decide_eq_true_eq,
            beq_iff_eq] at hp
          omega
        refine ⟨hmem.imp_right (List.mem_cons_of_mem q), fun r hr => ?_, ?_⟩
        · rw [← Option.some.inj hr]
          exact hop
        · simpa using ⟨Nat.le_trans hop hpq, hrest⟩
      · simp only [better, hp] at hmem hheld
        have hoq := hheld q rfl
        have hqp : q.start ≤ p.start := by
          simp only [Occurrence.precedes, Bool.or_eq_true, Bool.and_eq_true, decide_eq_true_eq,
            beq_iff_eq] at hp
          omega
        refine ⟨.inr ?_, fun r hr => ?_, by simpa using ⟨hoq, hrest⟩⟩
        · rcases hmem with hm | hm
          · rw [← Option.some.inj hm]
            exact List.mem_cons_self
          · exact List.mem_cons_of_mem q hm
        · rw [← Option.some.inj hr]
          exact Nat.le_trans hoq hqp

theorem find?_eq_none_iff {s : Text} : find? s = none ↔ ∀ t ∈ words s, ¬ IsMnemonic t := by
  rw [find?, better_fold_eq_none_iff, List.filterMap_eq_nil_iff]
  constructor
  · rintro ⟨-, h⟩ t ht ⟨name, hn, hs⟩
    exact leftmost?_eq_none hn (h name hn) t ht hs
  · intro h
    refine ⟨rfl, fun name hn => ?_⟩
    cases hl : leftmost? s name with
    | none => rfl
    | some o =>
      obtain ⟨-, hs, hw, -⟩ := leftmost?_eq_some hn hl
      exact absurd ⟨name, hn, hs⟩ (h o.text hw.mem)

/-- The first word that is a mnemonic. -/
structure First (s : Text) (o : Occurrence) : Prop where
  name_mem : o.name ∈ names
  spells : Spells o.name o.text
  place : WordAt s o.before o.text
  none_before : ∀ t ∈ words o.before, ¬ IsMnemonic t

theorem First.unique {s : Text} {o p : Occurrence} (ho : First s o) (hp : First s p) : o = p := by
  have hle : ∀ {q r : Occurrence}, First s q → First s r → q.before.length ≤ r.before.length := by
    intro q r hq hr
    apply Nat.le_of_not_lt
    intro hlt
    exact hq.none_before r.text (hr.place.mem_of_lt hq.place hlt) ⟨r.name, hr.name_mem, hr.spells⟩
  have hb : o.before = p.before := by
    have hpre := List.prefix_of_prefix_length_le ho.place.before_isPrefix hp.place.before_isPrefix
      (hle ho hp)
    exact hpre.eq_of_length (Nat.le_antisymm (hle ho hp) (hle hp ho))
  have ht : o.text = p.text := by
    have hplace := hp.place
    rw [← hb] at hplace
    exact ho.place.unique hplace
  have hname : o.name = p.name := by
    rw [← ho.spells.base_eq ho.name_mem, ← hp.spells.base_eq hp.name_mem, ht]
  cases o
  cases p
  simp_all

theorem find?_first {s : Text} {o : Occurrence} (h : find? s = some o) : First s o := by
  obtain ⟨hmem, -, hmin⟩ := better_fold_eq_some h
  obtain ⟨name, hn, hl⟩ := List.mem_filterMap.mp (hmem.resolve_left (by simp))
  obtain ⟨rfl, hs, hw, -⟩ := leftmost?_eq_some hn hl
  refine ⟨hn, hs, hw, ?_⟩
  rintro t ht ⟨name, hn', hs'⟩
  -- an earlier mnemonic would be the leftmost occurrence of its name, or behind it
  cases hl' : leftmost? s name with
  | none =>
    have hmem : t ∈ words s := by
      obtain ⟨rest, _, he⟩ := hw.words_eq
      rw [he]
      exact List.mem_append_left _ ht
    exact leftmost?_eq_none hn' hl' t hmem hs'
  | some p =>
    obtain ⟨-, hsp, hwp, hp⟩ := leftmost?_eq_some hn' hl'
    have hstart := hmin p (List.mem_filterMap.mpr ⟨name, hn', hl'⟩)
    have hlt : p.before.length < o.before.length := by
      apply Nat.lt_of_not_le
      intro hle
      obtain ⟨x, hx⟩ := List.prefix_of_prefix_length_le hw.before_isPrefix hwp.before_isPrefix hle
      refine hp t ?_ hs'
      rw [← hx, words_append_of_endsBlank hw.opens]
      exact List.mem_append_left _ ht
    have hpre := List.prefix_of_prefix_length_le hwp.before_isPrefix hw.before_isPrefix
      (Nat.le_of_lt hlt)
    have := bytes_lt_of_isPrefix hpre hlt
    simp only [Occurrence.start] at hstart
    omega

theorem find?_eq_some_iff {s : Text} {o : Occurrence} : find? s = some o ↔ First s o := by
  refine ⟨find?_first, fun ho => ?_⟩
  cases h : find? s with
  | none => exact absurd ⟨o.name, ho.name_mem, ho.spells⟩ (find?_eq_none_iff.mp h _ ho.place.mem)
  | some p => rw [(find?_first h).unique ho]

end AsmAssist.Mnemonic
