import AsmAssist.Literal
import AsmAssist.Proofs.Text

/-!
# Marks outside literals

A place of a line is outside every literal when an even number of quotes stands before it. The cut at a mark
is the cut in front of the first mark at such a place, and it is found part by part: what a first part leaves
to the rest of the line is whether it ends inside a literal.
-/

namespace AsmAssist

/-- Whether a literal is open after a text, which starts inside one or not. -/
def endsQuoted (quoted : Bool) (s : Text) : Bool := quoted ^^ (s.count quoteMark % 2 == 1)

/-- `before` ends at the first `mark` of a line that is outside every literal. -/
structure FirstMark (mark : Char) (raw before : Text) : Prop where
  stands : before ++ [mark] <+: raw
  outside : endsQuoted false before = false
  first : ∀ earlier, earlier ++ [mark] <+: before → endsQuoted false earlier = true

@[simp] theorem endsQuoted_nil (quoted : Bool) : endsQuoted quoted [] = quoted := by
  simp [endsQuoted]

theorem endsQuoted_cons_quote (quoted : Bool) (s : Text) :
    endsQuoted quoted (quoteMark :: s) = endsQuoted (!quoted) s := by
  have flips : ((s.count quoteMark + 1) % 2 == 1) = !(s.count quoteMark % 2 == 1) := by
    rcases Nat.mod_two_eq_zero_or_one (s.count quoteMark) with h | h
    · simp [h, show (s.count quoteMark + 1) % 2 = 1 by omega]
    · simp [h, show (s.count quoteMark + 1) % 2 = 0 by omega]
  simp only [endsQuoted, List.count_cons_self, flips]
  cases quoted <;> simp

theorem endsQuoted_cons_of_ne {c : Char} (h : c ≠ quoteMark) (quoted : Bool) (s : Text) :
    endsQuoted quoted (c :: s) = endsQuoted quoted s := by
  simp [endsQuoted, List.count_cons_of_ne h]

theorem endsQuoted_append (quoted : Bool) (s t : Text) :
    endsQuoted quoted (s ++ t) = endsQuoted (endsQuoted quoted s) t := by
  induction s generalizing quoted with
  | nil => simp
  | cons c s ih =>
    by_cases hc : c = quoteMark
    · subst hc
      rw [List.cons_append, endsQuoted_cons_quote, endsQuoted_cons_quote, ih]
    · rw [List.cons_append, endsQuoted_cons_of_ne hc, endsQuoted_cons_of_ne hc, ih]

theorem endsQuoted_of_unquoted {s : Text} (h : ∀ c ∈ s, c ≠ quoteMark) (quoted : Bool) :
    endsQuoted quoted s = quoted := by
  have : s.count quoteMark = 0 := List.count_eq_zero.mpr fun hm => h _ hm rfl
  simp [endsQuoted, this]

/-! ## The cut -/

theorem cutAtMark_cons_quote (mark : Char) (quoted : Bool) (s : Text) :
    cutAtMark mark quoted (quoteMark :: s) =
      (cutAtMark mark (!quoted) s).map fun (before, rest) => (quoteMark :: before, rest) := by
  rw [cutAtMark, if_pos rfl]

theorem cutAtMark_cons_mark {mark : Char} (hq : mark ≠ quoteMark) (s : Text) :
    cutAtMark mark false (mark :: s) = some ([], mark :: s) := by
  simp [cutAtMark, hq]

theorem cutAtMark_cons_other {mark c : Char} (hq : c ≠ quoteMark) {quoted : Bool}
    (hm : ¬ (c = mark ∧ quoted = false)) (s : Text) :
    cutAtMark mark quoted (c :: s) =
      (cutAtMark mark quoted s).map fun (before, rest) => (c :: before, rest) := by
  rw [cutAtMark, if_neg hq, if_neg (by simpa using hm)]

theorem cutAtMark_append (mark : Char) (quoted : Bool) (s t : Text) :
    cutAtMark mark quoted (s ++ t) =
      match cutAtMark mark quoted s with
      | some (before, rest) => some (before, rest ++ t)
      | none => (cutAtMark mark (endsQuoted quoted s) t).map fun (before, rest) =>
          (s ++ before, rest) := by
  induction s generalizing quoted with
  | nil => simp [cutAtMark]
  | cons c s ih =>
    by_cases hc : c = quoteMark
    · subst hc
      rw [List.cons_append, cutAtMark_cons_quote, cutAtMark_cons_quote, ih, endsQuoted_cons_quote]
      cases cutAtMark mark (!quoted) s <;> simp [Function.comp_def]
    · by_cases hm : c = mark ∧ quoted = false
      · obtain ⟨rfl, rfl⟩ := hm
        simp [cutAtMark_cons_mark hc]
      · rw [List.cons_append, cutAtMark_cons_other hc hm, cutAtMark_cons_other hc hm, ih,
          endsQuoted_cons_of_ne hc]
        cases cutAtMark mark quoted s <;> simp [Function.comp_def]

/-- The two parts of a cut make up the line, and the mark starts the second. -/
theorem cutAtMark_parts {mark : Char} {quoted : Bool} {s before rest : Text}
    (h : cutAtMark mark quoted s = some (before, rest)) :
    s = before ++ rest ∧ ∃ tail, rest = mark :: tail := by
  induction s generalizing quoted before rest with
  | nil => simp [cutAtMark] at h
  | cons c s ih =>
    rw [cutAtMark] at h
    split at h
    · obtain ⟨⟨b, r⟩, hb, he⟩ := Option.map_eq_some_iff.mp h
      obtain ⟨rfl, rfl⟩ := Prod.mk.inj he
      obtain ⟨hs, ht⟩ := ih hb
      exact ⟨by rw [hs, List.cons_append], ht⟩
    · split at h
      · rename_i hm
        obtain ⟨rfl, rfl⟩ := Prod.mk.inj (Option.some.inj h)
        have : c = mark := by simpa using (Bool.and_eq_true_iff.mp hm).1
        exact ⟨rfl, s, by rw [this]⟩
      · obtain ⟨⟨b, r⟩, hb, he⟩ := Option.map_eq_some_iff.mp h
        obtain ⟨rfl, rfl⟩ := Prod.mk.inj he
        obtain ⟨hs, ht⟩ := ih hb
        exact ⟨by rw [hs, List.cons_append], ht⟩

theorem cutAtMark_of_absent {mark : Char} {s : Text} (h : mark ∉ s) (quoted : Bool) :
    cutAtMark mark quoted s = none := by
  cases hs : cutAtMark mark quoted s with
  | none => rfl
  | some cut =>
    obtain ⟨before, rest⟩ := cut
    obtain ⟨he, tail, ht⟩ := cutAtMark_parts hs
    exact absurd (by rw [he, ht]; simp) h

/-- The cut of a text has no mark of its own in its first part. -/
theorem cutAtMark_before {mark : Char} {quoted : Bool} {s before rest : Text}
    (h : cutAtMark mark quoted s = some (before, rest)) :
    cutAtMark mark quoted before = none ∧ endsQuoted quoted before = false := by
  induction s generalizing quoted before rest with
  | nil => simp [cutAtMark] at h
  | cons c s ih =>
    by_cases hc : c = quoteMark
    · subst hc
      rw [cutAtMark_cons_quote] at h
      obtain ⟨⟨b, r⟩, hb, he⟩ := Option.map_eq_some_iff.mp h
      obtain ⟨rfl, rfl⟩ := Prod.mk.inj he
      obtain ⟨hn, hq⟩ := ih hb
      exact ⟨by rw [cutAtMark_cons_quote, hn, Option.map_none], by rw [endsQuoted_cons_quote, hq]⟩
    · by_cases hm : c = mark ∧ quoted = false
      · obtain ⟨rfl, rfl⟩ := hm
        rw [cutAtMark_cons_mark hc] at h
        obtain ⟨rfl, rfl⟩ := Prod.mk.inj (Option.some.inj h)
        exact ⟨rfl, endsQuoted_nil false⟩
      · rw [cutAtMark_cons_other hc hm] at h
        obtain ⟨⟨b, r⟩, hb, he⟩ := Option.map_eq_some_iff.mp h
        obtain ⟨rfl, rfl⟩ := Prod.mk.inj he
        obtain ⟨hn, hq⟩ := ih hb
        exact ⟨by rw [cutAtMark_cons_other hc hm, hn, Option.map_none],
          by rw [endsQuoted_cons_of_ne hc, hq]⟩

/-- No cut of a text means no cut of what it starts with. -/
theorem cutAtMark_eq_none_of_isPrefix {mark : Char} {quoted : Bool} {s t : Text} (hp : s <+: t)
    (h : cutAtMark mark quoted t = none) : cutAtMark mark quoted s = none := by
  obtain ⟨r, rfl⟩ := hp
  rw [cutAtMark_append] at h
  cases hs : cutAtMark mark quoted s with
  | none => rfl
  | some cut => simp [hs] at h

/-- A mark right after a text without cut, at a place outside literals, is where the line is cut. -/
theorem cutAtMark_append_mark {mark : Char} (hq : mark ≠ quoteMark) {quoted : Bool} {s : Text}
    (hn : cutAtMark mark quoted s = none) (ho : endsQuoted quoted s = false) (t : Text) :
    cutAtMark mark quoted (s ++ mark :: t) = some (s, mark :: t) := by
  rw [cutAtMark_append, hn, ho, cutAtMark_cons_mark hq]
  simp

/-- Where the line is cut is the first mark outside literals. -/
theorem cutAtMark_firstMark {mark : Char} (hq : mark ≠ quoteMark) {raw before rest : Text}
    (h : cutAtMark mark false raw = some (before, rest)) : FirstMark mark raw before := by
  obtain ⟨rfl, tail, rfl⟩ := cutAtMark_parts h
  obtain ⟨hn, ho⟩ := cutAtMark_before h
  refine ⟨⟨tail, by simp⟩, ho, ?_⟩
  intro earlier hp
  cases he : endsQuoted false earlier with
  | true => rfl
  | false =>
    have hcut := cutAtMark_append_mark hq
      (cutAtMark_eq_none_of_isPrefix ((List.prefix_append _ _).trans hp) hn) he []
    rw [cutAtMark_eq_none_of_isPrefix hp hn] at hcut
    cases hcut

/-- The first mark outside literals is where the line is cut. -/
theorem cutAtMark_of_firstMark {mark : Char} (hq : mark ≠ quoteMark) {raw before : Text}
    (h : FirstMark mark raw before) : ∃ rest, cutAtMark mark false raw = some (before, rest) := by
  obtain ⟨rest, rfl⟩ := h.stands
  have hbefore : cutAtMark mark false before = none := by
    cases hcut : cutAtMark mark false before with
    | none => rfl
    | some cut =>
      have hearlier := cutAtMark_firstMark hq hcut
      have hopen := h.first cut.1 hearlier.stands
      rw [hearlier.outside] at hopen
      cases hopen
  rw [List.append_assoc, List.singleton_append]
  exact ⟨mark :: rest, cutAtMark_append_mark hq hbefore h.outside rest⟩

/-! ## Blanks -/

theorem not_mem_of_blank {w : Text} (hw : Text.isAllBlank w = true) {c : Char}
    (hc : isBlank c = false) : c ∉ w := by
  intro hm
  rw [Text.isAllBlank_iff.mp hw c hm] at hc
  cases hc

theorem endsQuoted_of_blank {w : Text} (hw : Text.isAllBlank w = true) (quoted : Bool) :
    endsQuoted quoted w = quoted :=
  endsQuoted_of_unquoted (fun _ hc he => not_mem_of_blank hw (by decide) (he ▸ hc)) quoted

theorem endsQuoted_append_blank (quoted : Bool) (s : Text) {w : Text}
    (hw : Text.isAllBlank w = true) : endsQuoted quoted (s ++ w) = endsQuoted quoted s := by
  rw [endsQuoted_append, endsQuoted_of_blank hw]

theorem cutAtMark_append_blank {mark : Char} (hm : isBlank mark = false) {quoted : Bool} {s : Text}
    (h : cutAtMark mark quoted s = none) {w : Text} (hw : Text.isAllBlank w = true) :
    cutAtMark mark quoted (s ++ w) = none := by
  rw [cutAtMark_append, h, cutAtMark_of_absent (not_mem_of_blank hw hm)]
  rfl

/-! ## The opening quote -/

theorem endsQuoted_eq_false_iff {s : Text} : endsQuoted false s = false ↔ s.count quoteMark % 2 = 0 := by
  simp [endsQuoted]

/-- Behind a text, whatever its width, a literal is open if the text leaves it open. -/
theorem isSome_literalState (before rest : Text) (column : Nat) (opened : Option Nat) :
    (literalState (column + Text.columns before) column opened (before ++ rest)).isSome =
      endsQuoted opened.isSome before := by
  induction before generalizing column opened with
  | nil => cases rest <;> simp [literalState]
  | cons c before ih =>
    have hwidth := Text.unitWidth_pos c
    rw [List.cons_append, literalState, Text.columns_cons, if_neg (by omega), ← Nat.add_assoc, ih]
    by_cases hc : c = quoteMark
    · subst hc
      rw [if_pos rfl, endsQuoted_cons_quote]
      cases opened <;> rfl
    · rw [if_neg hc, endsQuoted_cons_of_ne hc]

theorem openingQuote_eq_none_iff {before raw : Text} (h : before <+: raw) :
    openingQuote raw (Text.columns before) = none ↔ endsQuoted false before = false := by
  obtain ⟨rest, rfl⟩ := h
  have hopen := isSome_literalState before rest 0 none
  rw [Nat.zero_add] at hopen
  rw [← Option.not_isSome_iff_eq_none, openingQuote, hopen]
  simp

end AsmAssist
