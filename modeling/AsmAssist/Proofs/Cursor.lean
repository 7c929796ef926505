import AsmAssist.Constant
import AsmAssist.Proofs.Anatomy
import AsmAssist.Proofs.Runs
import Mathlib.Data.List.Induction
import Mathlib.Data.List.Infix

/-!
# The word and the constant at a cursor

At most one word touches a column. A literal is open at a column if the quotes that start before it are odd
in number, and the last of them opens it. That quote is found by its column and cut off by its byte offset;
both name the same place, so the values read there are those of the literal around the column.
-/

namespace AsmAssist

open Text

/-! ## The word -/

namespace Word

/-- What is selected at a column: the one word that touches it, where it stands in the line. -/
structure Selects (raw : Text) (line character : Nat) (found : Option Token) : Prop where
  some_iff : ∀ t, found = some t ↔
    ∃ before word, Touched raw character before word ∧
      t = ⟨word, .onLine line (columns before) (columns (before ++ word))⟩
  only : ∀ before word before' word', Touched raw character before word →
    Touched raw character before' word' → before = before' ∧ word = word'
  sliced : ∀ t ∈ found, t.span.slice raw = t.text

theorem at?_selects (raw : Text) (line character : Nat) :
    Selects raw line character (at? raw line character) where
  some_iff t := by
    simp only [at?_eq_some_iff, columns_append]
    rfl
  only _ _ _ _ h h' := h.unique h'
  sliced t ht := by
    obtain ⟨before, word, h, rfl⟩ := at?_eq_some_iff.mp ht
    exact Span.slice_over h.run.isPrefix line

-- right behind a word, inside a surrogate pair, and between two separators
example :
    let raw := "MVI 𝓐-1,, x".toList
    at? raw 3 3 = some ⟨"MVI".toList, .onLine 3 0 3⟩ ∧ at? raw 3 5 = some ⟨"𝓐-1".toList, .onLine 3 4 8⟩ ∧
      at? raw 3 9 = none := by
  decide +kernel

end Word

/-! ## The quotes before a column -/

/-- The texts in front of the quotes that start before a column, from left to right. -/
def quotesBefore (raw : Text) (character : Nat) : List Text :=
  raw.inits.filter fun before => before ++ [quoteMark] <+: raw ∧ columns before < character

theorem mem_quotesBefore {raw before : Text} {character : Nat} :
    before ∈ quotesBefore raw character ↔
      before ++ [quoteMark] <+: raw ∧ columns before < character := by
  simp only [quotesBefore, List.mem_filter, List.mem_inits, decide_eq_true_eq, and_iff_right_iff_imp]
  intro h
  exact (List.prefix_append _ _).trans h.1

theorem not_concat_isPrefix (s : Text) (c : Char) : ¬ s ++ [c] <+: s := by
  intro h
  have hlength := h.length_le
  rw [List.length_append, List.length_singleton] at hlength
  omega

theorem inits_concat (s : Text) (c : Char) : (s ++ [c]).inits = s.inits ++ [s ++ [c]] := by
  simp [List.inits_append]

theorem exists_inits (s : Text) : ∃ proper, s.inits = proper ++ [s] ∧ s ∉ proper := by
  rcases eq_nil_or_snoc s with rfl | ⟨u, c, rfl⟩
  · exact ⟨[], rfl, List.not_mem_nil⟩
  · refine ⟨u.inits, inits_concat u c, ?_⟩
    intro h
    exact not_concat_isPrefix u c ((List.mem_inits _ _).mp h)

/-- One more character is one more quote if it is one and starts before the column. -/
theorem quotesBefore_concat (s : Text) (c : Char) (character : Nat) :
    quotesBefore (s ++ [c]) character =
      quotesBefore s character ++ if c = quoteMark ∧ columns s < character then [s] else [] := by
  obtain ⟨proper, hinits, hproper⟩ := exists_inits s
  -- only in front of the last character can it be the quote that makes the difference
  have hsame : ∀ before ∈ proper,
      (before ++ [quoteMark] <+: s ++ [c] ↔ before ++ [quoteMark] <+: s) := by
    intro before hbefore
    have hne : before ++ [quoteMark] ≠ s ++ [c] := by
      intro he
      exact hproper ((List.append_inj' he rfl).1 ▸ hbefore)
    simp [List.prefix_concat_iff, hne]
  have hfilter :
      proper.filter (fun before => before ++ [quoteMark] <+: s ++ [c] ∧ columns before < character) =
        proper.filter fun before => before ++ [quoteMark] <+: s ∧ columns before < character :=
    List.filter_congr fun before hbefore => by simp only [hsame before hbefore]
  have hlast : s ++ [quoteMark] <+: s ++ [c] ↔ c = quoteMark := by
    simp [List.prefix_append_right_inj, eq_comm]
  simp only [quotesBefore, inits_concat, hinits, List.filter_append, hfilter, List.filter_singleton,
    not_concat_isPrefix, hlast]
  simp

/-- One more character toggles the literal if it is a quote and starts before the column. -/
theorem literalState_concat (character column : Nat) (opened : Option Nat) (s : Text) (c : Char) :
    literalState character column opened (s ++ [c]) =
      if c = quoteMark ∧ column + columns s < character then
        toggleLiteral (literalState character column opened s) (column + columns s)
      else literalState character column opened s := by
  induction s generalizing column opened with
  | nil =>
    by_cases hcolumn : character ≤ column
    · simp [literalState, hcolumn, Nat.not_lt.mpr hcolumn]
    · simp [literalState, hcolumn, Nat.lt_of_not_le hcolumn]
  | cons d s ih =>
    by_cases hcolumn : character ≤ column
    · have hpast : ¬ column + columns (d :: s) < character := by omega
      rw [if_neg fun h => hpast h.2]
      simp [literalState, hcolumn]
    · simp only [List.cons_append, literalState, if_neg hcolumn, ih, columns_cons, Nat.add_assoc]

theorem exists_last {quotes : List Text} (h : quotes.length % 2 = 1) :
    ∃ last, quotes.getLast? = some last := by
  cases hlast : quotes.getLast? with
  | none => simp [List.getLast?_eq_none_iff.mp hlast] at h
  | some last => exact ⟨last, rfl⟩

/-- The opening quote is the last of an odd number of quotes before the column. -/
theorem openingQuote_eq (raw : Text) (character : Nat) :
    openingQuote raw character =
      if (quotesBefore raw character).length % 2 = 1 then
        (quotesBefore raw character).getLast?.map columns
      else none := by
  induction raw using List.reverseRecOn with
  | nil => simp [openingQuote, literalState, quotesBefore]
  | append_singleton s c ih =>
    have hstep := literalState_concat character 0 none s c
    rw [Nat.zero_add, ← openingQuote, ← openingQuote, ih] at hstep
    rw [hstep, quotesBefore_concat]
    by_cases hc : c = quoteMark ∧ columns s < character
    · rw [if_pos hc, if_pos hc, List.length_append, List.length_singleton]
      by_cases hodd : (quotesBefore s character).length % 2 = 1
      · obtain ⟨last, hlast⟩ := exists_last hodd
        rw [if_pos hodd, if_neg (by omega), hlast]
        rfl
      · rw [if_neg hodd, if_pos (by omega)]
        simp [toggleLiteral]
    · rw [if_neg hc, if_neg hc, List.append_nil]

/-- No quote before the column stands behind the last one. -/
theorem isPrefix_last {raw before last : Text} {character : Nat}
    (hlast : (quotesBefore raw character).getLast? = some last) (h : before ∈ quotesBefore raw character) :
    before <+: last := by
  induction raw using List.reverseRecOn with
  | nil => simp [quotesBefore] at h
  | append_singleton s c ih =>
    rw [quotesBefore_concat] at hlast h
    by_cases hc : c = quoteMark ∧ columns s < character
    · rw [if_pos hc] at hlast h
      obtain rfl : s = last := by simpa using hlast
      rcases List.mem_append.mp h with h | h
      · exact (List.prefix_append _ _).trans (mem_quotesBefore.mp h).1
      · obtain rfl : before = s := by simpa using h
        exact List.prefix_refl _
    · rw [if_neg hc, List.append_nil] at hlast h
      exact ih hlast h

/-! ## The constant -/

namespace Constant

/-- What the values at a column are, by the quotes before it. -/
inductive ValuesAt (raw : Text) (character : Nat) : List Int → Prop
  /-- The literal that the last quote opens and the next quote closes, at the column or behind it. -/
  | closed {before body after : Text} (odd : (quotesBefore raw character).length % 2 = 1)
      (last : (quotesBefore raw character).getLast? = some before)
      (text : raw = before ++ quoteMark :: (body ++ quoteMark :: after)) (unquoted : quoteMark ∉ body)
      (encloses : character ≤ columns (before ++ quoteMark :: body)) :
      ValuesAt raw character (body.map codePoint)
  | unclosed {before rest : Text} (odd : (quotesBefore raw character).length % 2 = 1)
      (last : (quotesBefore raw character).getLast? = some before)
      (text : raw = before ++ quoteMark :: rest) (unquoted : quoteMark ∉ rest) :
      ValuesAt raw character []
  | word {before word : Text} (even : (quotesBefore raw character).length % 2 = 0)
      (touched : Word.Touched raw character before word) :
      ValuesAt raw character (parse? word).toList
  | nothing (even : (quotesBefore raw character).length % 2 = 0)
      (untouched : ∀ before word, ¬ Word.Touched raw character before word) :
      ValuesAt raw character []

theorem literalBody?_closed {body : Text} (h : quoteMark ∉ body) (after : Text) :
    literalBody? (body ++ quoteMark :: after) = some body := by
  have hbody : ∀ c ∈ body, (c != quoteMark) = true := by
    intro c hc
    simpa using fun he : c = quoteMark => h (he ▸ hc)
  simp [literalBody?, List.takeWhile_append_of_pos hbody]

theorem literalBody?_unclosed {rest : Text} (h : quoteMark ∉ rest) : literalBody? rest = none := by
  simp [literalBody?, h]

/-- Inside a literal, the values are read behind the quote that opens it. -/
theorem values_of_opened {before rest : Text} {character : Nat}
    (h : openingQuote (before ++ quoteMark :: rest) character = some (columns before)) :
    values (before ++ quoteMark :: rest) character = ((literalBody? rest).getD []).map codePoint := by
  have hdrop : (before ++ quoteMark :: rest).drop (before.length + 1) = rest := by
    simp [List.drop_append]
  simp only [values, h, takeColumns_columns, hdrop]

section

variable {raw before : Text} {character : Nat}

theorem ValuesAt.eq_values {found : List Int} (h : ValuesAt raw character found) :
    values raw character = found := by
  have hopening := openingQuote_eq raw character
  cases h with
  | closed odd last text unquoted encloses =>
    rw [if_pos odd, last] at hopening
    subst text
    rw [values_of_opened hopening, literalBody?_closed unquoted, Option.getD_some]
  | unclosed odd last text unquoted =>
    rw [if_pos odd, last] at hopening
    subst text
    rw [values_of_opened hopening, literalBody?_unclosed unquoted]
    rfl
  | @word before word even touched =>
    rw [if_neg (by omega)] at hopening
    have hword : Word.at? raw 0 character = some (.after 0 before word) :=
      Word.at?_eq_some_iff.mpr ⟨before, word, touched, rfl⟩
    simp only [values, hopening, hword, Option.bind_some, Token.after]
  | nothing even untouched =>
    rw [if_neg (by omega)] at hopening
    have hword : Word.at? raw 0 character = none := by
      apply Option.eq_none_iff_forall_ne_some.mpr
      intro t ht
      obtain ⟨before, word, touched, -⟩ := Word.at?_eq_some_iff.mp ht
      exact untouched before word touched
    simp [values, hopening, hword]

/-- The quote behind the last one before the column does not start before the column. -/
theorem encloses_of_last {body after : Text} (last : (quotesBefore raw character).getLast? = some before)
    (text : raw = before ++ quoteMark :: (body ++ quoteMark :: after)) :
    character ≤ columns (before ++ quoteMark :: body) := by
  apply Nat.le_of_not_lt
  intro hlt
  have hmem : before ++ quoteMark :: body ∈ quotesBefore raw character :=
    mem_quotesBefore.mpr ⟨⟨after, by simp [text]⟩, hlt⟩
  have hlength := (isPrefix_last last hmem).length_le
  rw [List.length_append, List.length_cons] at hlength
  omega

theorem last_isPrefix (last : (quotesBefore raw character).getLast? = some before) :
    before ++ [quoteMark] <+: raw :=
  (mem_quotesBefore.mp (List.mem_of_mem_getLast? last)).1

theorem exists_valuesAt (raw : Text) (character : Nat) : ∃ found, ValuesAt raw character found := by
  by_cases odd : (quotesBefore raw character).length % 2 = 1
  · obtain ⟨before, last⟩ := exists_last odd
    obtain ⟨rest, text⟩ := last_isPrefix last
    rw [List.append_assoc, List.singleton_append] at text
    by_cases hclosed : quoteMark ∈ rest
    · obtain ⟨body, after, rfl, unquoted⟩ := List.eq_append_cons_of_mem hclosed
      exact ⟨_, .closed odd last text.symm unquoted (encloses_of_last last text.symm)⟩
    · exact ⟨_, .unclosed odd last text.symm hclosed⟩
  · have even : (quotesBefore raw character).length % 2 = 0 := by omega
    by_cases htouched : ∃ before word, Word.Touched raw character before word
    · obtain ⟨before, word, touched⟩ := htouched
      exact ⟨_, .word even touched⟩
    · exact ⟨_, .nothing even fun before word touched => htouched ⟨before, word, touched⟩⟩

end

/-- The values at a column are those of the literal that the quotes before it leave open, else of the word
there. The offset at which an open literal is cut is right behind its quote. -/
theorem values_at_cursor (raw : Text) (character : Nat) :
    (∀ found, values raw character = found ↔ ValuesAt raw character found) ∧
    ∀ opened, openingQuote raw character = some opened →
      ∃ before, (quotesBefore raw character).getLast? = some before ∧ before ++ [quoteMark] <+: raw ∧
        offsetOfColumn raw opened + quoteMark.utf8Size = bytes (before ++ [quoteMark]) := by
  constructor
  · intro found
    refine ⟨?_, ValuesAt.eq_values⟩
    rintro rfl
    obtain ⟨found, h⟩ := exists_valuesAt raw character
    rwa [h.eq_values]
  · intro opened h
    rw [openingQuote_eq] at h
    split at h
    · obtain ⟨before, last, rfl⟩ := Option.map_eq_some_iff.mp h
      have hquote := last_isPrefix last
      refine ⟨before, last, hquote, ?_⟩
      rw [offsetOfColumn, takeColumns_of_isPrefix ((List.prefix_append _ _).trans hquote), bytes_append]
      rfl
    · cases h

/-- A column inside a surrogate pair, in a literal behind one. -/
theorem values_at_cursor_inside_pair :
    let raw := "𝓐 'é𝓑' 'z'".toList
    openingQuote raw 6 = some 3 ∧ ValuesAt raw 6 [0xE9, 0x1D4D1] ∧
      ∃ before, (quotesBefore raw 6).getLast? = some before ∧ before ++ [quoteMark] <+: raw ∧
        offsetOfColumn raw 3 + quoteMark.utf8Size = bytes (before ++ [quoteMark]) := by
  intro raw
  have hopened : openingQuote raw 6 = some 3 := by decide +kernel
  obtain ⟨hvalues, hcut⟩ := values_at_cursor raw 6
  exact ⟨hopened, (hvalues _).mp (by decide +kernel), hcut 3 hopened⟩

end Constant

end AsmAssist
