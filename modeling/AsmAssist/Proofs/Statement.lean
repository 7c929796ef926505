import AsmAssist.Line.Instruction
import AsmAssist.Proofs.Mnemonic

/-!
# Statements cut at their mnemonic

The search in a statement passes over the token at the left margin, if there is one, and is then the search
`seek?` in what is left: up to the first quote of either kind, for the first word that is a mnemonic.
-/

namespace AsmAssist.Instruction

open Text Mnemonic

def Parts.behind (u : Text) (p : Parts) : Parts := { p with before := u ++ p.before }

/-- The search in a text without a token at the left margin. -/
def seek? (s : Text) : Option Parts :=
  (Mnemonic.find? (s.takeWhile (!isAnyQuote ·))).map fun found =>
    { before := found.before, mnemonic := found.text,
      rest := s.drop (found.before.length + found.text.length) }

theorem parts?_eq_seek? (raw statement : Text) :
    parts? raw statement =
      (seek? (statement.drop (marginToken raw statement).length)).map
        (.behind (marginToken raw statement)) := by
  simp only [parts?, seek?, Option.map_map, Function.comp_def, Parts.behind, List.drop_drop,
    List.length_append]
  congr 1
  funext found
  rw [Nat.add_assoc]

/-- A text cut at its first mnemonic in front of every quote. -/
structure CutAtMnemonic (s : Text) (p : Parts) : Prop where
  text : s = p.before ++ p.mnemonic ++ p.rest
  mnemonic : IsMnemonic p.mnemonic
  opens : EndsBlank p.before
  unquoted : ∀ c ∈ p.before, isAnyQuote c = false
  none_before : ∀ t ∈ words p.before, ¬ IsMnemonic t
  closes : ∀ c ∈ p.rest.head?, isBlank c = true ∨ isAnyQuote c = true

theorem seek?_eq_none_iff {s : Text} :
    seek? s = none ↔ ∀ t ∈ words (s.takeWhile (!isAnyQuote ·)), ¬ IsMnemonic t := by
  rw [seek?, Option.map_eq_none_iff, find?_eq_none_iff]

theorem seek?_cut {s : Text} {p : Parts} (h : seek? s = some p) : CutAtMnemonic s p := by
  obtain ⟨o, ho, rfl⟩ := Option.map_eq_some_iff.mp h
  have hf := find?_first ho
  obtain ⟨rest, hs, hr⟩ := hf.place.closes
  have hsplit : s.takeWhile (!isAnyQuote ·) ++ s.dropWhile (!isAnyQuote ·) = s :=
    List.takeWhile_append_dropWhile
  have htext : s = o.before ++ o.text ++ (rest ++ s.dropWhile (!isAnyQuote ·)) := by
    rw [← List.append_assoc, ← hs, hsplit]
  have hdrop : s.drop (o.before.length + o.text.length) = rest ++ s.dropWhile (!isAnyQuote ·) := by
    rw [← List.length_append, drop_of_eq_append htext]
  refine ⟨by rw [hdrop]; exact htext, ⟨o.name, hf.name_mem, hf.spells⟩, hf.place.opens, ?_,
    hf.none_before, ?_⟩
  · intro c hc
    have hall := List.all_eq_true.mp (List.all_takeWhile (p := (!isAnyQuote ·)) (l := s))
    have hm : c ∈ s.takeWhile (!isAnyQuote ·) := by
      rw [hs]
      simp [hc]
    simpa using hall c hm
  · intro c hc
    rw [hdrop] at hc
    cases rest with
    | cons d rest => exact .inl (hr c (by simpa using hc))
    | nil =>
      have hq := List.head?_dropWhile_not (!isAnyQuote ·) s
      rw [List.nil_append] at hc
      rw [Option.mem_def.mp hc] at hq
      exact .inr (by simpa using hq)

theorem IsMnemonic.unquoted {t : Text} (h : IsMnemonic t) : ∀ c ∈ t, isAnyQuote c = false := by
  intro c hc
  cases hq : isAnyQuote c with
  | false => rfl
  | true =>
    have hcase : c = quoteMark ∨ c = '"' := by simpa [isAnyQuote] using hq
    rcases hcase with rfl | rfl
    · exact absurd hc (h.not_mem (by decide) (by decide))
    · exact absurd hc (h.not_mem (by decide) (by decide))

/-- The mnemonic of a cut is a word of what is searched. -/
theorem CutAtMnemonic.place {s : Text} {p : Parts} (h : CutAtMnemonic s p) :
    WordAt (s.takeWhile (!isAnyQuote ·)) p.before p.mnemonic := by
  have hpass : ∀ c ∈ p.before ++ p.mnemonic, (!isAnyQuote c) = true := by
    intro c hc
    rcases List.mem_append.mp hc with hc | hc
    · simp [h.unquoted c hc]
    · simp [IsMnemonic.unquoted h.mnemonic c hc]
  have hsearched : s.takeWhile (!isAnyQuote ·) =
      p.before ++ p.mnemonic ++ p.rest.takeWhile (!isAnyQuote ·) := by
    rw [h.text, List.takeWhile_append_of_pos hpass]
  refine ⟨h.mnemonic.isWord, h.opens, _, hsearched, ?_⟩
  intro c hc
  cases hr : p.rest with
  | nil => simp [hr] at hc
  | cons d rest =>
    rw [hr] at hc
    cases hq : isAnyQuote d with
    | true => simp [hq] at hc
    | false =>
      have hd : d = c := by simpa [hq] using hc
      subst hd
      rcases h.closes d (by simp [hr]) with hb | hb
      · exact hb
      · rw [hq] at hb
        cases hb

theorem seek?_eq_some_iff {s : Text} {p : Parts} : seek? s = some p ↔ CutAtMnemonic s p := by
  refine ⟨seek?_cut, fun h => ?_⟩
  obtain ⟨name, hn, hs⟩ := h.mnemonic
  have hfound : find? (s.takeWhile (!isAnyQuote ·)) = some ⟨name, p.before, p.mnemonic⟩ :=
    find?_eq_some_iff.mpr ⟨hn, hs, h.place, h.none_before⟩
  have hdrop : s.drop (p.before.length + p.mnemonic.length) = p.rest := by
    rw [← List.length_append, drop_of_eq_append h.text]
  simp [seek?, hfound, hdrop]

end AsmAssist.Instruction
