import AsmAssist.Proofs.Rereading
import AsmAssist.Proofs.Tokens

/-!
# Keywords and literals

Whether a keyword stands inside a character literal is decided by the quotes in front of it. The search for a
mnemonic passes over no quote but those of the margin token, and the search for an operator passes over those
of the name. So a mnemonic stands inside a literal exactly if the margin token leaves one open, and an
operator exactly if the name does.
-/

namespace AsmAssist

open Text

namespace Reading

open Instruction Mnemonic
open Line (classify)

theorem instruction?_bodyKind (raw : Text) (number : Nat) (w : Text) (colon : Option Text)
    (parts : Option Parts) (comment : Option Token) :
    Line.instruction? ⟨raw, number, bodyKind number w colon parts, comment⟩ =
      parts.map (·.instruction number w) := by
  cases colon <;> cases parts <;> rfl

/-- Where a mnemonic was read. -/
theorem mnemonic?_classify {raw : Text} {number : Nat} {m : Token}
    (h : (classify raw number).mnemonic? = some m) :
    ∃ w s p, raw = w ++ s ∧ isAllBlank w = true ∧ OpensCode s ∧
      bodyParts? (isMargined w s) s = some p ∧ m = .after number (w ++ p.before) p.mnemonic := by
  rcases line_cases raw with hb | ⟨w, s, rfl, hw⟩ | ⟨w, s, rfl, hw, hs⟩
  · rw [classify_blank hb] at h
    cases h
  · rw [classify_comment hw] at h
    cases h
  · rw [classify_code hw hs, Line.codeKind] at h
    cases hr : Assignment.read? (w ++ code s) number with
    | some a =>
      rw [hr] at h
      cases h
    | none =>
      simp only [hr, statementKind_eq hw hs, Line.mnemonic?, instruction?_bodyKind, Option.map_map,
        Option.map_eq_some_iff] at h
      obtain ⟨p, hp, rfl⟩ := h
      exact ⟨w, s, p, rfl, hw, hs, hp, rfl⟩

theorem endsQuoted_of_no_quote {s : Text} (h : ∀ c ∈ s, isAnyQuote c = false) (quoted : Bool) :
    endsQuoted quoted s = quoted := by
  apply endsQuoted_of_unquoted
  rintro c hc rfl
  exact absurd (h _ hc) (by decide)

/-- The quotes in front of a mnemonic are those of the margin token. -/
theorem endsQuoted_before {w s : Text} {p : Parts} (hw : isAllBlank w = true) (hs : OpensCode s)
    (h : bodyParts? (isMargined w s) s = some p) :
    endsQuoted false p.before = endsQuoted false (marginToken (w ++ s) (w ++ s)) := by
  rw [marginToken_eq hw hs]
  cases hm : isMargined w s with
  | false =>
    rw [hm, bodyParts?_false] at h
    rw [endsQuoted_of_no_quote (seek?_cut h).unquoted]
    rfl
  | true =>
    obtain rfl : w = [] := by simpa [isMargined] using (Bool.and_eq_true_iff.mp hm).1
    rw [hm] at h
    obtain ⟨word, gap, hcut⟩ := cutBehindWord_of_true hs.visible h
    obtain ⟨r, hr⟩ := (bodyParts?_cut h).before_isPrefix
    have hword : s.takeWhile (!isBlank ·) = word := by
      rw [← hr]
      exact (hcut.first_word r).1
    rw [if_pos rfl, List.nil_append, hword, hcut.before_eq, endsQuoted_append]
    exact endsQuoted_of_no_quote hcut.cut.unquoted _

end Reading

namespace Line

/-- A mnemonic stands outside every literal exactly if the margin token has an even number of quotes. -/
theorem mnemonic_outside_iff {raw : Text} {number : Nat} {m : Token}
    (h : (classify raw number).mnemonic? = some m) :
    openingQuote raw m.span.start.character = none ↔
      (Instruction.marginToken raw raw).count quoteMark % 2 = 0 := by
  obtain ⟨w, s, p, rfl, hw, hs, hp, rfl⟩ := Reading.mnemonic?_classify h
  have hprefix : w ++ p.before <+: w ++ s :=
    (List.prefix_append_right_inj w).mpr (Reading.bodyParts?_cut hp).before_isPrefix
  calc
    openingQuote (w ++ s) (columns (w ++ p.before)) = none
      ↔ endsQuoted false (w ++ p.before) = false := openingQuote_eq_none_iff hprefix
    _ ↔ endsQuoted false (Instruction.marginToken (w ++ s) (w ++ s)) = false := by
        rw [endsQuoted_append, endsQuoted_of_blank hw, Reading.endsQuoted_before hw hs hp]
    _ ↔ (Instruction.marginToken (w ++ s) (w ++ s)).count quoteMark % 2 = 0 :=
        endsQuoted_eq_false_iff

/-- An operator stands outside every literal exactly if the name has an even number of quotes. -/
theorem operator_outside_iff {raw : Text} {number : Nat} {a : Assignment}
    (h : (classify raw number).assignment? = some a) :
    openingQuote raw a.operator.span.start.character = none ↔
      a.name.text.count quoteMark % 2 = 0 := by
  obtain ⟨p, kind, lead, gap, space, -, -, hplaced, rfl⟩ :=
    Assignment.read?_eq_some (read?_of_classify h)
  have hprefix : lead ++ p.name ++ gap <+: raw := by
    refine List.IsPrefix.trans ⟨p.operator ++ (space ++ p.rest), ?_⟩ (Reading.code_isPrefix raw)
    rw [hplaced.text]
    simp only [List.append_assoc]
  calc
    openingQuote raw (columns (lead ++ p.name ++ gap)) = none
      ↔ endsQuoted false (lead ++ p.name ++ gap) = false := openingQuote_eq_none_iff hprefix
    _ ↔ endsQuoted false p.name = false := by
        rw [endsQuoted_append_blank _ _ hplaced.gap_blank, endsQuoted_append,
          endsQuoted_of_blank hplaced.lead_blank]
    _ ↔ p.name.count quoteMark % 2 = 0 := endsQuoted_eq_false_iff

/-- A keyword stands outside every literal exactly if the text passed over in front of it closes every
literal that it opens: the margin token in front of a mnemonic, the name in front of an operator. -/
theorem keyword_outside_literal_iff (raw : Text) (number : Nat) :
    (∀ m ∈ (classify raw number).mnemonic?,
      openingQuote raw m.span.start.character = none ↔
        (Instruction.marginToken raw raw).count quoteMark % 2 = 0) ∧
    ∀ a ∈ (classify raw number).assignment?,
      openingQuote raw a.operator.span.start.character = none ↔
        a.name.text.count quoteMark % 2 = 0 :=
  ⟨fun _ hm => mnemonic_outside_iff hm, fun _ ha => operator_outside_iff ha⟩

/-- A margin token that closes its literal, and a name that does not. -/
theorem keyword_outside_literal_closed :
    let coded := "A'B' ADD 'C'".toList
    let mnemonic : Token := ⟨"ADD".toList, .onLine 3 5 8⟩
    let assigned := "S ' EQU '".toList
    let assignment : Assignment :=
      ⟨⟨"S '".toList, .onLine 3 0 3⟩, ⟨"EQU".toList, .onLine 3 4 7⟩, .equ, ⟨"'".toList, .onLine 3 8 9⟩⟩
    (mnemonic ∈ (classify coded 3).mnemonic? ∧ openingQuote coded 5 = none) ∧
      assignment ∈ (classify assigned 3).assignment? ∧ openingQuote assigned 4 ≠ none := by
  intro coded mnemonic assigned assignment
  have hm : mnemonic ∈ (classify coded 3).mnemonic? := by decide +kernel
  have ha : assignment ∈ (classify assigned 3).assignment? := by decide +kernel
  have hcoded := (keyword_outside_literal_iff coded 3).1 mnemonic hm
  have hassigned := (keyword_outside_literal_iff assigned 3).2 assignment ha
  exact ⟨⟨hm, hcoded.mpr (by decide)⟩, ha, fun hn => absurd (hassigned.mp hn) (by decide)⟩

/-- A mnemonic and an operator inside literals are taken as keywords all the same. -/
theorem keyword_taken_inside_literal :
    ((classify "DB' ADD '".toList 0).mnemonic? = some ⟨"ADD".toList, .onLine 0 4 7⟩ ∧
      openingQuote "DB' ADD '".toList 4 = some 2) ∧
    (classify "DB ' EQU '".toList 0).assignment?.map Assignment.operator =
      some ⟨"EQU".toList, .onLine 0 5 8⟩ ∧
      openingQuote "DB ' EQU '".toList 5 = some 3 := by
  decide +kernel

end Line

end AsmAssist
