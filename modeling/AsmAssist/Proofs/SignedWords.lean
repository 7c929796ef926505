import AsmAssist.Hover
import AsmAssist.Proofs.Readback

/-!
# Reading a shown numeral again

A value with bit 15 set is folded once, by taking 65536 from it. That makes a value of 16 bits a negative
word, which the fold leaves alone. A longer value stays at or above zero with bit 15 still set, and the
decimal text shown for it reads as another number.
-/

namespace AsmAssist

namespace Constant

/-! ## The fold -/

/-- A value that is read as a negative word. -/
def SignBitSet (n : Int) : Prop := 0 ≤ n ∧ n.toNat.testBit 15 = true

instance (n : Int) : Decidable (SignBitSet n) :=
  inferInstanceAs (Decidable (0 ≤ n ∧ n.toNat.testBit 15 = true))

/-- A value with bit 15 and a higher one set. -/
def Overfull (n : Int) : Prop := SignBitSet n ∧ 65536 ≤ n

instance (n : Int) : Decidable (Overfull n) := inferInstanceAs (Decidable (SignBitSet n ∧ 65536 ≤ n))

theorem signBitSet_iff {n : Int} : SignBitSet n ↔ 0 ≤ n ∧ n / 32768 % 2 = 1 := by
  simp only [SignBitSet, Nat.testBit_eq_decide_div_mod_eq, decide_eq_true_eq]
  omega

theorem toSignedWord_of_signBitSet {n : Int} (h : SignBitSet n) : toSignedWord n = n - 65536 := by
  obtain ⟨hpos, hbit⟩ := signBitSet_iff.mp h
  simp [toSignedWord, hpos, hbit]

theorem toSignedWord_of_not_signBitSet {n : Int} (h : ¬ SignBitSet n) : toSignedWord n = n := by
  rw [signBitSet_iff] at h
  simp only [toSignedWord, Bool.and_eq_true, decide_eq_true_eq, if_neg h]

theorem toSignedWord_eq_self_iff {n : Int} : toSignedWord n = n ↔ ¬ SignBitSet n := by
  constructor
  · intro h hset
    rw [toSignedWord_of_signBitSet hset] at h
    omega
  · exact toSignedWord_of_not_signBitSet

/-- Folding keeps the residue, so bit 15 is lost only below zero. -/
theorem signBitSet_toSignedWord_iff {n : Int} : SignBitSet (toSignedWord n) ↔ Overfull n := by
  by_cases h : SignBitSet n
  · have hbit := (signBitSet_iff.mp h).2
    rw [toSignedWord_of_signBitSet h, signBitSet_iff, Overfull, and_iff_right h]
    omega
  · rw [toSignedWord_of_not_signBitSet h, Overfull]
    exact ⟨fun hset => absurd hset h, And.left⟩

theorem toSignedWord_isNegative_iff {n : Int} (h : SignBitSet n) :
    (-32768 ≤ toSignedWord n ∧ toSignedWord n < 0) ↔ ¬ Overfull n := by
  obtain ⟨hpos, hbit⟩ := signBitSet_iff.mp h
  rw [toSignedWord_of_signBitSet h, Overfull, and_iff_right h]
  omega

/-! ## The decimal text -/

theorem parse?_decimalText {r : Int} (h : fitsInt64 r = true) :
    parse? (Markdown.decimalText r) = some (toSignedWord r) :=
  parse?_eq_some_iff.mpr ⟨_, r, Markdown.decimalText_numeral r, h, rfl⟩

/-- A hover over a numeral shows its value, in decimal first. -/
theorem constant?_of_word {l : Line} {p : Position} {t : Token} {r : Int}
    (houtside : openingQuote l.raw p.character = none) (hword : Word.at? l.raw 0 p.character = some t)
    (hr : parse? t.text = some r) :
    ∃ rest, Hover.constant? l p =
      some ⟨"**Dec**: " ++ String.ofList (Markdown.decimalText r) ++ " | **Hex**: " ++ rest, none⟩ := by
  have hvalues : values l.raw p.character = [r] := by
    simp [values, houtside, hword, hr]
  have hshown : Hover.constant? l p = some ⟨Markdown.constant r, none⟩ := by
    simp [Hover.constant?, hvalues, Markdown.constants]
  obtain ⟨character, hconstant⟩ := Markdown.constant_eq r
  rw [hshown, hconstant]
  refine ⟨String.ofList (Markdown.hexText r) ++ character ++ " | **Bin**: " ++
    String.ofList (Markdown.binaryText r), ?_⟩
  simp only [String.append_assoc]

/-- What becomes of a word that denotes `n` and is read as `r`, when `r` is folded, shown and read again. -/
structure Rereads (word : Text) (n r : Int) : Prop where
  fixed_iff : toSignedWord r = r ↔ ¬ Overfull n
  unset_iff : ¬ SignBitSet r ↔ ¬ Overfull n
  negative_iff : SignBitSet n → ((-32768 ≤ r ∧ r < 0) ↔ ¬ Overfull n)
  shown : ∀ (l : Line) (p : Position) (t : Token), openingQuote l.raw p.character = none →
    Word.at? l.raw 0 p.character = some t → t.text = word →
    ∃ rest, Hover.constant? l p =
      some ⟨"**Dec**: " ++ String.ofList (Markdown.decimalText r) ++ " | **Hex**: " ++ rest, none⟩
  shown_iff : parse? (Markdown.decimalText r) = some r ↔ ¬ Overfull n

/-- Every word that is read denotes a value, and what is read from it reads as itself again exactly if that
value does not have bit 15 together with a higher one. -/
theorem numeral_rereads_iff {word : Text} {r : Int} (hr : parse? word = some r) :
    ∃ form n, Numeral form word n ∧ Rereads word n r := by
  obtain ⟨form, n, hn, hfits, rfl⟩ := parse?_eq_some_iff.mp hr
  have hfixed : toSignedWord (toSignedWord n) = toSignedWord n ↔ ¬ Overfull n := by
    rw [toSignedWord_eq_self_iff, signBitSet_toSignedWord_iff]
  refine ⟨form, n, hn, ?_⟩
  constructor
  case fixed_iff => exact hfixed
  case unset_iff => rw [signBitSet_toSignedWord_iff]
  case negative_iff => exact toSignedWord_isNegative_iff
  case shown =>
    rintro l p t houtside hword rfl
    exact constant?_of_word houtside hword hr
  case shown_iff => rw [parse?_decimalText (toSignedWord_fits hfits), Option.some.injEq, hfixed]

/-- All 16 bits set, and the value shown is the one read. -/
theorem numeral_rereads_word :
    parse? "FFFFh".toList = some (-1) ∧ toSignedWord (-1) = -1 ∧
      parse? (Markdown.decimalText (-1)) = some (-1) := by
  have hr : parse? "FFFFh".toList = some (-1) := by decide +kernel
  obtain ⟨form, n, hn, hreread⟩ := numeral_rereads_iff hr
  have hvalue : Numeral .hexadecimal "FFFFh".toList 65535 := hexadecimal?_eq_some_iff.mp (by decide +kernel)
  obtain ⟨-, rfl⟩ := hn.unique hvalue
  have hwhole : ¬ Overfull 65535 := by decide
  exact ⟨hr, hreread.fixed_iff.mpr hwhole, hreread.shown_iff.mpr hwhole⟩

/-- The fold of 98304 has bit 15 set, and its decimal text reads as the negative of what is shown. -/
theorem numeral_reread_as_negative :
    parse? "98304".toList = some 32768 ∧ SignBitSet 32768 ∧ toSignedWord 32768 ≠ 32768 ∧
      Markdown.decimalText 32768 = "32768".toList ∧ parse? "32768".toList = some (-32768) := by
  decide +kernel

end Constant

end AsmAssist
