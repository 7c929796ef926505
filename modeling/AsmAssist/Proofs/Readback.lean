import AsmAssist.Markdown
import AsmAssist.Proofs.Numerals

/-!
# Shown constants read back

A constant is shown in decimal, hexadecimal and binary. The last two texts show the machine word of its value
without sign, and both read back as that word with its sign. So a value that is a signed word already reads
back from each of its texts.
-/

namespace AsmAssist

namespace Constant

/-! ## Written digits -/

theorem Denotes.snoc {radix : Nat} {digits : Text} {n : Nat} {c : Char} {d : Nat} (h : Denotes radix digits n)
    (hc : Digit radix c d) : Denotes radix (digits ++ [c]) (radix * n + d) := by
  obtain ⟨-, values, hvalues, rfl⟩ := h
  refine ⟨by simp, values ++ [d], List.rel_append hvalues (.cons hc .nil), ?_⟩
  simp [Nat.ofDigits_cons, Nat.add_comm]

/-- The digits of a number denote it, in whatever case they are written. -/
theorem denotes_toDigits (radix : Nat) (write : Char → Char) (hradix : 1 < radix)
    (hwrite : ∀ d < radix, Digit radix (write d.digitChar) d) (n : Nat) :
    Denotes radix ((Nat.toDigits radix n).map write) n := by
  induction n using Nat.strongRecOn with
  | ind n ih =>
    rw [Nat.toDigits_eq_if hradix]
    by_cases hn : n < radix
    · rw [if_pos hn]
      exact ⟨by simp, [n], .cons (hwrite n hn) .nil, by simp⟩
    · have hquotient := ih (n / radix) (Nat.div_lt_self (by omega) hradix)
      have hdigit := hwrite (n % radix) (Nat.mod_lt n (by omega))
      have hsnoc := hquotient.snoc hdigit
      rw [Nat.div_add_mod] at hsnoc
      rw [if_neg hn, List.map_append]
      exact hsnoc

end Constant

namespace Markdown

open Constant

/-! ## The texts of a value -/

/-- `w` is the machine word of `v`, with its sign. -/
def IsWordOf (v w : Int) : Prop := (-32768 ≤ w ∧ w ≤ 32767) ∧ w ≡ v [ZMOD 65536]

theorem wordValue_eq (v : Int) : (wordValue v : Int) = v % 65536 := by
  simp only [wordValue]
  omega

theorem wordValue_lt (v : Int) : wordValue v < 65536 := by
  simp only [wordValue]
  omega

theorem isWordOf_toSignedWord (v : Int) : IsWordOf v (toSignedWord (wordValue v)) := by
  have hlt := wordValue_lt v
  refine ⟨toSignedWord_bounds (by omega) (by omega), (toSignedWord_modEq _).trans ?_⟩
  rw [wordValue_eq]
  exact Int.mod_modEq v 65536

theorem IsWordOf.unique {v w w' : Int} (h : IsWordOf v w) (h' : IsWordOf v w') : w = w' := by
  obtain ⟨hbounds, hmod⟩ := h
  obtain ⟨hbounds', hmod'⟩ := h'
  simp only [Int.ModEq] at hmod hmod'
  omega

theorem parse?_of_wordValue {form : Form} {text : Text} {v : Int} (h : Numeral form text (wordValue v)) :
    parse? text = some (toSignedWord (wordValue v)) := by
  have hlt := wordValue_lt v
  exact parse?_eq_some_iff.mpr ⟨form, _, h, fitsInt64_iff.mpr (by omega), rfl⟩

theorem hexDigits_denote (v : Int) :
    Denotes 16 (padLeft 4 ((Nat.toDigits 16 (wordValue v)).map Char.toUpper)) (wordValue v) := by
  have hdigits := denotes_toDigits 16 Char.toUpper (by decide) (by decide +kernel) (wordValue v)
  exact (Form.hexadecimal.denotes_zeros_iff hdigits.1).mpr hdigits

theorem hexText_numeral (v : Int) : Numeral .hexadecimal (hexText v) (wordValue v) := by
  refine .hexadecimal (hexDigits_denote v) ?_ ?_ (by simp)
  · rw [List.length_map]
    exact Nat.length_toDigits_pos
  · rw [List.length_map]
    exact (Nat.length_toDigits_le_iff (by decide) (by decide)).mpr (wordValue_lt v)

theorem binaryDigits_denote (n : Nat) : Denotes 2 (Nat.toDigits 2 n) n := by
  have h := denotes_toDigits 2 id (by decide) (by decide +kernel) n
  rwa [List.map_id] at h

theorem binaryText_numeral (v : Int) : Numeral .binary (binaryText v) (wordValue v) :=
  .binary (binaryDigits_denote (wordValue v)) (by simp)

theorem decimalText_numeral (v : Int) : Numeral .decimal (decimalText v) v := by
  have h := denotes_toDigits 10 id (by decide) (by decide +kernel) v.natAbs
  rw [List.map_id] at h
  unfold decimalText
  split
  next hneg =>
    have hn := Numeral.negative h
    rwa [show -(v.natAbs : Int) = v by omega] at hn
  next hpos =>
    have hn := Numeral.decimal h
    rwa [show (v.natAbs : Int) = v by omega] at hn

/-! ## The shown text -/

/-- Each value has its paragraph. -/
theorem constant_mem_constants {values : List Int} {v : Int} (h : v ∈ values) :
    ∃ before after, constants values = before ++ constant v ++ after := by
  induction values with
  | nil => cases h
  | cons u values ih =>
    by_cases hlast : values = []
    · obtain rfl : v = u := by simpa [hlast] using h
      exact ⟨"", "", by simp [constants, hlast]⟩
    · have hcons : constants (u :: values) = constant u ++ "\n\n" ++ constants values := by
        simp [constants, String.intercalate_cons_of_ne_nil, hlast]
      rcases List.mem_cons.mp h with rfl | hmem
      · exact ⟨"", "\n\n" ++ constants values, by simp [hcons, String.append_assoc]⟩
      · obtain ⟨before, after, hconstants⟩ := ih hmem
        refine ⟨constant u ++ "\n\n" ++ before, after, ?_⟩
        rw [hcons, hconstants]
        simp only [String.append_assoc]

theorem constant_eq (v : Int) :
    ∃ character, constant v =
      "**Dec**: " ++ String.ofList (decimalText v) ++ " | **Hex**: " ++ String.ofList (hexText v) ++
        character ++ " | **Bin**: " ++ String.ofList (binaryText v) := ⟨_, rfl⟩

/-- Whatever the values that are shown, the hexadecimal and the binary text of each read back as its machine
word, and the decimal text of a signed word reads back too. -/
theorem constants_read_back {values : List Int} {v : Int} (h : v ∈ values) :
    (∃ before character after, constants values =
      before ++ ("**Dec**: " ++ String.ofList (decimalText v) ++ " | **Hex**: " ++
        String.ofList (hexText v) ++ character ++ " | **Bin**: " ++ String.ofList (binaryText v)) ++ after) ∧
    (∃ digits, hexText v = digits ++ ['h'] ∧ 4 ≤ digits.length ∧ Denotes 16 digits (v % 65536).toNat) ∧
    (∃ digits, binaryText v = digits ++ ['b'] ∧ Denotes 2 digits (v % 65536).toNat) ∧
    ∃ w, IsWordOf v w ∧ (∀ w', IsWordOf v w' → w' = w) ∧
      parse? (hexText v) = some w ∧ parse? (binaryText v) = some w ∧
      (-32768 ≤ v → v ≤ 32767 → w = v ∧ parse? (decimalText v) = some v) := by
  have hword := isWordOf_toSignedWord v
  refine ⟨?_, ⟨_, rfl, by simp [padLeft]; omega, hexDigits_denote v⟩,
    ⟨_, rfl, binaryDigits_denote (wordValue v)⟩, toSignedWord (wordValue v), hword,
    fun w' hw' => hw'.unique hword, parse?_of_wordValue (hexText_numeral v),
    parse?_of_wordValue (binaryText_numeral v), ?_⟩
  · obtain ⟨before, after, hconstants⟩ := constant_mem_constants h
    obtain ⟨character, hconstant⟩ := constant_eq v
    rw [hconstant] at hconstants
    exact ⟨before, character, after, hconstants⟩
  · intro hlow hhigh
    have hself : toSignedWord (wordValue v) = v := hword.unique ⟨⟨hlow, hhigh⟩, .refl v⟩
    have hfits : fitsInt64 v = true := fitsInt64_iff.mpr (by omega)
    have hsigned : v = toSignedWord v := (toSignedWord_self hlow hhigh).symm
    exact ⟨hself, parse?_eq_some_iff.mpr ⟨_, v, decimalText_numeral v, hfits, hsigned⟩⟩

/-- A negative word beside a value of more than 16 bits. -/
theorem constants_read_back_pair :
    let values : List Int := [-2, 98304]
    (-2 ∈ values ∧ parse? (hexText (-2)) = some (-2) ∧ parse? (decimalText (-2)) = some (-2)) ∧
      98304 ∈ values ∧ hexText 98304 = "8000h".toList ∧
        ∃ w, IsWordOf 98304 w ∧ parse? "8000h".toList = some w ∧ parse? (binaryText 98304) = some w := by
  intro values
  have hfirst : -2 ∈ values := by decide
  have hsecond : 98304 ∈ values := by decide
  have hhex : hexText 98304 = "8000h".toList := by decide +kernel
  obtain ⟨-, -, -, w, -, -, hread, -, hself⟩ := constants_read_back hfirst
  obtain ⟨rfl, hdecimal⟩ := hself (by decide) (by decide)
  obtain ⟨-, -, -, u, hu, -, hread', hbinary, -⟩ := constants_read_back hsecond
  rw [hhex] at hread'
  exact ⟨⟨hfirst, hread, hdecimal⟩, hsecond, hhex, u, hu, hread', hbinary⟩

end Markdown

end AsmAssist
