import AsmAssist.Constant
import AsmAssist.Proofs.Text
import Mathlib.Data.Int.ModEq
import Mathlib.Data.List.Forall2
import Mathlib.Data.Nat.Digits.Defs

/-!
# Numerals

A numeral is read by the form that its last character tells: binary, octal, hexadecimal or decimal. Its
value is that of its digits, whatever their case and the number of zeros in front. Read as a word of the
machine it differs from that value by a multiple of 65536, and a value of 16 bits becomes a signed word.
-/

namespace AsmAssist.Constant

open Text

/-! ## Digits -/

/-- The digits in the order of their values, with capitals and with small letters. -/
def digitRows : List Text := ["0123456789ABCDEF".toList, "0123456789abcdef".toList]

/-- `c` is a digit of the radix, and `d` its value. -/
def Digit (radix : Nat) (c : Char) (d : Nat) : Prop := d < radix ∧ ∃ row ∈ digitRows, row[d]? = some c

instance (radix : Nat) (c : Char) (d : Nat) : Decidable (Digit radix c d) :=
  inferInstanceAs (Decidable (d < radix ∧ ∃ row ∈ digitRows, row[d]? = some c))

/-- `n` is written in these digits, the most significant first. -/
def Denotes (radix : Nat) (digits : Text) (n : Nat) : Prop :=
  digits ≠ [] ∧ ∃ values, List.Forall₂ (Digit radix) digits values ∧ Nat.ofDigits radix values.reverse = n

inductive Form
  | binary
  | octal
  | hexadecimal
  | decimal
  deriving DecidableEq, Repr

/-- A word that has the form, and its value. -/
inductive Numeral : Form → Text → Int → Prop
  | binary {digits : Text} {mark : Char} {n : Nat} (hdigits : Denotes 2 digits n)
      (hmark : mark ∈ ['b', 'B']) : Numeral .binary (digits ++ [mark]) n
  | octal {digits : Text} {mark : Char} {n : Nat} (hdigits : Denotes 8 digits n)
      (hmark : mark ∈ ['o', 'O']) : Numeral .octal (digits ++ [mark]) n
  | hexadecimal {zeros : Nat} {digits : Text} {mark : Char} {n : Nat}
      (hdigits : Denotes 16 (List.replicate zeros '0' ++ digits) n) (hone : 1 ≤ digits.length)
      (hfour : digits.length ≤ 4) (hmark : mark ∈ ['h', 'H']) :
      Numeral .hexadecimal (List.replicate zeros '0' ++ digits ++ [mark]) n
  | decimal {digits : Text} {n : Nat} (hdigits : Denotes 10 digits n) : Numeral .decimal digits n
  | negative {digits : Text} {n : Nat} (hdigits : Denotes 10 digits n) :
      Numeral .decimal ('-' :: digits) (-n)

namespace Form

def radix : Form → Nat
  | .binary => 2
  | .octal => 8
  | .hexadecimal => 16
  | .decimal => 10

def isDigit : Form → Char → Bool
  | .binary => isBinaryDigit
  | .octal => isOctalDigit
  | .hexadecimal => isHexDigit
  | .decimal => Char.isDigit

def read? : Form → Text → Option Int
  | .binary => binary?
  | .octal => octal?
  | .hexadecimal => hexadecimal?
  | .decimal => decimal?

/-- The forms in the order in which they are tried. -/
def all : List Form := [.binary, .octal, .hexadecimal, .decimal]

theorem mem_all (form : Form) : form ∈ all := by
  cases form <;> simp [all]

theorem ascii_of_isDigit {form : Form} {c : Char} (h : form.isDigit c = true) : c.toNat < 0x80 := by
  have hle {d e : Char} (hde : d ≤ e) (he : e.toNat < 0x80) : d.toNat < 0x80 :=
    Nat.lt_of_le_of_lt (UInt32.le_iff_toNat_le.mp hde) he
  cases form with
  | binary =>
    simp only [isDigit, isBinaryDigit, Bool.or_eq_true, beq_iff_eq] at h
    rcases h with rfl | rfl <;> decide
  | octal =>
    simp only [isDigit, isOctalDigit, Bool.and_eq_true, decide_eq_true_eq] at h
    exact hle h.2 (by decide)
  | hexadecimal =>
    simp only [isDigit, isHexDigit, Char.isDigit, Bool.or_eq_true, Bool.and_eq_true, decide_eq_true_eq] at h
    rcases h with h | h
    · exact hle h.2 (by decide)
    · exact ascii_of_toUpper (hle h.2 (by decide))
  | decimal =>
    simp only [isDigit, Char.isDigit, Bool.and_eq_true, decide_eq_true_eq] at h
    exact hle h.2 (by decide)

theorem digit_iff (form : Form) (c : Char) (d : Nat) :
    Digit form.radix c d ↔ form.isDigit c = true ∧ digitValue c = d := by
  constructor
  · rintro ⟨hd, row, hrow, hc⟩
    have hrows : ∀ d < form.radix, ∀ row ∈ digitRows,
        row[d]?.all (fun c => form.isDigit c && digitValue c == d) = true := by
      cases form <;> decide +kernel
    simpa [hc] using hrows d hd row hrow
  · rintro ⟨hc, rfl⟩
    have hascii : ∀ n < 0x80, form.isDigit (Char.ofNat n) = true →
        Digit form.radix (Char.ofNat n) (digitValue (Char.ofNat n)) := by
      cases form <;> decide +kernel
    exact forall_ascii (p := fun c => form.isDigit c = true → Digit form.radix c (digitValue c)) hascii
      (ascii_of_isDigit hc) hc

theorem forall₂_digit_iff (form : Form) (digits : Text) (values : List Nat) :
    List.Forall₂ (Digit form.radix) digits values ↔
      digits.all form.isDigit = true ∧ digits.map digitValue = values := by
  induction digits generalizing values with
  | nil => simp [eq_comm]
  | cons c digits ih =>
    cases values with
    | nil => simp
    | cons d values => simp [digit_iff, ih]; tauto

end Form

theorem magnitude_eq_ofDigits (radix : Nat) (digits : Text) :
    magnitude radix digits = Nat.ofDigits radix (digits.map digitValue).reverse := by
  rw [Nat.ofDigits_eq_foldr, List.foldr_reverse, List.foldl_map]
  simp [magnitude, Nat.add_comm, Nat.mul_comm]

theorem digits?_eq_some_iff {isDigit : Char → Bool} {s digits : Text} :
    digits? isDigit s = some digits ↔ s = digits ∧ digits ≠ [] ∧ digits.all isDigit = true := by
  simp only [digits?, Bool.and_eq_true, decide_eq_true_eq]
  by_cases hs : s ≠ [] ∧ s.all isDigit = true
  · rw [if_pos hs, Option.some.injEq]
    constructor
    · rintro rfl
      exact ⟨rfl, hs⟩
    · exact And.left
  · rw [if_neg hs]
    constructor
    · intro h
      cases h
    · rintro ⟨rfl, h⟩
      exact absurd h hs

theorem Form.denotes_iff (form : Form) (digits : Text) (n : Nat) :
    Denotes form.radix digits n ↔
      digits? form.isDigit digits = some digits ∧ magnitude form.radix digits = n := by
  simp only [Denotes, form.forall₂_digit_iff, magnitude_eq_ofDigits, digits?_eq_some_iff, true_and]
  constructor
  · rintro ⟨hne, values, ⟨hall, rfl⟩, hn⟩
    exact ⟨⟨hne, hall⟩, hn⟩
  · rintro ⟨⟨hne, hall⟩, hn⟩
    exact ⟨hne, _, ⟨hall, rfl⟩, hn⟩

/-! ## The four forms -/

/-- The letters that mark a radix, both cases of one. -/
theorem toUpper_eq_iff (small suffix : Char) (hascii : small.toNat < 0x80 ∧ suffix.toNat < 0x80)
    (h : ∀ n < 0x80, (Char.ofNat n).toUpper = suffix ↔ Char.ofNat n ∈ [small, suffix]) (c : Char) :
    c.toUpper = suffix ↔ c ∈ [small, suffix] := by
  have hiff (hc : c.toNat < 0x80) : c.toUpper = suffix ↔ c ∈ [small, suffix] :=
    forall_ascii (p := fun c => c.toUpper = suffix ↔ c ∈ [small, suffix]) h hc
  constructor
  · intro hc
    exact (hiff (ascii_of_toUpper (hc ▸ hascii.2))).mp hc
  · intro hc
    refine (hiff ?_).mpr hc
    rcases List.mem_pair.mp hc with rfl | rfl
    · exact hascii.1
    · exact hascii.2

/-- The digits in front of the letter that marks their radix. -/
theorem Form.marked_iff (form : Form) {small suffix : Char} {word digits : Text}
    (hmarks : ∀ c : Char, c.toUpper = suffix ↔ c ∈ [small, suffix]) :
    (body? suffix word >>= digits? form.isDigit) = some digits ↔
      (∃ n, Denotes form.radix digits n) ∧ ∃ mark ∈ [small, suffix], word = digits ++ [mark] := by
  simp only [form.denotes_iff, exists_and_left, exists_eq', and_true, ← hmarks, body?, Option.bind_eq_bind,
    Option.bind_eq_some_iff, digits?_eq_some_iff, true_and]
  constructor
  · rintro ⟨s, hs, rfl, hdigits⟩
    refine ⟨hdigits, ?_⟩
    split at hs
    next hlast =>
      cases hs
      obtain ⟨mark, hmark, hletter⟩ := Option.map_eq_some_iff.mp hlast
      obtain ⟨front, rfl⟩ := List.getLast?_eq_some_iff.mp hmark
      exact ⟨mark, hletter, by simp⟩
    · cases hs
  · rintro ⟨hdigits, mark, hletter, rfl⟩
    exact ⟨digits, by simp [hletter], rfl, hdigits⟩

theorem Form.magnitude_iff (form : Form) {small suffix : Char} {word : Text} {n : Int}
    (hmarks : ∀ c : Char, c.toUpper = suffix ↔ c ∈ [small, suffix]) :
    ((body? suffix word >>= digits? form.isDigit).map fun ds => (magnitude form.radix ds : Int)) = some n ↔
      ∃ digits mark m, Denotes form.radix digits m ∧ mark ∈ [small, suffix] ∧ word = digits ++ [mark] ∧
        n = m := by
  simp only [Option.map_eq_some_iff, form.marked_iff hmarks]
  constructor
  · rintro ⟨digits, ⟨⟨m, hdigits⟩, mark, hmark, rfl⟩, rfl⟩
    obtain ⟨-, rfl⟩ := (form.denotes_iff digits m).mp hdigits
    exact ⟨digits, mark, _, hdigits, hmark, rfl, rfl⟩
  · rintro ⟨digits, mark, m, hdigits, hmark, rfl, rfl⟩
    obtain ⟨-, rfl⟩ := (form.denotes_iff digits m).mp hdigits
    exact ⟨digits, ⟨⟨_, hdigits⟩, mark, hmark, rfl⟩, rfl⟩

theorem binary?_eq_some_iff {word : Text} {n : Int} : binary? word = some n ↔ Numeral .binary word n := by
  refine (Form.binary.magnitude_iff (toUpper_eq_iff 'b' 'B' (by decide) (by decide +kernel))).trans ?_
  constructor
  · rintro ⟨digits, mark, m, hdigits, hmark, rfl, rfl⟩
    exact .binary hdigits hmark
  · rintro ⟨hdigits, hmark⟩
    exact ⟨_, _, _, hdigits, hmark, rfl, rfl⟩

theorem octal?_eq_some_iff {word : Text} {n : Int} : octal? word = some n ↔ Numeral .octal word n := by
  refine (Form.octal.magnitude_iff (toUpper_eq_iff 'o' 'O' (by decide) (by decide +kernel))).trans ?_
  constructor
  · rintro ⟨digits, mark, m, hdigits, hmark, rfl, rfl⟩
    exact .octal hdigits hmark
  · rintro (_ | ⟨hdigits, hmark⟩)
    exact ⟨_, _, _, hdigits, hmark, rfl, rfl⟩

/-- Leading zeros apart, at most four digits are left. -/
theorem length_dropWhile_zero_le_iff {digits : Text} (hne : digits ≠ []) :
    (digits.dropWhile (· == '0')).length ≤ 4 ↔
      ∃ zeros short, digits = List.replicate zeros '0' ++ short ∧ 1 ≤ short.length ∧ short.length ≤ 4 := by
  constructor
  · intro hle
    obtain ⟨zeros, hzeros⟩ : ∃ zeros, digits.takeWhile (· == '0') = List.replicate zeros '0' := by
      refine ⟨_, List.eq_replicate_of_mem fun c hc => ?_⟩
      simpa using List.all_eq_true.mp List.all_takeWhile c hc
    have hsplit : digits = List.replicate zeros '0' ++ digits.dropWhile (· == '0') := by
      rw [← hzeros, List.takeWhile_append_dropWhile]
    by_cases hrest : digits.dropWhile (· == '0') = []
    · rw [hrest, List.append_nil] at hsplit
      cases zeros with
      | zero => exact absurd hsplit hne
      | succ k =>
        -- all are zeros, and the last of them counts as a digit
        exact ⟨k, ['0'], hsplit.trans List.replicate_succ', by simp, by simp⟩
    · exact ⟨zeros, _, hsplit, List.length_pos_of_ne_nil hrest, hle⟩
  · rintro ⟨zeros, short, rfl, -, hle⟩
    rw [List.dropWhile_append_of_pos (by simp)]
    exact Nat.le_trans (List.dropWhile_sublist _).length_le hle

theorem hexadecimal?_eq_some_iff {word : Text} {n : Int} :
    hexadecimal? word = some n ↔ Numeral .hexadecimal word n := by
  have hmarked (digits : Text) : (body? 'H' word >>= digits? isHexDigit) = some digits ↔
      (∃ m, Denotes 16 digits m) ∧ ∃ mark ∈ ['h', 'H'], word = digits ++ [mark] :=
    Form.hexadecimal.marked_iff (toUpper_eq_iff 'h' 'H' (by decide) (by decide +kernel))
  simp only [hexadecimal?, Option.bind_eq_some_iff, hmarked]
  constructor
  · rintro ⟨digits, ⟨⟨m, hdigits⟩, mark, hmark, rfl⟩, hn⟩
    split at hn
    next hle =>
      cases hn
      obtain ⟨-, rfl⟩ := (Form.hexadecimal.denotes_iff digits m).mp hdigits
      obtain ⟨zeros, short, rfl, hone, hfour⟩ := (length_dropWhile_zero_le_iff hdigits.1).mp hle
      exact .hexadecimal hdigits hone hfour hmark
    · cases hn
  · rintro (_ | _ | @⟨zeros, short, mark, m, hdigits, hone, hfour, hmark⟩)
    obtain ⟨-, rfl⟩ := (Form.hexadecimal.denotes_iff _ m).mp hdigits
    have hle := (length_dropWhile_zero_le_iff hdigits.1).mpr ⟨zeros, short, rfl, hone, hfour⟩
    exact ⟨_, ⟨⟨_, hdigits⟩, mark, hmark, rfl⟩, by rw [if_pos hle]; rfl⟩

theorem digits?_map_eq_some_iff {digits : Text} {f : Nat → Int} {n : Int} :
    ((digits? Char.isDigit digits).map fun ds => f (magnitude 10 ds)) = some n ↔
      ∃ m, Denotes 10 digits m ∧ n = f m := by
  have hdenotes (m : Nat) : Denotes 10 digits m ↔
      digits? Char.isDigit digits = some digits ∧ magnitude 10 digits = m := Form.decimal.denotes_iff digits m
  simp only [Option.map_eq_some_iff, hdenotes]
  constructor
  · rintro ⟨ds, hds, rfl⟩
    obtain ⟨rfl, -⟩ := digits?_eq_some_iff.mp hds
    exact ⟨_, ⟨hds, rfl⟩, rfl⟩
  · rintro ⟨_, ⟨hds, rfl⟩, rfl⟩
    exact ⟨digits, hds, rfl⟩

theorem not_denotes_minus {digits : Text} {m : Nat} : ¬ Denotes 10 ('-' :: digits) m := by
  intro h
  obtain ⟨hdigits, -⟩ := (Form.decimal.denotes_iff _ m).mp h
  obtain ⟨-, -, hall⟩ := digits?_eq_some_iff.mp hdigits
  simp [Form.isDigit] at hall

theorem decimal?_eq_some_iff {word : Text} {n : Int} : decimal? word = some n ↔ Numeral .decimal word n := by
  unfold decimal?
  split
  next digits =>
    refine (digits?_map_eq_some_iff (f := fun m => -(m : Int))).trans ?_
    constructor
    · rintro ⟨m, hdigits, rfl⟩
      exact .negative hdigits
    · rintro (_ | _ | _ | hdigits | hdigits)
      · exact absurd hdigits not_denotes_minus
      · exact ⟨_, hdigits, rfl⟩
  next hplain =>
    refine (digits?_map_eq_some_iff (f := Int.ofNat)).trans ?_
    constructor
    · rintro ⟨m, hdigits, rfl⟩
      exact .decimal hdigits
    · rintro (_ | _ | _ | hdigits | hdigits)
      · exact ⟨_, hdigits, rfl⟩
      · exact absurd rfl (hplain _)

/-- Each reader accepts the numerals of its form. -/
theorem Form.read?_eq_some_iff (form : Form) {word : Text} {n : Int} :
    form.read? word = some n ↔ Numeral form word n := by
  cases form with
  | binary => exact binary?_eq_some_iff
  | octal => exact octal?_eq_some_iff
  | hexadecimal => exact hexadecimal?_eq_some_iff
  | decimal => exact decimal?_eq_some_iff

/-! ## One form for a word -/

/-- What a numeral of the form ends in. -/
def Form.lastChars : Form → Text
  | .binary => "bB".toList
  | .octal => "oO".toList
  | .hexadecimal => "hH".toList
  | .decimal => "0123456789".toList

theorem Denotes.getLast_decimal {digits : Text} {n : Nat} (h : Denotes 10 digits n) :
    ∃ c ∈ Form.decimal.lastChars, digits.getLast? = some c := by
  obtain ⟨hdigits, -⟩ := (Form.decimal.denotes_iff digits n).mp h
  obtain ⟨-, hne, hall⟩ := digits?_eq_some_iff.mp hdigits
  have hc := List.all_eq_true.mp hall _ (List.getLast_mem hne)
  have hascii : ∀ n < 0x80, Char.isDigit (Char.ofNat n) = true → Char.ofNat n ∈ Form.decimal.lastChars := by
    decide +kernel
  refine ⟨digits.getLast hne, ?_, List.getLast?_eq_some_getLast hne⟩
  exact forall_ascii (p := fun c => c.isDigit = true → c ∈ Form.decimal.lastChars) hascii
    (Form.ascii_of_isDigit hc) hc

theorem Numeral.getLast_mem {form : Form} {word : Text} {n : Int} (h : Numeral form word n) :
    ∃ c ∈ form.lastChars, word.getLast? = some c := by
  cases h with
  | binary _ hmark => exact ⟨_, hmark, List.getLast?_concat⟩
  | octal _ hmark => exact ⟨_, hmark, List.getLast?_concat⟩
  | hexadecimal _ _ _ hmark => exact ⟨_, hmark, List.getLast?_concat⟩
  | decimal hdigits => exact hdigits.getLast_decimal
  | negative hdigits =>
    obtain ⟨c, hc, hlast⟩ := hdigits.getLast_decimal
    exact ⟨c, hc, by simp [List.getLast?_cons, hlast]⟩

/-- The last character tells the form, and the form has one reader. -/
theorem Numeral.unique {form form' : Form} {word : Text} {n n' : Int} (h : Numeral form word n)
    (h' : Numeral form' word n') : form = form' ∧ n = n' := by
  obtain ⟨c, hc, hlast⟩ := h.getLast_mem
  obtain ⟨c', hc', hlast'⟩ := h'.getLast_mem
  obtain rfl : c = c' := Option.some.inj (hlast.symm.trans hlast')
  have hdisjoint : form.lastChars.any (form'.lastChars.contains ·) = true → form = form' := by
    cases form <;> cases form' <;> decide
  obtain rfl := hdisjoint (List.any_eq_true.mpr ⟨c, hc, by simpa using hc'⟩)
  have hread := (form.read?_eq_some_iff.mpr h).symm.trans (form.read?_eq_some_iff.mpr h')
  exact ⟨rfl, Option.some.inj hread⟩

/-- Whatever the order in which the readers are tried, the only one that accepts is found. -/
theorem findSome?_read?_eq_some_iff {forms : List Form} (hall : ∀ form, form ∈ forms) {word : Text}
    {n : Int} : forms.findSome? (·.read? word) = some n ↔ ∃ form, Numeral form word n := by
  constructor
  · intro h
    obtain ⟨form, -, hread⟩ := List.exists_of_findSome?_eq_some h
    exact ⟨form, form.read?_eq_some_iff.mp hread⟩
  · rintro ⟨form, h⟩
    cases hfound : forms.findSome? (·.read? word) with
    | none =>
      have hnone := List.findSome?_eq_none_iff.mp hfound form (hall form)
      rw [form.read?_eq_some_iff.mpr h] at hnone
      cases hnone
    | some m =>
      obtain ⟨form', -, hread⟩ := List.exists_of_findSome?_eq_some hfound
      rw [((form'.read?_eq_some_iff.mp hread).unique h).2]

/-! ## Values -/

theorem magnitude_zeros (radix zeros : Nat) (digits : Text) :
    magnitude radix (List.replicate zeros '0' ++ digits) = magnitude radix digits := by
  induction zeros with
  | zero => rfl
  | succ zeros ih =>
    rw [List.replicate_succ, List.cons_append, ← ih]
    simp [magnitude, digitValue]

/-- Zeros in front of a numeral do not count. -/
theorem Form.denotes_zeros_iff (form : Form) {zeros : Nat} {digits : Text} {n : Nat} (hne : digits ≠ []) :
    Denotes form.radix (List.replicate zeros '0' ++ digits) n ↔ Denotes form.radix digits n := by
  have hzero : form.isDigit '0' = true := by cases form <;> rfl
  simp [form.denotes_iff, digits?_eq_some_iff, magnitude_zeros, hne, hzero]

theorem Denotes.lt {radix : Nat} (hradix : 1 < radix) {digits : Text} {n : Nat} (h : Denotes radix digits n) :
    n < radix ^ digits.length := by
  obtain ⟨-, values, hvalues, rfl⟩ := h
  have hbound : ∀ d ∈ values, d < radix := by
    clear hradix
    induction hvalues with
    | nil => simp
    | cons hd _ ih => exact List.forall_mem_cons.mpr ⟨hd.1, ih⟩
  rw [hvalues.length_eq, ← List.length_reverse]
  apply Nat.ofDigits_lt_base_pow_length hradix
  intro d hd
  exact hbound d (List.mem_reverse.mp hd)

theorem Numeral.hexadecimal_lt {word : Text} {n : Int} (h : Numeral .hexadecimal word n) :
    0 ≤ n ∧ n < 65536 := by
  cases h with
  | @hexadecimal zeros digits mark n hdigits hone hfour _ =>
    have hshort := (Form.hexadecimal.denotes_zeros_iff (List.ne_nil_of_length_pos hone)).mp hdigits
    have hlt := hshort.lt (by decide)
    have hpow := Nat.pow_le_pow_right (n := 16) (by decide) hfour
    change n < 16 ^ digits.length at hlt
    omega

theorem toSignedWord_eq (n : Int) :
    toSignedWord n = if n < 0 ∨ n.toNat.testBit 15 = false then n else n - 65536 := by
  simp only [toSignedWord, Nat.testBit_eq_decide_div_mod_eq, Bool.and_eq_true, decide_eq_true_eq,
    decide_eq_false_iff_not]
  split <;> split <;> omega

theorem fitsInt64_iff {n : Int} : fitsInt64 n = true ↔ -2 ^ 63 ≤ n ∧ n < 2 ^ 63 := by
  simp [fitsInt64]

theorem toSignedWord_modEq (n : Int) : toSignedWord n ≡ n [ZMOD 65536] := by
  simp only [toSignedWord, Int.ModEq]
  split <;> omega

theorem toSignedWord_fits {n : Int} (h : fitsInt64 n = true) : fitsInt64 (toSignedWord n) = true := by
  simp only [fitsInt64_iff, toSignedWord, Bool.and_eq_true, decide_eq_true_eq] at h ⊢
  split <;> omega

theorem toSignedWord_bounds {n : Int} (hpos : 0 ≤ n) (hlt : n < 65536) :
    -32768 ≤ toSignedWord n ∧ toSignedWord n ≤ 32767 := by
  simp only [toSignedWord, Bool.and_eq_true, decide_eq_true_eq]
  split <;> omega

theorem toSignedWord_self {n : Int} (hlow : -32768 ≤ n) (hhigh : n ≤ 32767) : toSignedWord n = n := by
  simp only [toSignedWord, Bool.and_eq_true, decide_eq_true_eq]
  split <;> omega

/-! ## Reading a word -/

/-- The readers can be tried in any order. -/
theorem parse?_eq_findSome? {forms : List Form} (hall : ∀ form, form ∈ forms) (word : Text) :
    parse? word = (forms.findSome? (·.read? word)).bind fun n =>
      if fitsInt64 n then some (toSignedWord n) else none := by
  have hfirst : (binary? word <|> octal? word <|> hexadecimal? word <|> decimal? word) =
      Form.all.findSome? (·.read? word) := by
    simp only [Form.all, List.findSome?, Form.read?]
    cases binary? word <;> cases octal? word <;> cases hexadecimal? word <;> cases decimal? word <;> rfl
  rw [parse?, hfirst]
  congr 1
  ext n
  rw [findSome?_read?_eq_some_iff Form.mem_all, findSome?_read?_eq_some_iff hall]

theorem parse?_eq_some_iff {word : Text} {r : Int} :
    parse? word = some r ↔ ∃ form n, Numeral form word n ∧ fitsInt64 n = true ∧ r = toSignedWord n := by
  simp only [parse?_eq_findSome? Form.mem_all, Option.bind_eq_some_iff,
    findSome?_read?_eq_some_iff Form.mem_all, Option.ite_none_right_eq_some, Option.some.injEq]
  constructor
  · rintro ⟨n, ⟨form, hn⟩, hfits, rfl⟩
    exact ⟨form, n, hn, hfits, rfl⟩
  · rintro ⟨form, n, hn, hfits, rfl⟩
    exact ⟨n, ⟨form, hn⟩, hfits, rfl⟩

/-- How a word is read, if it is a numeral. -/
structure ReadsNumeral (word : Text) : Prop where
  /-- Read are the numerals whose value has 64 bits. -/
  parse?_iff : ∀ r, parse? word = some r ↔
    ∃ form n, Numeral form word n ∧ (-2 ^ 63 ≤ n ∧ n < 2 ^ 63) ∧
      r = if n < 0 ∨ n.toNat.testBit 15 = false then n else n - 65536
  unique : ∀ form form' n n', Numeral form word n → Numeral form' word n' → form = form' ∧ n = n'
  any_order : ∀ forms : List Form, (∀ form, form ∈ forms) →
    parse? word = (forms.findSome? (·.read? word)).bind fun n =>
      if fitsInt64 n then some (toSignedWord n) else none
  word_value : ∀ form n r, Numeral form word n → parse? word = some r →
    r ≡ n [ZMOD 65536] ∧ (-2 ^ 63 ≤ r ∧ r < 2 ^ 63) ∧ (0 ≤ n → n < 65536 → -32768 ≤ r ∧ r ≤ 32767)
  hexadecimal : ∀ n, Numeral .hexadecimal word n →
    (0 ≤ n ∧ n < 65536) ∧ ∃ r, parse? word = some r ∧ -32768 ≤ r ∧ r ≤ 32767

/-- A word is read exactly if it is a numeral of one of the four forms and its value has 64 bits. -/
theorem parse?_readsNumeral (word : Text) : ReadsNumeral word := by
  constructor
  case parse?_iff =>
    intro r
    simp only [parse?_eq_some_iff, fitsInt64_iff, toSignedWord_eq]
  case unique => exact fun form form' n n' h h' => h.unique h'
  case any_order => exact fun forms hall => parse?_eq_findSome? hall word
  case word_value =>
    intro form n r hn hr
    obtain ⟨form', n', hn', hfits, rfl⟩ := parse?_eq_some_iff.mp hr
    obtain ⟨-, rfl⟩ := hn.unique hn'
    exact ⟨toSignedWord_modEq n, fitsInt64_iff.mp (toSignedWord_fits hfits), toSignedWord_bounds⟩
  case hexadecimal =>
    intro n hn
    obtain ⟨hpos, hlt⟩ := hn.hexadecimal_lt
    have hfits : fitsInt64 n = true := fitsInt64_iff.mpr (by omega)
    exact ⟨⟨hpos, hlt⟩, _, parse?_eq_some_iff.mpr ⟨_, n, hn, hfits, rfl⟩, toSignedWord_bounds hpos hlt⟩

end AsmAssist.Constant
