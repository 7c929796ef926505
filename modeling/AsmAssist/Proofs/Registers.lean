import AsmAssist.Proofs.Runs
import AsmAssist.Register
import Mathlib.Data.List.Forall2

/-!
# The registers of an operand text

The scan tries the shapes of registers at word boundaries. A shape holds word characters only and must end at
a boundary, so it takes a whole run of word characters or nothing, and the order of the shapes is of no
account: the registers are the runs that spell one of the names, from left to right.
-/

namespace AsmAssist

open Text

/-- What can be checked for the ASCII characters and for the two others that fold to one. -/
theorem Text.forall_folded {p : Char → Prop} (hascii : ∀ n < 0x80, p (Char.ofNat n)) (hlong : p 'ſ')
    (hkelvin : p '\u212a') {c : Char} (hc : (foldLetter c).toNat < 0x80) : p c := by
  by_cases hs : c = 'ſ'
  · rw [hs]
    exact hlong
  · by_cases hk : c = '\u212a'
    · rw [hk]
      exact hkelvin
    · have hfold : foldLetter c = c.toUpper := by simp [foldLetter, hs, hk]
      rw [hfold] at hc
      exact forall_ascii hascii (ascii_of_toUpper hc)

namespace Register

def names : List Text :=
  ["PC", "SP", "RE", "R0", "R1", "R2", "R3", "R4", "R5", "R6", "R7", "R11", "R12", "R13", "R14",
    "R15"].map String.toList

/-- Whether a word is the name of a register under simple case folding. -/
def isName (word : Text) : Bool := names.any (foldsTo word)

/-- The pieces of a shape accept the characters of a word one by one. -/
abbrev Accepts (shape : List Piece) (word : Text) : Prop :=
  List.Forall₂ (fun p c => p.accepts c = true) shape word

/-- The characters that a piece stands for, folded. -/
def Piece.letters : Piece → List Char
  | .letter l => [l]
  | .digit low high =>
    (List.range' low.toNat (high.toNat + 1 - low.toNat)).map fun n => foldLetter (Char.ofNat n)

/-- The texts of a shape, folded. -/
def spellings : List Piece → List Text
  | [] => [[]]
  | p :: ps => p.letters.flatMap fun c => (spellings ps).map (c :: ·)

/-! ## Shapes and names -/

theorem isName_iff_mem {word : Text} : isName word = true ↔ word.map foldLetter ∈ names := by
  simp [isName, foldsTo]

theorem mem_names_iff {word : Text} : word ∈ names ↔ ∃ shape ∈ shapes, word ∈ spellings shape := by
  have hnames : ∀ word ∈ names, ∃ shape ∈ shapes, word ∈ spellings shape := by decide +kernel
  have hspellings : ∀ shape ∈ shapes, ∀ word ∈ spellings shape, word ∈ names := by decide +kernel
  constructor
  · exact hnames word
  · rintro ⟨shape, hshape, hword⟩
    exact hspellings shape hshape word hword

theorem Piece.foldLetter_mem {p : Piece} {c : Char} (h : p.accepts c = true) : foldLetter c ∈ p.letters := by
  cases p with
  | letter l => simpa [letters, accepts] using h
  | digit low high =>
    simp only [accepts, Bool.and_eq_true, decide_eq_true_eq, Char.le_def, UInt32.le_iff_toNat_le] at h
    refine List.mem_map.mpr ⟨c.toNat, List.mem_range'_1.mpr ?_, by rw [Char.ofNat_toNat]⟩
    show low.val.toNat ≤ c.val.toNat ∧ c.val.toNat < low.val.toNat + (high.val.toNat + 1 - low.val.toNat)
    omega

theorem accepts_of_mem_letters {shape : List Piece} (hshape : shape ∈ shapes) {p : Piece} (hp : p ∈ shape)
    {c : Char} (h : foldLetter c ∈ p.letters) : p.accepts c = true ∧ isWordChar c = true := by
  -- no statement ranges over all characters, for those could only be enumerated
  have hletters : ∀ shape ∈ shapes, ∀ p ∈ shape, (p.letters.all fun l => l.toNat < 0x80) = true := by
    decide +kernel
  have hascii : ∀ shape ∈ shapes, ∀ p ∈ shape, ∀ n < 0x80, foldLetter (Char.ofNat n) ∈ p.letters →
      p.accepts (Char.ofNat n) = true ∧ isWordChar (Char.ofNat n) = true := by decide +kernel
  have hlong : ∀ shape ∈ shapes, ∀ p ∈ shape, foldLetter 'ſ' ∈ p.letters →
      p.accepts 'ſ' = true ∧ isWordChar 'ſ' = true := by decide +kernel
  have hkelvin : ∀ shape ∈ shapes, ∀ p ∈ shape, foldLetter '\u212a' ∈ p.letters →
      p.accepts '\u212a' = true ∧ isWordChar '\u212a' = true := by decide +kernel
  have hfolded : (foldLetter c).toNat < 0x80 := by
    simpa using List.all_eq_true.mp (hletters shape hshape p hp) _ h
  exact forall_folded (p := fun c => foldLetter c ∈ p.letters → p.accepts c = true ∧ isWordChar c = true)
    (hascii shape hshape p hp) (hlong shape hshape p hp) (hkelvin shape hshape p hp) hfolded h

section

variable {shape : List Piece} {word : Text}

theorem Accepts.isWordChar (h : Accepts shape word) (hshape : shape ∈ shapes) :
    ∀ c ∈ word, isWordChar c = true := by
  have hpieces : ∀ p ∈ shape, ∀ c, p.accepts c = true → AsmAssist.isWordChar c = true :=
    fun p hp c hc => (accepts_of_mem_letters hshape hp (Piece.foldLetter_mem hc)).2
  clear hshape
  induction h with
  | nil => nofun
  | @cons p c ps word hc _ ih =>
    obtain ⟨hp, hps⟩ := List.forall_mem_cons.mp hpieces
    exact List.forall_mem_cons.mpr ⟨hp c hc, ih hps⟩

theorem accepts_iff_spelled (hpieces : ∀ p ∈ shape, ∀ c, p.accepts c = true ↔ foldLetter c ∈ p.letters) :
    Accepts shape word ↔ word.map foldLetter ∈ spellings shape := by
  induction shape generalizing word with
  | nil => simp [spellings, Accepts]
  | cons p ps ih =>
    obtain ⟨hp, hps⟩ := List.forall_mem_cons.mp hpieces
    cases word with
    | nil => simp [spellings]
    | cons c word => simp [spellings, hp, ih hps]

theorem isName_iff_accepts : isName word = true ↔ ∃ shape ∈ shapes, Accepts shape word := by
  have hspelled {shape : List Piece} (hshape : shape ∈ shapes) :
      Accepts shape word ↔ word.map foldLetter ∈ spellings shape :=
    accepts_iff_spelled fun p hp c =>
      ⟨Piece.foldLetter_mem, fun h => (accepts_of_mem_letters hshape hp h).1⟩
  rw [isName_iff_mem, mem_names_iff]
  constructor
  · rintro ⟨shape, hshape, hword⟩
    exact ⟨shape, hshape, (hspelled hshape).mpr hword⟩
  · rintro ⟨shape, hshape, hword⟩
    exact ⟨shape, hshape, (hspelled hshape).mp hword⟩

/-- A shape takes what it accepts in front of a word boundary. -/
theorem take?_eq_some_iff {s : Text} :
    take? shape s = some word ↔
      Accepts shape word ∧ ∃ rest, s = word ++ rest ∧ ∀ c ∈ rest.head?, AsmAssist.isWordChar c = false := by
  induction shape generalizing s word with
  | nil =>
    constructor
    · intro h
      cases s with
      | nil =>
        cases h
        exact ⟨.nil, [], rfl, by simp⟩
      | cons c s =>
        rw [take?] at h
        split at h
        · cases h
        next hc =>
          cases h
          exact ⟨.nil, c :: s, rfl, by simpa using hc⟩
    · rintro ⟨⟨⟩, rest, rfl, hrest⟩
      cases s with
      | nil => rfl
      | cons c s => simp [take?, hrest c rfl]
  | cons p ps ih =>
    constructor
    · intro h
      cases s with
      | nil => cases h
      | cons c s =>
        rw [take?] at h
        split at h
        next hc =>
          obtain ⟨tail, htail, rfl⟩ := Option.map_eq_some_iff.mp h
          obtain ⟨haccepts, rest, rfl, hrest⟩ := ih.mp htail
          exact ⟨.cons hc haccepts, rest, rfl, hrest⟩
        · cases h
    · rintro ⟨haccepts, rest, rfl, hrest⟩
      cases haccepts with
      | cons hc htail =>
        rw [List.cons_append, take?, if_pos hc, ih.mpr ⟨htail, rest, rfl, hrest⟩]
        rfl

end

/-! ## The scan -/

section

variable {t r : Text} {column : Nat}

/-- What is spelled at the head of a run is the whole run or nothing. -/
theorem spelledAt?_run (ht : ∀ c ∈ t, isWordChar c = true) (hr : ∀ c ∈ r.head?, isWordChar c = false) :
    spelledAt? (t ++ r) = if isName t then some t else none := by
  have hwhole {shape : List Piece} (hshape : shape ∈ shapes) {word : Text}
      (h : take? shape (t ++ r) = some word) : word = t ∧ Accepts shape t := by
    obtain ⟨haccepts, rest, htext, hrest⟩ := take?_eq_some_iff.mp h
    obtain rfl : word = t := by
      rw [← takeWhile_run ht hr, htext, takeWhile_run (haccepts.isWordChar hshape) hrest]
    exact ⟨rfl, haccepts⟩
  cases hspelled : spelledAt? (t ++ r) with
  | some word =>
    obtain ⟨shape, hshape, htake⟩ := List.exists_of_findSome?_eq_some hspelled
    obtain ⟨rfl, haccepts⟩ := hwhole hshape htake
    rw [if_pos (isName_iff_accepts.mpr ⟨shape, hshape, haccepts⟩)]
  | none =>
    rw [if_neg]
    intro hname
    obtain ⟨shape, hshape, haccepts⟩ := isName_iff_accepts.mp hname
    have htake := take?_eq_some_iff.mpr ⟨haccepts, r, rfl, hr⟩
    rw [List.findSome?_eq_none_iff.mp hspelled shape hshape] at htake
    cases htake

/-- No register starts outside words, although a boundary may stand there. -/
theorem scan_outside {c : Char} (hc : isWordChar c = false) (inWord : Bool) (s : Text) :
    scan 0 inWord column (c :: s) = scan 0 false (column + unitWidth c) s := by
  have hspelled : spelledAt? (c :: s) = none := by
    have hrun := spelledAt?_run (t := []) (r := c :: s) (by simp) (by simpa using hc)
    exact hrun.trans (if_neg (by decide))
  simp [scan, hc, hspelled]

theorem scan_behind (hr : ∀ c ∈ r.head?, isWordChar c = false) :
    scan 0 true column r = scan 0 false column r := by
  cases r with
  | nil => rfl
  | cons c r => rw [scan_outside (hr c rfl), scan_outside (hr c rfl)]

/-- The rest of a word is passed, as part of a register or as part of a word that is none. -/
theorem scan_inside (ht : ∀ c ∈ t, isWordChar c = true) {skip : Nat} (hskip : skip = 0 ∨ skip = t.length) :
    scan skip true column (t ++ r) = scan 0 true (column + columns t) r := by
  induction t generalizing column skip with
  | nil =>
    obtain rfl : skip = 0 := by simpa using hskip
    rfl
  | cons c t ih =>
    obtain ⟨hc, ht⟩ := List.forall_mem_cons.mp ht
    rcases hskip with rfl | rfl
    · simp only [List.cons_append, scan, hc, BEq.rfl, if_true, ih ht (.inl rfl), columns_cons,
        Nat.add_assoc]
    · simp only [List.length_cons, List.cons_append, scan, hc, ih ht (.inr rfl), columns_cons,
        Nat.add_assoc]

theorem scan_word (hne : t ≠ []) (ht : ∀ c ∈ t, isWordChar c = true)
    (hr : ∀ c ∈ r.head?, isWordChar c = false) :
    scan 0 false column (t ++ r) =
      (if isName t then [⟨column, t⟩] else []) ++ scan 0 false (column + columns t) r := by
  have hspelled := spelledAt?_run ht hr
  rw [← scan_behind hr]
  obtain ⟨c, t, rfl⟩ := List.exists_cons_of_ne_nil hne
  obtain ⟨hc, ht⟩ := List.forall_mem_cons.mp ht
  rw [List.cons_append] at hspelled ⊢
  by_cases hname : isName (c :: t) = true
  · simp only [scan, hc, hspelled, hname]
    simp [scan_inside ht (.inr rfl), Nat.add_assoc]
  · simp only [scan, hc, hspelled, hname]
    simp [scan_inside ht (.inl rfl), Nat.add_assoc]

end

theorem scan_eq_filter (s : Text) (column : Nat) :
    scan 0 false column s = (Run.scan isWordChar column [] s).filter fun r => isName r.text := by
  induction s using runs_induction isWordChar generalizing column with
  | nil => rfl
  | outside c s hc ih => rw [scan_outside hc, Run.scan_outside hc, ih]
  | run t r hne ht hr ih =>
    rw [scan_word hne ht hr, Run.scan_run hne ht hr, List.filter_cons, ih]
    split <;> rfl

section

variable {operands : Text} {anchor : Position}

theorem all_eq_filter :
    all operands anchor =
      ((Run.all isWordChar operands).filter fun r => isName r.text).map
        (Run.token anchor.line anchor.character) :=
  congrArg _ (scan_eq_filter operands 0)

theorem mem_all_iff {t : Token} :
    t ∈ all operands anchor ↔
      ∃ before word, RunAt isWordChar operands before word ∧ isName word = true ∧
        t = ⟨word, .onLine anchor.line (anchor.character + columns before)
          (anchor.character + columns (before ++ word))⟩ := by
  simp only [all_eq_filter, List.mem_map, List.mem_filter, Run.mem_all]
  constructor
  · rintro ⟨⟨start, word⟩, ⟨⟨before, hrun, rfl⟩, hname⟩, rfl⟩
    exact ⟨before, word, hrun, hname, by simp [Run.token, Run.stop]⟩
  · rintro ⟨before, word, hrun, hname, rfl⟩
    exact ⟨⟨columns before, word⟩, ⟨⟨before, hrun, rfl⟩, hname⟩, by simp [Run.token, Run.stop]⟩

end

/-- `tokens` are the registers of an operand text that starts at `anchor`: the runs of word characters that
spell a name, each once and from left to right. -/
structure Enumerates (operands : Text) (anchor : Position) (tokens : List Token) : Prop where
  filtered : tokens =
    ((Run.all isWordChar operands).filter fun r => isName r.text).map
      (Run.token anchor.line anchor.character)
  mem_iff : ∀ t, t ∈ tokens ↔
    ∃ before word, RunAt isWordChar operands before word ∧ isName word = true ∧
      t = ⟨word, .onLine anchor.line (anchor.character + columns before)
        (anchor.character + columns (before ++ word))⟩
  increasing : tokens.Pairwise fun t later => t.span.stop.character < later.span.start.character

theorem all_enumerates (operands : Text) (anchor : Position) :
    Enumerates operands anchor (all operands anchor) where
  filtered := all_eq_filter
  mem_iff _ := mem_all_iff
  increasing := by
    rw [all_eq_filter, List.pairwise_map]
    refine ((Run.scan_pairwise isWordChar 0 operands).filter _).imp ?_
    intro r later hlt
    show anchor.character + r.stop < anchor.character + later.start
    omega

-- digits, underscores and letters beyond ASCII make longer words, and the long s is an S
example : (all "R1,r11 R16 _PC éRE RE𝓐 M[ſp+1]".toList ⟨2, 5⟩).map Token.span =
    [.onLine 2 5 7, .onLine 2 8 11, .onLine 2 31 33] := by
  decide +kernel

end Register

end AsmAssist
