import AsmAssist.Proofs.Mnemonic

/-!
# Reading mnemonics word by word

The search looks for every name on its own and keeps the best of what it finds. One pass over the words of
the text, which stops at the first mnemonic, gives the same. Different names are never found at the same
place, so it does not matter in which order they are looked for.
-/

namespace AsmAssist.Mnemonic

open Text

/-! ## One pass -/

/-- A known name, alone or with a condition of one or more letters. -/
def isMnemonic (word : Text) : Bool :=
  names.contains (base word) &&
    match word.drop (base word).length with
    | [] => true
    | _ :: condition => condition ≠ [] && condition.all Char.isAlpha

def judge (before word : Text) : Option Occurrence :=
  if isMnemonic word then some ⟨base word, before, word⟩ else none

/-- Reads on behind `before` and the part of a word in `current`. A word is judged where it ends. -/
def scanFrom (before current : Text) : Text → Option Occurrence
  | [] => judge before current
  | c :: s =>
    if isBlank c then (judge before current).or (scanFrom (before ++ current ++ [c]) [] s)
    else scanFrom before (current ++ [c]) s

def scan (s : Text) : Option Occurrence := scanFrom [] [] s

/-- Behind the base of a word nothing follows, or a dot does. -/
theorem drop_base {word rest : Text} {c : Char} (h : word.drop (base word).length = c :: rest) :
    word = base word ++ '.' :: rest := by
  have hsplit : base word ++ word.dropWhile (· != '.') = word := List.takeWhile_append_dropWhile
  have hdrop : word.dropWhile (· != '.') = c :: rest := by
    rw [← h]
    exact (drop_of_eq_append hsplit.symm).symm
  have hc := List.head?_dropWhile_not (· != '.') word
  rw [hdrop] at hc
  obtain rfl : c = '.' := by simpa using hc
  rw [← hdrop, hsplit]

theorem isMnemonic_iff {word : Text} : isMnemonic word = true ↔ IsMnemonic word := by
  constructor
  · intro h
    obtain ⟨hname, hrest⟩ := Bool.and_eq_true_iff.mp h
    refine ⟨base word, by simpa using hname, ?_⟩
    cases hdrop : word.drop (base word).length with
    | nil =>
      left
      have hlength := List.drop_eq_nil_iff.mp hdrop
      exact ((List.takeWhile_prefix _).eq_of_length_le hlength).symm
    | cons c condition =>
      right
      rw [hdrop] at hrest
      obtain ⟨hne, hletters⟩ := Bool.and_eq_true_iff.mp hrest
      exact ⟨condition, by simpa using hne, by simpa using hletters, drop_base hdrop⟩
  · rintro ⟨name, hname, hspells⟩
    have hbase := hspells.base_eq hname
    unfold isMnemonic
    rw [hbase]
    rcases hspells with rfl | ⟨condition, hne, hletters, rfl⟩
    · simp [hname]
    · simpa [hname, hne] using hletters

theorem judge_nil (before : Text) : judge before [] = none := by
  have hnil : isMnemonic [] = false := by decide +kernel
  simp [judge, hnil]

theorem scanFrom_blank {c : Char} (hc : isBlank c = true) (before s : Text) :
    scanFrom before [] (c :: s) = scanFrom (before ++ [c]) [] s := by
  simp [scanFrom, hc, judge_nil]

theorem scanFrom_visible {t : Text} (ht : ∀ c ∈ t, isBlank c = false) (before current r : Text) :
    scanFrom before current (t ++ r) = scanFrom before (current ++ t) r := by
  induction t generalizing current with
  | nil => simp
  | cons c t ih =>
    have hc : isBlank c = false := ht c List.mem_cons_self
    have hrest : ∀ d ∈ t, isBlank d = false := fun d hd => ht d (List.mem_cons_of_mem c hd)
    simp [scanFrom, hc, ih hrest]

theorem scanFrom_word {t r : Text} (ht : IsWord t) (hr : StartsBlank r) (before : Text) :
    scanFrom before [] (t ++ r) = (judge before t).or (scanFrom (before ++ t) [] r) := by
  rw [scanFrom_visible ht.2, List.nil_append]
  cases r with
  | nil => simp [scanFrom, judge_nil]
  | cons c r =>
    have hc : isBlank c = true := hr c rfl
    simp [scanFrom, hc, judge_nil]

theorem scanFrom_eq_none {before s : Text} (h : scanFrom before [] s = none) :
    ∀ t ∈ words s, ¬ IsMnemonic t := by
  induction s using words_induction generalizing before with
  | nil => simp
  | blank c s hc ih =>
    rw [scanFrom_blank hc] at h
    rw [words_cons_blank hc]
    exact ih h
  | word u r hu hr ih =>
    rw [scanFrom_word hu hr, Option.or_eq_none_iff] at h
    rw [words_word_append hu hr, List.forall_mem_cons]
    refine ⟨fun hm => ?_, ih h.2⟩
    have hjudge := h.1
    rw [judge, if_pos (isMnemonic_iff.mpr hm)] at hjudge
    cases hjudge

/-- The pass stops at the first mnemonic of the rest, which stands behind what was passed over. -/
theorem scanFrom_eq_some {before s : Text} {o : Occurrence} (h : scanFrom before [] s = some o) :
    ∃ p, First s p ∧ o = p.behind before := by
  induction s using words_induction generalizing before with
  | nil =>
    rw [scanFrom, judge_nil] at h
    cases h
  | blank c s hc ih =>
    rw [scanFrom_blank hc] at h
    obtain ⟨p, hp, rfl⟩ := ih h
    refine ⟨p.behind [c], ⟨hp.name_mem, hp.spells, hp.place.cons_blank hc, ?_⟩, by simp [Occurrence.behind]⟩
    simpa [Occurrence.behind, words_cons_blank hc] using hp.none_before
  | word u r hu hr ih =>
    rw [scanFrom_word hu hr] at h
    by_cases hm : IsMnemonic u
    · rw [judge, if_pos (isMnemonic_iff.mpr hm), Option.some_or] at h
      cases h
      obtain ⟨name, hname, hspells⟩ := hm
      rw [hspells.base_eq hname]
      refine ⟨⟨name, [], u⟩, ⟨hname, hspells, ⟨hu, by simp [EndsBlank], r, by simp, hr⟩, by simp⟩, ?_⟩
      simp [Occurrence.behind]
    · rw [judge, if_neg fun ht => hm (isMnemonic_iff.mp ht), Option.none_or] at h
      obtain ⟨p, hp, rfl⟩ := ih h
      refine ⟨p.behind u, ⟨hp.name_mem, hp.spells, hp.place.word_append hr, ?_⟩, by simp [Occurrence.behind]⟩
      have hb := hr.of_isPrefix hp.place.before_isPrefix
      simpa [Occurrence.behind, words_word_append hu hb] using ⟨hm, hp.none_before⟩

theorem find?_eq_scan (s : Text) : find? s = scan s := by
  cases h : scan s with
  | none => exact find?_eq_none_iff.mpr (scanFrom_eq_none h)
  | some o =>
    obtain ⟨p, hp, rfl⟩ := scanFrom_eq_some h
    exact find?_eq_some_iff.mpr hp

/-! ## Many names -/

/-- Where an occurrence starts, in bytes, says which text stands in front of it. -/
theorem before_eq_of_start_eq {s : Text} {o p : Occurrence} (ho : o.before <+: s) (hp : p.before <+: s)
    (h : o.start = p.start) : o.before = p.before := by
  rw [← takeBytes_of_isPrefix ho, ← takeBytes_of_isPrefix hp]
  exact congrArg (takeBytes · s) h

/-- Different names have no leftmost occurrence in common. -/
theorem leftmost?_start_injective {s name other : Text} {o p : Occurrence} (hname : name ∈ names)
    (hother : other ∈ names) (ho : leftmost? s name = some o) (hp : leftmost? s other = some p)
    (h : o.start = p.start) : name = other := by
  obtain ⟨-, hspells, hplace, -⟩ := leftmost?_eq_some hname ho
  obtain ⟨-, hspells', hplace', -⟩ := leftmost?_eq_some hother hp
  have hbefore := before_eq_of_start_eq hplace.before_isPrefix hplace'.before_isPrefix h
  rw [hbefore] at hplace
  have htext := hplace.unique hplace'
  rw [← hspells.base_eq hname, ← hspells'.base_eq hother, htext]

/-- The occurrence that starts first is kept, in whichever order the names are looked for. -/
theorem better_fold_eq_some_iff {s : Text} {known : List Text} (hknown : ∀ name ∈ known, name ∈ names)
    {o : Occurrence} :
    (known.filterMap (leftmost? s)).foldl better none = some o ↔
      o ∈ known.filterMap (leftmost? s) ∧ ∀ p ∈ known.filterMap (leftmost? s), o.start ≤ p.start := by
  have hkept {q : Occurrence} (hq : (known.filterMap (leftmost? s)).foldl better none = some q) :
      q ∈ known.filterMap (leftmost? s) ∧ ∀ p ∈ known.filterMap (leftmost? s), q.start ≤ p.start := by
    obtain ⟨hmem, -, hmin⟩ := better_fold_eq_some hq
    exact ⟨hmem.resolve_left (by simp), hmin⟩
  refine ⟨hkept, ?_⟩
  rintro ⟨hmem, hmin⟩
  cases hfold : (known.filterMap (leftmost? s)).foldl better none with
  | none =>
    rw [(better_fold_eq_none_iff.mp hfold).2] at hmem
    cases hmem
  | some q =>
    obtain ⟨hqmem, hqmin⟩ := hkept hfold
    have hstart : o.start = q.start := Nat.le_antisymm (hmin q hqmem) (hqmin o hmem)
    obtain ⟨name, hname, ho⟩ := List.mem_filterMap.mp hmem
    obtain ⟨other, hother, hq⟩ := List.mem_filterMap.mp hqmem
    obtain rfl := leftmost?_start_injective (hknown name hname) (hknown other hother) ho hq hstart
    rw [← hq, ho]

theorem find?_perm {known : List Text} (h : known.Perm names) (s : Text) :
    (known.filterMap (leftmost? s)).foldl better none = find? s := by
  apply Option.ext
  intro o
  rw [find?, better_fold_eq_some_iff fun name => h.mem_iff.mp, better_fold_eq_some_iff fun name => id]
  simp only [List.mem_filterMap, h.mem_iff]

/-- The search is one pass over the words of the text, up to the first that is a mnemonic. It finds that word
with its offsets and its base, and it finds nothing exactly if no word is a mnemonic. The order of the names
does not matter, since different names never start at the same place. -/
theorem find?_single_scan (s : Text) :
    find? s = scan s ∧
      (find? s = none ↔ ∀ t ∈ words s, ¬ IsMnemonic t) ∧
      (∀ o, find? s = some o ↔ First s o) ∧
      (∀ o, find? s = some o → o.name = base o.text ∧ takeBytes o.start s = o.before ∧
        takeBytes o.stop s = o.before ++ o.text) ∧
      (∀ known : List Text, known.Perm names →
        (known.filterMap (leftmost? s)).foldl better none = find? s) ∧
      ∀ name ∈ names, ∀ other ∈ names, ∀ o p, leftmost? s name = some o → leftmost? s other = some p →
        o.start = p.start → name = other := by
  refine ⟨find?_eq_scan s, find?_eq_none_iff, fun o => find?_eq_some_iff, fun o ho => ?_,
    fun known hperm => find?_perm hperm s, ?_⟩
  · have hfirst := find?_eq_some_iff.mp ho
    obtain ⟨rest, hs, -⟩ := hfirst.place.closes
    have htext : o.before ++ o.text <+: s := ⟨rest, hs.symm⟩
    refine ⟨(hfirst.spells.base_eq hfirst.name_mem).symm,
      takeBytes_of_isPrefix hfirst.place.before_isPrefix, ?_⟩
    rw [Occurrence.stop, Occurrence.start, Occurrence.size, ← bytes_append, takeBytes_of_isPrefix htext]
  · intro name hname other hother o p ho hp
    exact leftmost?_start_injective hname hother ho hp

/-- A word that is no mnemonic for its condition, and the names in the opposite order. -/
theorem find?_single_scan_reversed :
    let s := "ADD.1 MVIH.NZ MVI ADD".toList
    let found : Occurrence := ⟨"MVIH".toList, "ADD.1 ".toList, "MVIH.NZ".toList⟩
    find? s = some found ∧ takeBytes found.stop s = "ADD.1 MVIH.NZ".toList ∧
      names.reverse.Perm names ∧ (names.reverse.filterMap (leftmost? s)).foldl better none = some found := by
  intro s found
  obtain ⟨hscan, -, -, hoffsets, horder, -⟩ := find?_single_scan s
  have hfound : find? s = some found := by
    rw [hscan]
    decide +kernel
  have hperm : names.reverse.Perm names := names.reverse_perm
  exact ⟨hfound, (hoffsets found hfound).2.2, hperm, (horder _ hperm).trans hfound⟩

end AsmAssist.Mnemonic
