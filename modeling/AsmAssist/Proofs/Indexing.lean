import AsmAssist.Proofs.Entries

/-!
# What a scan indexes

A scan goes through the lines of its range one by one and stops at the first yes of its signal. The index
holds the lines up to there and nothing else: each is found by its number, and each name by the last line
that defines it.
-/

namespace AsmAssist

open Line (classify)

/-! ## Stopping at the first yes -/

/-- The lines scanned are a first part of those to scan. It ends at the first yes, or where they end. -/
theorem Poll.scan_stops {α : Type} (poll : Poll) (asked : Nat) (xs : List α) :
    ∃ count ≤ xs.length,
      poll.scan asked xs = (xs.take count, decide (count < xs.length)) ∧
        (∀ k < count, poll (asked + k) = false) ∧
        (count < xs.length → poll (asked + count) = true) := by
  induction xs generalizing asked with
  | nil => exact ⟨0, Nat.le_refl _, rfl, by simp, by simp⟩
  | cons x xs ih =>
    cases hp : poll asked with
    | true => exact ⟨0, Nat.zero_le _, by simp [Poll.scan, hp], by simp, fun _ => hp⟩
    | false =>
      obtain ⟨count, hle, hscan, hpassed, hstopped⟩ := ih (asked + 1)
      refine ⟨count + 1, Nat.succ_le_succ hle, by simp [Poll.scan, hp, hscan], ?_, ?_⟩
      · intro k hk
        cases k with
        | zero => exact hp
        | succ k =>
          rw [← Nat.add_assoc, Nat.add_right_comm]
          exact hpassed k (by omega)
      · intro hlt
        rw [← Nat.add_assoc, Nat.add_right_comm]
        exact hstopped (by simpa using hlt)

namespace Index

/-! ## The lines of a range -/

/-- The number of the first line of a range. -/
def firstNumber (range : Option (Nat × Nat)) : Nat :=
  match range with
  | none => 0
  | some (first, _) => first

/-- How many lines a range has: they end with its last line or with the last line of the source. -/
def extent (source : List Text) (range : Option (Nat × Nat)) : Nat :=
  match range with
  | none => source.length
  | some (first, last) => min (last + 1) source.length - first

theorem length_selected (source : List Text) (range : Option (Nat × Nat)) :
    (selected source range).length = extent source range := by
  cases range with
  | none => simp [selected, extent]
  | some r =>
    simp only [selected, extent, List.length_zipIdx, List.length_take, List.length_drop]
    omega

theorem getElem?_selected (source : List Text) (range : Option (Nat × Nat)) (k : Nat) :
    (selected source range)[k]? =
      if k < extent source range then
        source[firstNumber range + k]?.map fun raw => (raw, firstNumber range + k)
      else none := by
  split
  · rename_i hk
    cases range with
    | none => simp [selected, firstNumber, List.getElem?_zipIdx]
    | some r =>
      obtain ⟨first, last⟩ := r
      have hlast : k < last + 1 - first := by
        simp only [extent] at hk
        omega
      simp [selected, firstNumber, List.getElem?_zipIdx, hlast]
  · rename_i hk
    rw [← length_selected] at hk
    exact List.getElem?_eq_none (Nat.le_of_not_lt hk)

/-- The lines of a range exist. -/
theorem firstNumber_add_lt {source : List Text} {range : Option (Nat × Nat)} {k : Nat}
    (h : k < extent source range) : firstNumber range + k < source.length := by
  cases range with
  | none => simpa [firstNumber, extent] using h
  | some r =>
    simp only [firstNumber, extent] at h ⊢
    omega

/-- Cutting off the lines behind the first `count` of a range leaves these in it. -/
theorem extent_take {source : List Text} {range : Option (Nat × Nat)} {count : Nat}
    (h : count ≤ extent source range) :
    extent (source.take (firstNumber range + count)) range = count := by
  cases range with
  | none =>
    simp only [extent, firstNumber, List.length_take] at h ⊢
    omega
  | some r =>
    simp only [extent, firstNumber, List.length_take] at h ⊢
    omega

theorem selected_take {source : List Text} {range : Option (Nat × Nat)} {count : Nat}
    (h : count ≤ extent source range) :
    selected (source.take (firstNumber range + count)) range = (selected source range).take count := by
  apply List.ext_getElem?
  intro k
  simp only [getElem?_selected, extent_take h, List.getElem?_take]
  split
  · rename_i hk
    rw [if_pos (by omega), if_pos (by omega)]
  · rfl

/-! ## The last line of a kind -/

/-- The last line of a list that has a property, or none if no line has it. -/
def LastOf (p : Line → Prop) (lines : List Line) : Option Line → Prop
  | some l => ∃ earlier later, lines = earlier ++ l :: later ∧ p l ∧ ∀ m ∈ later, ¬ p m
  | none => ∀ l ∈ lines, ¬ p l

theorem lastOf_find? (p : Line → Prop) [DecidablePred p] (lines : List Line) :
    LastOf p lines (lines.reverse.find? p) := by
  cases h : lines.reverse.find? p with
  | none =>
    intro l hl
    simpa using List.find?_eq_none.mp h l (List.mem_reverse.mpr hl)
  | some l =>
    obtain ⟨hl, later, earlier, hlines, hlater⟩ := List.find?_eq_some_iff_append.mp h
    refine ⟨earlier.reverse, later.reverse, ?_, by simpa using hl, ?_⟩
    · rw [List.reverse_eq_iff] at hlines
      simpa using hlines
    · intro m hm
      simpa using hlater m (List.mem_reverse.mp hm)

theorem LastOf.find?_eq {p : Line → Prop} [DecidablePred p] {lines : List Line} {o : Option Line}
    (h : LastOf p lines o) : lines.reverse.find? (fun l => decide (p l)) = o := by
  cases o with
  | none =>
    apply List.find?_eq_none.mpr
    intro l hl
    simpa using h l (List.mem_reverse.mp hl)
  | some l =>
    obtain ⟨earlier, later, rfl, hl, hlater⟩ := h
    have hnone : later.reverse.find? (fun l => decide (p l)) = none := by
      apply List.find?_eq_none.mpr
      intro m hm
      simpa using hlater m (List.mem_reverse.mp hm)
    simp [List.find?_append, hnone, hl]

/-- A list has one last line with a property, or none. -/
theorem LastOf.unique {p : Line → Prop} {lines : List Line} {o o' : Option Line}
    (h : LastOf p lines o) (h' : LastOf p lines o') : o = o' := by
  classical
  exact h.find?_eq.symm.trans h'.find?_eq

theorem exists_lastOf {p : Line → Prop} {lines : List Line} (h : ∃ l ∈ lines, p l) :
    ∃ l, LastOf p lines (some l) := by
  classical
  have hlast := lastOf_find? p lines
  cases hf : lines.reverse.find? p with
  | none =>
    rw [hf] at hlast
    obtain ⟨l, hl, hp⟩ := h
    exact absurd hp (hlast l hl)
  | some l =>
    rw [hf] at hlast
    exact ⟨l, hlast⟩

theorem LastOf.mem {p : Line → Prop} {lines : List Line} {l : Line} (h : LastOf p lines (some l)) :
    l ∈ lines ∧ p l := by
  obtain ⟨earlier, later, rfl, hl, -⟩ := h
  exact ⟨by simp, hl⟩

/-- A line with a label and its colon. -/
def Labels (name : Text) (l : Line) : Prop := ∃ label i, l.kind = .label label i ∧ label.text = name

def Assigns (name : Text) (l : Line) : Prop := ∃ a, l.kind = .assignment a ∧ a.name.text = name

theorem labelName?_eq_some_iff (l : Line) (name : Text) :
    l.labelName? = some name ↔ Labels name l := by
  cases hk : l.kind <;> simp [Line.labelName?, Labels, hk]

theorem assignedName?_eq_some_iff (l : Line) (name : Text) :
    l.assignedName? = some name ↔ Assigns name l := by
  cases hk : l.kind <;> simp [Line.assignedName?, Line.assignment?, Assigns, hk]

/-- In the table of a list of lines, a name leads to the last line that defines it. -/
theorem lastOf_item? {name? : Line → Option Text} {p : Line → Prop} {name : Text}
    (hp : ∀ l, name? l = some name ↔ p l) (lines : List Line) :
    LastOf p lines ((NameTable.ofItems (fun l => (name? l).toList) lines).item? lines name) := by
  have hlast := lastOf_find? (fun l => name? l = some name) lines
  rw [NameTable.item?_ofItems_toList]
  simpa only [hp] using hlast

theorem lastOf_label? (lines : List Line) (cancelled : Bool) (name : Text) :
    LastOf (Labels name) lines ((ofLines lines cancelled).label? name) :=
  lastOf_item? (labelName?_eq_some_iff · name) lines

theorem lastOf_assignment? (lines : List Line) (cancelled : Bool) (name : Text) :
    LastOf (Assigns name) lines ((ofLines lines cancelled).assignment? name) :=
  lastOf_item? (assignedName?_eq_some_iff · name) lines

/-- A name leads to a line of the list, and that line defines it. -/
theorem exists_line_of_place {name? : Line → Option Text} {p : Line → Prop} {name : Text}
    (hp : ∀ l, name? l = some name ↔ p l) {lines : List Line} {k : Nat}
    (h : (NameTable.ofItems (fun l => (name? l).toList) lines)[name]? = some k) :
    ∃ l, lines[k]? = some l ∧ p l := by
  obtain ⟨l, hl, hname⟩ := NameTable.places_ofItems _ lines name k h
  exact ⟨l, hl, (hp l).mp (Option.mem_toList.mp hname)⟩

/-! ## The index -/

/-- `index` holds the first `count` lines of a range, and no more because the signal said yes or the range
ends there. -/
structure Scans (source : List Text) (range : Option (Nat × Nat)) (poll : Poll) (count : Nat)
    (index : Index) : Prop where
  within : count ≤ extent source range
  passed : ∀ k < count, poll k = false
  stopped : count < extent source range → poll count = true
  length : index.lines.length = count
  lines : ∀ k < count, ∃ raw, source[firstNumber range + k]? = some raw ∧
    index.lines[k]? = some (classify raw (firstNumber range + k))
  cancelled : index.cancelled = true ↔
    ∃ k < extent source range, (∀ j < k, poll j = false) ∧ poll k = true
  line? : ∀ number, index.line? number =
    if firstNumber range ≤ number ∧ number < firstNumber range + count then
      source[number]?.map (classify · number)
    else none
  label? : ∀ name, LastOf (Labels name) index.lines (index.label? name)
  assignment? : ∀ name, LastOf (Assigns name) index.lines (index.assignment? name)
  /-- The tables lead to lines that are there. -/
  labelTable : ∀ (name : Text) k, index.labelTable[name]? = some k →
    ∃ l, index.lines[k]? = some l ∧ Labels name l
  assignmentTable : ∀ (name : Text) k, index.assignmentTable[name]? = some k →
    ∃ l, index.lines[k]? = some l ∧ Assigns name l
  /-- The scan of the lines that were reached, undisturbed. -/
  undisturbed : build (source.take (firstNumber range + count)) range .never =
    { index with cancelled := false }

/-- The index of the first `count` lines of a range. -/
def ofFirst (source : List Text) (range : Option (Nat × Nat)) (count : Nat) (cancelled : Bool) : Index :=
  ofLines (((selected source range).take count).map fun (raw, number) => classify raw number) cancelled

theorem build_eq_ofFirst (source : List Text) (range : Option (Nat × Nat)) (poll : Poll) :
    ∃ count ≤ extent source range,
      build source range poll = ofFirst source range count (decide (count < extent source range)) ∧
        (∀ k < count, poll k = false) ∧ (count < extent source range → poll count = true) := by
  obtain ⟨count, hle, hscan, hpassed, hstopped⟩ := poll.scan_stops 0 (selected source range)
  simp only [Nat.zero_add] at hpassed hstopped
  rw [length_selected] at hle hscan hstopped
  refine ⟨count, hle, ?_, hpassed, hstopped⟩
  simp only [build, hscan, ofFirst]

/-- Without a yes, the whole range is scanned. -/
theorem build_never (source : List Text) (range : Option (Nat × Nat)) :
    build source range .never = ofFirst source range (extent source range) false := by
  obtain ⟨count, hle, hbuild, -, hstopped⟩ := build_eq_ofFirst source range .never
  obtain rfl : count = extent source range := by
    apply Nat.le_antisymm hle
    apply Nat.le_of_not_lt
    intro hlt
    cases hstopped hlt
  simpa using hbuild

section

variable {source : List Text} {range : Option (Nat × Nat)} {count : Nat}

theorem getElem?_ofFirst (h : count ≤ extent source range) (cancelled : Bool) (k : Nat) :
    (ofFirst source range count cancelled).lines[k]? =
      if k < count then
        source[firstNumber range + k]?.map (classify · (firstNumber range + k))
      else none := by
  simp only [ofFirst, ofLines, List.getElem?_map, List.getElem?_take, getElem?_selected]
  split
  · rename_i hk
    rw [if_pos (Nat.lt_of_lt_of_le hk h), Option.map_map]
    rfl
  · rfl

theorem length_ofFirst (h : count ≤ extent source range) (cancelled : Bool) :
    (ofFirst source range count cancelled).lines.length = count := by
  simp [ofFirst, ofLines, length_selected, h]

theorem line?_ofFirst (h : count ≤ extent source range) (cancelled : Bool) (number : Nat) :
    (ofFirst source range count cancelled).line? number =
      if firstNumber range ≤ number ∧ number < firstNumber range + count then
        source[number]?.map (classify · number)
      else none := by
  have hat := getElem?_ofFirst h cancelled
  have hlength := length_ofFirst h cancelled
  unfold line?
  cases hlines : (ofFirst source range count cancelled).lines with
  | nil =>
    rw [hlines, List.length_nil] at hlength
    rw [if_neg (by omega)]
  | cons l lines =>
    rw [hlines, List.length_cons] at hlength
    -- the numbers count up from that of the first line
    have hfirst : l.number = firstNumber range := by
      have hhead := hat 0
      rw [hlines, if_pos (by omega)] at hhead
      obtain ⟨raw, -, rfl⟩ := Option.map_eq_some_iff.mp hhead.symm
      exact (Reading.classify_number raw _).2
    simp only [hfirst]
    split
    · rename_i hlt
      rw [if_neg (by omega)]
    · rename_i hle
      rw [← hlines, hat, Nat.add_sub_cancel' (by omega)]
      simp only [show number - firstNumber range < count ↔
        firstNumber range ≤ number ∧ number < firstNumber range + count by omega]

/-- The scanned lines are lines of the source, read under their numbers. -/
theorem line?_build {poll : Poll} {number : Nat} {l : Line}
    (h : (build source range poll).line? number = some l) :
    ∃ raw, source[number]? = some raw ∧ l = classify raw number := by
  obtain ⟨count, hle, hbuild, -⟩ := build_eq_ofFirst source range poll
  rw [hbuild, line?_ofFirst hle] at h
  split at h
  · obtain ⟨raw, hraw, rfl⟩ := Option.map_eq_some_iff.mp h
    exact ⟨raw, hraw, rfl⟩
  · cases h

/-- Each scanned line is found under its number. -/
theorem line?_number {poll : Poll} {l : Line} (h : l ∈ (build source range poll).lines) :
    (build source range poll).line? l.number = some l := by
  obtain ⟨count, hle, hbuild, -⟩ := build_eq_ofFirst source range poll
  rw [hbuild] at h ⊢
  obtain ⟨k, hk⟩ := List.mem_iff_getElem?.mp h
  rw [getElem?_ofFirst hle] at hk
  split at hk
  · obtain ⟨raw, hraw, rfl⟩ := Option.map_eq_some_iff.mp hk
    rw [(Reading.classify_number raw _).2, line?_ofFirst hle, if_pos (by omega), hraw]
    rfl
  · cases hk

/-- Cut off behind the lines that were scanned, the source gives the same index. -/
theorem build_take (h : count ≤ extent source range) (cancelled : Bool) :
    build (source.take (firstNumber range + count)) range .never =
      { ofFirst source range count cancelled with cancelled := false } := by
  rw [build_never, extent_take h]
  simp only [ofFirst, ofLines, selected_take h, List.take_take, Nat.min_self]

end

/-- Whatever the range and the signal, the index is that of the lines up to the first yes. -/
theorem build_scans (source : List Text) (range : Option (Nat × Nat)) (poll : Poll) :
    ∃ count, Scans source range poll count (build source range poll) := by
  obtain ⟨count, hle, hbuild, hpassed, hstopped⟩ := build_eq_ofFirst source range poll
  refine ⟨count, ?_⟩
  rw [hbuild]
  constructor
  case within => exact hle
  case passed => exact hpassed
  case stopped => exact hstopped
  case length => exact length_ofFirst hle _
  case lines =>
    intro k hk
    have hexists := firstNumber_add_lt (Nat.lt_of_lt_of_le hk hle)
    refine ⟨source[firstNumber range + k], List.getElem?_eq_getElem hexists, ?_⟩
    rw [getElem?_ofFirst hle, if_pos hk, List.getElem?_eq_getElem hexists]
    rfl
  case cancelled =>
    have hflag : (ofFirst source range count (decide (count < extent source range))).cancelled = true ↔
        count < extent source range := decide_eq_true_iff
    rw [hflag]
    constructor
    · intro hlt
      exact ⟨count, hlt, hpassed, hstopped hlt⟩
    · rintro ⟨k, hk, -, hyes⟩
      -- a line passed was passed with a no
      apply Nat.lt_of_le_of_lt _ hk
      apply Nat.le_of_not_lt
      intro hlt
      rw [hpassed k hlt] at hyes
      cases hyes
  case line? => exact line?_ofFirst hle _
  case label? => exact lastOf_label? _ _
  case assignment? => exact lastOf_assignment? _ _
  case labelTable =>
    intro name k h
    exact exists_line_of_place (labelName?_eq_some_iff · name) h
  case assignmentTable =>
    intro name k h
    exact exists_line_of_place (assignedName?_eq_some_iff · name) h
  case undisturbed => exact build_take hle _

end Index

end AsmAssist
