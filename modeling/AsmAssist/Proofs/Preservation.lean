import AsmAssist.Proofs.Entries
import AsmAssist.Proofs.Stability
import Mathlib.Data.List.Basic

/-!
# Formatting keeps what a document defines

A formatted line defines what the line did, on one line or on two. Two things could change that. A quote in
the first word hides what follows it from the search for a mnemonic, but only where that word is no margin
token. A keyword with a long s keeps a line from being an assignment, but not what is put on the next line.
A document free of both keeps its labels and its assignments in their order.
-/

namespace AsmAssist.Format

open Text Reading
open Line (classify)
open Instruction (isAnyQuote)

/-- No quote stands in the first word of the line, and no long s anywhere. -/
structure Orderly (raw : Text) : Prop where
  unquoted : ∀ c ∈ (raw.dropWhile isBlank).takeWhile (!isBlank ·), isAnyQuote c = false
  no_long_s : 'ſ' ∉ raw

instance (raw : Text) : Decidable (Orderly raw) :=
  decidable_of_iff
    (((raw.dropWhile isBlank).takeWhile (!isBlank ·)).all (!isAnyQuote ·) = true ∧ 'ſ' ∉ raw)
    ⟨fun h => ⟨fun c hc => by simpa using List.all_eq_true.1 h.1 c hc, h.2⟩,
      fun h => ⟨List.all_eq_true.2 fun c hc => by simp [h.unquoted c hc], h.no_long_s⟩⟩

/-! ## Entries and views -/

section

variable {margined : Bool} {s before rest : Text}

theorem meaning?_eq_none (hn : '\n' ∉ s) (h : Assignment.assigns (code s) = false) :
    Assignment.meaning? (code s) = none := by
  rw [← Assignment.meaning?_isSome (not_mem_code hn)] at h
  simpa using h

theorem bodyDefines?_of_unassigned (hn : '\n' ∉ s) (h : Assignment.assigns (code s) = false) :
    bodyDefines? margined s =
      (colonText? s (bodyParts? margined s)).map fun before => .label (trimEnd before) := by
  rw [bodyDefines?, meaning?_eq_none hn h]

/-- A body without label defines what it assigns, however its first word is taken. -/
theorem bodyDefines?_plain (hn : '\n' ∉ s) (h : view margined s = .plain) :
    bodyDefines? margined s = (Assignment.meaning? (code s)).map .assignment := by
  cases ha : Assignment.assigns (code s) with
  | true =>
    rw [← Assignment.meaning?_isSome (not_mem_code hn)] at ha
    obtain ⟨meaning, hm⟩ := Option.isSome_iff_exists.mp ha
    simp [bodyDefines?, hm]
  | false =>
    have hcolon : colonText? s (bodyParts? margined s) = none := by
      cases hp : bodyParts? margined s with
      | none =>
        rw [view_of_none ha hp] at h
        split at h
        · assumption
        · cases h
      | some p =>
        rw [view_of_parts ha hp] at h
        split at h
        · rename_i hb
          -- the colon of a label stands in front of the mnemonic, and nothing does here
          cases hc : colonText? s (some p) with
          | none => rfl
          | some before =>
            have hlt := (colonText?_eq_some hc).2.2.2 p rfl
            rw [hb] at hlt
            exact absurd hlt (Nat.not_lt_zero _)
        · cases h
    rw [bodyDefines?_of_unassigned hn ha, hcolon, meaning?_eq_none hn ha]
    rfl

theorem view_named (h : view margined s = .named) :
    Assignment.assigns (code s) = false ∧ bodyParts? margined s = none ∧ colonText? s none ≠ none := by
  cases ha : Assignment.assigns (code s) with
  | true =>
    rw [view_of_assigns ha] at h
    cases h
  | false =>
    cases hp : bodyParts? margined s with
    | none =>
      rw [view_of_none ha hp] at h
      split at h
      · cases h
      · rename_i hc
        exact ⟨rfl, rfl, hc⟩
    | some p =>
      rw [view_of_parts ha hp] at h
      split at h <;> cases h

theorem bodyDefines?_named (hn : '\n' ∉ s) (h : view margined s = .named) :
    bodyDefines? margined s = (colonText? s none).map fun before => .label (trimEnd before) := by
  obtain ⟨ha, hp, -⟩ := view_named h
  rw [bodyDefines?_of_unassigned hn ha, hp]

/-- What a label and its instruction define is settled by the text in front of the gap. -/
theorem bodyDefines?_coded (hn : '\n' ∉ s) (h : view margined s = .coded before rest) :
    bodyDefines? margined s =
      (colonText? (trimEnd before) none).map fun before => .label (trimEnd before) := by
  obtain ⟨ha, -, hbody, p, hp, rfl⟩ := view_coded h
  rw [bodyDefines?_of_unassigned hn ha, hp, colonText?_front (bodyParts?_cut hp) hbody]

end

/-! ## Lines without a quote in their first word -/

def OpensUnquoted (s : Text) : Prop := ∀ c ∈ s.takeWhile (!isBlank ·), isAnyQuote c = false

section

variable {s before rest : Text}

/-- A mnemonic behind a margin token without quotes is found without the margin token, too. -/
theorem bodyParts?_true_eq_none (hs : OpensVisible s) (hq : OpensUnquoted s)
    (h : bodyParts? false s = none) : bodyParts? true s = none := by
  cases hp : bodyParts? true s with
  | none => rfl
  | some p =>
    exfalso
    obtain ⟨word, gap, hcut⟩ := cutBehindWord_of_true hs hp
    have hbody := bodyParts?_cut hp
    obtain ⟨r, hr⟩ := hbody.before_isPrefix
    have hword : ∀ c ∈ word, (!isAnyQuote c) = true := by
      intro c hc
      rw [← (hcut.first_word r).1, hr] at hc
      simp [hq c hc]
    have hstarts : StartsBlank ((gap ++ p.mnemonic ++ p.rest).takeWhile (!isAnyQuote ·)) := by
      rw [List.append_assoc]
      exact (hcut.startsBlank _).of_isPrefix (List.takeWhile_prefix _)
    rw [bodyParts?_false, Instruction.seek?_eq_none_iff, hbody.text, hcut.before_eq, List.append_assoc,
      List.append_assoc, ← List.append_assoc gap, List.takeWhile_append_of_pos hword,
      words_word_append hcut.isWord hstarts] at h
    exact h p.mnemonic (List.mem_cons_of_mem word hcut.cut.place.mem) hcut.cut.mnemonic

/-- The text in front of an instruction holds no quote: none stands in its first word, and none behind it. -/
theorem unquoted_before {margined : Bool} (hs : OpensVisible s) (hq : OpensUnquoted s)
    (h : view margined s = .coded before rest) : ∀ c ∈ before, isAnyQuote c = false := by
  obtain ⟨-, hb, hbody, p, hp, rfl⟩ := view_coded h
  obtain ⟨word, gap, hcut⟩ := cutBehindWord hs hp hb
  intro c hc
  rw [hcut.before_eq] at hc
  rcases List.mem_append.mp hc with hc | hc
  · apply hq c
    rw [hbody, (hcut.first_word rest).1]
    exact hc
  · exact hcut.cut.unquoted c hc

/-- Without its indentation a label alone is still one. -/
theorem view_named_unindented {w : Text} (hs : OpensVisible s) (hq : OpensUnquoted s)
    (h : view (isMargined w s) s = .named) : view (isMargined [] s) s = .named := by
  obtain ⟨ha, hp, hc⟩ := view_named h
  have hparts : bodyParts? (isMargined [] s) s = none := by
    cases w with
    | nil => exact hp
    | cons d w =>
      have hfalse : bodyParts? false s = none := hp
      cases isMargined [] s with
      | false => exact hfalse
      | true => exact bodyParts?_true_eq_none hs hq hfalse
  rw [view_of_none ha hparts, if_neg hc]

/-- An instruction on a line of its own assigns nothing if it did not behind its label: the words behind the
first are fewer. -/
theorem assigns_instruction {margined : Bool} (hs : OpensVisible s) (hl : 'ſ' ∉ s)
    (hq : OpensUnquoted s) (h : view margined s = .coded before rest) :
    Assignment.assigns (code rest) = false := by
  have hunquoted := unquoted_before hs hq h
  obtain ⟨ha, hb, hbody, p, hp, rfl⟩ := view_coded h
  obtain ⟨word, gap, hcut⟩ := cutBehindWord hs hp hb
  have houtside : endsQuoted false (trimEnd p.before) = false := by
    apply endsQuoted_of_unquoted
    rintro c hc rfl
    have := hunquoted _ ((trimEnd_isPrefix p.before).subset hc)
    cases this
  have hwords := (bodyParts?_cut hp).endedWords_code hb hbody
  rw [houtside, hcut.front_eq,
    words_word_append hcut.isWord (hcut.starts.of_isPrefix (trimEnd_isPrefix gap))] at hwords
  have hrest : 'ſ' ∉ rest := by
    intro hm
    apply hl
    rw [hbody]
    exact List.mem_append_right _ hm
  rw [Assignment.assigns_eq_false_iff (not_mem_code hl), hwords, List.cons_append, List.tail_cons] at ha
  rw [Assignment.assigns_eq_false_iff (not_mem_code hrest)]
  intro t ht
  exact ha t (List.mem_append_right _ (List.mem_of_mem_tail ht))

/-- The text in front of the gap does not spell a mnemonic if a colon is in it. -/
theorem view_front_named {margined : Bool} (hs : OpensVisible s) (hq : OpensUnquoted s)
    (h : view margined s = .coded before rest) (hc : colonText? (trimEnd before) none ≠ none) :
    view (isMargined [] (trimEnd before)) (trimEnd before) = .named := by
  have hunquoted := unquoted_before hs hq h
  obtain ⟨-, -, hbody, -⟩ := view_coded h
  obtain ⟨p, hp, rfl, -, hnamed⟩ := view_front hs h
  have hcolon := hc
  rw [colonText?_front (bodyParts?_cut hp) hbody] at hcolon
  refine hnamed hcolon ?_
  rintro ⟨-, hm⟩
  have hall : (trimEnd p.before ++ []).takeWhile (!isAnyQuote ·) = trimEnd p.before ++ [] := by
    apply List.takeWhile_append_of_pos
    intro c hc
    simp [hunquoted c ((trimEnd_isPrefix p.before).subset hc)]
  rw [List.append_nil] at hall
  rw [hall] at hm
  obtain ⟨before, hb⟩ := Option.ne_none_iff_exists'.mp hc
  obtain ⟨⟨tail, hcut⟩, -⟩ := colonText?_eq_some hb
  apply hm.not_mem (c := labelMark) (by decide) (by decide)
  rw [(cutAtMark_parts hcut).1]
  simp

end

/-! ## The entries of a formatted line -/

/-- What the lines of a text define. -/
def entriesOf (text : Text) : List Entry :=
  (Source.filled text).flatMap fun raw => (classify raw 0).defines?.toList

section

variable {w s before rest : Text} {margin : Nat}

/-- An indented body without label. -/
theorem defines?_indented (hs : OpensVisible s) (hn : '\n' ∉ s) (h : view false s = .plain)
    (hm : 0 < margin) :
    (classify (spaces margin ++ s) 0).defines? = (Assignment.meaning? (code s)).map .assignment := by
  rw [defines?_classify (isAllBlank_spaces margin) hs, isMargined_spaces hm, bodyDefines?_plain hn h]

theorem defines?_unindented (hs : OpensVisible s) :
    (classify s 0).defines? = bodyDefines? (isMargined [] s) s := defines?_classify isAllBlank_nil hs 0

theorem entriesOf_plain (hw : isAllBlank w = true) (hs : OpensVisible s)
    (hu : Source.IsUnbroken (w ++ s)) (h : view (isMargined w s) s = .plain) (hm : 0 < margin) :
    entriesOf (shape margin (w ++ s)) = (classify (w ++ s) 0).defines?.toList := by
  have hbody : Source.IsUnbroken s := hu.of_subset (List.subset_append_right w s)
  have hfilled := Source.filled_of_unbroken ((spaces_unbroken margin).append hbody)
    (List.append_ne_nil_of_left_ne_nil (spaces_ne_nil hm) s)
  rw [entriesOf, shape_eq hw hs, h, View.shape, hfilled, List.flatMap_singleton,
    defines?_indented hs hbody.1 (view_indented hs h) hm, defines?_classify hw hs,
    bodyDefines?_plain hbody.1 h]

theorem entriesOf_named (hw : isAllBlank w = true) (hs : OpensVisible s)
    (hu : Source.IsUnbroken (w ++ s)) (hq : OpensUnquoted s)
    (h : view (isMargined w s) s = .named) :
    entriesOf (shape margin (w ++ s)) = (classify (w ++ s) 0).defines?.toList := by
  have hbody : Source.IsUnbroken s := hu.of_subset (List.subset_append_right w s)
  rw [entriesOf, shape_eq hw hs, h, View.shape, Source.filled_of_unbroken hbody hs.ne_nil,
    List.flatMap_singleton, defines?_unindented hs,
    bodyDefines?_named hbody.1 (view_named_unindented hs hq h), defines?_classify hw hs,
    bodyDefines?_named hbody.1 h]

/-- With its instruction in place, a line defines what its label says. -/
theorem defines?_resized (hs : OpensVisible s) (hu : Source.IsUnbroken s) {margined : Bool}
    (h : view margined s = .coded before rest) (hcol : columns (trimEnd before) < margin) :
    (classify ((View.coded before rest).shape margin s) 0).defines? = bodyDefines? margined s := by
  obtain ⟨-, hb, hbody, -⟩ := view_coded h
  have hgap := isAllBlank_spaces (margin - columns (trimEnd before))
  have hne : spaces (margin - columns (trimEnd before)) ≠ [] := spaces_ne_nil (by omega)
  obtain ⟨hopens, hmargined⟩ := resized_opens (hbody ▸ hs) hb hgap hne
  have hsub : Source.IsUnbroken (trimEnd before ++ spaces (margin - columns (trimEnd before)) ++ rest) := by
    rw [hbody] at hu
    refine ((hu.of_subset ?_).append (spaces_unbroken _)).append
      (hu.of_subset (List.subset_append_right before rest))
    exact List.Subset.trans (trimEnd_isPrefix before).subset (List.subset_append_left before rest)
  rw [View.shape, labelSpacing, if_pos hcol, defines?_unindented hopens, hmargined,
    bodyDefines?_coded hsub.1 (view_resized hs h hgap hne), bodyDefines?_coded hu.1 h,
    trimEnd_append_of_blank _ hgap, trimEnd_trimEnd]

/-- The text in front of the gap, on a line of its own, defines what the whole line did. -/
theorem defines?_front (hs : OpensVisible s) (hn : '\n' ∉ s) (hq : OpensUnquoted s) {margined : Bool}
    (h : view margined s = .coded before rest) :
    (classify (trimEnd before) 0).defines? = bodyDefines? margined s := by
  obtain ⟨-, hb, hbody, -⟩ := view_coded h
  have hfront : '\n' ∉ trimEnd before := by
    intro hm
    apply hn
    rw [hbody]
    exact List.mem_append_left rest ((trimEnd_isPrefix before).subset hm)
  have hopens := opensVisible_trimEnd (hbody ▸ hs) hb
  rw [defines?_unindented hopens, bodyDefines?_coded hn h]
  by_cases hc : colonText? (trimEnd before) none = none
  · obtain ⟨p, hp, rfl, hplain, -⟩ := view_front hs h
    have hcolon := hc
    rw [colonText?_front (bodyParts?_cut hp) hbody] at hcolon
    rw [bodyDefines?_plain hfront (hplain (.inl hcolon)), meaning?_eq_none hfront (assigns_front h), hc]
    rfl
  · exact bodyDefines?_named hfront (view_front_named hs hq h hc)

theorem entriesOf_coded (hw : isAllBlank w = true) (hs : OpensVisible s)
    (hu : Source.IsUnbroken (w ++ s)) (hl : 'ſ' ∉ s) (hq : OpensUnquoted s)
    (h : view (isMargined w s) s = .coded before rest) (hm : 0 < margin) :
    entriesOf (shape margin (w ++ s)) = (classify (w ++ s) 0).defines?.toList := by
  have hbody : Source.IsUnbroken s := hu.of_subset (List.subset_append_right w s)
  rw [entriesOf, shape_eq hw hs, h, filled_coded hs hbody h hm, defines?_classify hw hs]
  split
  · rename_i hcol
    rw [List.flatMap_singleton, defines?_resized hs hbody h hcol]
  · obtain ⟨-, -, hcut, p, hp, hpb⟩ := view_coded h
    have hopens : OpensVisible rest := (bodyParts?_cut hp).rest_opens (hpb ▸ hcut)
    have hrest : '\n' ∉ rest := by
      intro hm
      apply hbody.1
      rw [hcut]
      exact List.mem_append_right before hm
    have hpushed : (classify (spaces margin ++ rest) 0).defines? = none := by
      rw [defines?_indented hopens hrest (view_instruction h) hm,
        meaning?_eq_none hrest (assigns_instruction hs hl hq h)]
      rfl
    rw [List.flatMap_cons, List.flatMap_singleton, hpushed, defines?_front hs hbody.1 hq h]
    exact List.append_nil _

end

theorem entriesOf_shape {raw : Text} (hu : Source.IsUnbroken raw) (ho : Orderly raw) {margin : Nat}
    (hm : 0 < margin) : entriesOf (shape margin raw) = (classify raw 0).defines?.toList := by
  rcases visible_cases raw with hb | ⟨w, s, rfl, hw, hs⟩
  · rw [shape_of_blank hb, defines?_blank hb]
    rfl
  · have hq : OpensUnquoted s := dropWhile_isBlank_append hw hs ▸ ho.unquoted
    have hl : 'ſ' ∉ s := fun hmem => ho.no_long_s (List.mem_append_right w hmem)
    cases hv : view (isMargined w s) s with
    | plain => exact entriesOf_plain hw hs hu hv hm
    | named => exact entriesOf_named hw hs hu hq hv
    | coded before rest => exact entriesOf_coded hw hs hu hl hq hv hm

/-! ## Whole documents -/

theorem entries_eq_flatMap (text : Text) :
    (indexOf text).entries = (Source.lines text).flatMap fun raw => (classify raw 0).defines?.toList := by
  have hnumber (p : Text × Nat) :
      (classify p.1 p.2).defines? = ((fun raw => (classify raw 0).defines?) ∘ Prod.fst) p :=
    defines?_number p.1 p.2
  rw [Index.entries, indexOf_lines, List.filterMap_map]
  refine (List.filterMap_congr fun p _ => hnumber p).trans ?_
  rw [← List.filterMap_map, List.zipIdx_map_fst, List.filterMap_eq_flatMap_toList]

theorem entries_eq_entriesOf (text : Text) : (indexOf text).entries = entriesOf text := by
  have hempty : (classify [] 0).defines? = none := defines?_blank isAllBlank_nil 0
  rw [entries_eq_flatMap, entriesOf, Source.filled]
  induction Source.lines text with
  | nil => rfl
  | cons raw lines ih =>
    rw [List.flatMap_cons, ih, List.filter_cons]
    by_cases h : raw = []
    · simp [h, hempty]
    · simp [h]

theorem entries_formatted {margin : Nat} (hm : 0 < margin) {text : Text}
    (h : ∀ raw ∈ Source.lines text, Orderly raw) :
    (indexOf (formatted margin text)).entries = (indexOf text).entries := by
  have hreturns : ∀ s ∈ Source.lines text, '\r' ∉ shape margin s :=
    fun s hs => shape_returns (Source.lines_unbroken hs).2 margin
  calc
    (indexOf (formatted margin text)).entries
      = (Source.lines text).flatMap fun raw => entriesOf (shape margin raw) := by
        rw [entries_eq_entriesOf, entriesOf, formatted_eq, Source.filled_flatMap_pieces hreturns,
          List.flatMap_assoc]
        rfl
    _ = (Source.lines text).flatMap fun raw => (classify raw 0).defines?.toList := by
        rw [List.flatMap_def, List.flatMap_def]
        congr 1
        apply List.map_congr_left
        intro raw hraw
        exact entriesOf_shape (Source.lines_unbroken hraw) (h raw hraw) hm
    _ = (indexOf text).entries := (entries_eq_flatMap text).symm

/-- Formatting an orderly document keeps its labels and its assignments, in their order, and so the names in
the tables of its index. -/
theorem formatted_keeps_definitions {margin : Nat} (hm : 0 < margin) {text : Text}
    (h : ∀ raw ∈ Source.lines text, Orderly raw) :
    (indexOf (formatted margin text)).labelNames = (indexOf text).labelNames ∧
      (indexOf (formatted margin text)).meanings = (indexOf text).meanings ∧
      (∀ name, name ∈ (indexOf (formatted margin text)).labels ↔ name ∈ (indexOf text).labels) ∧
      ∀ name, name ∈ (indexOf (formatted margin text)).assignments ↔
        name ∈ (indexOf text).assignments := by
  have hentries := entries_formatted hm h
  have hlabels : (indexOf (formatted margin text)).labelNames = (indexOf text).labelNames := by
    rw [Index.labelNames_eq, Index.labelNames_eq, hentries]
  have hmeanings : (indexOf (formatted margin text)).meanings = (indexOf text).meanings := by
    rw [Index.meanings_eq, Index.meanings_eq, hentries]
  refine ⟨hlabels, hmeanings, ?_, ?_⟩
  · intro name
    exact (Index.mem_labels_iff _ _ name).trans (hlabels ▸ (Index.mem_labels_iff _ _ name).symm)
  · intro name
    exact (Index.mem_assignments_iff _ _ name).trans
      (hmeanings ▸ (Index.mem_assignments_iff _ _ name).symm)

/-- An assignment is indented, a label pushes its instruction away, and a label alone loses its
indentation. -/
theorem formatted_keeps_definitions_pushed :
    let text := "X EQU 'a'\r\n\tLONGNAME: DEC R1 ; X's\n  END:".toList
    (0 < 8 ∧ ∀ raw ∈ Source.lines text, Orderly raw) ∧
      (indexOf (formatted 8 text)).labelNames = ["LONGNAME".toList, "END".toList] ∧
      (indexOf (formatted 8 text)).meanings = [("X".toList, .equ, "'a'".toList)] := by
  intro text
  have horderly : ∀ raw ∈ Source.lines text, Orderly raw := by decide +kernel
  obtain ⟨hlabels, hmeanings, -, -⟩ := formatted_keeps_definitions (show 0 < 8 by decide) horderly
  refine ⟨⟨by decide, horderly⟩, ?_, ?_⟩
  · rw [hlabels]
    decide +kernel
  · rw [hmeanings]
    decide +kernel

end AsmAssist.Format
