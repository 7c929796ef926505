import AsmAssist.Proofs.Formatting

/-!
# Formatting moves text and changes none

An edit of the formatter takes blanks of one line away and puts spaces there, possibly behind a line feed. A
line takes two edits at most, one in front of its label and one behind it. So the visible characters of a
document are the same after formatting, in the same order.
-/

namespace AsmAssist

open Text

/-- The characters of a text that are not blank. -/
def Text.ink (s : Text) : Text := s.filter (!isBlank ·)

theorem Text.ink_append (s t : Text) : ink (s ++ t) = ink s ++ ink t := List.filter_append ..

theorem Text.ink_eq_nil_of_blank {s : Text} (h : isAllBlank s = true) : ink s = [] := by
  apply List.filter_eq_nil_iff.mpr
  intro c hc
  simp [isAllBlank_iff.mp h c hc]

theorem Text.ink_trimEnd (s : Text) : ink (trimEnd s) = ink s := by
  have h := ink_append (trimEnd s) (trailing s)
  rw [trimEnd_append_trailing, ink_eq_nil_of_blank (isAllBlank_trailing s), List.append_nil] at h
  exact h.symm

namespace Format

open Reading
open Line (classify)

/-- Spaces, possibly on a new line. -/
def IsSpacing (s : Text) : Prop := ∃ n, s = spaces n ∨ s = '\n' :: spaces n

/-- The edit lies inside one line and puts other spacing in the place of blanks. -/
structure Edit.Respaces (raw : Text) (number : Nat) (e : Edit) : Prop where
  on_line : e.span.start.line = number ∧ e.span.stop.line = number
  forward : e.span.start.character ≤ e.span.stop.character
  inside : e.span.stop.character ≤ columns raw
  replaced : isAllBlank (e.span.slice raw) = true
  spacing : IsSpacing e.text
  changes : e.text ≠ e.span.slice raw

/-- The edit ends in front of the other, and a visible character stands between the two. -/
def Edit.Leaves (raw : Text) (e f : Edit) : Prop :=
  e.span.stop.character ≤ f.span.start.character ∧
    ink ((Span.onLine e.span.stop.line e.span.stop.character f.span.start.character).slice raw) ≠ []

def Edit.Apart (raw : Text) (e f : Edit) : Prop := e.Leaves raw f ∨ f.Leaves raw e

def onLine (edits : List Edit) (number : Nat) : List Edit :=
  edits.filter (·.span.start.line = number)

/-- Edits of a document that respace its lines, two on a line at most and these apart. -/
structure RespacesOnly (source : List Text) (edits : List Edit) : Prop where
  respaces : ∀ e ∈ edits, ∃ raw, source[e.span.start.line]? = some raw ∧
    e.Respaces raw e.span.start.line
  few : ∀ number, (onLine edits number).length ≤ 2
  apart : ∀ number raw, source[number]? = some raw →
    (onLine edits number).Pairwise (Edit.Apart raw)

/-! ## The edits of one line -/

theorem isSpacing_spaces (n : Nat) : IsSpacing (spaces n) := ⟨n, .inl rfl⟩

theorem isSpacing_nil : IsSpacing [] := isSpacing_spaces 0

theorem isSpacing_labelSpacing (margin column : Nat) : IsSpacing (labelSpacing margin column) := by
  unfold labelSpacing
  split
  · exact isSpacing_spaces _
  · exact ⟨margin, .inr rfl⟩

theorem IsSpacing.isAllBlank {s : Text} (h : IsSpacing s) : isAllBlank s = true := by
  obtain ⟨n, rfl | rfl⟩ := h
  · exact isAllBlank_spaces n
  · rw [isAllBlank_cons, isAllBlank_spaces n]
    decide

/-- Putting other spacing in the place of a blank part of a line. -/
theorem respaces_over {raw before old new : Text} (hp : before ++ old <+: raw)
    (hold : isAllBlank old = true) (hnew : IsSpacing new) (hne : new ≠ old) (number : Nat) :
    Edit.Respaces raw number ⟨.over number before old, new⟩ where
  on_line := ⟨rfl, rfl⟩
  forward := Nat.le_add_right _ _
  inside := by
    have hle := columns_le_of_isPrefix hp
    rwa [← Span.stop_over number before old] at hle
  replaced := by
    rw [Span.slice_over hp]
    exact hold
  spacing := hnew
  changes := by
    rw [Span.slice_over hp]
    exact hne

theorem respaces_of_mem_replace {raw before old new : Text} (hp : before ++ old <+: raw)
    (hold : isAllBlank old = true) (hnew : IsSpacing new) {number : Nat} {e : Edit}
    (he : e ∈ replace raw (.over number before old) new) : e.Respaces raw number := by
  rw [replace, Span.slice_over hp] at he
  split at he
  · cases he
  · rename_i hne
    rw [List.mem_singleton.mp he]
    exact respaces_over hp hold hnew (fun h => hne h.symm) number

theorem length_replace_le (raw : Text) (span : Span) (text : Text) :
    (replace raw span text).length ≤ 1 := by
  rw [replace]
  split
  · exact Nat.zero_le 1
  · exact Nat.le_refl 1

section

variable {w s : Text}

theorem view_edits_respace (hw : isAllBlank w = true) {v : View}
    (hv : ∀ before rest, v = .coded before rest → s = before ++ rest) (margin number : Nat) :
    ∀ e ∈ v.edits margin number w s, e.Respaces (w ++ s) number := by
  have hlead : [] ++ w <+: w ++ s := List.prefix_append w s
  intro e he
  cases v with
  | plain => exact respaces_of_mem_replace hlead hw (isSpacing_spaces margin) he
  | named => exact respaces_of_mem_replace hlead hw isSpacing_nil he
  | coded before rest =>
    have hgap : w ++ trimEnd before ++ trailing before <+: w ++ s := by
      rw [List.append_assoc, trimEnd_append_trailing, hv before rest rfl,
        List.prefix_append_right_inj]
      exact List.prefix_append before rest
    rcases List.mem_append.mp he with he | he
    · exact respaces_of_mem_replace hgap (isAllBlank_trailing before)
        (isSpacing_labelSpacing margin _) he
    · exact respaces_of_mem_replace hlead hw isSpacing_nil he

theorem length_view_edits_le (v : View) (margin number : Nat) (w s : Text) :
    (v.edits margin number w s).length ≤ 2 := by
  cases v with
  | plain => exact Nat.le_succ_of_le (length_replace_le _ _ _)
  | named => exact Nat.le_succ_of_le (length_replace_le _ _ _)
  | coded before rest =>
    rw [View.edits, List.length_append]
    exact Nat.add_le_add (length_replace_le _ _ _) (length_replace_le _ _ _)

/-- The text of the label stands between the indentation and the gap. -/
theorem view_edits_apart (hs : OpensVisible s) {v : View}
    (hv : ∀ before rest, v = .coded before rest → before ≠ [] ∧ s = before ++ rest)
    (margin number : Nat) : (v.edits margin number w s).Pairwise (Edit.Apart (w ++ s)) := by
  cases v with
  | plain => exact replace_pairwise _ _ _ _
  | named => exact replace_pairwise _ _ _ _
  | coded before rest =>
    obtain ⟨hne, hbody⟩ := hv before rest rfl
    refine List.pairwise_append.mpr ⟨replace_pairwise _ _ _ _, replace_pairwise _ _ _ _, ?_⟩
    intro e he f hf
    have hbetween : Span.onLine number (Span.over number [] w).stop.character
        (Span.over number (w ++ trimEnd before) (trailing before)).start.character =
          .over number w (trimEnd before) := by
      simp [Span.over, Token.after, Span.onLine]
    have hlabel : w ++ trimEnd before <+: w ++ s := by
      rw [hbody, List.prefix_append_right_inj]
      exact (trimEnd_isPrefix before).trans (List.prefix_append before rest)
    obtain ⟨c, t, hc, hvisible⟩ := opensVisible_trimEnd (hbody ▸ hs) hne
    right
    rw [Edit.Leaves, mem_replace he, mem_replace hf]
    constructor
    · simp [Span.over, Token.after, Span.onLine]
    · rw [show (Span.over number [] w).stop.line = number from rfl, hbetween, Span.slice_over hlabel,
        hc, ink, List.filter_cons_of_pos (by simp [hvisible])]
      exact List.cons_ne_nil _ _

end

theorem lineEdits_respace {raw : Text} (hn : '\n' ∉ raw) (margin number : Nat) :
    (∀ e ∈ lineEdits margin (classify raw number), e.Respaces raw number) ∧
      (lineEdits margin (classify raw number)).length ≤ 2 ∧
      (lineEdits margin (classify raw number)).Pairwise (Edit.Apart raw) := by
  rcases visible_cases raw with hb | ⟨w, s, rfl, hw, hs⟩
  · rw [lineEdits_of_blank hb]
    split
    · exact ⟨by simp, by simp, .nil⟩
    · rename_i hne
      refine ⟨?_, by simp, List.pairwise_singleton _ _⟩
      intro e he
      rw [List.mem_singleton.mp he]
      have hwhole : [] ++ raw <+: raw := List.prefix_refl raw
      exact respaces_over hwhole hb isSpacing_nil (fun h => hne h.symm) number
  · rw [lineEdits_eq hw hs hn]
    refine ⟨view_edits_respace hw ?_ margin number, length_view_edits_le _ _ _ _ _,
      view_edits_apart hs ?_ margin number⟩
    · intro before rest hv
      exact (view_coded hv).2.2.1
    · intro before rest hv
      exact ⟨(view_coded hv).2.1, (view_coded hv).2.2.1⟩

/-! ## The visible characters of a document -/

theorem ink_shape (margin : Nat) (raw : Text) : ink (shape margin raw) = ink raw := by
  rcases visible_cases raw with hb | ⟨w, s, rfl, hw, hs⟩
  · rw [shape_of_blank hb, ink_eq_nil_of_blank hb]
    rfl
  · have hspacing {t : Text} (h : IsSpacing t) : ink t = [] := ink_eq_nil_of_blank h.isAllBlank
    rw [shape_eq hw hs, ink_append w, ink_eq_nil_of_blank hw, List.nil_append]
    cases hv : view (isMargined w s) s with
    | plain => rw [View.shape, ink_append, hspacing (isSpacing_spaces margin), List.nil_append]
    | named => rfl
    | coded before rest =>
      rw [View.shape, ink_append, ink_append, hspacing (isSpacing_labelSpacing margin _), ink_trimEnd,
        List.append_nil, (view_coded hv).2.2.1, ink_append]

theorem ink_formatted (margin : Nat) (text : Text) : ink (formatted margin text) = ink text := by
  have hpieces : ∀ f : Text → Text, ink ((Source.pieces text).flatMap fun p => f p.line ++ p.brk) =
      (Source.pieces text).flatMap fun p => ink (f p.line) ++ ink p.brk := by
    intro f
    rw [ink, List.filter_flatMap]
    congr 1
    funext p
    exact ink_append _ _
  calc
    ink (formatted margin text)
      = (Source.pieces text).flatMap fun p => ink (shape margin p.line) ++ ink p.brk := by
        rw [formatted_eq, hpieces]
    _ = (Source.pieces text).flatMap fun p => ink p.line ++ ink p.brk := by simp only [ink_shape]
    _ = ink text := by rw [← hpieces fun line => line, Source.flatMap_pieces]

/-! ## Whole documents -/

/-- The edits on a line of a document are those of the line. -/
theorem onLine_edits {text : Text} {number : Nat} {raw : Text}
    (h : (Source.lines text)[number]? = some raw) (margin : Nat) :
    onLine (edits (indexOf text) margin) number = lineEdits margin (classify raw number) := by
  rw [onLine, edits_indexOf]
  apply filter_zipIdx
  · intro x hx k
    exact lineEdits_line (Source.lines_unbroken hx).1
  · exact List.mem_zipIdx_iff_getElem?.mpr h

/-- The edits that format a document respace its lines and touch nothing else, so what is left of the document
without its blanks is the same before and after. -/
theorem edits_respace_only (margin : Nat) (text : Text) :
    RespacesOnly (Source.lines text) (edits (indexOf text) margin) ∧
      ink (formatted margin text) = ink text := by
  have hunbroken {raw : Text} {number : Nat} (h : (Source.lines text)[number]? = some raw) :
      '\n' ∉ raw := (Source.lines_unbroken (List.mem_of_getElem? h)).1
  have hplace : ∀ e ∈ edits (indexOf text) margin, ∃ raw,
      (Source.lines text)[e.span.start.line]? = some raw ∧ e.Respaces raw e.span.start.line := by
    intro e he
    rw [edits_indexOf] at he
    obtain ⟨⟨raw, number⟩, hm, he⟩ := List.mem_flatMap.mp he
    have hraw := List.mem_zipIdx_iff_getElem?.mp hm
    have hr := (lineEdits_respace (hunbroken hraw) margin number).1 e he
    rw [hr.on_line.1]
    exact ⟨raw, hraw, hr⟩
  refine ⟨⟨hplace, ?_, ?_⟩, ink_formatted margin text⟩
  · intro number
    cases h : (Source.lines text)[number]? with
    | some raw =>
      rw [onLine_edits h]
      exact (lineEdits_respace (hunbroken h) margin number).2.1
    | none =>
      have hnone : onLine (edits (indexOf text) margin) number = [] := by
        apply List.filter_eq_nil_iff.mpr
        intro e he
        obtain ⟨raw, hraw, -⟩ := hplace e he
        simp only [decide_eq_true_eq]
        rintro rfl
        rw [h] at hraw
        cases hraw
      rw [hnone]
      exact Nat.zero_le 2
  · intro number raw h
    rw [onLine_edits h]
    exact (lineEdits_respace (hunbroken h) margin number).2.2

end Format

end AsmAssist
