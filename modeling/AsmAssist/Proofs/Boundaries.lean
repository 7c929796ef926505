import AsmAssist.Proofs.MarkOffsets
import Mathlib.Order.MinMax

/-!
# Columns and byte offsets agree

Between two characters a text has one byte offset and one column, and each conversion takes one to the other.
Elsewhere they round in opposite directions: a column inside a surrogate pair goes to the end of the pair, a
byte offset inside a character to its start. Both cuts are prefixes of the text that are determined by an
extreme, the shortest that reaches a column and the longest that fits an offset, and all else follows from
that.
-/

namespace AsmAssist

namespace Text

/-! ## The two cuts -/

theorem takeColumns_isPrefix (column : Nat) (text : Text) : takeColumns column text <+: text := by
  fun_induction takeColumns column text with
  | case1 => exact List.nil_prefix
  | case2 => exact List.nil_prefix
  | case3 n c text ih => exact (List.prefix_cons_inj c).mpr ih

theorem le_columns_takeColumns (column : Nat) (text : Text) :
    min column (columns text) ≤ columns (takeColumns column text) := by
  fun_induction takeColumns column text with
  | case1 => omega
  | case2 => simp
  | case3 n c text ih =>
    rw [columns_cons, columns_cons]
    omega

/-- No shorter part at the head of a text reaches the column. -/
theorem takeColumns_isPrefix_of_le {column : Nat} {text before : Text} (hbefore : before <+: text)
    (h : min column (columns text) ≤ columns before) : takeColumns column text <+: before := by
  fun_induction takeColumns column text generalizing before with
  | case1 => exact List.nil_prefix
  | case2 => exact List.nil_prefix
  | case3 n c text ih =>
    have hwidth := unitWidth_pos c
    cases before with
    | nil =>
      rw [columns_cons, columns_nil] at h
      omega
    | cons d before =>
      obtain ⟨rfl, htail⟩ := List.cons_prefix_cons.mp hbefore
      rw [columns_cons, columns_cons] at h
      exact (List.prefix_cons_inj d).mpr (ih htail (by omega))

theorem takeBytes_isPrefix (offset : Nat) (text : Text) : takeBytes offset text <+: text := by
  fun_induction takeBytes offset text with
  | case1 => exact List.nil_prefix
  | case2 n c text _ ih => exact (List.prefix_cons_inj c).mpr ih
  | case3 => exact List.nil_prefix

theorem bytes_takeBytes_le (offset : Nat) (text : Text) : bytes (takeBytes offset text) ≤ offset := by
  fun_induction takeBytes offset text with
  | case1 => exact Nat.zero_le _
  | case2 n c text hfits ih =>
    rw [bytes_cons]
    omega
  | case3 => exact Nat.zero_le _

/-- No longer part at the head of a text fits the offset. -/
theorem isPrefix_takeBytes_of_le {offset : Nat} {text before : Text} (hbefore : before <+: text)
    (h : bytes before ≤ offset) : before <+: takeBytes offset text := by
  fun_induction takeBytes offset text generalizing before with
  | case1 => exact hbefore
  | case2 n c text hfits ih =>
    cases before with
    | nil => exact List.nil_prefix
    | cons d before =>
      obtain ⟨rfl, htail⟩ := List.cons_prefix_cons.mp hbefore
      rw [bytes_cons] at h
      exact (List.prefix_cons_inj d).mpr (ih htail (by omega))
  | case3 n c text hfits =>
    cases before with
    | nil => exact List.nil_prefix
    | cons d before =>
      obtain ⟨rfl, -⟩ := List.cons_prefix_cons.mp hbefore
      rw [bytes_cons] at h
      omega

theorem takeColumns_mono {column column' : Nat} (h : column ≤ column') (text : Text) :
    takeColumns column text <+: takeColumns column' text := by
  have hreach := le_columns_takeColumns column' text
  exact takeColumns_isPrefix_of_le (takeColumns_isPrefix column' text) (by omega)

theorem takeBytes_mono {offset offset' : Nat} (h : offset ≤ offset') (text : Text) :
    takeBytes offset text <+: takeBytes offset' text :=
  isPrefix_takeBytes_of_le (takeBytes_isPrefix offset text) ((bytes_takeBytes_le offset text).trans h)

/-! ## Boundaries -/

/-- The byte offset of a place between two characters, or of an end of the text. -/
def IsBoundary (text : Text) (offset : Nat) : Prop := ∃ before, before <+: text ∧ bytes before = offset

/-- The column of such a place. -/
def IsBoundaryColumn (text : Text) (column : Nat) : Prop :=
  ∃ before, before <+: text ∧ columns before = column

/-- `part` is what a text has between two places that are measured by what stands in front of them. -/
def Between (measure : Text → Nat) (text : Text) (start stop : Nat) (part : Text) : Prop :=
  ∃ before after, text = before ++ part ++ after ∧ measure before = start ∧ measure (before ++ part) = stop

theorem offsetOfColumn_columns {text before : Text} (h : before <+: text) :
    offsetOfColumn text (columns before) = bytes before := by
  rw [offsetOfColumn, takeColumns_of_isPrefix h]

theorem columnOfOffset_offsetOfColumn (text : Text) (column : Nat) :
    columnOfOffset text (offsetOfColumn text column) = columns (takeColumns column text) :=
  columnOfOffset_bytes (takeColumns_isPrefix column text)

theorem offsetOfColumn_mono (text : Text) : Monotone (offsetOfColumn text) :=
  fun _ _ h => bytes_le_of_isPrefix (takeColumns_mono h text)

theorem columnOfOffset_mono (text : Text) : Monotone (columnOfOffset text) :=
  fun _ _ h => columns_le_of_isPrefix (takeBytes_mono h text)

theorem takeColumns_isLeast (text : Text) (column : Nat) :
    IsLeast {k | IsBoundaryColumn text k ∧ min column (columns text) ≤ k}
      (columns (takeColumns column text)) := by
  refine ⟨⟨⟨_, takeColumns_isPrefix column text, rfl⟩, le_columns_takeColumns column text⟩, ?_⟩
  rintro k ⟨⟨before, hbefore, rfl⟩, hreach⟩
  exact columns_le_of_isPrefix (takeColumns_isPrefix_of_le hbefore hreach)

theorem takeBytes_isGreatest (text : Text) (offset : Nat) :
    IsGreatest {boundary | IsBoundary text boundary ∧ boundary ≤ offset}
      (bytes (takeBytes offset text)) := by
  refine ⟨⟨⟨_, takeBytes_isPrefix offset text, rfl⟩, bytes_takeBytes_le offset text⟩, ?_⟩
  rintro boundary ⟨⟨before, hbefore, rfl⟩, hfits⟩
  exact bytes_le_of_isPrefix (isPrefix_takeBytes_of_le hbefore hfits)

/-- Between two byte offsets there is at most one text. -/
theorem Between.unique {text part part' : Text} {start stop : Nat} (h : Between bytes text start stop part)
    (h' : Between bytes text start stop part') : part = part' := by
  obtain ⟨before, after, htext, rfl, rfl⟩ := h
  obtain ⟨before', after', htext', hstart, hstop⟩ := h'
  have hpart : before ++ part <+: text := ⟨after, htext.symm⟩
  have hpart' : before' ++ part' <+: text := ⟨after', htext'.symm⟩
  have hsame : before' ++ part' = before ++ part := by
    rw [← takeBytes_of_isPrefix hpart', hstop, takeBytes_of_isPrefix hpart]
  have hbefore : before' = before := by
    rw [← takeBytes_of_isPrefix ((List.prefix_append _ _).trans hpart'), hstart,
      takeBytes_of_isPrefix ((List.prefix_append _ _).trans hpart)]
  rw [hbefore] at hsame
  exact (List.append_cancel_left hsame).symm

end Text

namespace Span

open Text

/-! ## Slices -/

/-- What a span covers follows what stands in front of it. An inverted span covers nothing. -/
theorem takeColumns_append_slice (span : Span) (text : Text) :
    takeColumns span.start.character text ++ span.slice text =
      takeColumns (max span.start.character span.stop.character) text := by
  unfold slice
  rcases Nat.le_total span.start.character span.stop.character with h | h
  · rw [Nat.max_eq_right h]
    obtain ⟨rest, hrest⟩ := takeColumns_mono h text
    rw [← hrest, List.drop_left]
  · rw [Nat.max_eq_left h, List.drop_eq_nil_of_le (takeColumns_mono h text).length_le, List.append_nil]

theorem slice_between_bytes (span : Span) (text : Text) :
    Between bytes text (offsetOfColumn text span.start.character)
      (max (offsetOfColumn text span.start.character) (offsetOfColumn text span.stop.character))
      (span.slice text) := by
  have hslice := span.takeColumns_append_slice text
  obtain ⟨after, hafter⟩ := takeColumns_isPrefix (max span.start.character span.stop.character) text
  refine ⟨takeColumns span.start.character text, after, by rw [hslice, hafter], rfl, ?_⟩
  rw [hslice]
  exact (offsetOfColumn_mono text).map_max

/-- The slices of a text between neighbouring columns. -/
def slicesAt (line : Nat) (text : Text) (cuts : List Nat) : List Text :=
  List.zipWith (fun start stop => (onLine line start stop).slice text) cuts cuts.tail

theorem takeColumns_append_slicesAt (line : Nat) (text : Text) {first : Nat} {cuts : List Nat}
    (hcuts : (first :: cuts).Pairwise (· ≤ ·)) :
    takeColumns first text ++ (slicesAt line text (first :: cuts)).flatten =
      takeColumns (cuts.getLastD first) text := by
  induction cuts generalizing first with
  | nil => exact List.append_nil _
  | cons next cuts ih =>
    obtain ⟨hfirst, hrest⟩ := List.pairwise_cons.mp hcuts
    have hslice : takeColumns first text ++ (onLine line first next).slice text = takeColumns next text := by
      have h := (onLine line first next).takeColumns_append_slice text
      rwa [show max (onLine line first next).start.character (onLine line first next).stop.character = next
        from Nat.max_eq_right (hfirst next List.mem_cons_self)] at h
    calc takeColumns first text ++ (slicesAt line text (first :: next :: cuts)).flatten
        = takeColumns first text ++
            ((onLine line first next).slice text ++ (slicesAt line text (next :: cuts)).flatten) := rfl
      _ = takeColumns next text ++ (slicesAt line text (next :: cuts)).flatten := by
          rw [← List.append_assoc, hslice]
      _ = takeColumns ((next :: cuts).getLastD first) text := by
          rw [ih hrest, List.getLastD_cons]

theorem slicesAt_between_columns (line : Nat) {text : Text} {first : Nat} {cuts : List Nat}
    (hcuts : (first :: cuts).Pairwise (· ≤ ·))
    (hboundary : ∀ cut ∈ first :: cuts, IsBoundaryColumn text cut) :
    Between columns text first (cuts.getLastD first) (slicesAt line text (first :: cuts)).flatten := by
  have hexact {cut : Nat} (hcut : cut ∈ first :: cuts) : columns (takeColumns cut text) = cut := by
    obtain ⟨before, hbefore, rfl⟩ := hboundary cut hcut
    rw [takeColumns_of_isPrefix hbefore]
  have hslices := takeColumns_append_slicesAt line text hcuts
  obtain ⟨after, hafter⟩ := takeColumns_isPrefix (cuts.getLastD first) text
  refine ⟨takeColumns first text, after, by rw [hslices, hafter], hexact List.mem_cons_self, ?_⟩
  rw [hslices]
  exact hexact List.getLastD_mem_cons

end Span

/-! ## The conversions -/

open Text

/-- How the columns and the byte offsets of a text go together. -/
structure Text.Converts (text : Text) : Prop where
  offset_returns : ∀ offset, IsBoundary text offset →
    offsetOfColumn text (columnOfOffset text offset) = offset
  column_returns : ∀ column, IsBoundaryColumn text column →
    columnOfOffset text (offsetOfColumn text column) = column
  offset_boundary : ∀ column, IsBoundary text (offsetOfColumn text column)
  /-- A column is rounded up, within the text. -/
  column_least : ∀ column,
    IsLeast {k | IsBoundaryColumn text k ∧ min column (columns text) ≤ k}
      (columnOfOffset text (offsetOfColumn text column))
  /-- An offset is rounded down. -/
  offset_greatest : ∀ offset, ∃ boundary,
    IsGreatest {boundary | IsBoundary text boundary ∧ boundary ≤ offset} boundary ∧
      columnOfOffset text offset = columnOfOffset text boundary
  offset_mono : Monotone (offsetOfColumn text)
  column_mono : Monotone (columnOfOffset text)
  /-- Whatever the span, its slice stands between two offsets of the text. -/
  slice_iff : ∀ (span : Span) (part : Text),
    Between bytes text (offsetOfColumn text span.start.character)
        (max (offsetOfColumn text span.start.character) (offsetOfColumn text span.stop.character)) part ↔
      part = span.slice text
  slices_join : ∀ (line first : Nat) (cuts : List Nat), (first :: cuts).Pairwise (· ≤ ·) →
    (∀ cut ∈ first :: cuts, IsBoundaryColumn text cut) →
    Between columns text first (cuts.getLastD first) (Span.slicesAt line text (first :: cuts)).flatten

theorem Text.columns_offsets_convert (text : Text) : Converts text := by
  constructor
  case offset_returns =>
    rintro _ ⟨before, hbefore, rfl⟩
    rw [columnOfOffset_bytes hbefore, offsetOfColumn_columns hbefore]
  case column_returns =>
    rintro _ ⟨before, hbefore, rfl⟩
    rw [offsetOfColumn_columns hbefore, columnOfOffset_bytes hbefore]
  case offset_boundary => exact fun column => ⟨_, takeColumns_isPrefix column text, rfl⟩
  case column_least =>
    intro column
    rw [columnOfOffset_offsetOfColumn]
    exact takeColumns_isLeast text column
  case offset_greatest =>
    intro offset
    refine ⟨_, takeBytes_isGreatest text offset, ?_⟩
    rw [columnOfOffset_bytes (takeBytes_isPrefix offset text)]
    rfl
  case offset_mono => exact offsetOfColumn_mono text
  case column_mono => exact columnOfOffset_mono text
  case slice_iff =>
    intro span part
    have hslice := span.slice_between_bytes text
    constructor
    · intro hpart
      exact hpart.unique hslice
    · rintro rfl
      exact hslice
  case slices_join => exact fun line _ _ => Span.slicesAt_between_columns line

end AsmAssist
