import AsmAssist.Format
import AsmAssist.Proofs.Anatomy
import AsmAssist.Proofs.Assignment
import AsmAssist.Proofs.Source

/-!
# What formatting makes of a line

Behind its indentation a line is, to the formatter, one of three: a line without label, a label alone, or a
label in front of an instruction. This view fixes the shape of the line. Applied to the line, its edits give
that shape, and there are none exactly if the line has it.
-/

namespace AsmAssist.Format

open Text Reading
open Line (classify)

/-! ## Views -/

inductive View
  /-- No label. -/
  | plain
  /-- A label without instruction. -/
  | named
  /-- A label and an instruction, with the text in front of the mnemonic and the text from there on. -/
  | coded (before rest : Text)
  deriving DecidableEq, Repr

/-- How a body is seen, whose first word is a margin token or not. -/
def view (margined : Bool) (body : Text) : View :=
  if Assignment.assigns (code body) then .plain
  else
    match bodyParts? margined body with
    | some p => if p.before = [] then .plain else .coded p.before (body.drop p.before.length)
    | none => if colonText? body none = none then .plain else .named

def View.shape (margin : Nat) (body : Text) : View → Text
  | .plain => spaces margin ++ body
  | .named => body
  | .coded before rest => trimEnd before ++ labelSpacing margin (columns (trimEnd before)) ++ rest

/-- The text that formatting makes of a line; an instruction that its label pushes away stands on a line of
its own. -/
def shape (margin : Nat) (raw : Text) : Text :=
  let body := raw.dropWhile isBlank
  if body = [] then [] else (view (isMargined (raw.takeWhile isBlank) body) body).shape margin body

/-- What the view says about the line itself. -/
def View.Describes (number : Nat) (lead : Text) (l : Line) : View → Prop
  | .plain => l.label? = none
  | .named => l.label?.isSome = true ∧ l.instruction? = none
  | .coded before _ =>
    l.label?.isSome = true ∧ l.instruction?.isSome = true ∧
      l.layout.labelGap = .over number (lead ++ trimEnd before) (trailing before)

theorem isAllBlank_spaces (n : Nat) : isAllBlank (spaces n) = true := by
  rw [isAllBlank_iff]
  intro c hc
  rw [List.eq_of_mem_replicate hc]
  decide

theorem view_of_assigns {body : Text} (h : Assignment.assigns (code body) = true) (margined : Bool) :
    view margined body = .plain := by
  rw [view, if_pos h]

theorem view_of_parts {margined : Bool} {body : Text} {p : Instruction.Parts}
    (ha : Assignment.assigns (code body) = false) (h : bodyParts? margined body = some p) :
    view margined body =
      if p.before = [] then .plain else .coded p.before (body.drop p.before.length) := by
  simp [view, ha, h]

theorem view_of_none {margined : Bool} {body : Text}
    (ha : Assignment.assigns (code body) = false) (h : bodyParts? margined body = none) :
    view margined body = if colonText? body none = none then .plain else .named := by
  simp [view, ha, h]

/-- A body seen with an instruction is cut in front of it. -/
theorem view_coded {margined : Bool} {body before rest : Text}
    (h : view margined body = .coded before rest) :
    Assignment.assigns (code body) = false ∧ before ≠ [] ∧ body = before ++ rest ∧
      ∃ p, bodyParts? margined body = some p ∧ p.before = before := by
  cases ha : Assignment.assigns (code body) with
  | true =>
    rw [view_of_assigns ha] at h
    cases h
  | false =>
    cases hp : bodyParts? margined body with
    | none =>
      rw [view_of_none ha hp] at h
      split at h <;> cases h
    | some p =>
      rw [view_of_parts ha hp] at h
      split at h
      · cases h
      · rename_i hne
        obtain ⟨rfl, rfl⟩ := View.coded.inj h
        obtain ⟨r, hr⟩ := (bodyParts?_cut hp).before_isPrefix
        refine ⟨rfl, hne, ?_, p, rfl, rfl⟩
        rw [drop_of_eq_append hr.symm, hr]

theorem view_comment (margined : Bool) (s : Text) : view margined (commentMark :: s) = .plain := by
  have hcode := code_comment s
  have ha : Assignment.assigns (code (commentMark :: s)) = false := by
    rw [hcode]
    rfl
  have hseek : Instruction.seek? [] = none := Instruction.seek?_eq_none_iff.mpr (by simp)
  have hp : bodyParts? margined (commentMark :: s) = none := by
    cases margined with
    | false => rw [bodyParts?_false, hcode, trimEnd_nil, hseek]
    | true => rw [bodyParts?_true, hcode, trimEnd_nil, List.dropWhile_nil, hseek, Option.map_none]
  rw [view_of_none ha hp, if_pos (colonText?_comment s none)]

theorem view_describes_parts {w s : Text} (hw : isAllBlank w = true) (hs : OpensCode s) {number : Nat}
    (hr : Assignment.read? (w ++ code s) number = none)
    (ha : Assignment.assigns (code s) = false) :
    (view (isMargined w s) s).Describes number w (classify (w ++ s) number) := by
  cases hp : bodyParts? (isMargined w s) s with
  | none =>
    obtain ⟨hk, -⟩ := Anatomy.body_dissects hw hs hr hp
    rw [view_of_none ha hp]
    cases hc : colonText? s none with
    | none =>
      rw [if_pos rfl]
      simp [View.Describes, Line.label?, hk, hc, bodyKind]
    | some before =>
      rw [if_neg (Option.some_ne_none before)]
      simp [View.Describes, Line.label?, Line.instruction?, hk, hc, bodyKind]
  | some p =>
    obtain ⟨hk, g, c, t, a, rfl, hd, -⟩ := Anatomy.body_dissects hw hs hr hp
    rw [view_of_parts ha hp]
    by_cases hb : p.before = []
    · have hc : colonText? s (some p) = none := by
        cases hc : colonText? s (some p) with
        | none => rfl
        | some before =>
          have hlt := (colonText?_eq_some hc).2.2.2 p rfl
          rw [hb] at hlt
          exact absurd hlt (Nat.not_lt_zero _)
      rw [if_pos hb]
      simp [View.Describes, Line.label?, hk, hc, bodyKind, Instruction.Parts.label?, hb]
    · rw [if_neg hb]
      obtain ⟨hr', hn⟩ := classify_number (w ++ s) number
      have hgap : (classify (w ++ s) number).layout.labelGap =
          .over number (w ++ trimEnd p.before) (trailing p.before) := by
        rw [hd.layout_eq, hn]
        cases hc : colonText? s (some p) with
        | none => simp [Anatomy.layout, Anatomy.beforeLabelGap, Anatomy.ofBody, Anatomy.ofParts]
        | some before =>
          obtain ⟨⟨rest, hcut⟩, -, -, hlt⟩ := colonText?_eq_some hc
          obtain ⟨⟨link, hlink⟩, -⟩ :=
            Anatomy.colon_link hw hcut (bodyParts?_cut hp).before_isPrefix (hlt p rfl)
          have hdrop := drop_of_eq_append hlink.symm
          simp [Anatomy.layout, Anatomy.beforeLabelGap, Anatomy.ofBody, Anatomy.ofParts, hdrop, hlink]
      cases hc : colonText? s (some p) with
      | none =>
        refine ⟨?_, ?_, hgap⟩
        · simp [Line.label?, hk, hc, bodyKind, Instruction.Parts.label?, hb]
        · simp [Line.instruction?, hk, hc, bodyKind]
      | some before =>
        refine ⟨?_, ?_, hgap⟩
        · simp [Line.label?, hk, hc, bodyKind]
        · simp [Line.instruction?, hk, hc, bodyKind]

theorem read?_isSome {w s : Text} (hw : isAllBlank w = true) (hn : '\n' ∉ w ++ s) (number : Nat) :
    (Assignment.read? (w ++ code s) number).isSome = Assignment.assigns (code s) := by
  have hcode : '\n' ∉ w ++ code s := by
    intro hm
    apply hn
    rcases List.mem_append.mp hm with hm | hm
    · exact List.mem_append_left _ hm
    · exact List.mem_append_right _ ((code_isPrefix s).subset hm)
  rw [Assignment.read?_isSome hcode, Assignment.assigns_blank_append hw]

theorem view_describes {w s : Text} (hw : isAllBlank w = true) (hs : OpensVisible s)
    (hn : '\n' ∉ w ++ s) (number : Nat) :
    (view (isMargined w s) s).Describes number w (classify (w ++ s) number) := by
  have hassigns := read?_isSome hw hn number
  rcases comment_or_code hs with ⟨t, rfl⟩ | hopens
  · rw [view_comment, classify_comment hw]
    exact rfl
  · cases hr : Assignment.read? (w ++ code s) number with
    | none =>
      rw [hr] at hassigns
      exact view_describes_parts hw hopens hr hassigns.symm
    | some a =>
      rw [hr] at hassigns
      rw [view_of_assigns hassigns.symm, classify_code hw hopens]
      simp [View.Describes, Line.label?, Line.codeKind, hr]

/-- A label in front of an instruction is a label with colon exactly if the colon was read. -/
theorem isLabel_coded {w s before rest : Text} (hw : isAllBlank w = true) (hs : OpensVisible s)
    (hn : '\n' ∉ w ++ s) (h : view (isMargined w s) s = .coded before rest) {p : Instruction.Parts}
    (hp : bodyParts? (isMargined w s) s = some p) (number : Nat) :
    (classify (w ++ s) number).isLabel = (colonText? s (some p)).isSome := by
  have hassigns := read?_isSome hw hn number
  rw [(view_coded h).1] at hassigns
  have hopens : OpensCode s := by
    rcases comment_or_code hs with ⟨t, rfl⟩ | hopens
    · rw [view_comment] at h
      cases h
    · exact hopens
  have hr : Assignment.read? (w ++ code s) number = none := by
    simpa using hassigns
  obtain ⟨hk, -⟩ := Anatomy.body_dissects hw hopens hr hp
  cases hc : colonText? s (some p) <;> simp [Line.isLabel, hk, hc, bodyKind]

/-! ## The edits of a line -/

/-- The edits that bring a line into the shape of its view. -/
def View.edits (margin number : Nat) (lead body : Text) : View → List Edit
  | .plain => replace (lead ++ body) (.over number [] lead) (spaces margin)
  | .named => replace (lead ++ body) (.over number [] lead) []
  | .coded before _ =>
    replace (lead ++ body) (.over number (lead ++ trimEnd before) (trailing before))
        (labelSpacing margin (columns (trimEnd before))) ++
      replace (lead ++ body) (.over number [] lead) []

theorem layout_leading {w s : Text} (hw : isAllBlank w = true) (hs : OpensVisible s) (number : Nat) :
    (classify (w ++ s) number).layout.leading = .over number [] w := by
  obtain ⟨hraw, hnumber⟩ := classify_number (w ++ s) number
  have hwidth : (classify (w ++ s) number).leadingWidth = columns w := by
    have h := Anatomy.leadingWidth_eq hw hs number (classify (w ++ s) number).kind none
    rwa [Line.leadingWidth, Line.isBlank, ← hraw] at h
  show Span.onLine _ 0 _ = _
  rw [hwidth, hnumber]
  simp [Span.over, Token.after]

theorem lineEdits_eq {w s : Text} (hw : isAllBlank w = true) (hs : OpensVisible s)
    (hn : '\n' ∉ w ++ s) (margin number : Nat) :
    lineEdits margin (classify (w ++ s) number) =
      (view (isMargined w s) s).edits margin number w s := by
  have hdescribes := view_describes hw hs hn number
  have hleading := layout_leading hw hs number
  obtain ⟨hraw, -⟩ := classify_number (w ++ s) number
  have hne : (classify (w ++ s) number).raw ≠ [] ∧ (classify (w ++ s) number).isBlank = false := by
    obtain ⟨c, t, rfl, hb⟩ := hs
    simp [Line.isBlank, hraw, hb]
  rw [lineEdits, if_neg hne.1, hne.2, hraw, hleading]
  cases hv : view (isMargined w s) s with
  | plain =>
    rw [hv] at hdescribes
    simp [View.edits, show Line.label? _ = none from hdescribes]
  | named =>
    rw [hv] at hdescribes
    obtain ⟨hl, hi⟩ := hdescribes
    obtain ⟨label, hlabel⟩ := Option.isSome_iff_exists.mp hl
    simp [View.edits, hlabel, hi]
  | coded before rest =>
    rw [hv] at hdescribes
    obtain ⟨hl, hi, hgap⟩ := hdescribes
    obtain ⟨label, hlabel⟩ := Option.isSome_iff_exists.mp hl
    have hcolumn : (Span.over number (w ++ trimEnd before) (trailing before)).start.character -
        (Span.over number [] w).width = columns (trimEnd before) := by
      simp [Span.over, Token.after, Span.onLine, Span.width]
    simp [View.edits, hlabel, hi, hgap, hcolumn]

/-! ## Applying edits -/

/-- Puts the text of the edit in the place of what stands under its columns. -/
def Edit.applyTo (raw : Text) (e : Edit) : Text :=
  takeColumns e.span.start.character raw ++ e.text ++
    raw.drop (takeColumns e.span.stop.character raw).length

/-- Applies the edits of one line, the last one first, so that the columns of the others stay valid. -/
def applyToLine (edits : List Edit) (raw : Text) : Text :=
  (edits.mergeSort fun e f => f.span.start.character ≤ e.span.start.character).foldl Edit.applyTo raw

/-- Applies edits that lie on single lines to a text. -/
def apply (edits : List Edit) (text : Text) : Text :=
  (Source.pieces text).zipIdx.flatMap fun (piece, number) =>
    applyToLine (edits.filter (·.span.start.line = number)) piece.line ++ piece.brk

theorem applyTo_over (number : Nat) (before old new after : Text) :
    Edit.applyTo (before ++ old ++ after) ⟨.over number before old, new⟩ = before ++ new ++ after := by
  have hstart : takeColumns (columns before) (before ++ old ++ after) = before :=
    takeColumns_of_isPrefix ⟨old ++ after, by simp⟩
  have hstop : takeColumns (columns before + columns old) (before ++ old ++ after) = before ++ old := by
    rw [← columns_append, takeColumns_columns]
  simp only [Edit.applyTo, Span.over, Token.after, Span.onLine, hstart, hstop, List.drop_left]

/-- Replacing a part gives the text with that part replaced, whether or not it takes an edit. -/
theorem foldl_replace {raw before old : Text} (h : before ++ old <+: raw) (number : Nat)
    (new after : Text) :
    (replace raw (.over number before old) new).foldl Edit.applyTo (before ++ old ++ after) =
      before ++ new ++ after := by
  rw [replace, Span.slice_over h]
  split
  · rename_i he
    rw [he]
    rfl
  · exact applyTo_over number before old new after

theorem mem_replace {raw : Text} {span : Span} {text : Text} {e : Edit}
    (h : e ∈ replace raw span text) : e.span = span := by
  rw [replace] at h
  split at h
  · cases h
  · rw [List.mem_singleton.mp h]

theorem replace_pairwise (raw : Text) (span : Span) (text : Text) (r : Edit → Edit → Prop) :
    (replace raw span text).Pairwise r := by
  rw [replace]
  split
  · exact .nil
  · exact List.pairwise_singleton r _

/-- Edits that already come last first are applied as they come. -/
theorem applyToLine_of_pairwise {edits : List Edit}
    (h : edits.Pairwise fun e f => f.span.start.character ≤ e.span.start.character) (raw : Text) :
    applyToLine edits raw = edits.foldl Edit.applyTo raw := by
  rw [applyToLine, List.mergeSort_of_pairwise]
  simpa using h

theorem view_edits_shape {w s : Text} {v : View}
    (hv : ∀ before rest, v = .coded before rest → s = before ++ rest) (margin number : Nat) :
    applyToLine (v.edits margin number w s) (w ++ s) = v.shape margin s := by
  have hw : [] ++ w <+: w ++ s := List.prefix_append w s
  cases v with
  | plain =>
    rw [View.edits, applyToLine_of_pairwise (replace_pairwise _ _ _ _)]
    exact foldl_replace hw number (spaces margin) s
  | named =>
    rw [View.edits, applyToLine_of_pairwise (replace_pairwise _ _ _ _)]
    exact foldl_replace hw number [] s
  | coded before rest =>
    have hbefore := trimEnd_append_trailing before
    have hs := hv before rest rfl
    have htext : w ++ s = w ++ trimEnd before ++ trailing before ++ rest := by
      rw [hs, List.append_assoc w, hbefore, List.append_assoc]
    have hgap : w ++ trimEnd before ++ trailing before <+: w ++ s := ⟨rest, htext.symm⟩
    rw [applyToLine_of_pairwise]
    · rw [View.edits, List.foldl_append]
      have hfirst := foldl_replace hgap number (labelSpacing margin (columns (trimEnd before))) rest
      rw [← htext] at hfirst
      rw [hfirst]
      have hsecond := foldl_replace hw number []
        (trimEnd before ++ labelSpacing margin (columns (trimEnd before)) ++ rest)
      simpa [View.shape] using hsecond
    · refine List.pairwise_append.mpr ⟨replace_pairwise _ _ _ _, replace_pairwise _ _ _ _, ?_⟩
      intro e he f hf
      rw [mem_replace he, mem_replace hf]
      exact Nat.zero_le _

/-! ## Lines in shape -/

theorem shape_of_blank {raw : Text} (h : isAllBlank raw = true) (margin : Nat) :
    shape margin raw = [] := by
  simp [shape, dropWhile_isBlank_of_blank h]

theorem shape_eq {w s : Text} (hw : isAllBlank w = true) (hs : OpensVisible s) (margin : Nat) :
    shape margin (w ++ s) = (view (isMargined w s) s).shape margin s := by
  simp [shape, takeWhile_isBlank_append hw hs, dropWhile_isBlank_append hw hs, hs.ne_nil]

theorem lineEdits_of_blank {raw : Text} (h : isAllBlank raw = true) (margin number : Nat) :
    lineEdits margin (classify raw number) =
      if raw = [] then [] else [⟨.over number [] raw, []⟩] := by
  rw [classify_blank h]
  simp [lineEdits, Line.isBlank, h, Line.span, Span.over, Token.after]

theorem applyToLine_lineEdits {raw : Text} (hn : '\n' ∉ raw) (margin number : Nat) :
    applyToLine (lineEdits margin (classify raw number)) raw = shape margin raw := by
  rcases visible_cases raw with h | ⟨w, s, rfl, hw, hs⟩
  · rw [shape_of_blank h, lineEdits_of_blank h]
    split
    · rename_i hnil
      rw [applyToLine_of_pairwise .nil, hnil]
      rfl
    · rw [applyToLine_of_pairwise (List.pairwise_singleton _ _)]
      have happly := applyTo_over number [] raw [] []
      rwa [List.nil_append, List.append_nil] at happly
  · rw [shape_eq hw hs, lineEdits_eq hw hs hn]
    apply view_edits_shape
    intro before rest hv
    exact (view_coded hv).2.2.1

theorem replace_eq_nil_iff {raw before old : Text} (h : before ++ old <+: raw) (number : Nat)
    (new : Text) : replace raw (.over number before old) new = [] ↔ old = new := by
  rw [replace, Span.slice_over h]
  split
  · rename_i he
    exact ⟨fun _ => he, fun _ => rfl⟩
  · rename_i he
    exact ⟨fun hnil => (by cases hnil), fun hnew => absurd hnew he⟩

/-- The text in front of a mnemonic opens as its line does. -/
theorem opensVisible_trimEnd {before rest : Text} (hs : OpensVisible (before ++ rest))
    (hb : before ≠ []) : OpensVisible (trimEnd before) := by
  obtain ⟨c, t, rfl⟩ := List.exists_cons_of_ne_nil hb
  obtain ⟨d, u, he, hd⟩ := hs
  obtain rfl : c = d := (List.cons.inj he).1
  exact ⟨c, trimEnd t, trimEnd_cons_of_visible hd t, hd⟩

/-- A line takes no edit exactly if it has its shape. -/
theorem lineEdits_eq_nil_iff {raw : Text} (hn : '\n' ∉ raw) (margin number : Nat) :
    lineEdits margin (classify raw number) = [] ↔ shape margin raw = raw := by
  rcases visible_cases raw with h | ⟨w, s, rfl, hw, hs⟩
  · rw [shape_of_blank h, lineEdits_of_blank h]
    split
    · rename_i hnil
      exact ⟨fun _ => hnil.symm, fun _ => rfl⟩
    · rename_i hne
      exact ⟨fun hnil => (by cases hnil), fun he => absurd he.symm hne⟩
  · have hlead : [] ++ w <+: w ++ s := List.prefix_append w s
    rw [shape_eq hw hs, lineEdits_eq hw hs hn]
    cases hv : view (isMargined w s) s with
    | plain =>
      rw [View.edits, replace_eq_nil_iff hlead, View.shape]
      exact ⟨fun he => by rw [he], fun he => (List.append_cancel_right he).symm⟩
    | named =>
      rw [View.edits, replace_eq_nil_iff hlead, View.shape]
      exact ⟨fun he => by rw [he, List.nil_append], fun he => by simpa using he⟩
    | coded before rest =>
      obtain ⟨-, hb, hbody, -⟩ := view_coded hv
      have htext : w ++ s = w ++ trimEnd before ++ trailing before ++ rest := by
        rw [hbody, List.append_assoc w, trimEnd_append_trailing, List.append_assoc]
      have hgap : w ++ trimEnd before ++ trailing before <+: w ++ s := ⟨rest, htext.symm⟩
      rw [View.edits, List.append_eq_nil_iff, replace_eq_nil_iff hgap, replace_eq_nil_iff hlead,
        View.shape, htext]
      constructor
      · rintro ⟨hspacing, rfl⟩
        rw [← hspacing, List.nil_append]
      · intro he
        -- the shape opens visibly, so there is no indentation
        obtain ⟨c, t, hc, hvisible⟩ := opensVisible_trimEnd (hbody ▸ hs) hb
        have hwnil : w = [] := by
          cases w with
          | nil => rfl
          | cons d w =>
            rw [hc] at he
            obtain rfl : c = d := (List.cons.inj he).1
            rw [isAllBlank_iff.mp hw c (by simp)] at hvisible
            cases hvisible
        rw [hwnil, List.nil_append] at he
        exact ⟨(List.append_cancel_left (List.append_cancel_right he)).symm, hwnil⟩

/-! ## Whole texts -/

theorem scan_never {α : Type} (asked : Nat) (xs : List α) :
    Poll.never.scan asked xs = (xs, false) := by
  induction xs generalizing asked with
  | nil => rfl
  | cons x xs ih =>
    rw [Poll.scan, ih]
    rfl

/-- The index of a whole text. -/
def indexOf (text : Text) : Index := .build (Source.lines text) none .never

/-- The text with all its formatting edits applied. -/
def formatted (margin : Nat) (text : Text) : Text := apply (edits (indexOf text) margin) text

theorem indexOf_lines (text : Text) :
    (indexOf text).lines =
      (Source.lines text).zipIdx.map fun (raw, number) => classify raw number := by
  simp [indexOf, Index.build, Index.selected, scan_never, Index.ofLines]

theorem indexOf_cancelled (text : Text) : (indexOf text).cancelled = false := by
  simp [indexOf, Index.build, scan_never, Index.ofLines]

theorem edits_indexOf (text : Text) (margin : Nat) :
    edits (indexOf text) margin =
      (Source.lines text).zipIdx.flatMap fun (raw, number) =>
        lineEdits margin (classify raw number) := by
  rw [edits, indexOf_lines, List.flatMap_map]

/-- The edits of a line lie on it. -/
theorem lineEdits_line {raw : Text} (hn : '\n' ∉ raw) {margin number : Nat} :
    ∀ e ∈ lineEdits margin (classify raw number), e.span.start.line = number := by
  intro e he
  rcases visible_cases raw with h | ⟨w, s, rfl, hw, hs⟩
  · rw [lineEdits_of_blank h] at he
    split at he
    · cases he
    · rw [List.mem_singleton.mp he]
      rfl
  · rw [lineEdits_eq hw hs hn] at he
    cases hv : view (isMargined w s) s with
    | plain =>
      rw [hv] at he
      rw [mem_replace he]
      rfl
    | named =>
      rw [hv] at he
      rw [mem_replace he]
      rfl
    | coded before rest =>
      rw [hv] at he
      rcases List.mem_append.mp he with he | he
      · rw [mem_replace he]
        rfl
      · rw [mem_replace he]
        rfl

/-- The edits on a line, among the edits of all lines. -/
theorem filter_zipIdx {f : Text × Nat → List Edit} {xs : List Text}
    (hf : ∀ x ∈ xs, ∀ k, ∀ e ∈ f (x, k), e.span.start.line = k) {x : Text} {k n : Nat}
    (hm : (x, k) ∈ xs.zipIdx n) :
    ((xs.zipIdx n).flatMap f).filter (·.span.start.line = k) = f (x, k) := by
  induction xs generalizing n with
  | nil => cases hm
  | cons y ys ih =>
    have hys : ∀ x ∈ ys, ∀ k, ∀ e ∈ f (x, k), e.span.start.line = k :=
      fun x hx => hf x (List.mem_cons_of_mem y hx)
    have hy : ∀ e ∈ f (y, n), e.span.start.line = n := hf y List.mem_cons_self n
    rw [List.zipIdx_cons, List.flatMap_cons, List.filter_append]
    rw [List.zipIdx_cons] at hm
    rcases List.mem_cons.mp hm with he | hm
    · obtain ⟨rfl, rfl⟩ := Prod.mk.inj he
      have hall : (f (x, k)).filter (·.span.start.line = k) = f (x, k) :=
        List.filter_eq_self.mpr fun e he => by simpa using hy e he
      have hnone : ((ys.zipIdx (k + 1)).flatMap f).filter (·.span.start.line = k) = [] := by
        apply List.filter_eq_nil_iff.mpr
        intro e he
        obtain ⟨⟨z, j⟩, hz, he⟩ := List.mem_flatMap.mp he
        have hj := List.le_snd_of_mem_zipIdx hz
        have hline := hys z (List.fst_mem_of_mem_zipIdx hz) j e he
        simp only [decide_eq_true_eq]
        omega
      rw [hall, hnone, List.append_nil]
    · have hk := List.le_snd_of_mem_zipIdx hm
      have hnone : (f (y, n)).filter (·.span.start.line = k) = [] := by
        apply List.filter_eq_nil_iff.mpr
        intro e he
        have hline := hy e he
        simp only [decide_eq_true_eq]
        omega
      rw [hnone, List.nil_append, ih hys hm]

/-- Formatting gives every line its shape and keeps the breaks. -/
theorem formatted_eq (margin : Nat) (text : Text) :
    formatted margin text =
      (Source.pieces text).flatMap fun p => shape margin p.line ++ p.brk := by
  have hline : ∀ pk ∈ (Source.pieces text).zipIdx,
      applyToLine ((edits (indexOf text) margin).filter (·.span.start.line = pk.2)) pk.1.line =
        shape margin pk.1.line := by
    rintro ⟨p, k⟩ hp
    have hm : (p.line, k) ∈ (Source.lines text).zipIdx := by
      rw [← Source.pieces_line, List.zipIdx_map]
      exact List.mem_map.mpr ⟨(p, k), hp, rfl⟩
    have hbroken : ∀ x ∈ Source.lines text, '\n' ∉ x := fun x hx => (Source.lines_unbroken hx).1
    rw [edits_indexOf, filter_zipIdx (fun x hx k => lineEdits_line (hbroken x hx)) hm]
    exact applyToLine_lineEdits (hbroken p.line (List.fst_mem_of_mem_zipIdx hm)) margin k
  calc
    formatted margin text
      = ((Source.pieces text).zipIdx.map fun pk => shape margin pk.1.line ++ pk.1.brk).flatten := by
        rw [formatted, apply, List.flatMap_def]
        congr 1
        apply List.map_congr_left
        intro pk hp
        rw [← hline pk hp]
    _ = (((Source.pieces text).zipIdx.map Prod.fst).map
          fun p => shape margin p.line ++ p.brk).flatten := by
        rw [List.map_map]
        rfl
    _ = (Source.pieces text).flatMap fun p => shape margin p.line ++ p.brk := by
        rw [List.zipIdx_map_fst, List.flatMap_def]

end AsmAssist.Format
