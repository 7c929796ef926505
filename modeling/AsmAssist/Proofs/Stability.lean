import AsmAssist.Proofs.Formatting
import AsmAssist.Proofs.Rereading

/-!
# Formatting formatted text

Most lines come out of formatting in a shape that they keep. Three kinds do not: a label without colon that
is left alone on its line and is no label there; the text of a label with colon that is left alone and spells
a mnemonic there; and a label that shows an instruction only when it stands at the left margin.
-/

namespace AsmAssist.Format

open Text Reading
open Line (classify)

/-! ## Views of changed bodies -/

section

variable {margined : Bool} {body before rest : Text}

/-- Indenting a body without label gives it none. -/
theorem view_indented (hv : OpensVisible body) (h : view margined body = .plain) :
    view false body = .plain := by
  cases ha : Assignment.assigns (code body) with
  | true => exact view_of_assigns ha false
  | false =>
    cases margined with
    | false => exact h
    | true =>
      cases hp : bodyParts? true body with
      | some p =>
        obtain ⟨word, gap, hcut⟩ := cutBehindWord_of_true hv hp
        have hb : p.before ≠ [] := by
          rw [hcut.before_eq]
          exact List.append_ne_nil_of_left_ne_nil hcut.isWord.1 gap
        rw [view_of_parts ha hp, if_neg hb] at h
        cases h
      | none =>
        rw [view_of_none ha hp] at h
        cases hq : bodyParts? false body with
        | none => rw [view_of_none ha hq, h]
        | some q =>
          rw [view_of_parts ha hq]
          by_cases hb : q.before = []
          · exact if_pos hb
          · obtain ⟨word, gap, hcut⟩ := cutBehindWord_of_false hv hq hb
            rw [hcut.bodyParts? (bodyParts?_cut hq).text] at hp
            cases hp

theorem view_resized (hv : OpensVisible body) (h : view margined body = .coded before rest)
    {gap : Text} (hg : isAllBlank gap = true) (hne : gap ≠ []) :
    view true (trimEnd before ++ gap ++ rest) = .coded (trimEnd before ++ gap) rest := by
  obtain ⟨ha, hb, hbody, p, hp, rfl⟩ := view_coded h
  have hcut := bodyParts?_cut hp
  have hassigns : Assignment.assigns (code (trimEnd p.before ++ gap ++ rest)) = false := by
    have hwords : endedWords (code (trimEnd p.before ++ gap ++ rest)) = endedWords (code body) := by
      rw [hcut.code_resized hg, endedWords_gap _ _ hg hne, hcut.endedWords_code hb hbody]
    rw [← ha, Assignment.assigns, Assignment.assigns, hwords]
  rw [view_of_parts hassigns (bodyParts?_resized hv hp hb hbody hg hne)]
  simp only [List.append_eq_nil_iff, hne, and_false, if_false, List.drop_left]

/-- The instruction on a line of its own has no label. -/
theorem view_instruction (h : view margined body = .coded before rest) :
    view false rest = .plain := by
  obtain ⟨-, -, hbody, p, hp, rfl⟩ := view_coded h
  obtain ⟨q, hq, hb⟩ := bodyParts?_instruction (bodyParts?_cut hp) hbody
  cases ha : Assignment.assigns (code rest) with
  | true => exact view_of_assigns ha false
  | false => rw [view_of_parts ha hq, if_pos hb]

/-- The text in front of the gap assigns nothing. -/
theorem assigns_front (h : view margined body = .coded before rest) :
    Assignment.assigns (code (trimEnd before)) = false := by
  obtain ⟨ha, hb, hbody, p, hp, rfl⟩ := view_coded h
  have hcut := bodyParts?_cut hp
  cases hf : Assignment.assigns (code (trimEnd p.before)) with
  | false => rfl
  | true =>
    rw [code_front hcut] at hf
    have hwords : endedWords (trimEnd p.before) <+: endedWords (code body) := by
      rw [hcut.endedWords_code hb hbody]
      exact (endedWords_isPrefix _).trans (List.prefix_append _ _)
    rw [Assignment.assigns_of_isPrefix hwords hf] at ha
    cases ha

/-- The text in front of the gap on a line of its own: it is a label if a colon made it one, unless it
spells a mnemonic. -/
theorem view_front (hv : OpensVisible body) (h : view margined body = .coded before rest) :
    ∃ p, bodyParts? margined body = some p ∧ p.before = before ∧
      (colonText? body (some p) = none ∨ HidesMnemonic (trimEnd before) →
        view (isMargined [] (trimEnd before)) (trimEnd before) = .plain) ∧
      (colonText? body (some p) ≠ none → ¬ HidesMnemonic (trimEnd before) →
        view (isMargined [] (trimEnd before)) (trimEnd before) = .named) := by
  obtain ⟨-, hb, hbody, p, hp, rfl⟩ := view_coded h
  have hassigns := assigns_front h
  have hcolon := colonText?_front (bodyParts?_cut hp) hbody
  refine ⟨p, hp, rfl, ?_⟩
  rcases bodyParts?_front hv hp hb with ⟨hhides, q, hq, hqb⟩ | ⟨hhides, hq⟩
  · rw [view_of_parts hassigns hq, if_pos hqb]
    exact ⟨fun _ => rfl, fun _ hn => absurd hhides hn⟩
  · rw [view_of_none hassigns hq, hcolon]
    constructor
    · rintro (hc | hc)
      · exact if_pos hc
      · exact absurd hc hhides
    · intro hc _
      exact if_neg hc

end

/-! ## Shapes of shapes -/

theorem spaces_ne_nil {n : Nat} (h : 0 < n) : spaces n ≠ [] := by
  intro hn
  have hlen := congrArg List.length hn
  rw [spaces, List.length_replicate] at hlen
  exact absurd hlen (by simp; omega)

theorem spaces_unbroken (n : Nat) : Source.IsUnbroken (spaces n) := by
  constructor
  · intro hm
    exact absurd (List.eq_of_mem_replicate hm) (by decide)
  · intro hm
    exact absurd (List.eq_of_mem_replicate hm) (by decide)

theorem isMargined_spaces {n : Nat} (h : 0 < n) (s : Text) : isMargined (spaces n) s = false := by
  have hne := spaces_ne_nil h
  simp [isMargined, hne]

theorem shape_unindented {s : Text} (hs : OpensVisible s) (margin : Nat) :
    shape margin s = (view (isMargined [] s) s).shape margin s := shape_eq (w := []) isAllBlank_nil hs margin

theorem shape_indented {s : Text} (hs : OpensVisible s) (h : view false s = .plain) {margin : Nat}
    (hm : 0 < margin) : shape margin (spaces margin ++ s) = spaces margin ++ s := by
  rw [shape_eq (isAllBlank_spaces margin) hs, isMargined_spaces hm, h]
  rfl

/-- With another gap a line opens as before, and its first word is a margin token. -/
theorem resized_opens {before rest gap : Text} (hs : OpensVisible (before ++ rest)) (hb : before ≠ [])
    (hg : isAllBlank gap = true) (hne : gap ≠ []) :
    OpensVisible (trimEnd before ++ gap ++ rest) ∧
      isMargined [] (trimEnd before ++ gap ++ rest) = true := by
  obtain ⟨c, t, hc, hvisible⟩ := opensVisible_trimEnd hs hb
  obtain ⟨d, u, rfl⟩ := List.exists_cons_of_ne_nil hne
  have hblank : isBlank d = true := (Bool.and_eq_true_iff.mp hg).1
  refine ⟨⟨c, t ++ d :: u ++ rest, by rw [hc]; rfl, hvisible⟩, ?_⟩
  simp [isMargined, hblank]

/-- A line with its instruction in place keeps its shape. -/
theorem shape_coded {margined : Bool} {body before rest : Text} (hv : OpensVisible body)
    (h : view margined body = .coded before rest) {margin : Nat}
    (hcol : columns (trimEnd before) < margin) :
    shape margin ((View.coded before rest).shape margin body) =
      (View.coded before rest).shape margin body := by
  obtain ⟨-, hb, hbody, -⟩ := view_coded h
  have hgap := isAllBlank_spaces (margin - columns (trimEnd before))
  have hne : spaces (margin - columns (trimEnd before)) ≠ [] := spaces_ne_nil (by omega)
  have hspacing : labelSpacing margin (columns (trimEnd before)) =
      spaces (margin - columns (trimEnd before)) := if_pos hcol
  obtain ⟨hopens, hmargined⟩ := resized_opens (hbody ▸ hv) hb hgap hne
  rw [View.shape, hspacing, shape_unindented hopens, hmargined, view_resized hv h hgap hne,
    View.shape, trimEnd_append_of_blank _ hgap, trimEnd_trimEnd, hspacing]

/-! ## Lines that formatting leaves unsettled -/

/-- The text between the indentation of a line and the gap in front of its instruction. -/
def front (l : Line) : Text :=
  (Span.onLine l.number l.layout.leading.stop.character l.layout.labelGap.start.character).slice l.raw

def unindented (l : Line) : Line := classify (l.raw.dropWhile isBlank) l.number

/-- What the edits of the line make of it takes edits again. -/
def Unsettled (margin : Nat) (l : Line) : Prop :=
  match l.kind with
  -- left alone, a label without colon is no label
  | .instruction (some _) _ => margin ≤ columns (front l)
  -- left alone, the label reads as a mnemonic
  | .label _ (some _) => margin ≤ columns (front l) ∧ HidesMnemonic (front l)
  -- at the left margin, the line has an instruction out of place
  | .label _ none =>
    (unindented l).instruction?.isSome = true ∧
      (unindented l).layout.labelGap.slice (unindented l).raw ≠
        labelSpacing margin (columns (front (unindented l)))
  | _ => False

/-- Every line of the shape has its own shape. -/
def Settles (margin : Nat) (raw : Text) : Prop :=
  ∀ t ∈ Source.filled (shape margin raw), shape margin t = t

section

variable {w s before rest : Text} {margin : Nat}

theorem front_eq (hw : isAllBlank w = true) (hs : OpensVisible s) (hn : '\n' ∉ w ++ s)
    (h : view (isMargined w s) s = .coded before rest) (number : Nat) :
    front (classify (w ++ s) number) = trimEnd before := by
  have hdescribes := view_describes hw hs hn number
  rw [h] at hdescribes
  obtain ⟨hraw, hnumber⟩ := classify_number (w ++ s) number
  have hp : w ++ trimEnd before <+: w ++ s := by
    rw [(view_coded h).2.2.1, List.prefix_append_right_inj]
    exact (trimEnd_isPrefix before).trans (List.prefix_append before rest)
  have hspan : Span.onLine number (Span.over number [] w).stop.character
      (Span.over number (w ++ trimEnd before) (trailing before)).start.character =
        .over number w (trimEnd before) := by
    simp [Span.over, Token.after, Span.onLine]
  rw [front, hraw, hnumber, layout_leading hw hs, hdescribes.2.2, hspan, Span.slice_over hp]

theorem settles_plain (hs : OpensVisible s) (hu : Source.IsUnbroken (w ++ s))
    (hw : isAllBlank w = true) (h : view (isMargined w s) s = .plain) (hm : 0 < margin) :
    Settles margin (w ++ s) := by
  have hbody : Source.IsUnbroken s := hu.of_subset (List.subset_append_right w s)
  intro t ht
  rw [shape_eq hw hs, h, View.shape, Source.filled_of_unbroken ((spaces_unbroken margin).append hbody)
    (List.append_ne_nil_of_left_ne_nil (spaces_ne_nil hm) s), List.mem_singleton] at ht
  rw [ht]
  exact shape_indented hs (view_indented hs h) hm

theorem settles_named_iff (hs : OpensVisible s) (hu : Source.IsUnbroken (w ++ s))
    (hw : isAllBlank w = true) (h : view (isMargined w s) s = .named) :
    Settles margin (w ++ s) ↔ (view (isMargined [] s) s).shape margin s = s := by
  have hbody : Source.IsUnbroken s := hu.of_subset (List.subset_append_right w s)
  rw [Settles, shape_eq hw hs, h, View.shape, Source.filled_of_unbroken hbody hs.ne_nil,
    List.forall_mem_singleton, shape_unindented hs]

/-- The lines that a label and its instruction are put on. -/
theorem filled_coded (hs : OpensVisible s) (hu : Source.IsUnbroken s) {margined : Bool}
    (h : view margined s = .coded before rest) (hm : 0 < margin) :
    Source.filled ((View.coded before rest).shape margin s) =
      if columns (trimEnd before) < margin then [(View.coded before rest).shape margin s]
      else [trimEnd before, spaces margin ++ rest] := by
  obtain ⟨-, hb, hbody, -⟩ := view_coded h
  have hne := (opensVisible_trimEnd (hbody ▸ hs) hb).ne_nil
  have hfront : Source.IsUnbroken (trimEnd before) := by
    apply hu.of_subset
    rw [hbody]
    exact ((trimEnd_isPrefix before).trans (List.prefix_append before rest)).subset
  have hrest : Source.IsUnbroken rest := by
    apply hu.of_subset
    rw [hbody]
    exact List.subset_append_right before rest
  split
  · rename_i hcol
    rw [View.shape, labelSpacing, if_pos hcol]
    apply Source.filled_of_unbroken ((hfront.append (spaces_unbroken _)).append hrest)
    rw [List.append_assoc]
    exact List.append_ne_nil_of_left_ne_nil hne _
  · rename_i hcol
    rw [View.shape, labelSpacing, if_neg hcol, List.append_assoc, List.cons_append,
      Source.filled_append_newline hfront hne,
      Source.filled_of_unbroken ((spaces_unbroken margin).append hrest)
        (List.append_ne_nil_of_left_ne_nil (spaces_ne_nil hm) rest)]

/-- The text in front of the gap, left alone, keeps its shape exactly if it is a label there. -/
theorem shape_front_iff (hs : OpensVisible s) {margined : Bool}
    (h : view margined s = .coded before rest) (hm : 0 < margin) :
    shape margin (trimEnd before) = trimEnd before ↔
      view (isMargined [] (trimEnd before)) (trimEnd before) = .named := by
  obtain ⟨-, hb, hbody, -⟩ := view_coded h
  obtain ⟨p, -, -, hplain, hnamed⟩ := view_front hs h
  rw [shape_unindented (opensVisible_trimEnd (hbody ▸ hs) hb)]
  constructor
  · intro hshape
    by_cases hc : colonText? s (some p) = none ∨ HidesMnemonic (trimEnd before)
    · -- without a label the text would have to be indented
      rw [hplain hc, View.shape] at hshape
      exact absurd (by simpa using hshape) (spaces_ne_nil hm)
    · rw [not_or] at hc
      exact hnamed hc.1 hc.2
  · intro hn
    rw [hn]
    rfl

theorem settles_coded_iff (hs : OpensVisible s) (hu : Source.IsUnbroken (w ++ s))
    (hw : isAllBlank w = true) (h : view (isMargined w s) s = .coded before rest) (hm : 0 < margin) :
    Settles margin (w ++ s) ↔ columns (trimEnd before) < margin ∨
      view (isMargined [] (trimEnd before)) (trimEnd before) = .named := by
  obtain ⟨-, -, hbody, p, hp, hpb⟩ := view_coded h
  have hrest : OpensVisible rest := (bodyParts?_cut hp).rest_opens (hpb ▸ hbody)
  have hpushed := shape_indented hrest (view_instruction h) hm
  rw [Settles, shape_eq hw hs, h,
    filled_coded hs (hu.of_subset (List.subset_append_right w s)) h hm]
  by_cases hcol : columns (trimEnd before) < margin
  · rw [if_pos hcol, List.forall_mem_singleton]
    exact ⟨fun _ => .inl hcol, fun _ => shape_coded hs h hcol⟩
  · rw [if_neg hcol, List.forall_mem_cons, List.forall_mem_singleton, shape_front_iff hs h hm]
    constructor
    · rintro ⟨hn, -⟩
      exact .inr hn
    · rintro (hlt | hn)
      · exact absurd hlt hcol
      · exact ⟨hn, hpushed⟩

theorem not_unsettled_of_unlabelled {l : Line} (h : l.label? = none) : ¬ Unsettled margin l := by
  intro hu
  unfold Unsettled at hu
  unfold Line.label? at h
  split at hu
  · rename_i hk
    simp [hk] at h
  · rename_i hk
    simp [hk] at h
  · rename_i hk
    simp [hk] at h
  · exact hu

theorem kind_of_labelled {l : Line} (h : l.label?.isSome = true) :
    (∃ t i, l.kind = .instruction (some t) i) ∨ ∃ t i, l.kind = .label t i := by
  unfold Line.label? at h
  split at h
  · rename_i t i hk
    exact .inr ⟨t, i, hk⟩
  · rename_i t i hk
    obtain ⟨t, rfl⟩ := Option.isSome_iff_exists.mp h
    exact .inl ⟨t, i, hk⟩
  · cases h

theorem kind_of_named {l : Line} (hl : l.label?.isSome = true) (hi : l.instruction? = none) :
    ∃ t, l.kind = .label t none := by
  rcases kind_of_labelled hl with ⟨t, i, hk⟩ | ⟨t, i, hk⟩
  · rw [Line.instruction?, hk] at hi
    cases hi
  · rw [Line.instruction?, hk] at hi
    exact ⟨t, hi ▸ hk⟩

theorem kind_of_coded {l : Line} (hl : l.label?.isSome = true) (hi : l.instruction?.isSome = true) :
    (∃ t i, l.kind = .instruction (some t) i) ∨ ∃ t i, l.kind = .label t (some i) := by
  rcases kind_of_labelled hl with hk | ⟨t, i, hk⟩
  · exact .inl hk
  · rw [Line.instruction?, hk] at hi
    obtain ⟨i, rfl⟩ := Option.isSome_iff_exists.mp hi
    exact .inr ⟨t, i, hk⟩

/-- A line with a label has one, too, when it loses its indentation. -/
theorem view_unindented (hs : OpensVisible s) (h : view (isMargined w s) s = .named) :
    view (isMargined [] s) s ≠ .plain := by
  intro hn
  have hview : view (isMargined w s) s = .plain := by
    cases w with
    | nil => exact hn
    | cons d w => exact view_indented hs hn
  rw [hview] at h
  cases h

theorem unsettled_named_iff (hw : isAllBlank w = true) (hs : OpensVisible s) (hn : '\n' ∉ w ++ s)
    (h : view (isMargined w s) s = .named) (number : Nat) :
    Unsettled margin (classify (w ++ s) number) ↔
      (view (isMargined [] s) s).shape margin s ≠ s := by
  have hdescribes := view_describes hw hs hn number
  rw [h] at hdescribes
  obtain ⟨t, hk⟩ := kind_of_named hdescribes.1 hdescribes.2
  obtain ⟨hraw, hnumber⟩ := classify_number (w ++ s) number
  have hunindented : unindented (classify (w ++ s) number) = classify s number := by
    rw [unindented, hraw, hnumber, dropWhile_isBlank_append hw hs]
  have hbody : '\n' ∉ [] ++ s := fun hm => hn (List.mem_append_right w hm)
  have hplace := view_describes isAllBlank_nil hs hbody number
  rw [List.nil_append] at hplace
  simp only [Unsettled, hk, hunindented]
  cases hv : view (isMargined [] s) s with
  | plain => exact absurd hv (view_unindented hs h)
  | named =>
    rw [hv] at hplace
    simp [hplace.2, View.shape]
  | coded before rest =>
    rw [hv] at hplace
    have hfront := front_eq isAllBlank_nil hs hbody hv number
    obtain ⟨-, -, hs', -⟩ := view_coded hv
    have hgap : [] ++ trimEnd before ++ trailing before <+: s := by
      rw [List.nil_append, trimEnd_append_trailing]
      exact ⟨rest, hs'.symm⟩
    rw [List.nil_append] at hfront
    rw [hplace.2.2, hfront, (classify_number s number).1, Span.slice_over hgap]
    have hshape : View.shape margin s (.coded before rest) = s ↔
        trailing before = labelSpacing margin (columns (trimEnd before)) := by
      have htext : s = trimEnd before ++ trailing before ++ rest := by
        rw [trimEnd_append_trailing]
        exact hs'
      constructor
      · intro he
        rw [View.shape, htext] at he
        exact (List.append_cancel_left (List.append_cancel_right he)).symm
      · intro he
        rw [View.shape, ← he]
        exact htext.symm
    rw [Ne, Ne, hshape]
    exact ⟨fun hu => hu.2, fun hu => ⟨hplace.2.1, hu⟩⟩

theorem unsettled_coded_iff (hw : isAllBlank w = true) (hs : OpensVisible s) (hn : '\n' ∉ w ++ s)
    (h : view (isMargined w s) s = .coded before rest) (number : Nat) :
    Unsettled margin (classify (w ++ s) number) ↔
      ¬ (columns (trimEnd before) < margin ∨
        view (isMargined [] (trimEnd before)) (trimEnd before) = .named) := by
  have hdescribes := view_describes hw hs hn number
  rw [h] at hdescribes
  obtain ⟨p, hp, -, hplain, hnamed⟩ := view_front hs h
  have hlabel := isLabel_coded hw hs hn h hp number
  rw [not_or, Nat.not_lt]
  rcases kind_of_coded hdescribes.1 hdescribes.2.1 with ⟨t, i, hk⟩ | ⟨t, i, hk⟩
  · have hcolon : colonText? s (some p) = none := by
      rw [Line.isLabel, hk] at hlabel
      simpa using hlabel.symm
    simp only [Unsettled, hk, front_eq hw hs hn h]
    refine ⟨fun hu => ⟨hu, ?_⟩, fun hu => hu.1⟩
    rw [hplain (.inl hcolon)]
    intro hn
    cases hn
  · have hcolon : colonText? s (some p) ≠ none := by
      rw [Line.isLabel, hk] at hlabel
      intro hn
      rw [hn] at hlabel
      cases hlabel
    simp only [Unsettled, hk, front_eq hw hs hn h]
    constructor
    · rintro ⟨hcol, hhides⟩
      refine ⟨hcol, ?_⟩
      rw [hplain (.inr hhides)]
      intro hn
      cases hn
    · rintro ⟨hcol, hne⟩
      refine ⟨hcol, ?_⟩
      by_cases hhides : HidesMnemonic (trimEnd before)
      · exact hhides
      · exact absurd (hnamed hcolon hhides) hne

end

theorem settles_iff {raw : Text} (hu : Source.IsUnbroken raw) {margin : Nat} (hm : 0 < margin)
    (number : Nat) : Settles margin raw ↔ ¬ Unsettled margin (classify raw number) := by
  rcases visible_cases raw with hb | ⟨w, s, rfl, hw, hs⟩
  · have hlabel : (classify raw number).label? = none := by
      rw [classify_blank hb]
      rfl
    refine ⟨fun _ => not_unsettled_of_unlabelled hlabel, fun _ t ht => ?_⟩
    rw [shape_of_blank hb] at ht
    cases ht
  · have hdescribes := view_describes hw hs hu.1 number
    cases hv : view (isMargined w s) s with
    | plain =>
      rw [hv] at hdescribes
      exact ⟨fun _ => not_unsettled_of_unlabelled hdescribes, fun _ => settles_plain hs hu hw hv hm⟩
    | named => rw [settles_named_iff hs hu hw hv, unsettled_named_iff hw hs hu.1 hv, Ne,
        Classical.not_not]
    | coded before rest =>
      rw [settles_coded_iff hs hu hw hv hm, unsettled_coded_iff hw hs hu.1 hv, Classical.not_not]

/-! ## Whole texts -/

theorem mem_zipIdx_of_mem {xs : List Text} {x : Text} (h : x ∈ xs) : ∃ k, (x, k) ∈ xs.zipIdx := by
  rw [← List.zipIdx_map_fst 0 xs] at h
  obtain ⟨⟨y, k⟩, hy, rfl⟩ := List.mem_map.mp h
  exact ⟨k, hy⟩

theorem edits_eq_nil_iff (text : Text) (margin : Nat) :
    edits (indexOf text) margin = [] ↔ ∀ t ∈ Source.filled text, shape margin t = t := by
  rw [edits_indexOf, List.flatMap_eq_nil_iff]
  constructor
  · intro h t ht
    have hm := (List.mem_filter.mp ht).1
    obtain ⟨k, hk⟩ := mem_zipIdx_of_mem hm
    exact (lineEdits_eq_nil_iff (Source.lines_unbroken hm).1 margin k).mp (h (t, k) hk)
  · rintro h ⟨t, k⟩ hk
    have hm := List.fst_mem_of_mem_zipIdx hk
    apply (lineEdits_eq_nil_iff (Source.lines_unbroken hm).1 margin k).mpr
    by_cases hne : t = []
    · rw [hne]
      exact shape_of_blank isAllBlank_nil margin
    · exact h t (List.mem_filter.mpr ⟨hm, by simpa using hne⟩)

theorem labelSpacing_returns (margin column : Nat) : '\r' ∉ labelSpacing margin column := by
  unfold labelSpacing
  split
  · exact (spaces_unbroken _).2
  · intro hm
    rcases List.mem_cons.mp hm with he | hm
    · exact absurd he (by decide)
    · exact (spaces_unbroken margin).2 hm

/-- Formatting adds no carriage return. -/
theorem shape_returns {raw : Text} (h : '\r' ∉ raw) (margin : Nat) : '\r' ∉ shape margin raw := by
  rcases visible_cases raw with hb | ⟨w, s, rfl, hw, hs⟩
  · rw [shape_of_blank hb]
    exact List.not_mem_nil
  · have hbody : '\r' ∉ s := fun hm => h (List.mem_append_right w hm)
    rw [shape_eq hw hs]
    intro hm
    cases hv : view (isMargined w s) s with
    | plain =>
      rw [hv] at hm
      rcases List.mem_append.mp hm with hm | hm
      · exact (spaces_unbroken margin).2 hm
      · exact hbody hm
    | named =>
      rw [hv] at hm
      exact hbody hm
    | coded before rest =>
      rw [hv] at hm
      rw [(view_coded hv).2.2.1] at hbody
      rcases List.mem_append.mp hm with hm | hm
      · rcases List.mem_append.mp hm with hm | hm
        · exact hbody (List.mem_append_left rest ((trimEnd_isPrefix before).subset hm))
        · exact labelSpacing_returns _ _ hm
      · exact hbody (List.mem_append_right before hm)

/-- Formatting a second time changes nothing exactly if no line is one of the three kinds that the first
time leaves unsettled. -/
theorem formatted_stable_iff {margin : Nat} (hm : 0 < margin) (text : Text) :
    edits (indexOf (formatted margin text)) margin = [] ↔
      ∀ l ∈ (indexOf text).lines, ¬ Unsettled margin l := by
  have hreturns : ∀ s ∈ Source.lines text, '\r' ∉ shape margin s :=
    fun s hs => shape_returns (Source.lines_unbroken hs).2 margin
  rw [edits_eq_nil_iff, formatted_eq, Source.filled_flatMap_pieces hreturns, indexOf_lines]
  constructor
  · intro h l hl
    obtain ⟨⟨raw, k⟩, hk, rfl⟩ := List.mem_map.mp hl
    have hraw := List.fst_mem_of_mem_zipIdx hk
    apply (settles_iff (Source.lines_unbroken hraw) hm k).mp
    intro t ht
    exact h t (List.mem_flatMap.mpr ⟨raw, hraw, ht⟩)
  · intro h t ht
    obtain ⟨raw, hraw, ht⟩ := List.mem_flatMap.mp ht
    obtain ⟨k, hk⟩ := mem_zipIdx_of_mem hraw
    have hsettled := h (classify raw k) (List.mem_map.mpr ⟨(raw, k), hk, rfl⟩)
    exact (settles_iff (Source.lines_unbroken hraw) hm k).mpr hsettled t ht

/-- A label with colon that pushes its instruction to the next line is left alone and stays a label. -/
theorem formatted_stable_pushed :
    0 < 16 ∧ edits (indexOf (formatted 16 "A_VERY_LONG_LABEL: NOP".toList)) 16 = [] := by
  refine ⟨by decide, (formatted_stable_iff (by decide) _).mpr ?_⟩
  intro l hl hu
  have hlines : Source.lines "A_VERY_LONG_LABEL: NOP".toList = ["A_VERY_LONG_LABEL: NOP".toList] := by
    decide +kernel
  obtain rfl : l = classify "A_VERY_LONG_LABEL: NOP".toList 0 := by
    rw [indexOf_lines, hlines] at hl
    simpa using hl
  have hkind : (classify "A_VERY_LONG_LABEL: NOP".toList 0).kind =
      .label ⟨"A_VERY_LONG_LABEL".toList, .onLine 0 0 17⟩
        (some ⟨⟨"NOP".toList, .onLine 0 19 22⟩, none, false⟩) := by decide +kernel
  have hfront : front (classify "A_VERY_LONG_LABEL: NOP".toList 0) = "A_VERY_LONG_LABEL:".toList := by
    decide +kernel
  rw [Unsettled, hkind] at hu
  obtain ⟨-, -, hmnemonic⟩ := hu
  rw [hfront] at hmnemonic
  exact hmnemonic.not_mem (c := ':') (by decide) (by decide) (by decide +kernel)

/-- A label without colon that does so is no label when it is left alone, and is indented the next time. -/
theorem formatted_unstable_long_label :
    edits (indexOf (formatted 16 "A_VERY_LONG_LABEL NOP".toList)) 16 ≠ [] := by
  rw [formatted_eq]
  decide +kernel

end AsmAssist.Format
