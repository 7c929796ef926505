import AsmAssist.Proofs.Anatomy

/-!
# Layouts in order, and nothing lost

The regions of every classified line follow each other from its first column to its end, and the gaps among
them are blank. Put together, the regions are the line without its trailing blanks; only a label with a
colon leaves a piece between its regions.
-/

namespace AsmAssist.Line

open Text

/-- The regions stand on the line, run forward and follow each other inside its width; gaps are blank. -/
structure Layout.InOrder (layout : Layout) (raw : Text) (number : Nat) : Prop where
  on_line : ∀ s ∈ layout.spans, s.start.line = number ∧ s.stop.line = number
  forward : ∀ s ∈ layout.spans, s.start.character ≤ s.stop.character
  ordered : layout.spans.Pairwise fun s t => s.stop.character ≤ t.start.character
  starts : layout.leading.start.character = 0
  ends : layout.comment.stop.character ≤ columns raw
  gaps_blank : ∀ s ∈ [layout.leading, layout.labelGap, layout.operandGap, layout.commentGap],
    isAllBlank (s.slice raw) = true

/-- The regions of absent elements, and the gaps next to them, have no width. -/
structure AbsentEmpty (l : Line) : Prop where
  label : l.label? = none → ∀ s ∈ [l.layout.label, l.layout.labelGap], s.isEmpty = true
  instruction : l.instruction? = none →
    ∀ s ∈ [l.layout.labelGap, l.layout.instruction, l.layout.operandGap, l.layout.operands],
      s.isEmpty = true
  operands : l.operands? = none → ∀ s ∈ [l.layout.operandGap, l.layout.operands], s.isEmpty = true
  comment : l.comment = none → ∀ s ∈ [l.layout.commentGap, l.layout.comment], s.isEmpty = true

theorem inOrder_of_dissects {a : Anatomy} {l : Line} (h : a.Dissects l) :
    l.layout.InOrder l.raw l.number := by
  rw [h.layout_eq]
  have htail : columns a.beforeTail ≤ columns a.beforeCommentGap := by
    rw [Anatomy.beforeCommentGap]
    split
    · exact Nat.le_refl _
    · exact columns_le_of_isPrefix (List.prefix_append _ _)
  obtain ⟨hb1, hb2, hb3, hb4⟩ : isAllBlank a.leading = true ∧ isAllBlank a.labelGap = true ∧
      isAllBlank a.operandGap = true ∧ isAllBlank a.commentGap = true := by
    simpa using h.gaps_blank
  constructor
  case on_line =>
    intro s hs
    simp only [Layout.spans, Anatomy.layout, List.mem_cons, List.not_mem_nil, or_false] at hs
    rcases hs with rfl | rfl | rfl | rfl | rfl | rfl | rfl | rfl <;> exact ⟨rfl, rfl⟩
  case forward =>
    intro s hs
    simp only [Layout.spans, Anatomy.layout, List.mem_cons, List.not_mem_nil, or_false] at hs
    rcases hs with rfl | rfl | rfl | rfl | rfl | rfl | rfl | rfl <;> exact Nat.le_add_right _ _
  case ordered =>
    simp only [Anatomy.beforeTail, Anatomy.beforeOperands, Anatomy.beforeOperandGap,
      Anatomy.beforeInstruction, Anatomy.beforeLabelGap, columns_append] at htail
    simp only [Layout.spans, Anatomy.layout, Span.over, Token.after, Span.onLine,
      Anatomy.beforeComment, Anatomy.beforeOperands, Anatomy.beforeOperandGap,
      Anatomy.beforeInstruction, Anatomy.beforeLabelGap, columns_append, columns_nil,
      List.pairwise_cons, List.mem_cons, List.not_mem_nil, forall_eq_or_imp, false_imp_iff,
      implies_true, List.Pairwise.nil, and_true]
    omega
  case starts => rfl
  case ends =>
    have hstop := Span.stop_over l.number a.beforeComment a.comment
    exact hstop ▸ columns_le_of_isPrefix h.comment_isPrefix
  case gaps_blank =>
    intro s hs
    simp only [Anatomy.layout, List.mem_cons, List.not_mem_nil, or_false] at hs
    rcases hs with rfl | rfl | rfl | rfl
    · rw [Span.slice_over h.leading_isPrefix, hb1]
    · rw [Span.slice_over h.labelGap_isPrefix, hb2]
    · rw [Span.slice_over h.operandGap_isPrefix, hb3]
    · rw [Span.slice_over ((List.prefix_append _ _).trans h.comment_isPrefix), hb4]

theorem isEmpty_over (number : Nat) (before : Text) : (Span.over number before []).isEmpty = true := by
  simp [Span.over, Token.after, Span.onLine, Span.isEmpty]

theorem absentEmpty_of_dissects {a : Anatomy} {l : Line} (h : a.Dissects l) : l.AbsentEmpty := by
  have hi := h.instructed
  constructor
  case label =>
    intro hn
    have hl := h.labelled
    rw [hn] at hl
    rw [h.layout_eq]
    simp only [Anatomy.layout, show a.label = [] from hl, h.labelGap_absent hn, List.mem_cons,
      List.not_mem_nil, or_false, forall_eq_or_imp, forall_eq]
    exact ⟨isEmpty_over _ _, isEmpty_over _ _⟩
  case instruction =>
    intro hn
    rw [hn] at hi
    obtain ⟨-, h2, h3, h4, h5⟩ := hi
    rw [h.layout_eq]
    simp only [Anatomy.layout, h2, h3, h4, h5, List.mem_cons, List.not_mem_nil, or_false,
      forall_eq_or_imp, forall_eq]
    exact ⟨isEmpty_over _ _, isEmpty_over _ _, isEmpty_over _ _, isEmpty_over _ _⟩
  case operands =>
    intro hn
    have hempty : a.operandGap = [] ∧ a.operands = [] := by
      cases hc : l.instruction? with
      | none =>
        rw [hc] at hi
        exact hi.2.2.2
      | some i =>
        rw [hc] at hi
        have ho : i.operands = none := by simpa [operands?, hc] using hn
        have hh := hi.2.2.1
        rw [ho] at hh
        exact ⟨hi.2.2.2 ho, hh⟩
    rw [h.layout_eq]
    simp only [Anatomy.layout, hempty, List.mem_cons, List.not_mem_nil, or_false, forall_eq_or_imp,
      forall_eq]
    exact ⟨isEmpty_over _ _, isEmpty_over _ _⟩
  case comment =>
    intro hn
    have hr := h.remarked
    rw [hn] at hr
    obtain ⟨hg, hc⟩ := hr
    rw [h.layout_eq]
    simp only [Anatomy.layout, hg, hc, List.mem_cons, List.not_mem_nil, or_false, forall_eq_or_imp,
      forall_eq]
    exact ⟨isEmpty_over _ _, isEmpty_over _ _⟩

/-- Whatever the text of a line, its regions are in order, and those of absent elements are empty. -/
theorem classify_layout_inOrder (raw : Text) (number : Nat) :
    (classify raw number).layout.InOrder raw number ∧ (classify raw number).AbsentEmpty := by
  obtain ⟨a, h, -⟩ := Anatomy.classify_dissects raw number
  have hin := inOrder_of_dissects h
  obtain ⟨hr, hn⟩ := Reading.classify_number raw number
  rw [hr, hn] at hin
  exact ⟨hin, absentEmpty_of_dissects h⟩

/-! ## No text is lost -/

/-- Where the text between a label and what follows it ends. -/
def linkEnd (l : Line) : Nat :=
  match l.instruction?, l.comment with
  | some _, _ => l.layout.labelGap.start.character
  | none, some _ => l.layout.commentGap.start.character
  | none, none => columns (trimEnd l.raw)

/-- The text between a label and what follows it. -/
def link (l : Line) : Text :=
  (Span.onLine l.number l.layout.label.stop.character l.linkEnd).slice l.raw

def slices (l : Line) : List Text := l.layout.spans.map (·.slice l.raw)

/-- The slices of the regions make up the line up to its trailing blanks, with the text between a label
and what follows it put in after the label. -/
def LosesNoText (l : Line) : Prop :=
  match l.kind with
  | .comment => l.slices.flatten = trimEnd l.raw
  | .instruction _ _ => l.slices.flatten = trimEnd l.raw
  | .label _ _ =>
    (l.slices.take 2 ++ l.link :: l.slices.drop 2).flatten = trimEnd l.raw ∧
      Anatomy.IsLink l.raw (l.slices.take 2).flatten l.link
  | _ => True

theorem slices_of_dissects {a : Anatomy} {l : Line} (h : a.Dissects l) :
    l.slices = [a.leading, a.label, a.labelGap, a.instruction, a.operandGap, a.operands,
      a.commentGap, a.comment] := by
  rw [slices, h.layout_eq]
  simp only [Layout.spans, Anatomy.layout, List.map_cons, List.map_nil,
    Span.slice_over h.leading_isPrefix, Span.slice_over h.label_isPrefix,
    Span.slice_over h.labelGap_isPrefix, Span.slice_over h.instruction_isPrefix,
    Span.slice_over h.operandGap_isPrefix, Span.slice_over h.operands_isPrefix,
    Span.slice_over ((List.prefix_append _ _).trans h.comment_isPrefix),
    Span.slice_over h.comment_isPrefix]

theorem linkEnd_of_dissects {a : Anatomy} {l : Line} (h : a.Dissects l) :
    l.linkEnd = columns (a.leading ++ a.label ++ (a.link ++ a.tail)) := by
  have hi := h.instructed
  have hr := h.remarked
  rw [linkEnd]
  cases hc : l.instruction? with
  | some i =>
    rw [hc] at hi
    rw [h.layout_eq, hi.2.1, List.append_nil]
    rfl
  | none =>
    rw [hc] at hi
    obtain ⟨h1, h2, h3, h4, h5⟩ := hi
    have hb : a.beforeTail = a.leading ++ a.label := by
      simp [Anatomy.beforeTail, Anatomy.beforeOperands, Anatomy.beforeOperandGap,
        Anatomy.beforeInstruction, Anatomy.beforeLabelGap, h1, h2, h3, h4, h5]
    cases ht : l.comment with
    | some t =>
      rw [ht] at hr
      have hgap : a.beforeCommentGap = a.leading ++ a.label ++ (a.link ++ a.tail) := by
        rw [Anatomy.beforeCommentGap, if_neg hr.2, hb, h1, List.nil_append]
      rw [h.layout_eq, ← hgap]
      rfl
    | none =>
      rw [ht] at hr
      have hv : a.visible = a.leading ++ a.label ++ (a.link ++ a.tail) := by
        simp [Anatomy.visible, hb, h1, hr.1, hr.2]
      rw [h.trimEnd_raw, hv]

theorem link_of_dissects {a : Anatomy} {l : Line} (h : a.Dissects l) : l.link = a.link ++ a.tail := by
  have hp : a.leading ++ a.label ++ (a.link ++ a.tail) <+: l.raw := by
    have hi := h.instructed
    cases hc : l.instruction? with
    | some i =>
      rw [hc] at hi
      rw [hi.2.1, List.append_nil]
      exact (List.prefix_append _ _).trans h.labelGap_isPrefix
    | none =>
      rw [hc] at hi
      obtain ⟨h1, h2, h3, h4, h5⟩ := hi
      refine List.IsPrefix.trans ⟨a.commentGap ++ a.comment, ?_⟩ h.visible_isPrefix
      simp [Anatomy.visible, Anatomy.beforeTail, Anatomy.beforeOperands, Anatomy.beforeOperandGap,
        Anatomy.beforeInstruction, Anatomy.beforeLabelGap, h1, h2, h3, h4, h5]
  have hspan : Span.onLine l.number l.layout.label.stop.character l.linkEnd =
      .over l.number (a.leading ++ a.label) (a.link ++ a.tail) := by
    rw [linkEnd_of_dissects h, h.layout_eq]
    simp [Anatomy.layout, Span.over, Token.after, Span.onLine, Nat.add_assoc]
  rw [link, hspan, Span.slice_over hp]

theorem classify_loses_no_text (raw : Text) (number : Nat) : (classify raw number).LosesNoText := by
  obtain ⟨a, h, hj⟩ := Anatomy.classify_dissects raw number
  have hs := slices_of_dissects h
  have hl := link_of_dissects h
  have hi := h.instructed
  rw [Anatomy.Joins] at hj
  rw [LosesNoText]
  cases hk : (classify raw number).kind with
  | other => trivial
  | assignment _ => trivial
  | comment =>
    rw [hk] at hj
    rw [hs, h.trimEnd_raw, Anatomy.visible_eq]
    simp [Anatomy.statement, hj.1, hj.2]
  | instruction label i =>
    rw [hk] at hj
    rw [hs, h.trimEnd_raw, Anatomy.visible_eq]
    simp [Anatomy.statement, hj.1, hj.2]
  | label label i =>
    rw [hk] at hj
    refine ⟨?_, ?_⟩
    · rw [hs, hl, h.trimEnd_raw, Anatomy.visible_eq]
      cases hc : (classify raw number).instruction? with
      | some i =>
        rw [hc] at hi
        simp [Anatomy.statement, hi.2.1]
      | none =>
        rw [hc] at hi
        obtain ⟨h1, h2, h3, h4, h5⟩ := hi
        simp [Anatomy.statement, h1, h2, h3, h4, h5]
    · rw [hs, hl]
      simpa using hj

end AsmAssist.Line
