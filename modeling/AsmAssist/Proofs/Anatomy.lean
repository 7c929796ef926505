import AsmAssist.Line.Layout
import AsmAssist.Proofs.Reading

/-!
# The texts under the layout of a line

An anatomy cuts a line into the eight regions of its layout and the text that belongs to none: what follows
a label up to its instruction, code that is neither label nor instruction, and the trailing blanks. Every
line has one (`classify_dissects`), and its layout is where the texts of the anatomy stand.
-/

namespace AsmAssist

open Text

/-- The columns of `text` in a line in which `before` stands in front of it. -/
def Span.over (line : Nat) (before text : Text) : Span := (Token.after line before text).span

theorem Span.slice_over {before text raw : Text} (h : before ++ text <+: raw) (line : Nat) :
    (Span.over line before text).slice raw = text := by
  have hb : before <+: raw := (List.prefix_append _ _).trans h
  have hstop : Text.takeColumns (Text.columns before + Text.columns text) raw = before ++ text := by
    rw [← columns_append, takeColumns_of_isPrefix h]
  simp only [Span.over, Token.after, Span.slice, Span.onLine]
  rw [hstop, takeColumns_of_isPrefix hb, List.drop_left]

theorem Span.stop_over (line : Nat) (before text : Text) :
    (Span.over line before text).stop.character = Text.columns (before ++ text) := by
  rw [columns_append]
  rfl

/-- The token holds `text` and stands after `before`; an absent one holds nothing. -/
def Token.Holds (line : Nat) (before text : Text) : Option Token → Prop
  | none => text = []
  | some t => t = .after line before text

structure Anatomy where
  leading : Text := []
  label : Text := []
  /-- The colon of a label and what follows it, up to the gap in front of the instruction. -/
  link : Text := []
  labelGap : Text := []
  instruction : Text := []
  operandGap : Text := []
  operands : Text := []
  /-- The code of a line without instruction, from the end of its label on. -/
  tail : Text := []
  commentGap : Text := []
  comment : Text := []
  trail : Text := []

namespace Anatomy

def beforeLabelGap (a : Anatomy) : Text := a.leading ++ a.label ++ a.link

def beforeInstruction (a : Anatomy) : Text := a.beforeLabelGap ++ a.labelGap

def beforeOperandGap (a : Anatomy) : Text := a.beforeInstruction ++ a.instruction

def beforeOperands (a : Anatomy) : Text := a.beforeOperandGap ++ a.operandGap

def beforeTail (a : Anatomy) : Text := a.beforeOperands ++ a.operands

/-- An absent comment stands right after the operands. -/
def beforeCommentGap (a : Anatomy) : Text :=
  if a.comment = [] then a.beforeTail else a.beforeTail ++ a.tail

def beforeComment (a : Anatomy) : Text := a.beforeCommentGap ++ a.commentGap

/-- The line without its trailing blanks. -/
def visible (a : Anatomy) : Text := a.beforeTail ++ a.tail ++ a.commentGap ++ a.comment

/-- The code of the line, between its indentation and its comment. -/
def statement (a : Anatomy) : Text :=
  a.label ++ a.link ++ a.labelGap ++ a.instruction ++ a.operandGap ++ a.operands ++ a.tail

def layout (a : Anatomy) (line : Nat) : Line.Layout where
  leading := .over line [] a.leading
  label := .over line a.leading a.label
  labelGap := .over line a.beforeLabelGap a.labelGap
  instruction := .over line a.beforeInstruction a.instruction
  operandGap := .over line a.beforeOperandGap a.operandGap
  operands := .over line a.beforeOperands a.operands
  commentGap := .over line a.beforeCommentGap a.commentGap
  comment := .over line a.beforeComment a.comment

theorem beforeTail_eq (a : Anatomy) : a.beforeTail ++ a.tail = a.leading ++ a.statement := by
  simp [beforeTail, beforeOperands, beforeOperandGap, beforeInstruction, beforeLabelGap, statement]

theorem visible_eq (a : Anatomy) :
    a.visible = a.leading ++ a.statement ++ a.commentGap ++ a.comment := by
  rw [visible, beforeTail_eq]

end Anatomy

/-! ## Gaps -/

/-- The blank run that ends at the end of `before ++ s`, seen from `before` on, starts where `s` is
trimmed. -/
theorem Line.blankRunStart_eq {raw before s : Text} (h : before ++ s <+: raw) :
    Line.blankRunStart raw (columns (before ++ s)) (columns before) =
      columns (before ++ trimEnd s) := by
  rw [Line.blankRunStart, takeColumns_of_isPrefix h]
  have hs := columns_le_of_isPrefix (trimEnd_isPrefix s)
  by_cases hv : trimEnd s = []
  · have hb := columns_le_of_isPrefix (trimEnd_isPrefix before)
    rw [trimEnd_append_of_blank before (trimEnd_eq_nil_iff.mp hv), hv, List.append_nil,
      columns_append]
    omega
  · rw [trimEnd_append_of_visible before hv, columns_append, columns_append]
    omega

theorem Line.gapBefore_eq {l : Line} {before s gap : Text} (h : before ++ s ++ gap <+: l.raw)
    (hs : trimEnd (s ++ gap) = s) (text : Text) :
    l.gapBefore (Span.over l.number (before ++ s ++ gap) text) (columns before) =
      Span.over l.number (before ++ s) gap := by
  rw [List.append_assoc] at h ⊢
  have hstart : (Span.over l.number (before ++ (s ++ gap)) text).start.character =
      columns (before ++ (s ++ gap)) := rfl
  rw [Line.gapBefore, hstart, Line.blankRunStart_eq h, hs]
  simp only [Span.over, Token.after, ← columns_append, List.append_assoc]

/-! ## Lines and their anatomies -/

/-- What an instruction says about an anatomy. -/
def Anatomy.Instructs (a : Anatomy) (line : Nat) : Option Instruction → Prop
  | none =>
    a.link = [] ∧ a.labelGap = [] ∧ a.instruction = [] ∧ a.operandGap = [] ∧ a.operands = []
  | some i =>
    i.mnemonic = .after line a.beforeInstruction a.instruction ∧ a.tail = [] ∧
      Token.Holds line a.beforeOperands a.operands i.operands ∧
      (i.operands = none → a.operandGap = [])

/-- What a comment says about an anatomy. -/
def Anatomy.Remarks (a : Anatomy) (line : Nat) : Option Token → Prop
  | none => a.commentGap = [] ∧ a.comment = []
  | some t => t = .after line a.beforeComment a.comment ∧ a.comment ≠ []

structure Anatomy.Dissects (a : Anatomy) (l : Line) : Prop where
  text : a.visible ++ a.trail = l.raw
  leadingWidth : l.leadingWidth = columns a.leading
  trail_blank : isAllBlank a.trail = true
  visible_ends : trimEnd a.visible = a.visible
  gaps_blank : isAllBlank (a.leading ++ a.labelGap ++ a.operandGap ++ a.commentGap) = true
  labelled : Token.Holds l.number a.leading a.label l.label?
  instructed : a.Instructs l.number l.instruction?
  remarked : a.Remarks l.number l.comment
  labelGap_start : trimEnd (a.link ++ a.labelGap) = a.link
  labelGap_absent : l.label? = none → a.labelGap = []
  commentGap_start : l.comment ≠ none → trimEnd (a.tail ++ a.commentGap) = a.tail

namespace Anatomy.Dissects

variable {a : Anatomy} {l : Line}

theorem visible_isPrefix (h : a.Dissects l) : a.visible <+: l.raw := ⟨a.trail, h.text⟩

theorem beforeTail_isPrefix (h : a.Dissects l) : a.beforeTail <+: l.raw := by
  refine List.IsPrefix.trans ⟨a.tail ++ a.commentGap ++ a.comment, ?_⟩ h.visible_isPrefix
  simp [visible]

theorem labelSpan_eq (h : a.Dissects l) : l.labelSpan = .over l.number a.leading a.label := by
  have hl := h.labelled
  rw [Line.labelSpan]
  cases ht : l.label? with
  | none =>
    rw [ht] at hl
    rw [show a.label = [] from hl, h.leadingWidth]
    rfl
  | some t =>
    rw [ht] at hl
    rw [show t = _ from hl]
    rfl

theorem instructionSpans_eq (h : a.Dissects l) :
    l.instructionSpans (columns (a.leading ++ a.label)) =
      (.over l.number a.beforeLabelGap a.labelGap, .over l.number a.beforeInstruction a.instruction,
        .over l.number a.beforeOperandGap a.operandGap, .over l.number a.beforeOperands a.operands) := by
  have hi := h.instructed
  rw [Line.instructionSpans]
  cases hc : l.instruction? with
  | none =>
    rw [hc] at hi
    obtain ⟨h1, h2, h3, h4, h5⟩ := hi
    simp [beforeOperands, beforeOperandGap, beforeInstruction, beforeLabelGap, h1, h2, h3, h4, h5,
      Span.over, Token.after, Span.empty]
  | some i =>
    rw [hc] at hi
    obtain ⟨hm, -, ho, hog⟩ := hi
    have hp : a.leading ++ a.label ++ a.link ++ a.labelGap <+: l.raw := by
      refine List.IsPrefix.trans ⟨a.instruction ++ a.operandGap ++ a.operands, ?_⟩
        h.beforeTail_isPrefix
      simp [beforeTail, beforeOperands, beforeOperandGap, beforeInstruction, beforeLabelGap]
    have hspan := Line.gapBefore_eq hp h.labelGap_start a.instruction
    have hstop := Span.stop_over l.number a.beforeInstruction a.instruction
    have hmnemonic : i.mnemonic.span = .over l.number a.beforeInstruction a.instruction := by
      rw [hm]
      rfl
    cases hd : i.operands with
    | none =>
      rw [hd] at ho
      have hgap := hog hd
      simp only [hd, hmnemonic, hstop]
      refine Prod.ext hspan (Prod.ext rfl (Prod.ext ?_ ?_))
      · rw [hgap]
        rfl
      · rw [show a.operands = [] from ho, beforeOperands, hgap, List.append_nil]
        rfl
    | some o =>
      rw [hd] at ho
      have hoperands : o.span = .over l.number a.beforeOperands a.operands := by
        rw [show o = _ from ho]
        rfl
      simp only [hd, hmnemonic, hstop, hoperands]
      refine Prod.ext hspan (Prod.ext rfl (Prod.ext ?_ rfl))
      simp only [Span.over, Token.after, Span.onLine, beforeOperands, beforeOperandGap, columns_append]

theorem commentSpans_eq (h : a.Dissects l) :
    l.commentSpans (columns a.beforeTail) =
      (.over l.number a.beforeCommentGap a.commentGap, .over l.number a.beforeComment a.comment) := by
  have hr := h.remarked
  rw [Line.commentSpans]
  cases hc : l.comment with
  | none =>
    rw [hc] at hr
    obtain ⟨h1, h2⟩ := hr
    simp [beforeComment, beforeCommentGap, h1, h2, Span.over, Token.after, Span.empty]
  | some t =>
    rw [hc] at hr
    obtain ⟨ht, hne⟩ := hr
    have hp : a.beforeTail ++ a.tail ++ a.commentGap <+: l.raw :=
      (List.prefix_append _ a.comment).trans h.visible_isPrefix
    have hb : a.beforeComment = a.beforeTail ++ a.tail ++ a.commentGap := by
      rw [beforeComment, beforeCommentGap, if_neg hne]
    have hspan := Line.gapBefore_eq hp (h.commentGap_start (by simp [hc])) a.comment
    rw [← hb] at hspan
    have hg : a.beforeCommentGap = a.beforeTail ++ a.tail := by
      rw [beforeCommentGap, if_neg hne]
    rw [← hg] at hspan
    rw [ht]
    exact Prod.ext hspan rfl

theorem layout_eq (h : a.Dissects l) : l.layout = a.layout l.number := by
  have hi := h.instructionSpans_eq
  have hc := h.commentSpans_eq
  have hoperands : (Span.over l.number a.beforeOperands a.operands).stop.character =
      columns a.beforeTail := Span.stop_over _ _ _
  simp only [Line.layout, h.labelSpan_eq, Span.stop_over l.number a.leading a.label, hi, hoperands, hc,
    h.leadingWidth]
  simp [Anatomy.layout, Span.over, Token.after]

/-- Each region stands in the line, after the text in front of it. -/
theorem comment_isPrefix (h : a.Dissects l) : a.beforeComment ++ a.comment <+: l.raw := by
  by_cases hc : a.comment = []
  · have hg : a.commentGap = [] := by
      have hr := h.remarked
      cases ht : l.comment with
      | none =>
        rw [ht] at hr
        exact hr.1
      | some t =>
        rw [ht] at hr
        exact absurd hc hr.2
    rw [beforeComment, beforeCommentGap, if_pos hc, hg, hc, List.append_nil, List.append_nil]
    exact h.beforeTail_isPrefix
  · rw [beforeComment, beforeCommentGap, if_neg hc]
    exact h.visible_isPrefix

theorem operands_isPrefix (h : a.Dissects l) : a.beforeOperands ++ a.operands <+: l.raw :=
  h.beforeTail_isPrefix

theorem operandGap_isPrefix (h : a.Dissects l) : a.beforeOperandGap ++ a.operandGap <+: l.raw :=
  (List.prefix_append _ _).trans h.operands_isPrefix

theorem instruction_isPrefix (h : a.Dissects l) : a.beforeInstruction ++ a.instruction <+: l.raw :=
  (List.prefix_append _ _).trans h.operandGap_isPrefix

theorem labelGap_isPrefix (h : a.Dissects l) : a.beforeLabelGap ++ a.labelGap <+: l.raw :=
  (List.prefix_append _ _).trans h.instruction_isPrefix

theorem label_isPrefix (h : a.Dissects l) : a.leading ++ a.label <+: l.raw := by
  have hb : a.leading ++ a.label <+: a.beforeLabelGap := List.prefix_append _ _
  exact (hb.trans (List.prefix_append _ _)).trans h.labelGap_isPrefix

theorem leading_isPrefix (h : a.Dissects l) : [] ++ a.leading <+: l.raw :=
  (List.prefix_append _ _).trans h.label_isPrefix

theorem operands_holds (h : a.Dissects l) :
    Token.Holds l.number a.beforeOperands a.operands l.operands? := by
  have hd := h.instructed
  cases hi : l.instruction? with
  | none =>
    rw [hi] at hd
    simpa [Line.operands?, hi, Token.Holds] using hd.2.2.2.2
  | some i =>
    rw [hi] at hd
    simpa [Line.operands?, hi] using hd.2.2.1

theorem trimEnd_raw (h : a.Dissects l) : trimEnd l.raw = a.visible := by
  rw [← h.text, trimEnd_append_of_blank _ h.trail_blank, h.visible_ends]

end Anatomy.Dissects

/-! ## The anatomy of a classified line -/

namespace Anatomy

open Reading Instruction

/-- Code without instruction, which `label` starts. -/
def ofCode (lead label statement : Text) : Anatomy where
  leading := lead
  label
  tail := statement.drop label.length

/-- Code with an instruction, which `label` starts. -/
def ofParts (lead label : Text) (p : Parts) : Anatomy where
  leading := lead
  label
  link := (trimEnd p.before).drop label.length
  labelGap := trailing p.before
  instruction := p.mnemonic
  operandGap := p.rest.takeWhile isBlank
  operands := p.rest.dropWhile isBlank

/-- The anatomy of the code of a line, its comment left out. -/
structure FitsCode (a : Anatomy) (lead body : Text) (number : Nat) (kind : Line.Kind) : Prop where
  leading : a.leading = lead
  statement : a.statement = trimEnd (code body)
  uncommented : a.commentGap = [] ∧ a.comment = []
  gaps_blank : isAllBlank (a.labelGap ++ a.operandGap) = true
  labelled : Token.Holds number lead a.label (Line.label? ⟨lead ++ body, number, kind, none⟩)
  instructed : a.Instructs number (Line.instruction? ⟨lead ++ body, number, kind, none⟩)
  labelGap_start : trimEnd (a.link ++ a.labelGap) = a.link
  labelGap_absent : Line.label? ⟨lead ++ body, number, kind, none⟩ = none → a.labelGap = []
  tail_ends : trimEnd a.tail = a.tail

theorem leadingWidth_eq {w body : Text} (hw : isAllBlank w = true) (hs : OpensVisible body)
    (number : Nat) (kind : Line.Kind) (comment : Option Token) :
    Line.leadingWidth ⟨w ++ body, number, kind, comment⟩ = columns w := by
  have hlead := takeWhile_isBlank_append hw hs
  obtain ⟨c, t, rfl, hb⟩ := hs
  have hv : isAllBlank (w ++ c :: t) = false := by simp [hb]
  simp [Line.leadingWidth, Line.isBlank, hv, hlead]

theorem trimEnd_code_ne_nil {body : Text} (hs : OpensCode body) : trimEnd (code body) ≠ [] := by
  obtain ⟨c, t, he, hb, -⟩ := code_of_opensCode hs
  rw [he, trimEnd_cons_of_visible hb]
  exact List.cons_ne_nil _ _

namespace FitsCode

variable {a : Anatomy} {w body : Text} {number : Nat} {kind : Line.Kind}

/-- A line without comment: its code is all there is. -/
theorem dissects_bare (h : a.FitsCode w body number kind) (hw : isAllBlank w = true)
    (hs : OpensCode body) (hr : remark body = []) :
    Dissects { a with trail := trailing (code body) } ⟨w ++ body, number, kind, none⟩ := by
  obtain ⟨hg, hc⟩ := h.uncommented
  have hbody := code_append_remark body
  rw [hr, List.append_nil] at hbody
  have hvisible : visible { a with trail := trailing (code body) } = w ++ trimEnd (code body) := by
    rw [← h.leading, ← h.statement, visible_eq]
    simp only [hg, hc, List.append_nil]
    rfl
  constructor
  case text => rw [hvisible, List.append_assoc, trimEnd_append_trailing, hbody]
  case leadingWidth => rw [leadingWidth_eq hw hs.visible, h.leading]
  case trail_blank => exact isAllBlank_trailing _
  case visible_ends =>
    have hv : trimEnd (trimEnd (code body)) ≠ [] := by
      rw [trimEnd_trimEnd]
      exact trimEnd_code_ne_nil hs
    rw [hvisible, trimEnd_append_of_visible w hv, trimEnd_trimEnd]
  case gaps_blank => simpa [h.leading, hw, hg] using h.gaps_blank
  case labelled => exact h.leading ▸ h.labelled
  case instructed => exact h.instructed
  case remarked => exact ⟨hg, hc⟩
  case labelGap_start => exact h.labelGap_start
  case labelGap_absent => exact h.labelGap_absent
  case commentGap_start => exact fun hn => absurd rfl hn

/-- A line with a comment: the blanks after its code are the gap in front of the comment. -/
theorem dissects_commented (h : a.FitsCode w body number kind) (hw : isAllBlank w = true)
    (hs : OpensCode body) (hr : remark body ≠ []) :
    Dissects
      { a with
        commentGap := trailing (code body)
        comment := trimEnd (remark body)
        trail := trailing (remark body) }
      ⟨w ++ body, number, kind, some (.after number (w ++ code body) (trimEnd (remark body)))⟩ := by
  obtain ⟨t, ht⟩ := remark_head hr
  have hcomment : trimEnd (remark body) ≠ [] := by
    rw [ht, trimEnd_cons_of_visible (by decide)]
    exact List.cons_ne_nil _ _
  have hcode : a.leading ++ a.statement ++ trailing (code body) = w ++ code body := by
    rw [h.leading, h.statement, List.append_assoc, trimEnd_append_trailing]
  have hvisible : visible { a with
      commentGap := trailing (code body)
      comment := trimEnd (remark body)
      trail := trailing (remark body) } = w ++ code body ++ trimEnd (remark body) := by
    rw [← hcode, visible_eq]
    rfl
  constructor
  case text =>
    rw [hvisible, List.append_assoc, trimEnd_append_trailing, List.append_assoc, code_append_remark]
  case leadingWidth => rw [leadingWidth_eq hw hs.visible, h.leading]
  case trail_blank => exact isAllBlank_trailing _
  case visible_ends =>
    have hv : trimEnd (trimEnd (remark body)) ≠ [] := by rwa [trimEnd_trimEnd]
    rw [hvisible, trimEnd_append_of_visible _ hv, trimEnd_trimEnd]
  case gaps_blank => simpa [h.leading, hw, isAllBlank_trailing] using h.gaps_blank
  case labelled => exact h.leading ▸ h.labelled
  case instructed => exact h.instructed
  case remarked =>
    refine ⟨?_, hcomment⟩
    rw [beforeComment, beforeCommentGap, if_neg hcomment, beforeTail_eq, ← hcode]
    rfl
  case labelGap_start => exact h.labelGap_start
  case labelGap_absent => exact h.labelGap_absent
  case commentGap_start =>
    intro _
    exact (trimEnd_append_of_blank _ (isAllBlank_trailing _)).trans h.tail_ends

theorem dissects (h : a.FitsCode w body number kind) (hw : isAllBlank w = true)
    (hs : OpensCode body) :
    ∃ commentGap comment trail,
      Dissects { a with commentGap, comment, trail }
        ⟨w ++ body, number, kind, commentToken? (w ++ body) number⟩ := by
  rw [commentToken?_eq, remark_blank_append hw, code_blank_append hw]
  by_cases hr : remark body = []
  · rw [if_pos hr]
    exact ⟨a.commentGap, a.comment, _, h.dissects_bare hw hs hr⟩
  · rw [if_neg hr]
    exact ⟨_, _, _, h.dissects_commented hw hs hr⟩

end FitsCode

theorem fitsCode_ofCode {w body label : Text} {number : Nat} {kind : Line.Kind}
    (hp : label <+: trimEnd (code body))
    (hl : Token.Holds number w label (Line.label? ⟨w ++ body, number, kind, none⟩))
    (hi : Line.instruction? ⟨w ++ body, number, kind, none⟩ = none) :
    (ofCode w label (trimEnd (code body))).FitsCode w body number kind := by
  obtain ⟨r, hr⟩ := hp
  have htail : (trimEnd (code body)).drop label.length = r := drop_of_eq_append hr.symm
  refine ⟨rfl, ?_, ⟨rfl, rfl⟩, rfl, hl, ?_, rfl, fun _ => rfl, ?_⟩
  · simp [statement, ofCode, htail, hr]
  · rw [hi]
    exact ⟨rfl, rfl, rfl, rfl, rfl⟩
  · have hends := trimEnd_trimEnd (code body)
    rw [← hr] at hends
    have htailEnds := trimEnd_of_append hends
    rw [← htail] at htailEnds
    exact htailEnds

theorem fitsCode_ofParts {w body label : Text} {number : Nat} {kind : Line.Kind} {p : Parts}
    (hb : BodyCut body p) (hp : label <+: trimEnd p.before)
    (hl : Token.Holds number w label (Line.label? ⟨w ++ body, number, kind, none⟩))
    (hi : Line.instruction? ⟨w ++ body, number, kind, none⟩ = some (p.instruction number w))
    (hn : Line.label? ⟨w ++ body, number, kind, none⟩ = none → p.before = []) :
    (ofParts w label p).FitsCode w body number kind := by
  obtain ⟨link, hlink⟩ := hp
  have hdrop : (trimEnd p.before).drop label.length = link := drop_of_eq_append hlink.symm
  have hbefore : label ++ link ++ trailing p.before = p.before := by
    rw [hlink, trimEnd_append_trailing]
  have hrest : p.rest.takeWhile isBlank ++ p.rest.dropWhile isBlank = p.rest :=
    List.takeWhile_append_dropWhile
  have hlinkEnds : trimEnd link = link := by
    have := trimEnd_trimEnd p.before
    rw [← hlink] at this
    exact trimEnd_of_append this
  have hinstruction : (ofParts w label p).beforeInstruction = w ++ p.before := by
    rw [← hbefore, beforeInstruction, beforeLabelGap]
    simp [ofParts, hdrop]
  have hoperands : (ofParts w label p).beforeOperands =
      w ++ p.before ++ p.mnemonic ++ p.rest.takeWhile isBlank := by
    rw [beforeOperands, beforeOperandGap, hinstruction]
    rfl
  constructor
  case leading => rfl
  case statement =>
    have hstatement : (ofParts w label p).statement =
        label ++ link ++ trailing p.before ++ p.mnemonic ++
          (p.rest.takeWhile isBlank ++ p.rest.dropWhile isBlank) := by
      simp [statement, ofParts, hdrop]
    rw [hstatement, hbefore, hrest, hb.text]
  case uncommented => exact ⟨rfl, rfl⟩
  case gaps_blank => simp [ofParts, isAllBlank_trailing, isAllBlank_lead]
  case labelled => exact hl
  case instructed =>
    rw [hi]
    refine ⟨by rw [hinstruction]; rfl, rfl, ?_, ?_⟩
    · show Token.Holds _ _ _ (p.operands? number w)
      rw [Parts.operands?, hb.trim_rest, hoperands]
      by_cases he : p.rest.dropWhile isBlank = []
      · rw [if_pos he]
        exact he
      · rw [if_neg he]
        rfl
    · intro hnone
      simp [ofParts, hb.rest_eq_nil hnone]
  case labelGap_start =>
    show trimEnd ((trimEnd p.before).drop label.length ++ trailing p.before) =
      (trimEnd p.before).drop label.length
    rw [hdrop, trimEnd_append_of_blank _ (isAllBlank_trailing _), hlinkEnds]
  case labelGap_absent =>
    intro hnone
    simp [ofParts, hn hnone, trailing]
  case tail_ends => rfl

/-! ## The text between a label and its instruction -/

/-- The text after a label: blanks, the first colon outside literals, and anything that does not end in a
blank. -/
def IsLink (raw before link : Text) : Prop :=
  ∃ blanks rest, link = blanks ++ labelMark :: rest ∧ isAllBlank blanks = true ∧
    (∀ c ∈ rest.getLast?, isBlank c = false) ∧ FirstMark labelMark raw (before ++ blanks)

theorem colon_link {w body before rest t : Text} (hw : isAllBlank w = true)
    (hcut : cutAtMark labelMark false body = some (before, labelMark :: rest))
    (ht : t <+: body) (hlt : before.length < t.length) :
    trimEnd before <+: trimEnd t ∧
      IsLink (w ++ body) (w ++ trimEnd before) ((trimEnd t).drop (trimEnd before).length) := by
  have hcolon : before ++ [labelMark] <+: body := ⟨rest, by simp [(cutAtMark_parts hcut).1]⟩
  obtain ⟨r, rfl⟩ := List.prefix_of_prefix_length_le hcolon ht (by simp; omega)
  have htrim : trimEnd (before ++ [labelMark] ++ r) =
      trimEnd before ++ (trailing before ++ labelMark :: trimEnd r) := by
    rw [List.append_assoc, List.singleton_append, trimEnd_append_cons (by decide),
      ← List.append_assoc, trimEnd_append_trailing]
  refine ⟨⟨_, htrim.symm⟩, trailing before, trimEnd r, drop_of_eq_append htrim,
    isAllBlank_trailing _, fun c hc => getLast_trimEnd hc, ?_⟩
  rw [List.append_assoc, trimEnd_append_trailing]
  apply cutAtMark_firstMark (by decide)
  rw [cutAtMark_blank_append (by decide) hw, hcut]
  rfl

/-- The regions leave out nothing but the text between a label and its instruction. -/
def Joins (a : Anatomy) (l : Line) : Prop :=
  match l.kind with
  | .comment => a.link = [] ∧ a.tail = []
  | .instruction _ _ => a.link = [] ∧ a.tail = []
  | .label _ _ => IsLink l.raw (a.leading ++ a.label) (a.link ++ a.tail)
  | _ => True

theorem blank_dissects {raw : Text} (h : isAllBlank raw = true) (number : Nat) :
    Dissects { trail := raw } ⟨raw, number, .other, none⟩ := by
  refine ⟨rfl, ?_, h, rfl, rfl, rfl, ⟨rfl, rfl, rfl, rfl, rfl⟩, ⟨rfl, rfl⟩, rfl, fun _ => rfl,
    fun hn => absurd rfl hn⟩
  simp [Line.leadingWidth, Line.isBlank, h]

theorem comment_dissects {w : Text} (hw : isAllBlank w = true) (s : Text) (number : Nat) :
    Dissects
      { leading := w, comment := trimEnd (commentMark :: s), trail := trailing (commentMark :: s) }
      ⟨w ++ commentMark :: s, number, .comment,
        some (.after number w (trimEnd (commentMark :: s)))⟩ := by
  have hb : isBlank commentMark = false := by decide
  have hc : trimEnd (commentMark :: s) ≠ [] := by
    rw [trimEnd_cons_of_visible hb]
    exact List.cons_ne_nil _ _
  have hvisible :
      visible
        { leading := w, comment := trimEnd (commentMark :: s), trail := trailing (commentMark :: s) } =
        w ++ trimEnd (commentMark :: s) := by
    simp [visible_eq, statement]
  constructor
  case text => rw [hvisible, List.append_assoc, trimEnd_append_trailing]
  case leadingWidth => exact leadingWidth_eq hw (opensVisible_comment s) _ _ _
  case trail_blank => exact isAllBlank_trailing _
  case visible_ends =>
    have hv : trimEnd (trimEnd (commentMark :: s)) ≠ [] := by rwa [trimEnd_trimEnd]
    rw [hvisible, trimEnd_append_of_visible _ hv, trimEnd_trimEnd]
  case gaps_blank => simpa using hw
  case labelled => rfl
  case instructed => exact ⟨rfl, rfl, rfl, rfl, rfl⟩
  case remarked =>
    refine ⟨?_, hc⟩
    rw [beforeComment, beforeCommentGap, if_neg hc, beforeTail_eq]
    simp [statement]
  case labelGap_start => rfl
  case labelGap_absent => exact fun _ => rfl
  case commentGap_start => exact fun _ => rfl

/-- The anatomy of code that is no assignment, by what its body holds. -/
def ofBody (w body : Text) : Option Text → Option Parts → Anatomy
  | none, none => ofCode w [] (trimEnd (code body))
  | some before, none => ofCode w (trimEnd before) (trimEnd (code body))
  | none, some p => ofParts w (trimEnd p.before) p
  | some before, some p => ofParts w (trimEnd before) p

theorem ofBody_fits {w body : Text} (hw : isAllBlank w = true) (number : Nat)
    {parts : Option Parts} (hparts : ∀ p, parts = some p → BodyCut body p) (comment : Option Token) :
    (ofBody w body (colonText? body parts) parts).FitsCode w body number
        (bodyKind number w (colonText? body parts) parts) ∧
      ∀ commentGap comment' trail,
        Joins
          { ofBody w body (colonText? body parts) parts with commentGap, comment := comment', trail }
          ⟨w ++ body, number, bodyKind number w (colonText? body parts) parts, comment⟩ := by
  cases hcolon : colonText? body parts with
  | none =>
    cases parts with
    | none =>
      exact ⟨fitsCode_ofCode List.nil_prefix rfl rfl, fun _ _ _ => trivial⟩
    | some p =>
      refine ⟨fitsCode_ofParts (hparts p rfl) (List.prefix_refl _) ?_ rfl ?_,
        fun _ _ _ => ⟨by simp [ofBody, ofParts], rfl⟩⟩
      · show Token.Holds number w (trimEnd p.before) (p.label? number w)
        rw [Parts.label?]
        by_cases hb : p.before = []
        · rw [if_pos hb, hb]
          rfl
        · rw [if_neg hb]
          rfl
      · intro hn
        by_cases hb : p.before = []
        · exact hb
        · rw [show Line.label? _ = p.label? number w from rfl, Parts.label?, if_neg hb] at hn
          cases hn
  | some before =>
    obtain ⟨⟨rest, hcut⟩, hne, hcode, hlt⟩ := colonText?_eq_some hcolon
    cases parts with
    | none =>
      obtain ⟨hp, hlink⟩ := colon_link hw hcut (code_isPrefix body) hcode
      refine ⟨fitsCode_ofCode hp rfl rfl, fun _ _ _ => ?_⟩
      simpa [Joins, ofBody, ofCode, bodyKind] using hlink
    | some p =>
      have hcutp := hparts p rfl
      obtain ⟨hp, hlink⟩ := colon_link hw hcut hcutp.before_isPrefix (hlt p rfl)
      refine ⟨fitsCode_ofParts hcutp hp rfl rfl (by simp [bodyKind, Line.label?]),
        fun _ _ _ => ?_⟩
      simpa [Joins, ofBody, ofParts, bodyKind] using hlink

/-- A line of code that is no assignment has the anatomy of its body. -/
theorem body_dissects {w s : Text} (hw : isAllBlank w = true) (hs : OpensCode s) {number : Nat}
    (hr : Assignment.read? (w ++ code s) number = none) {parts : Option Parts}
    (hparts : bodyParts? (isMargined w s) s = parts) :
    (Line.classify (w ++ s) number).kind = bodyKind number w (colonText? s parts) parts ∧
    ∃ commentGap comment trail, ∃ a : Anatomy,
      a = { ofBody w s (colonText? s parts) parts with commentGap, comment, trail } ∧
      a.Dissects (Line.classify (w ++ s) number) ∧ a.Joins (Line.classify (w ++ s) number) := by
  have hk : Line.codeKind (w ++ s) w (w ++ code s) number =
      bodyKind number w (colonText? s parts) parts := by
    simp [Line.codeKind, hr, statementKind_eq hw hs, hparts]
  rw [classify_code hw hs, hk]
  obtain ⟨hf, hj⟩ := ofBody_fits hw number (fun p hp => bodyParts?_cut (hparts.trans hp))
    (commentToken? (w ++ s) number)
  obtain ⟨g, c, t, hd⟩ := hf.dissects hw hs
  exact ⟨rfl, g, c, t, _, rfl, hd, hj g c t⟩

theorem classify_dissects (raw : Text) (number : Nat) :
    ∃ a : Anatomy, a.Dissects (Line.classify raw number) ∧ a.Joins (Line.classify raw number) := by
  rcases line_cases raw with h | ⟨w, s, rfl, hw⟩ | ⟨w, s, rfl, hw, hs⟩
  · rw [classify_blank h]
    exact ⟨_, blank_dissects h number, trivial⟩
  · rw [classify_comment hw]
    exact ⟨_, comment_dissects hw s number, rfl, rfl⟩
  · cases hr : Assignment.read? (w ++ code s) number with
    | some assignment =>
      have hk : Line.codeKind (w ++ s) w (w ++ code s) number = .assignment assignment := by
        simp [Line.codeKind, hr]
      rw [classify_code hw hs, hk]
      have hf : (ofCode w [] (trimEnd (code s))).FitsCode w s number (.assignment assignment) :=
        fitsCode_ofCode List.nil_prefix rfl rfl
      obtain ⟨g, c, t, hd⟩ := hf.dissects hw hs
      exact ⟨_, hd, trivial⟩
    | none =>
      obtain ⟨-, g, c, t, a, -, hd, hj⟩ := body_dissects hw hs hr rfl
      exact ⟨a, hd, hj⟩

end Anatomy

end AsmAssist
