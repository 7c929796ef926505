import AsmAssist.Proofs.Comments
import AsmAssist.Proofs.Tokens
import Mathlib.Data.List.Forall2

/-!
# Lines under another indentation

The reading of an indented line is the reading of its body moved to the right: `bodyLine` reads the body from
column 0 on line 0, and every indentation and line number shift that one reading. So two indentations of one
body give the same kinds and texts, at columns that differ by the difference of their widths.
-/

namespace AsmAssist

open Text

/-! ## Moving a reading -/

/-- The span on line `line`, `width` columns further to the right. -/
def Span.shift (line width : Nat) (s : Span) : Span :=
  ⟨⟨line, width + s.start.character⟩, ⟨line, width + s.stop.character⟩⟩

@[simp] theorem Span.stop_shift (line width : Nat) (s : Span) :
    (s.shift line width).stop.character = width + s.stop.character := rfl

def Token.shift (line width : Nat) (t : Token) : Token := ⟨t.text, t.span.shift line width⟩

def Assignment.shift (line width : Nat) (a : Assignment) : Assignment :=
  ⟨a.name.shift line width, a.operator.shift line width, a.kind, a.value.shift line width⟩

def Instruction.shift (line width : Nat) (i : Instruction) : Instruction :=
  ⟨i.mnemonic.shift line width, i.operands.map (.shift line width), i.jump⟩

def Line.Kind.shift (line width : Nat) : Line.Kind → Line.Kind
  | .other => .other
  | .comment => .comment
  | .assignment a => .assignment (a.shift line width)
  | .instruction name i => .instruction (name.map (.shift line width)) (i.shift line width)
  | .label name i => .label (name.shift line width) (i.map (.shift line width))

/-- The line with its number changed and `w` put in front of it. -/
def Line.shift (w : Text) (number : Nat) (l : Line) : Line where
  raw := w ++ l.raw
  number
  kind := l.kind.shift number (columns w)
  comment := l.comment.map (.shift number (columns w))

theorem Token.after_append (line : Nat) (w before text : Text) :
    Token.after line (w ++ before) text = (Token.after 0 before text).shift line (columns w) := by
  simp [Token.after, Token.shift, Span.shift, Span.onLine, Nat.add_assoc]

theorem Token.after_indentation (line : Nat) (w text : Text) :
    Token.after line w text = (Token.after 0 [] text).shift line (columns w) := by
  rw [← Token.after_append, List.append_nil]

/-! ## The tokens of a body -/

theorem Assignment.Placed.blank_append {code lead gap space w : Text} {p : Assignment.Parts}
    (h : Assignment.Placed code p lead gap space) (hw : isAllBlank w = true) :
    Assignment.Placed (w ++ code) p (w ++ lead) gap space := by
  refine { h with text := ?_, lead_blank := ?_ }
  · rw [List.append_assoc, ← h.text]
  · simp [hw, h.lead_blank]

theorem Assignment.placed_append (line : Nat) (w lead gap space : Text) (p : Assignment.Parts)
    (kind : Operator) :
    Assignment.placed line (w ++ lead) gap space p kind =
      (Assignment.placed 0 lead gap space p kind).shift line (columns w) := by
  simp only [Assignment.placed, Assignment.shift, List.append_assoc, Token.after_append]

theorem Assignment.read?_blank_append {w : Text} (hw : isAllBlank w = true) (code : Text) (line : Nat) :
    read? (w ++ code) line = (read? code 0).map (.shift line (columns w)) := by
  have hparts := parts?_blank_append hw code
  cases hp : parts? code with
  | none =>
    rw [hp] at hparts
    simp [read?, hp, hparts]
  | some p =>
    rw [hp] at hparts
    cases hk : Operator.ofText? p.operator with
    | none => simp [read?, hp, hparts, hk]
    | some kind =>
      obtain ⟨lead, gap, space, h⟩ := parts?_placed hp
      rw [h.read? hp hk, (h.blank_append hw).read? hparts hk, placed_append]
      rfl

theorem Instruction.Parts.instruction_append (p : Instruction.Parts) (line : Nat) (w : Text) :
    p.instruction line w = (p.instruction 0 []).shift line (columns w) := by
  have hoperands : p.operands? line w = (p.operands? 0 []).map (.shift line (columns w)) := by
    simp only [operands?]
    split
    · rfl
    · simp only [Option.map_some, List.append_assoc, Token.after_append, List.nil_append]
  simp only [instruction, Instruction.shift, hoperands, Token.after_append, List.nil_append]

theorem Instruction.Parts.label?_append (p : Instruction.Parts) (line : Nat) (w : Text) :
    p.label? line w = (p.label? 0 []).map (.shift line (columns w)) := by
  unfold label?
  split
  · rfl
  · rw [Token.after_indentation]
    rfl

namespace Reading

open Line (Kind classify)

theorem bodyKind_append (number : Nat) (w : Text) (colon : Option Text)
    (parts : Option Instruction.Parts) :
    bodyKind number w colon parts = (bodyKind 0 [] colon parts).shift number (columns w) := by
  cases colon with
  | some before =>
    simp only [bodyKind, Kind.shift, ← Token.after_indentation, Option.map_map, Function.comp_def,
      ← Instruction.Parts.instruction_append]
  | none =>
    cases parts with
    | none => rfl
    | some p =>
      simp only [bodyKind, Kind.shift, ← Instruction.Parts.label?_append,
        ← Instruction.Parts.instruction_append]

theorem kindOf_append {w : Text} (hw : isAllBlank w = true) (number : Nat) (code : Text) :
    kindOf number w code false = (kindOf 0 [] code false).shift number (columns w) := by
  unfold kindOf
  rw [Assignment.read?_blank_append hw, List.nil_append]
  cases Assignment.read? code 0 with
  | some a => rfl
  | none => exact bodyKind_append number w _ _

theorem commentToken?_append {w : Text} (hw : isAllBlank w = true) (s : Text) (number : Nat) :
    commentToken? (w ++ s) number = (commentToken? s 0).map (.shift number (columns w)) := by
  rw [commentToken?_eq, commentToken?_eq, remark_blank_append hw, code_blank_append hw]
  split
  · rfl
  · rw [Token.after_append]
    rfl

/-- The reading of a body without its indentation, none of its words taken as a margin token. -/
def bodyLine (s : Text) : Line where
  raw := s
  number := 0
  kind := if s.head? = some commentMark then .comment else kindOf 0 [] (code s) false
  comment := commentToken? s 0

theorem bodyLine_comment (t : Text) :
    bodyLine (commentMark :: t) =
      { raw := commentMark :: t, number := 0, kind := .comment,
        comment := some (.after 0 [] (trimEnd (commentMark :: t))) } := by
  have hcut : cutAtComment (commentMark :: t) = some ([], commentMark :: t) :=
    cutAtMark_cons_mark (by decide) t
  simp [bodyLine, commentToken?, hcut]

theorem bodyLine_code {s : Text} (hs : OpensCode s) :
    bodyLine s =
      { raw := s, number := 0, kind := kindOf 0 [] (code s) false, comment := commentToken? s 0 } := by
  obtain ⟨c, t, rfl, -, hc⟩ := hs
  simp [bodyLine, hc]

theorem classify_indented {w s : Text} (hw : isAllBlank w = true) (hne : w ≠ []) (hs : OpensVisible s)
    (number : Nat) : classify (w ++ s) number = (bodyLine s).shift w number := by
  rcases comment_or_code hs with ⟨t, rfl⟩ | hcode
  · rw [classify_comment hw, bodyLine_comment, Token.after_indentation]
    rfl
  · -- an indented line has no margin token, whatever its body
    have hmargined : isMargined w s = false := by
      cases w with
      | nil => exact absurd rfl hne
      | cons d w => rfl
    have hkind := kind_classify hw hcode number
    rw [hmargined, kindOf_append hw] at hkind
    rw [classify_code hw hcode] at hkind ⊢
    rw [show Line.codeKind (w ++ s) w (w ++ code s) number = _ from hkind, commentToken?_append hw,
      bodyLine_code hcode]
    rfl

end Reading

/-! ## The regions of a body -/

theorem Text.takeColumns_append (w s : Text) (column : Nat) :
    takeColumns (columns w + column) (w ++ s) = w ++ takeColumns column s := by
  induction w with
  | nil => simp
  | cons c w ih =>
    -- the first character takes a column of its own, so there is one left to take
    have hc := unitWidth_pos c
    obtain ⟨k, hk⟩ : ∃ k, unitWidth c + columns w + column = k + 1 :=
      ⟨unitWidth c + columns w + column - 1, by omega⟩
    have hrest : k + 1 - unitWidth c = columns w + column := by omega
    rw [columns_cons, hk, List.cons_append, takeColumns, hrest, ih, List.cons_append]

namespace Line

theorem blankRunStart_append {w : Text} (hw : isAllBlank w = true) (s : Text) (column floor : Nat) :
    blankRunStart (w ++ s) (columns w + column) (columns w + floor) =
      columns w + blankRunStart s column floor := by
  unfold blankRunStart
  rw [takeColumns_append]
  by_cases hv : trimEnd (takeColumns column s) = []
  · -- trimming goes on into the indentation, but the floor is behind it
    have hblank : isAllBlank (w ++ takeColumns column s) = true := by
      rw [isAllBlank_append, hw, trimEnd_eq_nil_iff.mp hv]
      rfl
    rw [trimEnd_eq_nil_iff.mpr hblank, hv, columns_nil]
    omega
  · rw [trimEnd_append_of_visible w hv, columns_append]
    omega

section

variable {w : Text} (number : Nat) (l : Line)

theorem label?_shift : (l.shift w number).label? = l.label?.map (.shift number (columns w)) := by
  cases hk : l.kind <;> simp [label?, Line.shift, Kind.shift, hk]

theorem instruction?_shift :
    (l.shift w number).instruction? = l.instruction?.map (.shift number (columns w)) := by
  cases hk : l.kind <;> simp [instruction?, Line.shift, Kind.shift, hk]

theorem gapBefore_shift (hw : isAllBlank w = true) (next : Span) (floor : Nat) :
    (l.shift w number).gapBefore (next.shift number (columns w)) (columns w + floor) =
      (l.gapBefore next floor).shift number (columns w) := by
  simp only [gapBefore, Line.shift, Span.shift, Span.onLine, blankRunStart_append hw]

theorem labelSpan_shift (hw : isAllBlank w = true) (hs : OpensVisible l.raw) :
    (l.shift w number).labelSpan = l.labelSpan.shift number (columns w) := by
  have hmoved : (l.shift w number).leadingWidth = columns w := Anatomy.leadingWidth_eq hw hs _ _ _
  have hbase : l.leadingWidth = columns [] :=
    Anatomy.leadingWidth_eq (w := []) rfl hs l.number l.kind l.comment
  unfold labelSpan
  rw [label?_shift, hmoved, hbase]
  cases l.label? <;> rfl

theorem instructionSpans_shift (hw : isAllBlank w = true) (column : Nat) :
    (l.shift w number).instructionSpans (columns w + column) =
      match l.instructionSpans column with
      | (labelGap, mnemonic, operandGap, operands) =>
        (labelGap.shift number (columns w), mnemonic.shift number (columns w),
          operandGap.shift number (columns w), operands.shift number (columns w)) := by
  unfold instructionSpans
  rw [instruction?_shift]
  cases l.instruction? with
  | none => rfl
  | some i =>
    have hgap := gapBefore_shift number l hw i.mnemonic.span column
    cases ho : i.operands with
    | none =>
      simp only [Option.map_some, Instruction.shift, Token.shift, ho, hgap]
      rfl
    | some operands =>
      simp only [Option.map_some, Instruction.shift, Token.shift, ho, hgap]
      rfl

theorem commentSpans_shift (hw : isAllBlank w = true) (column : Nat) :
    (l.shift w number).commentSpans (columns w + column) =
      match l.commentSpans column with
      | (commentGap, comment) =>
        (commentGap.shift number (columns w), comment.shift number (columns w)) := by
  have hcomment : (l.shift w number).comment = l.comment.map (.shift number (columns w)) := rfl
  unfold commentSpans
  rw [hcomment]
  cases l.comment with
  | none => rfl
  | some comment =>
    simp only [Option.map_some, Token.shift, gapBefore_shift number l hw]

/-- All regions but the indentation move with the body. -/
theorem layout_shift (hw : isAllBlank w = true) (hs : OpensVisible l.raw) :
    (l.shift w number).layout.spans.tail = l.layout.spans.tail.map (.shift number (columns w)) := by
  -- each group of regions is laid out from the end of the one before it
  have hlabel := labelSpan_shift number l hw hs
  have hinstruction := instructionSpans_shift number l hw l.labelSpan.stop.character
  rcases hi : l.instructionSpans l.labelSpan.stop.character with
    ⟨labelGap, mnemonic, operandGap, operands⟩
  have hcomment := commentSpans_shift number l hw operands.stop.character
  rcases hc : l.commentSpans operands.stop.character with ⟨commentGap, comment⟩
  rw [hi] at hinstruction
  rw [hc] at hcomment
  simp only [layout, Layout.spans, hlabel, Span.stop_shift, hinstruction, hcomment, hi, hc,
    List.tail_cons, List.map_cons, List.map_nil]

theorem registers_shift :
    (l.shift w number).registers = l.registers.map (.shift number (columns w)) := by
  have hoperands : (l.shift w number).operands? = l.operands?.map (.shift number (columns w)) := by
    unfold operands?
    rw [instruction?_shift]
    cases l.instruction? <;> rfl
  unfold registers
  rw [hoperands]
  cases l.operands? with
  | none => rfl
  | some operands =>
    simp only [Option.map_some, Register.all, List.map_map]
    apply List.map_congr_left
    intro r _
    simp [Run.token, Token.shift, Span.shift, Span.onLine, Nat.add_assoc]

end

end Line

/-! ## Two indentations of one body -/

/-- The span `t` is `s` put on line `line`, its columns moved by `distance`. -/
structure Span.Moved (line : Nat) (distance : Int) (s t : Span) : Prop where
  on_line : t.start.line = line ∧ t.stop.line = line
  start : (t.start.character : Int) = s.start.character + distance
  stop : (t.stop.character : Int) = s.stop.character + distance

structure Token.Moved (line : Nat) (distance : Int) (t u : Token) : Prop where
  text : u.text = t.text
  span : t.span.Moved line distance u.span

structure Assignment.Moved (line : Nat) (distance : Int) (a b : Assignment) : Prop where
  name : a.name.Moved line distance b.name
  operator : a.operator.Moved line distance b.operator
  kind : b.kind = a.kind
  value : a.value.Moved line distance b.value

structure Instruction.Moved (line : Nat) (distance : Int) (i j : Instruction) : Prop where
  mnemonic : i.mnemonic.Moved line distance j.mnemonic
  operands : Option.Rel (Token.Moved line distance) i.operands j.operands
  jump : j.jump = i.jump

/-- The same kind of line, its tokens moved. -/
inductive Line.Kind.Moved (line : Nat) (distance : Int) : Line.Kind → Line.Kind → Prop
  | other : Moved line distance .other .other
  | comment : Moved line distance .comment .comment
  | assignment {a b : Assignment} (h : a.Moved line distance b) :
      Moved line distance (.assignment a) (.assignment b)
  | instruction {t u : Option Token} {i j : Instruction}
      (ht : Option.Rel (Token.Moved line distance) t u) (hi : i.Moved line distance j) :
      Moved line distance (.instruction t i) (.instruction u j)
  | label {t u : Token} {i j : Option Instruction} (ht : t.Moved line distance u)
      (hi : Option.Rel (Instruction.Moved line distance) i j) :
      Moved line distance (.label t i) (.label u j)

/-- The same reading on line `line`, all but the indentation moved. -/
structure Line.Moved (line : Nat) (distance : Int) (l m : Line) : Prop where
  kind : l.kind.Moved line distance m.kind
  comment : Option.Rel (Token.Moved line distance) l.comment m.comment
  registers : List.Forall₂ (Token.Moved line distance) l.registers m.registers
  layout : List.Forall₂ (Span.Moved line distance) l.layout.spans.tail m.layout.spans.tail

section

variable (line line' width width' : Nat)

theorem Span.shift_moved (s : Span) :
    (s.shift line width).Moved line' (width' - width) (s.shift line' width') := by
  refine ⟨⟨rfl, rfl⟩, ?_, ?_⟩
  · simp only [Span.shift]
    omega
  · simp only [Span.shift]
    omega

theorem Token.shift_moved (t : Token) :
    (t.shift line width).Moved line' (width' - width) (t.shift line' width') :=
  ⟨rfl, t.span.shift_moved line line' width width'⟩

theorem option_rel_map {α β : Type} {r : β → β → Prop} {f g : α → β} (h : ∀ a, r (f a) (g a))
    (o : Option α) : Option.Rel r (o.map f) (o.map g) := by
  cases o with
  | none => exact .none
  | some a => exact .some (h a)

theorem Instruction.shift_moved (i : Instruction) :
    (i.shift line width).Moved line' (width' - width) (i.shift line' width') :=
  ⟨i.mnemonic.shift_moved line line' width width',
    option_rel_map (Token.shift_moved line line' width width') i.operands, rfl⟩

theorem Line.Kind.shift_moved (k : Line.Kind) :
    (k.shift line width).Moved line' (width' - width) (k.shift line' width') := by
  have htoken := Token.shift_moved line line' width width'
  have hinstruction := Instruction.shift_moved line line' width width'
  cases k with
  | other => exact .other
  | comment => exact .comment
  | assignment a => exact .assignment ⟨htoken a.name, htoken a.operator, rfl, htoken a.value⟩
  | instruction t i => exact .instruction (option_rel_map htoken t) (hinstruction i)
  | label t i => exact .label (htoken t) (option_rel_map hinstruction i)

end

theorem forall₂_map_same {α β : Type} {r : β → β → Prop} {f g : α → β} (h : ∀ a, r (f a) (g a))
    (xs : List α) : List.Forall₂ r (xs.map f) (xs.map g) := by
  rw [List.forall₂_map_left_iff, List.forall₂_map_right_iff]
  exact List.forall₂_same.mpr fun a _ => h a

namespace Line

theorem shift_moved {l : Line} (hs : OpensVisible l.raw) {v w : Text} (hv : isAllBlank v = true)
    (hw : isAllBlank w = true) (m n : Nat) :
    (l.shift v m).Moved n (columns w - columns v) (l.shift w n) where
  kind := l.kind.shift_moved m n (columns v) (columns w)
  comment := option_rel_map (Token.shift_moved m n (columns v) (columns w)) l.comment
  registers := by
    rw [registers_shift, registers_shift]
    exact forall₂_map_same (Token.shift_moved m n (columns v) (columns w)) l.registers
  layout := by
    rw [layout_shift m l hv hs, layout_shift n l hw hs]
    exact forall₂_map_same (Span.shift_moved m n (columns v) (columns w)) l.layout.spans.tail

/-- Two indentations of one body, on any two lines, are read the same, and all tokens, registers and regions
behind the indentation are as far apart as the indentations differ in width. -/
theorem classify_moved {s : Text} (hs : OpensVisible s) {v w : Text} (hv : isAllBlank v = true)
    (hv_ne : v ≠ []) (hw : isAllBlank w = true) (hw_ne : w ≠ []) (m n : Nat) :
    (classify (v ++ s) m).Moved n (columns w - columns v) (classify (w ++ s) n) := by
  rw [Reading.classify_indented hv hv_ne hs, Reading.classify_indented hw hw_ne hs]
  exact shift_moved hs hv hw m n

/-- From three wide spaces to one tab, two columns to the left, with letters of two columns in the body. -/
theorem classify_moved_left :
    let s := "𝓐: MOV R1, '𝓑' ; é".toList
    let v := "\u3000\u3000\u3000".toList
    let w := "\t".toList
    OpensVisible s ∧ (isAllBlank v = true ∧ v ≠ []) ∧ (isAllBlank w = true ∧ w ≠ []) ∧
      (classify (v ++ s) 4).Moved 9 (-2) (classify (w ++ s) 9) := by
  intro s v w
  have hs : OpensVisible s := ⟨'𝓐', _, rfl, by decide⟩
  have hv : isAllBlank v = true ∧ v ≠ [] := by decide
  have hw : isAllBlank w = true ∧ w ≠ [] := by decide
  have hdistance : (columns w : Int) - columns v = -2 := by decide
  have hmoved := classify_moved hs hv.1 hv.2 hw.1 hw.2 4 9
  rw [hdistance] at hmoved
  exact ⟨hs, hv, hw, hmoved⟩

end Line

end AsmAssist
