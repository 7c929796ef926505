import AsmAssist.Proofs.Reading
import Mathlib.Order.Bounds.Defs

/-!
# The offsets of the comment and of the colon

The comment and the colon of a label are found by one pass that counts quotes; whether a column is inside a
literal is asked of another. Both agree on every line: each mark found is the one with the least byte offset
at which no literal is open. So the comment of a line is the text from there to the end without its blanks,
however the line was recognised, and the colon of a label is in front of the comment and of the mnemonic.
-/

namespace AsmAssist

open Text

/-! ## Offsets -/

section

variable {raw before text : Text}

theorem columnOfOffset_bytes (h : before <+: raw) : columnOfOffset raw (bytes before) = columns before := by
  rw [columnOfOffset, takeBytes_of_isPrefix h]

theorem bytes_le_of_isPrefix (h : before <+: text) : bytes before ≤ bytes text := by
  obtain ⟨rest, rfl⟩ := h
  rw [bytes_append]
  omega

theorem bytes_lt_of_concat {c : Char} (h : before ++ [c] <+: text) : bytes before < bytes text := by
  apply bytes_lt_of_isPrefix ((List.prefix_append _ _).trans h)
  have hlength := h.length_le
  rw [List.length_append, List.length_singleton] at hlength
  omega

theorem columns_lt_of_concat {c : Char} (h : before ++ [c] <+: text) : columns before < columns text := by
  have hle := columns_le_of_isPrefix h
  have hwidth := unitWidth_pos c
  simp only [columns_append, columns_cons, columns_nil] at hle
  omega

/-- Of two parts at the head of a line, the one that ends first is shorter. -/
theorem concat_isPrefix_of_bytes_lt {c : Char} (h : before ++ [c] <+: raw) (htext : text <+: raw)
    (hlt : bytes before < bytes text) : before ++ [c] <+: text := by
  apply List.prefix_of_prefix_length_le h htext
  apply Nat.le_of_not_lt
  intro hlength
  have hle : text.length ≤ before.length := by
    simp only [List.length_append, List.length_singleton] at hlength
    omega
  have := bytes_le_of_isPrefix (List.prefix_of_prefix_length_le htext ((List.prefix_append _ _).trans h) hle)
  omega

end

/-- The token between two byte offsets of a line. -/
def Token.between (raw : Text) (line start stop : Nat) : Token :=
  ⟨(takeBytes stop raw).drop (takeBytes start raw).length,
    .onLine line (columnOfOffset raw start) (columnOfOffset raw stop)⟩

theorem Token.between_bytes {raw before text : Text} (h : before ++ text <+: raw) (line : Nat) :
    Token.between raw line (bytes before) (bytes (before ++ text)) = .after line before text := by
  have hbefore : before <+: raw := (List.prefix_append _ _).trans h
  rw [Token.between, columnOfOffset_bytes h, columnOfOffset_bytes hbefore, takeBytes_of_isPrefix h,
    takeBytes_of_isPrefix hbefore, List.drop_left, columns_append]
  rfl

/-! ## The least offset of a mark -/

/-- The byte offset of a mark that is outside every literal. -/
def MarkOutside (mark : Char) (raw : Text) (offset : Nat) : Prop :=
  (∃ before, before ++ [mark] <+: raw ∧ bytes before = offset) ∧
    openingQuote raw (columnOfOffset raw offset) = none

/-- Byte offset of the colon that a label is looked for at. -/
def colonStart (raw : Text) : Option Nat :=
  (cutAtMark labelMark false raw).map fun (before, _) => bytes before

theorem markOutside_iff {mark : Char} {raw before : Text} (h : before ++ [mark] <+: raw) :
    MarkOutside mark raw (bytes before) ↔ endsQuoted false before = false := by
  have hbefore : before <+: raw := (List.prefix_append _ _).trans h
  rw [MarkOutside, columnOfOffset_bytes hbefore, openingQuote_eq_none_iff hbefore]
  exact and_iff_right ⟨before, h, rfl⟩

theorem FirstMark.isLeast {mark : Char} {raw before : Text} (h : FirstMark mark raw before) :
    IsLeast {offset | MarkOutside mark raw offset} (bytes before) := by
  refine ⟨(markOutside_iff h.stands).mpr h.outside, ?_⟩
  rintro offset ⟨⟨earlier, hstands, rfl⟩, houtside⟩
  apply Nat.le_of_not_lt
  intro hlt
  have hquoted := h.first earlier
    (concat_isPrefix_of_bytes_lt hstands ((List.prefix_append _ _).trans h.stands) hlt)
  have hunquoted := (markOutside_iff hstands).mp ⟨⟨earlier, hstands, rfl⟩, houtside⟩
  rw [hquoted] at hunquoted
  cases hunquoted

theorem exists_firstMark {mark : Char} {raw : Text} {offset : Nat}
    (h : IsLeast {offset | MarkOutside mark raw offset} offset) :
    ∃ before, FirstMark mark raw before ∧ bytes before = offset := by
  obtain ⟨hmark, hleast⟩ := h
  obtain ⟨before, hstands, rfl⟩ := hmark.1
  refine ⟨before, ⟨hstands, (markOutside_iff hstands).mp hmark, ?_⟩, rfl⟩
  intro earlier hearlier
  cases hquoted : endsQuoted false earlier with
  | true => rfl
  | false =>
    have hprefix : earlier ++ [mark] <+: raw :=
      hearlier.trans ((List.prefix_append _ _).trans hstands)
    have hle := hleast ((markOutside_iff hprefix).mpr hquoted)
    have hlt := bytes_lt_of_concat hearlier
    omega

/-- The cut is in front of the mark with the least offset. -/
theorem cutAtMark_isLeast_iff {mark : Char} (hq : mark ≠ quoteMark) {raw : Text} {offset : Nat} :
    ((cutAtMark mark false raw).map fun (before, _) => bytes before) = some offset ↔
      IsLeast {offset | MarkOutside mark raw offset} offset := by
  constructor
  · intro h
    obtain ⟨⟨before, rest⟩, hcut, rfl⟩ := Option.map_eq_some_iff.mp h
    exact (cutAtMark_firstMark hq hcut).isLeast
  · intro h
    obtain ⟨before, hfirst, rfl⟩ := exists_firstMark h
    obtain ⟨rest, hcut⟩ := cutAtMark_of_firstMark hq hfirst
    rw [hcut]
    rfl

namespace Reading

open Line (classify)

/-! ## The comment and the colon of a line -/

theorem comment_classify (raw : Text) (number : Nat) :
    (classify raw number).comment = commentToken? raw number := by
  rcases line_cases raw with hb | ⟨w, s, rfl, hw⟩ | ⟨w, s, rfl, hw, hs⟩
  · have hcut : cutAtComment raw = none := cutAtMark_of_absent (not_mem_of_blank hb (by decide)) false
    simp [classify_blank hb, commentToken?, hcut]
  · have hcut : cutAtComment (w ++ commentMark :: s) = some (w, commentMark :: s) :=
      cutAtMark_append_mark (by decide) (cutAtMark_of_absent (not_mem_of_blank hw (by decide)) false)
        (endsQuoted_of_blank hw false) s
    simp [classify_comment hw, commentToken?, hcut]
  · rw [classify_code hw hs]

theorem commentToken?_eq_between (raw : Text) (number : Nat) :
    commentToken? raw number =
      (commentStart raw).map fun offset => .between raw number offset (bytes (trimEnd raw)) := by
  cases hcut : cutAtComment raw with
  | none => simp [commentToken?, commentStart, hcut]
  | some cut =>
    obtain ⟨code, rest⟩ := cut
    obtain ⟨rfl, tail, rfl⟩ := cutAtMark_parts hcut
    have htrim : trimEnd (code ++ commentMark :: tail) = code ++ trimEnd (commentMark :: tail) := by
      rw [trimEnd_append_cons (by decide), trimEnd_cons_of_visible (by decide)]
    have hprefix := trimEnd_isPrefix (code ++ commentMark :: tail)
    rw [htrim] at hprefix
    simp [commentToken?, commentStart, hcut, htrim, Token.between_bytes hprefix]

end Reading

namespace Line

/-- The colon at a byte offset ends the label of a line, in front of its comment and its mnemonic. -/
structure EndsLabel (raw : Text) (l : Line) (label : Token) (offset : Nat) : Prop where
  outside : openingQuote raw (columnOfOffset raw offset) = none
  behind : ∃ blanks, isAllBlank blanks = true ∧
    takeBytes offset raw = takeColumns label.span.stop.character raw ++ blanks
  before_comment : ∀ t ∈ l.comment, columnOfOffset raw offset < t.span.start.character
  before_mnemonic : ∀ m ∈ l.mnemonic?, columnOfOffset raw offset < m.span.start.character

theorem endsLabel_classify {raw : Text} {number : Nat} {label : Token} {i : Option AsmAssist.Instruction}
    (h : (classify raw number).kind = .label label i) :
    ∃ offset, colonStart raw = some offset ∧ EndsLabel raw (classify raw number) label offset := by
  obtain ⟨w, s, before, rfl, hw, hs, hcolon, rfl, rfl⟩ := Reading.kind_eq_label h
  obtain ⟨⟨rest, hcut⟩, -, hcode, hparts⟩ := Reading.colonText?_eq_some hcolon
  have hmark : before ++ [labelMark] <+: s := ⟨rest, by simp [(cutAtMark_parts hcut).1]⟩
  have hraw : cutAtMark labelMark false (w ++ s) = some (w ++ before, labelMark :: rest) := by
    rw [Reading.cutAtMark_blank_append (by decide) hw, hcut]
    rfl
  have hfirst := cutAtMark_firstMark (by decide) hraw
  have hbefore : w ++ before <+: w ++ s := (List.prefix_append _ _).trans hfirst.stands
  have hcolumn := columnOfOffset_bytes hbefore
  -- a part of the body that is longer than the text in front of the colon holds the colon
  have hpast {part : Text} (hpart : part <+: s) (hlt : before.length < part.length) :
      columnOfOffset (w ++ s) (bytes (w ++ before)) < columns (w ++ part) := by
    have hin : before ++ [labelMark] <+: part :=
      List.prefix_of_prefix_length_le hmark hpart (by rw [List.length_append]; exact hlt)
    have hcolumns := columns_lt_of_concat hin
    simp only [hcolumn, columns_append]
    omega
  refine ⟨bytes (w ++ before), by rw [colonStart, hraw]; rfl, ?_⟩
  constructor
  case outside =>
    rw [hcolumn]
    exact (openingQuote_eq_none_iff hbefore).mpr hfirst.outside
  case behind =>
    have hlabel : w ++ trimEnd before <+: w ++ s :=
      ((List.prefix_append_right_inj w).mpr (trimEnd_isPrefix before)).trans hbefore
    have hstop : (Token.after number w (trimEnd before)).span.stop.character =
        columns (w ++ trimEnd before) := (columns_append _ _).symm
    refine ⟨trailing before, isAllBlank_trailing before, ?_⟩
    rw [takeBytes_of_isPrefix hbefore, hstop, takeColumns_of_isPrefix hlabel, List.append_assoc,
      trimEnd_append_trailing]
  case before_comment =>
    intro t ht
    rw [Reading.comment_classify, Reading.commentToken?_eq] at ht
    split at ht
    · cases ht
    · cases ht
      rw [Reading.code_blank_append hw]
      exact hpast (Reading.code_isPrefix s) hcode
  case before_mnemonic =>
    intro m hm
    rw [mnemonic?, instruction?, h] at hm
    simp only [Option.map_map, Option.mem_def, Option.map_eq_some_iff] at hm
    obtain ⟨p, hp, rfl⟩ := hm
    exact hpast (Reading.bodyParts?_cut hp).before_isPrefix (hparts p hp)

/-- What the searches for marks find on a line, and what the line makes of it. -/
structure ReadsMarks (raw : Text) (l : Line) : Prop where
  comment_iff : ∀ offset, commentStart raw = some offset ↔
    IsLeast {offset | MarkOutside commentMark raw offset} offset
  colon_iff : ∀ offset, colonStart raw = some offset ↔
    IsLeast {offset | MarkOutside labelMark raw offset} offset
  comment_eq : l.comment =
    (commentStart raw).map fun offset => .between raw l.number offset (bytes (trimEnd raw))
  colon_ends : ∀ label i, l.kind = .label label i →
    ∃ offset, colonStart raw = some offset ∧ EndsLabel raw l label offset

theorem classify_readsMarks (raw : Text) (number : Nat) : ReadsMarks raw (classify raw number) where
  comment_iff _ := cutAtMark_isLeast_iff (by decide)
  colon_iff _ := cutAtMark_isLeast_iff (by decide)
  comment_eq := by
    rw [Reading.comment_classify, (Reading.classify_number raw number).2, Reading.commentToken?_eq_between]
  colon_ends _ _ h := endsLabel_classify h

end Line

end AsmAssist
