import AsmAssist.Line.Classify
import AsmAssist.Proofs.Literal
import AsmAssist.Proofs.Statement

/-!
# How a line is read

A line is blank, or a comment after its indentation, or an indentation and a *body* that opens with code.
The indentation shifts the tokens of the body and changes nothing else about them but one thing: a body at
the left margin that holds blanks has a margin token, which is no mnemonic.
-/

namespace AsmAssist.Reading

open Text Instruction
open Line (Kind classify codeKind statementKind colonLabel?)

/-- The part of a line in front of its comment. -/
def code (raw : Text) : Text := ((cutAtComment raw).map Prod.fst).getD raw

/-- The comment with its mark and all that follows it. -/
def remark (raw : Text) : Text := ((cutAtComment raw).map Prod.snd).getD []

/-- A visible character that starts no comment opens the text. -/
def OpensCode (s : Text) : Prop := ∃ c t, s = c :: t ∧ isBlank c = false ∧ c ≠ commentMark

/-- The place of the comment in a line. -/
def commentToken? (raw : Text) (number : Nat) : Option Token :=
  (cutAtComment raw).map fun (code, comment) => .after number code (trimEnd comment)

/-- The parts of a body, whose first word is a margin token or not. -/
def bodyParts? (margined : Bool) (body : Text) : Option Parts :=
  let statement := trimEnd (code body)
  let margin := if margined then statement.takeWhile (!isBlank ·) else []
  (seek? (statement.drop margin.length)).map (.behind margin)

/-- The text of a body in front of the colon that ends its label. -/
def colonText? (body : Text) (parts : Option Parts) : Option Text :=
  match cutAtMark labelMark false body with
  | none => none
  | some (before, _) =>
    if 0 < before.length && before.length < (code body).length &&
        parts.all fun p => before.length < p.before.length then some before
    else none

/-- Whether the first word of a body after an indentation is a margin token. -/
def isMargined (lead body : Text) : Bool := lead.isEmpty && body.any isBlank

/-- The kind of a line that is no assignment, from what its body holds. -/
def bodyKind (number : Nat) (lead : Text) : Option Text → Option Parts → Kind
  | some before, parts =>
    .label (.after number lead (trimEnd before)) (parts.map (·.instruction number lead))
  | none, some p => .instruction (p.label? number lead) (p.instruction number lead)
  | none, none => .other

/-! ## The code and the comment -/

theorem code_append_remark (raw : Text) : code raw ++ remark raw = raw := by
  unfold code remark
  cases h : cutAtComment raw with
  | none => simp
  | some cut => exact (cutAtMark_parts h).1.symm

theorem code_isPrefix (raw : Text) : code raw <+: raw := ⟨remark raw, code_append_remark raw⟩

theorem not_mem_code {c : Char} {raw : Text} (h : c ∉ raw) : c ∉ code raw :=
  fun hm => h ((code_isPrefix raw).subset hm)

theorem cutAtComment_code (raw : Text) : cutAtComment (code raw) = none := by
  unfold code
  cases h : cutAtComment raw with
  | none => simpa using h
  | some cut => exact (cutAtMark_before h).1

theorem remark_eq_nil_iff {raw : Text} : remark raw = [] ↔ cutAtComment raw = none := by
  unfold remark
  cases h : cutAtComment raw with
  | none => simp
  | some cut =>
    obtain ⟨tail, ht⟩ := (cutAtMark_parts h).2
    simp [ht]

theorem code_eq_self {raw : Text} (h : cutAtComment raw = none) : code raw = raw := by
  simp [code, h]

/-- A comment line has no code. -/
theorem code_comment (s : Text) : code (commentMark :: s) = [] := by
  simp [code, cutAtComment, cutAtMark_cons_mark (show commentMark ≠ quoteMark by decide)]

theorem commentToken?_eq (raw : Text) (number : Nat) :
    commentToken? raw number =
      if remark raw = [] then none else some (.after number (code raw) (trimEnd (remark raw))) := by
  simp only [remark_eq_nil_iff]
  cases h : cutAtComment raw <;> simp [commentToken?, code, remark, h]

/-- The comment opens with its mark. -/
theorem remark_head {raw : Text} (h : remark raw ≠ []) : ∃ tail, remark raw = commentMark :: tail := by
  cases hc : cutAtComment raw with
  | none => exact absurd (remark_eq_nil_iff.mpr hc) h
  | some cut =>
    obtain ⟨tail, ht⟩ := (cutAtMark_parts hc).2
    exact ⟨tail, by simp [remark, hc, ht]⟩

theorem cutAtMark_blank_append {mark : Char} (hm : isBlank mark = false) {w : Text}
    (hw : isAllBlank w = true) (s : Text) :
    cutAtMark mark false (w ++ s) = (cutAtMark mark false s).map fun (before, rest) =>
      (w ++ before, rest) := by
  rw [cutAtMark_append, cutAtMark_of_absent (not_mem_of_blank hw hm), endsQuoted_of_blank hw]

theorem code_blank_append {w : Text} (hw : isAllBlank w = true) (s : Text) :
    code (w ++ s) = w ++ code s := by
  unfold code cutAtComment
  rw [cutAtMark_blank_append (by decide) hw]
  cases cutAtMark commentMark false s <;> simp

theorem remark_blank_append {w : Text} (hw : isAllBlank w = true) (s : Text) :
    remark (w ++ s) = remark s := by
  unfold remark cutAtComment
  rw [cutAtMark_blank_append (by decide) hw]
  cases cutAtMark commentMark false s <;> simp

/-- The code opens as the text does. -/
theorem code_of_opensCode {s : Text} (h : OpensCode s) : OpensCode (code s) := by
  obtain ⟨c, t, rfl, hb, hc⟩ := h
  refine ⟨c, ?_⟩
  cases hcut : cutAtComment (c :: t) with
  | none => exact ⟨t, code_eq_self hcut, hb, hc⟩
  | some cut =>
    obtain ⟨before, rest⟩ := cut
    obtain ⟨he, tail, rfl⟩ := cutAtMark_parts hcut
    cases before with
    | nil => exact absurd (List.cons.inj he).1 hc
    | cons d before =>
      obtain rfl := (List.cons.inj he).1
      exact ⟨before, by simp [code, hcut], hb, hc⟩

theorem OpensCode.visible {s : Text} (h : OpensCode s) : OpensVisible s := by
  obtain ⟨c, t, hs, hb, -⟩ := h
  exact ⟨c, t, hs, hb⟩

theorem comment_or_code {s : Text} (h : OpensVisible s) : (∃ t, s = commentMark :: t) ∨ OpensCode s := by
  obtain ⟨c, t, rfl, hb⟩ := h
  by_cases hc : c = commentMark
  · exact .inl ⟨t, by rw [hc]⟩
  · exact .inr ⟨c, t, rfl, hb, hc⟩

theorem opensVisible_comment (s : Text) : OpensVisible (commentMark :: s) :=
  ⟨commentMark, s, rfl, by decide⟩

theorem trim_blank_append {w s : Text} (hw : isAllBlank w = true) (hs : OpensCode s) :
    trim (w ++ s) = trimEnd s := by
  rw [trim, trimStart, dropWhile_isBlank_append hw hs.visible]

/-! ## Cases of lines -/

theorem line_cases (raw : Text) :
    isAllBlank raw = true ∨
      (∃ w s, raw = w ++ commentMark :: s ∧ isAllBlank w = true) ∨
      ∃ w s, raw = w ++ s ∧ isAllBlank w = true ∧ OpensCode s := by
  have hsplit : raw.takeWhile isBlank ++ raw.dropWhile isBlank = raw :=
    List.takeWhile_append_dropWhile
  have hw := isAllBlank_lead raw
  cases h : raw.dropWhile isBlank with
  | nil =>
    rw [h, List.append_nil] at hsplit
    rw [hsplit] at hw
    exact .inl hw
  | cons c s =>
    rw [h] at hsplit
    by_cases hc : c = commentMark
    · subst hc
      exact .inr (.inl ⟨_, s, hsplit.symm, hw⟩)
    · exact .inr (.inr ⟨_, _, hsplit.symm, hw, c, s, rfl, isBlank_of_dropWhile_eq h, hc⟩)

theorem visible_cases (raw : Text) :
    isAllBlank raw = true ∨ ∃ w s, raw = w ++ s ∧ isAllBlank w = true ∧ OpensVisible s := by
  rcases line_cases raw with h | ⟨w, s, he, hw⟩ | ⟨w, s, he, hw, hs⟩
  · exact .inl h
  · exact .inr ⟨w, _, he, hw, opensVisible_comment s⟩
  · exact .inr ⟨w, s, he, hw, hs.visible⟩

theorem classify_blank {raw : Text} (h : isAllBlank raw = true) (number : Nat) :
    classify raw number = { raw, number, kind := .other, comment := none } := by
  simp [classify, dropWhile_isBlank_of_blank h]

theorem classify_comment {w : Text} (hw : isAllBlank w = true) (s : Text) (number : Nat) :
    classify (w ++ commentMark :: s) number =
      { raw := w ++ commentMark :: s, number, kind := .comment,
        comment := some (.after number w (trimEnd (commentMark :: s))) } := by
  have hd := dropWhile_isBlank_append hw (opensVisible_comment s)
  have ht := takeWhile_isBlank_append hw (opensVisible_comment s)
  simp [classify, hd, ht]

theorem classify_code {w s : Text} (hw : isAllBlank w = true) (hs : OpensCode s) (number : Nat) :
    classify (w ++ s) number =
      { raw := w ++ s, number, kind := codeKind (w ++ s) w (w ++ code s) number,
        comment := commentToken? (w ++ s) number } := by
  have hlead := takeWhile_isBlank_append hw hs.visible
  have hd := dropWhile_isBlank_append hw hs.visible
  obtain ⟨c, t, rfl, hb, hc⟩ := hs
  rw [← code_blank_append hw]
  simp only [classify, hd, hlead, if_neg hc]
  cases h : cutAtComment (w ++ c :: t) <;> simp [code, commentToken?, h]

theorem classify_number (raw : Text) (number : Nat) :
    (classify raw number).raw = raw ∧ (classify raw number).number = number := by
  unfold classify
  split
  · exact ⟨rfl, rfl⟩
  · split
    · exact ⟨rfl, rfl⟩
    · split <;> exact ⟨rfl, rfl⟩

/-! ## The statement of a body -/

theorem marginToken_eq {w s : Text} (hw : isAllBlank w = true) (hs : OpensCode s) (statement : Text) :
    marginToken (w ++ s) statement =
      if isMargined w s then statement.takeWhile (!isBlank ·) else [] := by
  obtain ⟨c, t, rfl, hb, -⟩ := hs
  cases w with
  | nil => simp [marginToken, isMargined, hb]
  | cons d w =>
    have hd : isBlank d = true := isAllBlank_iff.mp hw d (by simp)
    simp [marginToken, isMargined, hd]

theorem parts?_eq_bodyParts? {w s : Text} (hw : isAllBlank w = true) (hs : OpensCode s) :
    Instruction.parts? (w ++ s) (trim (w ++ code s)) = bodyParts? (isMargined w s) s := by
  rw [parts?_eq_seek?, marginToken_eq hw hs, trim_blank_append hw (code_of_opensCode hs)]
  rfl

theorem colonLabel?_eq {w : Text} (hw : isAllBlank w = true) (s : Text) (parts : Option Parts)
    (number : Nat) :
    colonLabel? (w ++ s) w (w ++ code s) parts number =
      (colonText? s parts).map fun before => .after number w (trimEnd before) := by
  unfold colonLabel? colonText?
  rw [cutAtMark_blank_append (by decide) hw]
  cases cutAtMark labelMark false s with
  | none => rfl
  | some cut =>
    simp only [Option.map_some, List.length_append, List.drop_left, Nat.add_lt_add_iff_left,
      Nat.lt_add_right_iff_pos]
    split <;> rfl

theorem statementKind_eq {w s : Text} (hw : isAllBlank w = true) (hs : OpensCode s) (number : Nat) :
    statementKind (w ++ s) w (w ++ code s) number =
      bodyKind number w (colonText? s (bodyParts? (isMargined w s) s))
        (bodyParts? (isMargined w s) s) := by
  simp only [statementKind, parts?_eq_bodyParts? hw hs, colonLabel?_eq hw]
  cases colonText? s (bodyParts? (isMargined w s) s) with
  | none => cases bodyParts? (isMargined w s) s <;> rfl
  | some before => rfl

theorem assignment?_classify {w s : Text} (hw : isAllBlank w = true) (hs : OpensCode s) (number : Nat) :
    (classify (w ++ s) number).assignment? = Assignment.read? (w ++ code s) number := by
  rw [classify_code hw hs]
  unfold Line.assignment? codeKind
  cases hr : Assignment.read? (w ++ code s) number with
  | some a => rfl
  | none =>
    simp only [statementKind_eq hw hs]
    cases colonText? s (bodyParts? (isMargined w s) s) with
    | some before => rfl
    | none => cases bodyParts? (isMargined w s) s <;> rfl

/-- How a line with a colon label was read. -/
theorem kind_eq_label {raw : Text} {number : Nat} {label : Token} {i : Option AsmAssist.Instruction}
    (h : (classify raw number).kind = .label label i) :
    ∃ w s before, raw = w ++ s ∧ isAllBlank w = true ∧ OpensCode s ∧
      colonText? s (bodyParts? (isMargined w s) s) = some before ∧
      label = .after number w (trimEnd before) ∧
      i = (bodyParts? (isMargined w s) s).map (·.instruction number w) := by
  rcases line_cases raw with hb | ⟨w, s, rfl, hw⟩ | ⟨w, s, rfl, hw, hs⟩
  · rw [classify_blank hb] at h
    cases h
  · rw [classify_comment hw] at h
    cases h
  · rw [classify_code hw hs, codeKind] at h
    cases hr : Assignment.read? (w ++ code s) number with
    | some a =>
      rw [hr] at h
      cases h
    | none =>
      simp only [hr, statementKind_eq hw hs] at h
      refine ⟨w, s, ?_⟩
      cases hcolon : colonText? s (bodyParts? (isMargined w s) s) with
      | none =>
        rw [hcolon] at h
        cases hparts : bodyParts? (isMargined w s) s <;> rw [hparts] at h <;> cases h
      | some before =>
        rw [hcolon] at h
        cases h
        exact ⟨before, rfl, hw, hs, rfl, rfl, rfl⟩

/-! ## What the parts and the colon say -/

/-- A statement is trimmed, and the parts make it up. -/
structure BodyCut (body : Text) (p : Parts) : Prop where
  text : trimEnd (code body) = p.before ++ p.mnemonic ++ p.rest
  mnemonic : Mnemonic.IsMnemonic p.mnemonic
  opens : EndsBlank p.before
  closes : ∀ c ∈ p.rest.head?, isBlank c = true ∨ isAnyQuote c = true

theorem BodyCut.before_isPrefix {body : Text} {p : Parts} (h : BodyCut body p) : p.before <+: body := by
  have hstatement : p.before <+: trimEnd (code body) := ⟨p.mnemonic ++ p.rest, by simp [h.text]⟩
  exact (hstatement.trans (trimEnd_isPrefix _)).trans (code_isPrefix body)

theorem BodyCut.rest_ends {body : Text} {p : Parts} (h : BodyCut body p) : trimEnd p.rest = p.rest := by
  have hends := trimEnd_trimEnd (code body)
  rw [h.text] at hends
  exact trimEnd_of_append hends

theorem BodyCut.trim_rest {body : Text} {p : Parts} (h : BodyCut body p) :
    trim p.rest = p.rest.dropWhile isBlank := by
  have hsplit : p.rest.takeWhile isBlank ++ p.rest.dropWhile isBlank = p.rest :=
    List.takeWhile_append_dropWhile
  have hends := h.rest_ends
  rw [← hsplit] at hends
  exact trimEnd_of_append hends

/-- Without operands nothing follows the mnemonic: blanks would end the statement. -/
theorem BodyCut.rest_eq_nil {body : Text} {p : Parts} (h : BodyCut body p) {number : Nat} {w : Text}
    (hn : p.operands? number w = none) : p.rest = [] := by
  by_cases hd : p.rest.dropWhile isBlank = []
  · have hblank : isAllBlank p.rest = true := by
      have hlead := isAllBlank_lead p.rest
      have hsplit : p.rest.takeWhile isBlank ++ p.rest.dropWhile isBlank = p.rest :=
        List.takeWhile_append_dropWhile
      rw [hd, List.append_nil] at hsplit
      rwa [hsplit] at hlead
    rw [← h.rest_ends]
    exact trimEnd_eq_nil_iff.mpr hblank
  · rw [Parts.operands?, h.trim_rest, if_neg hd] at hn
    cases hn

theorem bodyParts?_false (body : Text) : bodyParts? false body = seek? (trimEnd (code body)) := by
  have hid : Parts.behind [] = id := rfl
  simp [bodyParts?, hid]

theorem bodyParts?_true (body : Text) :
    bodyParts? true body =
      (seek? ((trimEnd (code body)).dropWhile (!isBlank ·))).map
        (.behind ((trimEnd (code body)).takeWhile (!isBlank ·))) := by
  have hd : ∀ s : Text, s.drop (s.takeWhile (!isBlank ·)).length = s.dropWhile (!isBlank ·) :=
    fun s => drop_of_eq_append List.takeWhile_append_dropWhile.symm
  simp [bodyParts?, hd]

theorem bodyParts?_cut {margined : Bool} {body : Text} {p : Parts}
    (h : bodyParts? margined body = some p) : BodyCut body p := by
  cases margined with
  | false =>
    rw [bodyParts?_false] at h
    have hc := seek?_cut h
    exact ⟨hc.text, hc.mnemonic, hc.opens, hc.closes⟩
  | true =>
    rw [bodyParts?_true] at h
    obtain ⟨q, hq, rfl⟩ := Option.map_eq_some_iff.mp h
    have hc := seek?_cut hq
    have hsplit : (trimEnd (code body)).takeWhile (!isBlank ·) ++
        (trimEnd (code body)).dropWhile (!isBlank ·) = trimEnd (code body) :=
      List.takeWhile_append_dropWhile
    refine ⟨?_, hc.mnemonic, EndsBlank.append hc.opens fun hn => ?_, hc.closes⟩
    · have htext := hc.text
      rw [Parts.behind, List.append_assoc, List.append_assoc, ← List.append_assoc q.before, ← htext,
        hsplit]
    · -- what follows the margin token starts with a blank, the mnemonic does not
      have hb := startsBlank_dropWhile (trimEnd (code body))
      rw [hc.text, hn, List.nil_append] at hb
      obtain ⟨c, t, ht⟩ := List.exists_cons_of_ne_nil hc.mnemonic.isWord.1
      rw [ht] at hb
      have hv := hc.mnemonic.isWord.2 c (by simp [ht])
      rw [hb c (by simp)] at hv
      cases hv

theorem colonText?_eq_some {body before : Text} {parts : Option Parts}
    (h : colonText? body parts = some before) :
    (∃ rest, cutAtMark labelMark false body = some (before, labelMark :: rest)) ∧ before ≠ [] ∧
      before.length < (code body).length ∧ ∀ p, parts = some p → before.length < p.before.length := by
  unfold colonText? at h
  split at h
  · cases h
  · rename_i b r hcut
    split at h
    · rename_i hc
      cases h
      simp only [Bool.and_eq_true, decide_eq_true_eq] at hc
      obtain ⟨⟨h1, h2⟩, h3⟩ := hc
      obtain ⟨tail, ht⟩ := (cutAtMark_parts hcut).2
      refine ⟨⟨tail, ht ▸ hcut⟩, by simpa [List.length_pos_iff] using h1, h2, ?_⟩
      rintro p rfl
      simpa using h3
    · cases h

theorem colonText?_comment (s : Text) (parts : Option Parts) :
    colonText? (commentMark :: s) parts = none := by
  cases hc : colonText? (commentMark :: s) parts with
  | none => rfl
  | some before =>
    have hlt := (colonText?_eq_some hc).2.2.1
    rw [code_comment] at hlt
    exact absurd hlt (Nat.not_lt_zero _)

end AsmAssist.Reading
