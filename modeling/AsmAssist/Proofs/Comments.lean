import AsmAssist.Proofs.Assignment
import AsmAssist.Proofs.Rereading

/-!
# Code in front of a comment

The kind of a line, with all its tokens, is read from the code in front of the comment. The rest of the line
matters in one way only: a blank anywhere in it makes the first word of a line at the left margin a margin
token. Code that holds a blank itself, or is indented, is therefore read the same under every comment. Code
without blanks is not if it spells a mnemonic up to its first quote.
-/

namespace AsmAssist.Reading

open Text Instruction Mnemonic
open Line (Kind classify)

/-! ## The kind of a line from its code -/

theorem code_code (body : Text) : code (code body) = code body := code_eq_self (cutAtComment_code body)

theorem bodyParts?_code (margined : Bool) (body : Text) :
    bodyParts? margined (code body) = bodyParts? margined body := by
  unfold bodyParts?
  rw [code_code]

/-- A colon behind the code ends no label. -/
theorem colonText?_code (body : Text) (parts : Option Parts) :
    colonText? (code body) parts = colonText? body parts := by
  have hcut := cutAtMark_append labelMark false (code body) (remark body)
  rw [code_append_remark] at hcut
  unfold colonText?
  rw [code_code, hcut]
  cases cutAtMark labelMark false (code body) with
  | some cut => rfl
  | none =>
    cases cutAtMark labelMark (endsQuoted false (code body)) (remark body) with
    | none => rfl
    | some cut =>
      have hbehind : ¬ (code body).length + cut.1.length < (code body).length := by omega
      simp [hbehind]

/-- The kind of a line whose first word is a margin token or not, from its indentation and its code. -/
def kindOf (number : Nat) (lead code : Text) (margined : Bool) : Kind :=
  match Assignment.read? (lead ++ code) number with
  | some a => .assignment a
  | none => bodyKind number lead (colonText? code (bodyParts? margined code)) (bodyParts? margined code)

theorem kind_classify {w s : Text} (hw : isAllBlank w = true) (hs : OpensCode s) (number : Nat) :
    (classify (w ++ s) number).kind = kindOf number w (code s) (isMargined w s) := by
  rw [classify_code hw hs, kindOf, bodyParts?_code, colonText?_code]
  unfold Line.codeKind
  cases Assignment.read? (w ++ code s) number with
  | some a => rfl
  | none => exact statementKind_eq hw hs number

/-! ## Code that a comment may follow -/

/-- Code with a visible character, no comment mark outside literals and no literal left open. -/
structure IsCode (code : Text) : Prop where
  visible : isAllBlank code = false
  unmarked : ∀ before, before ++ [commentMark] <+: code → before.count quoteMark % 2 = 1
  closed : code.count quoteMark % 2 = 0

theorem isCode_iff {code : Text} :
    IsCode code ↔ isAllBlank code = false ∧ cutAtComment code = none ∧ endsQuoted false code = false := by
  rw [endsQuoted_eq_false_iff]
  constructor
  · intro h
    refine ⟨h.visible, ?_, h.closed⟩
    cases hcut : cutAtComment code with
    | none => rfl
    | some cut =>
      have hfirst := cutAtMark_firstMark (by decide) hcut
      have heven := endsQuoted_eq_false_iff.mp hfirst.outside
      have hodd := h.unmarked _ hfirst.stands
      omega
  · rintro ⟨hvisible, hcut, hclosed⟩
    refine ⟨hvisible, ?_, hclosed⟩
    intro before hp
    apply Nat.mod_two_ne_zero.mp
    intro heven
    have hbefore : cutAtMark commentMark false before = none :=
      cutAtMark_eq_none_of_isPrefix ((List.prefix_append _ _).trans hp) hcut
    have hmark := cutAtMark_append_mark (by decide) hbefore (endsQuoted_eq_false_iff.mpr heven) []
    rw [cutAtMark_eq_none_of_isPrefix hp hcut] at hmark
    cases hmark

/-- Code is an indentation and a body that a comment leaves as it is. -/
theorem IsCode.cases {c : Text} (h : IsCode c) :
    ∃ w s, c = w ++ s ∧ isAllBlank w = true ∧ OpensCode s ∧
      ∀ t, OpensCode (s ++ commentMark :: t) ∧ code (s ++ commentMark :: t) = s := by
  obtain ⟨hvisible, hcut, hclosed⟩ := isCode_iff.mp h
  rcases line_cases c with hb | ⟨w, s, rfl, hw⟩ | ⟨w, s, rfl, hw, hs⟩
  · rw [hb] at hvisible
    cases hvisible
  · rw [cutAtComment, cutAtMark_blank_append (by decide) hw, cutAtMark_cons_mark (by decide)] at hcut
    cases hcut
  · refine ⟨w, s, rfl, hw, hs, fun t => ⟨?_, ?_⟩⟩
    · obtain ⟨d, u, rfl, hd, hmark⟩ := hs
      exact ⟨d, u ++ commentMark :: t, rfl, hd, hmark⟩
    · have hbody : cutAtMark commentMark false s = none := by
        rw [cutAtComment, cutAtMark_blank_append (by decide) hw, Option.map_eq_none_iff] at hcut
        exact hcut
      have hquoted : endsQuoted false s = false := by
        rwa [endsQuoted_append, endsQuoted_of_blank hw] at hclosed
      simp [code, cutAtComment, cutAtMark_append_mark (by decide) hbody hquoted]

/-! ## Code without blanks -/

theorem visible_of_unbroken {s : Text} (hs : s.any isBlank = false) : ∀ c ∈ s, isBlank c = false := by
  simpa using hs

/-- A first word that is the whole code leaves nothing to search. -/
theorem bodyParts?_true_unbroken {s : Text} (hs : s.any isBlank = false) : bodyParts? true s = none := by
  have hdrop : (trimEnd (code s)).dropWhile (!isBlank ·) = [] := by
    apply List.dropWhile_eq_nil_iff.mpr
    intro c hc
    have hmem := ((trimEnd_isPrefix (code s)).trans (code_isPrefix s)).subset hc
    simp [visible_of_unbroken hs c hmem]
  rw [bodyParts?_true, hdrop, Option.map_eq_none_iff, seek?_eq_none_iff]
  simp

theorem bodyParts?_false_unbroken {s : Text} (hs : s.any isBlank = false) (hne : s ≠ [])
    (hcode : code s = s) :
    (HidesMnemonic s ∧ ∃ p, bodyParts? false s = some p ∧ p.before = []) ∨
      (¬ HidesMnemonic s ∧ bodyParts? false s = none) := by
  have htrim := trimEnd_word_append ⟨hne, visible_of_unbroken hs⟩ []
  rw [trimEnd_nil, List.append_nil] at htrim
  rw [bodyParts?_false, hcode, htrim]
  exact seek?_of_unbroken hs

theorem read?_unbroken {s : Text} (hs : s.any isBlank = false) (hne : s ≠ []) (number : Nat) :
    Assignment.read? s number = none := by
  have hbreak : '\n' ∉ s := fun hm => absurd (visible_of_unbroken hs _ hm) (by decide)
  have hassigns : Assignment.assigns s = false := by
    rw [Assignment.assigns, endedWords_of_isWord ⟨hne, visible_of_unbroken hs⟩]
    rfl
  rw [← Assignment.read?_isSome hbreak number] at hassigns
  simpa using hassigns

/-- Taken as a margin token or not, code without blanks is read the same unless it is a mnemonic. -/
theorem kindOf_unbroken_eq_iff {s : Text} (hs : s.any isBlank = false) (hne : s ≠ [])
    (hcode : code s = s) (number : Nat) :
    kindOf number [] s true = kindOf number [] s false ↔ ¬ HidesMnemonic s := by
  unfold kindOf
  rw [List.nil_append, read?_unbroken hs hne, bodyParts?_true_unbroken hs]
  rcases bodyParts?_false_unbroken hs hne hcode with ⟨hm, p, hp, hb⟩ | ⟨hm, hp⟩
  · have hcolon : colonText? s (some p) = none := by
      unfold colonText?
      cases cutAtMark labelMark false s <;> simp [hb]
    rw [hp, hcolon]
    refine ⟨fun he => ?_, fun hn => absurd hm hn⟩
    cases hc : colonText? s none <;> simp [hc, bodyKind] at he
  · rw [hp]
    exact ⟨fun _ => hm, fun _ => rfl⟩

/-! ## Two comments behind the same code -/

theorem isMargined_commented (w s t : Text) :
    isMargined w (s ++ commentMark :: t) = (w.isEmpty && (s.any isBlank || t.any isBlank)) := by
  have hmark : isBlank commentMark = false := by decide
  simp [isMargined, hmark]

/-- The text of a comment does not change how the code in front of it is read, in any way, unless the code is
a mnemonic without blanks, at the left margin: then it matters whether the comment holds a blank. -/
theorem kind_under_comments_iff {c : Text} (h : IsCode c) (t₁ t₂ : Text) (number : Nat) :
    (classify (c ++ commentMark :: t₁) number).kind = (classify (c ++ commentMark :: t₂) number).kind ↔
      (HidesMnemonic c → t₁.any isBlank = t₂.any isBlank) := by
  obtain ⟨w, s, rfl, hw, hs, hcommented⟩ := h.cases
  have hkind (t : Text) : (classify (w ++ s ++ commentMark :: t) number).kind =
      kindOf number w s (w.isEmpty && (s.any isBlank || t.any isBlank)) := by
    obtain ⟨hopens, hcode⟩ := hcommented t
    rw [List.append_assoc, kind_classify hw hopens, hcode, isMargined_commented]
  rw [hkind, hkind]
  cases w with
  | cons d w =>
    -- an indentation is a blank
    have hd : isBlank d = true := isAllBlank_iff.mp hw d (by simp)
    refine ⟨fun _ hm => ?_, fun _ => rfl⟩
    exact absurd hm.1 (by simp [hd])
  | nil =>
    cases hblank : s.any isBlank with
    | true =>
      refine ⟨fun _ hm => ?_, fun _ => by simp⟩
      rw [List.nil_append, HidesMnemonic, hblank] at hm
      cases hm.1
    | false =>
      have hcode : code s = s := by rw [← (hcommented []).2, code_code]
      have hiff := kindOf_unbroken_eq_iff hblank hs.visible.ne_nil hcode number
      simp only [List.isEmpty_nil, Bool.true_and, Bool.false_or, List.nil_append]
      cases t₁.any isBlank <;> cases t₂.any isBlank
      case false.false | true.true => simp
      case true.false => simpa using hiff
      case false.true =>
        rw [eq_comm, hiff]
        simp

/-- A comment mark in a literal, a blank in one of the comments. -/
theorem kind_under_comments_quoted :
    let c := "L: MVI R1, ';'".toList
    IsCode c ∧
      (classify (c ++ commentMark :: "x y".toList) 4).kind =
        (classify (c ++ commentMark :: "z".toList) 4).kind := by
  intro c
  have hc : IsCode c := isCode_iff.mpr (by decide +kernel)
  refine ⟨hc, (kind_under_comments_iff hc _ _ 4).mpr ?_⟩
  intro hm
  exact absurd hm.1 (by decide)

/-- A blank in the comment turns an instruction into a line of no kind. -/
theorem kind_depends_on_comment :
    IsCode "ADD".toList ∧
      (classify ("ADD".toList ++ commentMark :: "xy".toList) 0).kind =
        .instruction none ⟨⟨"ADD".toList, .onLine 0 0 3⟩, none, false⟩ ∧
      (classify ("ADD".toList ++ commentMark :: "x y".toList) 0).kind = .other := by
  rw [isCode_iff]
  decide +kernel

end AsmAssist.Reading
