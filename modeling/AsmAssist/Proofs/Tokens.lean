import AsmAssist.Proofs.Anatomy
import AsmAssist.Proofs.Assignment
import AsmAssist.Proofs.Registers

/-!
# Tokens at exact columns

Every token that a line reports stands in the line where its span says, whatever the width of the
characters in front of it.
-/

namespace AsmAssist

open Text

/-- The span lies in the line, and the line reads there as the token does. -/
structure Token.Exact (raw : Text) (number : Nat) (t : Token) : Prop where
  on_line : t.span.start.line = number ∧ t.span.stop.line = number
  forward : t.span.start.character ≤ t.span.stop.character
  inside : t.span.stop.character ≤ columns raw
  slice : t.span.slice raw = t.text

theorem Token.exact_after {before text raw : Text} (h : before ++ text <+: raw) (number : Nat) :
    (Token.after number before text).Exact raw number where
  on_line := ⟨rfl, rfl⟩
  forward := Nat.le_add_right _ _
  inside := by
    have hle := columns_le_of_isPrefix h
    rwa [columns_append] at hle
  slice := Span.slice_over h number

theorem Token.Holds.exact {before text raw : Text} {number : Nat} {token : Option Token}
    (h : Token.Holds number before text token) (hp : before ++ text <+: raw) :
    ∀ t ∈ token, t.Exact raw number := by
  intro t ht
  cases token with
  | none => cases ht
  | some u =>
    obtain rfl : u = t := Option.some.inj ht
    rw [show u = _ from h]
    exact Token.exact_after hp number

/-! ## The parts of an assignment -/

theorem Assignment.read?_exact {code raw : Text} {number : Nat} {a : Assignment}
    (h : read? code number = some a) (hc : code <+: raw) :
    ∀ t ∈ [a.name, a.operator, a.value], t.Exact raw number := by
  simp only [read?, Option.bind_eq_bind, Option.bind_eq_some_iff, Option.pure_def,
    Option.some.injEq] at h
  obtain ⟨parts, -, kind, -, lead, hlead, gap, hgap, space, hspace, rfl⟩ := h
  have hname := before?_isPrefix hlead
  have hoperator := before?_drop hname hgap
  have hvalue := before?_drop hoperator hspace
  intro t ht
  simp only [List.mem_cons, List.not_mem_nil, or_false] at ht
  rcases ht with rfl | rfl | rfl
  · exact Token.exact_after (hname.trans hc) number
  · exact Token.exact_after (hoperator.trans hc) number
  · exact Token.exact_after (hvalue.trans hc) number

/-! ## Registers -/

namespace Register

theorem all_exact {before operands raw : Text} (hp : before ++ operands <+: raw) (number : Nat) :
    ∀ t ∈ all operands ⟨number, columns before⟩, t.Exact raw number := by
  intro t ht
  obtain ⟨front, word, hrun, -, rfl⟩ := mem_all_iff.mp ht
  have hstands : before ++ front ++ word <+: raw := by
    rw [List.append_assoc]
    exact ((List.prefix_append_right_inj before).mpr hrun.isPrefix).trans hp
  have hexact := Token.exact_after hstands number
  simp only [Token.after, columns_append, Nat.add_assoc] at hexact ⊢
  exact hexact

end Register

/-! ## The tokens of a line -/

namespace Line

def tokens (l : Line) : List Token :=
  l.comment.toList ++ l.label?.toList ++ l.mnemonic?.toList ++ l.operands?.toList ++
    (l.assignment?.toList.flatMap fun a => [a.name, a.operator, a.value]) ++ l.registers

theorem read?_of_classify {raw : Text} {number : Nat} {a : Assignment}
    (h : (classify raw number).assignment? = some a) :
    Assignment.read? (Reading.code raw) number = some a := by
  rcases Reading.line_cases raw with hb | ⟨w, s, rfl, hw⟩ | ⟨w, s, rfl, hw, hs⟩
  · rw [Reading.classify_blank hb] at h
    cases h
  · rw [Reading.classify_comment hw] at h
    cases h
  · rw [Reading.code_blank_append hw, ← Reading.assignment?_classify hw hs]
    exact h

variable {a : Anatomy} {l : Line}

theorem mnemonic_exact (h : a.Dissects l) : ∀ t ∈ l.mnemonic?, t.Exact l.raw l.number := by
  intro t ht
  obtain ⟨i, hi, rfl⟩ := Option.map_eq_some_iff.mp ht
  have hd := h.instructed
  rw [hi] at hd
  rw [hd.1]
  exact Token.exact_after h.instruction_isPrefix l.number

theorem comment_exact (h : a.Dissects l) : ∀ t ∈ l.comment, t.Exact l.raw l.number := by
  intro t ht
  have hd := h.remarked
  rw [show l.comment = some t from ht] at hd
  rw [hd.1]
  exact Token.exact_after h.comment_isPrefix l.number

theorem registers_exact (h : a.Dissects l) : ∀ t ∈ l.registers, t.Exact l.raw l.number := by
  have hd := h.operands_holds
  intro t ht
  rw [registers] at ht
  cases ho : l.operands? with
  | none =>
    rw [ho] at ht
    cases ht
  | some o =>
    rw [ho] at hd ht
    rw [show o = _ from hd] at ht
    exact Register.all_exact h.operands_isPrefix l.number t ht

/-- Every token of every line stands exactly where its span says. -/
theorem classify_tokens_exact (raw : Text) (number : Nat) :
    ∀ t ∈ (classify raw number).tokens, t.Exact raw number := by
  obtain ⟨a, h, -⟩ := Anatomy.classify_dissects raw number
  obtain ⟨hr, hn⟩ := Reading.classify_number raw number
  have hlabel := h.labelled.exact h.label_isPrefix
  have hoperands := h.operands_holds.exact h.operands_isPrefix
  have hcomment := comment_exact h
  have hmnemonic := mnemonic_exact h
  have hregisters := registers_exact h
  rw [hr, hn] at hlabel hoperands hcomment hmnemonic hregisters
  intro t ht
  simp only [tokens, List.mem_append, Option.mem_toList, List.mem_flatMap] at ht
  rcases ht with ((((ht | ht) | ht) | ht) | ⟨b, hb, ht⟩) | ht
  · exact hcomment t ht
  · exact hlabel t ht
  · exact hmnemonic t ht
  · exact hoperands t ht
  · exact Assignment.read?_exact (read?_of_classify hb) (Reading.code_isPrefix raw) t ht
  · exact hregisters t ht

/-- A register behind a label of two units. -/
theorem classify_tokens_exact_wide :
    let raw := "𝓐: MOV R1, r12 ; é".toList
    let register : Token := ⟨"r12".toList, .onLine 7 12 15⟩
    register ∈ (classify raw 7).tokens ∧ register.Exact raw 7 := by
  have h : (⟨"r12".toList, .onLine 7 12 15⟩ : Token) ∈
      (classify "𝓐: MOV R1, r12 ; é".toList 7).tokens := by decide +kernel
  exact ⟨h, classify_tokens_exact _ 7 _ h⟩

end Line

end AsmAssist
