import AsmAssist.Proofs.Reading

/-!
# Reading a changed line again

A line with a label and an instruction is taken apart and put together again: its gap resized, its two parts
put on lines of their own, its indentation dropped. What is read then is what was read before, but for the
text in front of the gap when it stands alone: its first word is no longer a margin token, and up to its
first quote it may spell a mnemonic.
-/

namespace AsmAssist.Reading

open Text Instruction Mnemonic

/-! ## The code behind a text -/

/-- The part of a text in front of its comment, when the text starts inside a literal or not. -/
def codeFrom (quoted : Bool) (s : Text) : Text := ((cutAtMark commentMark quoted s).map Prod.fst).getD s

theorem codeFrom_append {quoted : Bool} {s : Text} (h : cutAtMark commentMark quoted s = none)
    (t : Text) : codeFrom quoted (s ++ t) = s ++ codeFrom (endsQuoted quoted s) t := by
  rw [codeFrom, cutAtMark_append, h, codeFrom]
  cases cutAtMark commentMark (endsQuoted quoted s) t <;> rfl

theorem codeFrom_isPrefix (quoted : Bool) (s : Text) : codeFrom quoted s <+: s := by
  unfold codeFrom
  cases h : cutAtMark commentMark quoted s with
  | none => exact List.prefix_refl s
  | some cut =>
    obtain ⟨before, rest⟩ := cut
    exact ⟨rest, (cutAtMark_parts h).1.symm⟩

/-- Only a comment has no code. -/
theorem codeFrom_cons {c : Char} (hc : c ≠ commentMark) (quoted : Bool) (s : Text) :
    ∃ t, codeFrom quoted (c :: s) = c :: t := by
  unfold codeFrom
  cases h : cutAtMark commentMark quoted (c :: s) with
  | none => exact ⟨s, rfl⟩
  | some cut =>
    obtain ⟨before, rest⟩ := cut
    obtain ⟨hs, tail, rfl⟩ := cutAtMark_parts h
    cases before with
    | nil => exact absurd (List.cons.inj hs).1 hc
    | cons d before =>
      obtain rfl := (List.cons.inj hs).1
      exact ⟨before, rfl⟩

theorem IsMnemonic.codeFrom_append {t : Text} (h : IsMnemonic t) (quoted : Bool) (s : Text) :
    codeFrom quoted (t ++ s) = t ++ codeFrom quoted s := by
  have hcut : cutAtMark commentMark quoted t = none :=
    cutAtMark_of_absent (h.not_mem (by decide) (by decide)) quoted
  have hquoted : endsQuoted quoted t = quoted := by
    apply endsQuoted_of_unquoted
    rintro c hc rfl
    exact h.not_mem (by decide) (by decide) hc
  rw [Reading.codeFrom_append hcut, hquoted]

/-! ## A body cut in front of its instruction -/

section

variable {body r : Text} {p : Parts}

theorem BodyCut.before_uncut (h : BodyCut body p) : cutAtComment p.before = none := by
  have hstatement : p.before <+: trimEnd (code body) := ⟨p.mnemonic ++ p.rest, by simp [h.text]⟩
  exact cutAtMark_eq_none_of_isPrefix (hstatement.trans (trimEnd_isPrefix _)) (cutAtComment_code body)

theorem BodyCut.front_uncut (h : BodyCut body p) : cutAtComment (trimEnd p.before) = none :=
  cutAtMark_eq_none_of_isPrefix (trimEnd_isPrefix p.before) h.before_uncut

theorem BodyCut.code_eq (h : BodyCut body p) (hr : body = p.before ++ r) :
    code body = p.before ++ codeFrom (endsQuoted false (trimEnd p.before)) r := by
  have hquoted : endsQuoted false p.before = endsQuoted false (trimEnd p.before) := by
    have := endsQuoted_append_blank false (trimEnd p.before) (isAllBlank_trailing p.before)
    rwa [trimEnd_append_trailing] at this
  rw [hr, ← hquoted]
  exact codeFrom_append h.before_uncut r

/-- The code behind the gap is the instruction. -/
theorem BodyCut.instruction_eq (h : BodyCut body p) (hr : body = p.before ++ r) :
    trimEnd (codeFrom (endsQuoted false (trimEnd p.before)) r) = p.mnemonic ++ p.rest := by
  have htext := h.text
  rw [h.code_eq hr, List.append_assoc] at htext
  by_cases hv : trimEnd (codeFrom (endsQuoted false (trimEnd p.before)) r) = []
  · rw [trimEnd_append_of_blank _ (trimEnd_eq_nil_iff.mp hv)] at htext
    have hlen := (trimEnd_isPrefix p.before).length_le
    have hpos := List.length_pos_iff.mpr h.mnemonic.isWord.1
    rw [htext, List.length_append, List.length_append] at hlen
    omega
  · rw [trimEnd_append_of_visible _ hv] at htext
    exact List.append_cancel_left htext

theorem BodyCut.mnemonic_isPrefix (h : BodyCut body p) (hr : body = p.before ++ r) :
    p.mnemonic <+: r := by
  have hp : p.mnemonic <+: trimEnd (codeFrom (endsQuoted false (trimEnd p.before)) r) :=
    ⟨p.rest, (h.instruction_eq hr).symm⟩
  exact (hp.trans (trimEnd_isPrefix _)).trans (codeFrom_isPrefix _ r)

theorem BodyCut.rest_opens (h : BodyCut body p) (hr : body = p.before ++ r) : OpensVisible r := by
  obtain ⟨t, rfl⟩ := h.mnemonic_isPrefix hr
  obtain ⟨c, u, hc⟩ := List.exists_cons_of_ne_nil h.mnemonic.isWord.1
  exact ⟨c, u ++ t, by rw [hc]; rfl, h.mnemonic.isWord.2 c (by simp [hc])⟩

theorem BodyCut.endedWords_code (h : BodyCut body p) (hb : p.before ≠ []) (hr : body = p.before ++ r) :
    endedWords (code body) = words (trimEnd p.before) ++
      endedWords (codeFrom (endsQuoted false (trimEnd p.before)) r) := by
  have hgap := endedWords_gap (trimEnd p.before)
    (codeFrom (endsQuoted false (trimEnd p.before)) r) (isAllBlank_trailing p.before)
    (trailing_ne_nil h.opens hb)
  rwa [trimEnd_append_trailing, ← h.code_eq hr] at hgap

/-- With another gap the code behind it is the same. -/
theorem BodyCut.code_resized (h : BodyCut body p) {gap : Text} (hg : isAllBlank gap = true) :
    code (trimEnd p.before ++ gap ++ r) =
      trimEnd p.before ++ gap ++ codeFrom (endsQuoted false (trimEnd p.before)) r := by
  have hcut : cutAtComment (trimEnd p.before ++ gap) = none :=
    cutAtMark_append_blank (by decide) h.front_uncut hg
  have hcode := codeFrom_append hcut r
  rw [endsQuoted_append_blank _ _ hg] at hcode
  exact hcode

end

/-! ## Behind a margin token -/

/-- A text whose first word is passed over, cut at its first mnemonic behind it. -/
structure CutBehindWord (p : Parts) (word gap : Text) : Prop where
  isWord : IsWord word
  starts : StartsBlank gap
  nonempty : gap ≠ []
  before_eq : p.before = word ++ gap
  cut : CutAtMnemonic (gap ++ p.mnemonic ++ p.rest) ⟨gap, p.mnemonic, p.rest⟩

theorem CutBehindWord.startsBlank {p : Parts} {word gap : Text} (h : CutBehindWord p word gap)
    (r : Text) : StartsBlank (gap ++ r) := by
  obtain ⟨c, t, hg⟩ := List.exists_cons_of_ne_nil h.nonempty
  intro d hd
  apply h.starts d
  rw [hg] at hd ⊢
  exact hd

/-- What is passed over is the first word of the text. -/
theorem CutBehindWord.first_word {p : Parts} {word gap : Text} (h : CutBehindWord p word gap)
    (r : Text) :
    (p.before ++ r).takeWhile (!isBlank ·) = word ∧ (p.before ++ r).dropWhile (!isBlank ·) = gap ++ r := by
  rw [h.before_eq, List.append_assoc]
  exact takeWhile_word h.isWord (h.startsBlank r)

theorem CutBehindWord.bodyParts? {body word gap : Text} {p : Parts} (h : CutBehindWord p word gap)
    (hs : trimEnd (code body) = p.before ++ p.mnemonic ++ p.rest) : bodyParts? true body = some p := by
  rw [List.append_assoc] at hs
  obtain ⟨htake, hdrop⟩ := h.first_word (p.mnemonic ++ p.rest)
  rw [bodyParts?_true, hs, htake, hdrop, ← List.append_assoc, seek?_eq_some_iff.mpr h.cut,
    Option.map_some, Parts.behind]
  simp only [← h.before_eq]

theorem BodyCut.opensVisible {body : Text} {p : Parts} (h : BodyCut body p)
    (hv : OpensVisible body) : OpensVisible (trimEnd (code body)) := by
  obtain ⟨c, t, rfl, hc⟩ := hv
  have hp := (trimEnd_isPrefix (code (c :: t))).trans (code_isPrefix (c :: t))
  cases hs : trimEnd (code (c :: t)) with
  | nil =>
    have htext := h.text
    rw [hs, eq_comm, List.append_eq_nil_iff, List.append_eq_nil_iff] at htext
    exact absurd htext.1.2 h.mnemonic.isWord.1
  | cons d u =>
    rw [hs] at hp
    obtain ⟨r, hr⟩ := hp
    obtain rfl : d = c := (List.cons.inj hr).1
    exact ⟨d, u, rfl, hc⟩

theorem cutBehindWord_of_true {body : Text} {p : Parts} (hv : OpensVisible body)
    (h : bodyParts? true body = some p) : ∃ word gap, CutBehindWord p word gap := by
  obtain ⟨c, t, hst, hc⟩ := (bodyParts?_cut h).opensVisible hv
  rw [bodyParts?_true] at h
  obtain ⟨q, hq, rfl⟩ := Option.map_eq_some_iff.mp h
  have hcut := seek?_cut hq
  have hstarts := startsBlank_dropWhile (trimEnd (code body))
  have hword : IsWord ((trimEnd (code body)).takeWhile (!isBlank ·)) := by
    rw [hst]
    exact isWord_takeWhile hc
  rw [hcut.text] at hstarts
  refine ⟨_, q.before, hword, hstarts.of_isPrefix ⟨q.mnemonic ++ q.rest, by simp⟩, ?_, rfl, ?_⟩
  · -- a blank follows the margin token, and no mnemonic starts with one
    intro hn
    obtain ⟨d, u, hd⟩ := List.exists_cons_of_ne_nil hcut.mnemonic.isWord.1
    rw [hn, List.nil_append, hd] at hstarts
    have hb := hcut.mnemonic.isWord.2 d (by simp [hd])
    rw [hstarts d (by simp)] at hb
    cases hb
  · have hcut' := hcut
    rw [hcut.text] at hcut'
    exact hcut'

/-- A mnemonic behind other text is found with a margin token as well. -/
theorem cutBehindWord_of_false {body : Text} {p : Parts} (hv : OpensVisible body)
    (h : bodyParts? false body = some p) (hb : p.before ≠ []) :
    ∃ word gap, CutBehindWord p word gap := by
  have hopens := (bodyParts?_cut h).opensVisible hv
  rw [bodyParts?_false] at h
  have hcut := seek?_cut h
  obtain ⟨c, t, hp⟩ := List.exists_cons_of_ne_nil hb
  have hc : isBlank c = false := by
    obtain ⟨d, u, hd, hvisible⟩ := hopens
    rw [hcut.text, hp] at hd
    obtain rfl : c = d := (List.cons.inj hd).1
    exact hvisible
  have hword : IsWord (p.before.takeWhile (!isBlank ·)) := by
    rw [hp]
    exact isWord_takeWhile hc
  have hsplit : p.before.takeWhile (!isBlank ·) ++ p.before.dropWhile (!isBlank ·) = p.before :=
    List.takeWhile_append_dropWhile
  have hstarts := startsBlank_dropWhile p.before
  have hne : p.before.dropWhile (!isBlank ·) ≠ [] := by
    -- the text in front of a mnemonic ends in a blank, and a word does not
    intro hn
    rw [hn, List.append_nil] at hsplit
    rw [hsplit] at hword
    obtain ⟨u, d, hd⟩ := (eq_nil_or_snoc p.before).resolve_left hb
    have hblank : isBlank d = true := hcut.opens d (by simp [hd])
    rw [hword.2 d (by simp [hd])] at hblank
    cases hblank
  have hsub : ∀ c ∈ p.before.dropWhile (!isBlank ·), c ∈ p.before :=
    fun c hc => (List.dropWhile_sublist _).mem hc
  refine ⟨_, _, hword, hstarts, hne, hsplit.symm, rfl, hcut.mnemonic, ?_, ?_, ?_, hcut.closes⟩
  · intro d hd
    apply hcut.opens d
    rw [← hsplit, List.getLast?_append, Option.mem_def.mp hd]
    rfl
  · exact fun c hc => hcut.unquoted c (hsub c hc)
  · intro t ht
    apply hcut.none_before t
    rw [← hsplit, words_word_append hword hstarts]
    exact List.mem_cons_of_mem _ ht

/-- However the first word of a body is taken, a label and an instruction are cut the same. -/
theorem cutBehindWord {margined : Bool} {body : Text} {p : Parts} (hv : OpensVisible body)
    (h : bodyParts? margined body = some p) (hb : p.before ≠ []) :
    ∃ word gap, CutBehindWord p word gap := by
  cases margined with
  | false => exact cutBehindWord_of_false hv h hb
  | true => exact cutBehindWord_of_true hv h

/-! ## With another gap -/

theorem CutBehindWord.front_eq {p : Parts} {word gap : Text} (h : CutBehindWord p word gap) :
    trimEnd p.before = word ++ trimEnd gap := by
  rw [h.before_eq, trimEnd_word_append h.isWord]

theorem CutBehindWord.resized {p : Parts} {word gap gap' : Text} (h : CutBehindWord p word gap)
    (hg : isAllBlank gap' = true) (hne : gap' ≠ []) :
    CutBehindWord { p with before := trimEnd p.before ++ gap' } word (trimEnd gap ++ gap') := by
  have hopens : EndsBlank (trimEnd gap ++ gap') :=
    EndsBlank.append (endsBlank_of_blank hg) fun hn => absurd hn hne
  refine ⟨h.isWord, ?_, ?_, ?_, rfl, h.cut.mnemonic, hopens, ?_, ?_, h.cut.closes⟩
  · cases ht : trimEnd gap with
    | nil =>
      intro c hc
      rw [List.nil_append] at hc
      exact isAllBlank_iff.mp hg c (List.mem_of_mem_head? hc)
    | cons d t =>
      intro c hc
      apply h.starts.of_isPrefix (trimEnd_isPrefix gap) c
      rw [ht]
      exact hc
  · intro hn
    exact hne (List.append_eq_nil_iff.mp hn).2
  · rw [h.front_eq, List.append_assoc]
  · intro c hc
    rcases List.mem_append.mp hc with hc | hc
    · exact h.cut.unquoted c ((trimEnd_isPrefix gap).subset hc)
    · cases hq : isAnyQuote c with
      | false => rfl
      | true =>
        have hb := isAllBlank_iff.mp hg c hc
        have hcase : c = quoteMark ∨ c = '"' := by simpa [isAnyQuote] using hq
        rcases hcase with rfl | rfl <;> exact absurd hb (by decide)
  · intro t ht
    rw [words_append_of_blank _ hg, words_trimEnd] at ht
    exact h.cut.none_before t ht

theorem bodyParts?_resized {margined : Bool} {body r gap : Text} {p : Parts}
    (hv : OpensVisible body) (h : bodyParts? margined body = some p) (hb : p.before ≠ [])
    (hr : body = p.before ++ r) (hg : isAllBlank gap = true) (hne : gap ≠ []) :
    bodyParts? true (trimEnd p.before ++ gap ++ r) =
      some { p with before := trimEnd p.before ++ gap } := by
  obtain ⟨word, gap₀, hcut⟩ := cutBehindWord hv h hb
  have hbody := bodyParts?_cut h
  apply (hcut.resized hg hne).bodyParts?
  have hinstruction := hbody.instruction_eq hr
  have hvisible : trimEnd (codeFrom (endsQuoted false (trimEnd p.before)) r) ≠ [] := by
    rw [hinstruction]
    intro hn
    exact hbody.mnemonic.isWord.1 (List.append_eq_nil_iff.mp hn).1
  rw [hbody.code_resized hg, trimEnd_append_of_visible _ hvisible, hinstruction,
    List.append_assoc _ p.mnemonic]

/-! ## The instruction alone -/

/-- The instruction, cut off from its label, is read from its first character on. -/
theorem bodyParts?_instruction {body r : Text} {p : Parts} (h : BodyCut body p)
    (hr : body = p.before ++ r) : ∃ q, bodyParts? false r = some q ∧ q.before = [] := by
  have hinstruction := h.instruction_eq hr
  obtain ⟨t, rfl⟩ := h.mnemonic_isPrefix hr
  rw [IsMnemonic.codeFrom_append h.mnemonic, trimEnd_word_append h.mnemonic.isWord] at hinstruction
  have hrest := List.append_cancel_left hinstruction
  have hcode : trimEnd (code (p.mnemonic ++ t)) = p.mnemonic ++ trimEnd (codeFrom false t) := by
    rw [show code (p.mnemonic ++ t) = _ from IsMnemonic.codeFrom_append h.mnemonic false t,
      trimEnd_word_append h.mnemonic.isWord]
  have hcloses : ∀ c ∈ (trimEnd (codeFrom false t)).head?, isBlank c = true ∨ isAnyQuote c = true := by
    intro c hc
    cases t with
    | nil => cases hc
    | cons d t =>
      by_cases hd : d = commentMark
      · subst hd
        have hnil : codeFrom false (commentMark :: t) = [] := by
          simp [codeFrom, cutAtMark_cons_mark (show commentMark ≠ quoteMark by decide)]
        rw [hnil] at hc
        cases hc
      · obtain ⟨u, hu⟩ := codeFrom_cons hd false t
        obtain ⟨u', hu'⟩ := codeFrom_cons hd (endsQuoted false (trimEnd p.before)) t
        cases hb : isBlank d with
        | true =>
          rw [hu, trimEnd_cons] at hc
          split at hc
          · cases hc
          · obtain rfl : d = c := by simpa using hc
            exact .inl hb
        | false =>
          rw [hu, trimEnd_cons_of_visible hb] at hc
          obtain rfl : d = c := by simpa using hc
          rw [hu', trimEnd_cons_of_visible hb] at hrest
          exact h.closes d (by rw [← hrest]; rfl)
  refine ⟨⟨[], p.mnemonic, trimEnd (codeFrom false t)⟩, ?_, rfl⟩
  rw [bodyParts?_false, hcode]
  refine seek?_eq_some_iff.mpr ⟨rfl, h.mnemonic, ?_, ?_, ?_, hcloses⟩
  · intro c hc
    cases hc
  · intro c hc
    cases hc
  · intro w hw
    rw [words_nil] at hw
    cases hw

/-! ## The label alone -/

/-- A text without blanks that spells a mnemonic up to its first quote. -/
def HidesMnemonic (s : Text) : Prop :=
  s.any isBlank = false ∧ IsMnemonic (s.takeWhile (!isAnyQuote ·))

theorem code_front {body : Text} {p : Parts} (h : BodyCut body p) :
    code (trimEnd p.before) = trimEnd p.before := code_eq_self h.front_uncut

theorem bodyParts?_front_of_blank {p : Parts} {word gap : Text} (hcut : CutBehindWord p word gap)
    (hcode : code (trimEnd p.before) = trimEnd p.before) :
    bodyParts? true (trimEnd p.before) = none := by
  have hstarts : StartsBlank (trimEnd gap) := hcut.starts.of_isPrefix (trimEnd_isPrefix gap)
  have hdrop := (takeWhile_word hcut.isWord hstarts).2
  rw [bodyParts?_true, hcode, trimEnd_trimEnd, hcut.front_eq, hdrop]
  rw [Option.map_eq_none_iff, seek?_eq_none_iff]
  intro t ht
  have hall : (trimEnd gap ++ []).takeWhile (!isAnyQuote ·) = trimEnd gap := by
    rw [List.takeWhile_append_of_pos, List.takeWhile_nil, List.append_nil]
    intro c hc
    simp [hcut.cut.unquoted c ((trimEnd_isPrefix gap).subset hc)]
  rw [List.append_nil] at hall
  rw [hall, words_trimEnd] at ht
  exact hcut.cut.none_before t ht

theorem any_takeWhile_unquoted {s : Text} (h : s.any isBlank = false) :
    ∀ c ∈ s.takeWhile (!isAnyQuote ·), isBlank c = false := by
  intro c hc
  have hm := (List.takeWhile_sublist _).mem hc
  simpa using List.any_eq_false.mp h c hm

/-- In a text without blanks a mnemonic is found at its head or nowhere. -/
theorem seek?_of_unbroken {s : Text} (h : s.any isBlank = false) :
    (HidesMnemonic s ∧ ∃ q, seek? s = some q ∧ q.before = []) ∨
      (¬ HidesMnemonic s ∧ seek? s = none) := by
  by_cases hm : IsMnemonic (s.takeWhile (!isAnyQuote ·))
  · left
    refine ⟨⟨h, hm⟩, ?_⟩
    cases hs : seek? s with
    | none =>
      have hword := words_of_isWord hm.isWord
      exact absurd hm (seek?_eq_none_iff.mp hs _ (by rw [hword]; exact List.mem_singleton_self _))
    | some q =>
      refine ⟨q, rfl, ?_⟩
      have hcut := seek?_cut hs
      rcases eq_nil_or_snoc q.before with hn | ⟨u, c, hu⟩
      · exact hn
      · have hb : isBlank c = true := hcut.opens c (by simp [hu])
        have hv : isBlank c = false := by
          simpa using List.any_eq_false.mp h c (by rw [hcut.text, hu]; simp)
        rw [hb] at hv
        cases hv
  · right
    refine ⟨fun hh => hm hh.2, seek?_eq_none_iff.mpr ?_⟩
    intro t ht
    by_cases hn : s.takeWhile (!isAnyQuote ·) = []
    · rw [hn, words_nil] at ht
      cases ht
    · rw [words_of_isWord ⟨hn, any_takeWhile_unquoted h⟩] at ht
      rw [List.mem_singleton.mp ht]
      exact hm

/-- The text in front of the gap, left alone on a line at the left margin. -/
theorem bodyParts?_front {margined : Bool} {body : Text} {p : Parts} (hv : OpensVisible body)
    (h : bodyParts? margined body = some p) (hb : p.before ≠ []) :
    (HidesMnemonic (trimEnd p.before) ∧
        ∃ q, bodyParts? (isMargined [] (trimEnd p.before)) (trimEnd p.before) = some q ∧
          q.before = []) ∨
      (¬ HidesMnemonic (trimEnd p.before) ∧
        bodyParts? (isMargined [] (trimEnd p.before)) (trimEnd p.before) = none) := by
  obtain ⟨word, gap, hcut⟩ := cutBehindWord hv h hb
  have hcode := code_front (bodyParts?_cut h)
  have hmargined : isMargined [] (trimEnd p.before) = (trimEnd p.before).any isBlank := rfl
  rw [hmargined]
  cases hany : (trimEnd p.before).any isBlank with
  | true =>
    right
    refine ⟨?_, bodyParts?_front_of_blank hcut hcode⟩
    intro hh
    rw [hh.1] at hany
    cases hany
  | false =>
    rw [bodyParts?_false, hcode, trimEnd_trimEnd]
    exact seek?_of_unbroken hany

/-- The colon of a label is read from the text in front of the gap alone. -/
theorem colonText?_front {body r : Text} {p : Parts} (h : BodyCut body p)
    (hr : body = p.before ++ r) :
    colonText? (trimEnd p.before) none = colonText? body (some p) := by
  have hlen : (code body).length = p.before.length +
      (codeFrom (endsQuoted false (trimEnd p.before)) r).length := by
    rw [h.code_eq hr, List.length_append]
  have hle := (trimEnd_isPrefix p.before).length_le
  have hfront := trimEnd_append_trailing p.before
  have hbefore := cutAtMark_append labelMark false (trimEnd p.before) (trailing p.before)
  rw [hfront] at hbefore
  unfold colonText?
  rw [code_front h, hr, cutAtMark_append labelMark false p.before r, ← hr]
  cases hcut : cutAtMark labelMark false (trimEnd p.before) with
  | some cut =>
    obtain ⟨b, rest⟩ := cut
    rw [hcut] at hbefore
    obtain ⟨hb, tail, ht⟩ := cutAtMark_parts hcut
    have hlt : b.length < (trimEnd p.before).length := by
      rw [hb, ht, List.length_append, List.length_cons]
      omega
    have h1 : b.length < p.before.length := by omega
    have h2 : b.length < (code body).length := by omega
    simp [hbefore, hlt, h1, h2]
  | none =>
    have hnone : cutAtMark labelMark false p.before = none := by
      have := cutAtMark_append_blank (by decide) hcut (isAllBlank_trailing p.before)
      rwa [hfront] at this
    rw [hnone]
    cases cutAtMark labelMark (endsQuoted false p.before) r with
    | none => rfl
    | some cut => simp

end AsmAssist.Reading
