import AsmAssist.Line.Assignment
import AsmAssist.Proofs.Words
import Mathlib.Data.List.DropRight

/-!
# Assignments word by word

The operator of an assignment is the first keyword behind the first word of the code, among the words that a
blank follows. The parts of an assignment are always found again in its code, so whether code assigns is
decided by its words alone and not by the blanks between them.
-/

namespace AsmAssist.Assignment

open Text

/-- The first keyword behind the first word is spelled in ASCII letters. -/
def assigns (code : Text) : Bool :=
  ((endedWords code).tail.find? Operator.isKeyword).any fun t => (Operator.ofText? t).isSome

theorem assigns_blank_append {w : Text} (hw : isAllBlank w = true) (s : Text) :
    assigns (w ++ s) = assigns s := by
  rw [assigns, endedWords_blank_append hw, ← assigns]

/-- An assignment stays one whatever follows its words. -/
theorem assigns_of_isPrefix {s t : Text} (hp : endedWords s <+: endedWords t)
    (h : assigns s = true) : assigns t = true := by
  rw [assigns, Option.any_eq_true_iff_get] at h
  obtain ⟨hsome, hop⟩ := h
  obtain ⟨k, hk⟩ := Option.isSome_iff_exists.mp hsome
  have hfound : (endedWords t).tail.find? Operator.isKeyword = some k := by
    obtain ⟨r, hr⟩ := hp
    cases he : endedWords s with
    | nil =>
      rw [he] at hk
      cases hk
    | cons u us =>
      rw [he] at hk hr
      rw [← hr, List.cons_append, List.tail_cons, List.find?_append, show us.find? _ = _ from hk]
      rfl
  simp only [hk, Option.get_some] at hop
  simp [assigns, hfound, hop]

/-! ## Keywords without a long s -/

/-- Folding is upper-casing, but for the long s and the Kelvin sign; no keyword has a K. -/
theorem map_toUpper_of_foldsTo {t : Text} {op : Operator} (hs : 'ſ' ∉ t)
    (h : foldsTo t op.keyword = true) : t.map Char.toUpper = op.keyword := by
  have hfold : t.map foldLetter = op.keyword := by simpa [foldsTo] using h
  have hk : 'K' ∉ op.keyword := by cases op <;> decide
  rw [← hfold]
  apply List.map_congr_left
  intro c hc
  have hsign : c ≠ '\u212a' := by
    rintro rfl
    apply hk
    rw [← hfold]
    exact List.mem_map.mpr ⟨_, hc, by decide⟩
  have hlong : c ≠ 'ſ' := fun he => hs (he ▸ hc)
  rw [foldLetter, if_neg hlong, if_neg hsign]

theorem ofText?_isSome_of_isKeyword {t : Text} (hs : 'ſ' ∉ t) (h : Operator.isKeyword t = true) :
    (Operator.ofText? t).isSome = true := by
  obtain ⟨op, hop, hf⟩ := List.any_eq_true.mp h
  apply List.find?_isSome.mpr
  refine ⟨op, hop, ?_⟩
  have hupper : op.keyword.map Char.toUpper = op.keyword := by cases op <;> decide
  simp [eqAsciiCase, hupper, map_toUpper_of_foldsTo hs hf]

/-- Code without a long s that assigns nothing has no keyword behind its first word. -/
theorem assigns_eq_false_iff {code : Text} (hs : 'ſ' ∉ code) :
    assigns code = false ↔ ∀ t ∈ (endedWords code).tail, Operator.isKeyword t = false := by
  have hword : ∀ t ∈ (endedWords code).tail, 'ſ' ∉ t := by
    intro t ht hm
    have hmem := (endedWords_isPrefix code).subset (List.mem_of_mem_tail ht)
    exact hs (subset_of_mem_words hmem hm)
  rw [assigns]
  cases hf : (endedWords code).tail.find? Operator.isKeyword with
  | none =>
    have hnone := List.find?_eq_none.mp hf
    simpa using fun t ht => by simpa using hnone t ht
  | some t =>
    have ht := List.mem_of_find?_eq_some hf
    have hk := List.find?_some hf
    have hop := ofText?_isSome_of_isKeyword (hword t ht) hk
    constructor
    · intro hn
      rw [Option.any_some, hop] at hn
      cases hn
    · intro hall
      rw [hall t ht] at hk
      cases hk

/-! ## The operator -/

theorem operatorAt?_visible {c : Char} (h : isBlank c = false) (s : Text) :
    operatorAt? (c :: s) = none := by
  simp [operatorAt?, h]

theorem operatorAt?_blank {c : Char} (h : isBlank c = true) (s : Text) :
    operatorAt? (c :: s) = keywordAt? (s.dropWhile isBlank) := by
  simp [operatorAt?, h]

/-- From any blank of a gap the same operator is seen. -/
theorem operatorAt?_cons_blank {c d : Char} (hc : isBlank c = true) (hd : isBlank d = true) (s : Text) :
    operatorAt? (c :: d :: s) = operatorAt? (d :: s) := by
  rw [operatorAt?_blank hc, operatorAt?_blank hd, List.dropWhile_cons_of_pos hd]

theorem keywordAt?_word {t r : Text} (ht : IsWord t) (hr : StartsBlank r) (hn : '\n' ∉ r) :
    keywordAt? (t ++ r) =
      if Operator.isKeyword t = true ∧ r ≠ [] then some (t, r.dropWhile isBlank) else none := by
  obtain ⟨hkeyword, hafter⟩ := takeWhile_word ht hr
  have hrest : '\n' ∉ r.dropWhile isBlank := fun hm => hn ((List.dropWhile_sublist _).mem hm)
  simp [keywordAt?, hkeyword, hafter, hrest]

section

-- unfolding the search for a keyword is out of reach of a definitional check
attribute [local irreducible] operatorAt?

theorem partsFrom_cons (c : Char) (s : Text) :
    partsFrom (c :: s) =
      match operatorAt? (c :: s) with
      | some (operator, rest) => some ⟨[], operator, rest⟩
      | none => if c = '\n' then none else (partsFrom s).map fun p => { p with name := c :: p.name } :=
  rfl

end

/-- A name goes on over visible characters. -/
theorem partsFrom_visible {t : Text} (ht : ∀ c ∈ t, isBlank c = false) (r : Text) :
    (partsFrom (t ++ r)).map Parts.operator = (partsFrom r).map Parts.operator := by
  induction t with
  | nil => rfl
  | cons c t ih =>
    have hc : isBlank c = false := ht c (by simp)
    have hne : c ≠ '\n' := by
      rintro rfl
      exact absurd hc (by decide)
    rw [List.cons_append, partsFrom_cons, operatorAt?_visible hc]
    simp only [if_neg hne, Option.map_map, Function.comp_def]
    exact ih fun d hd => ht d (List.mem_cons_of_mem c hd)

/-- From a blank on, the operator is the first keyword that a blank follows. The second part is the same
fact with one more blank in front: inside a gap, every blank leads to the same word. -/
theorem partsFrom_operator (s : Text) (hn : '\n' ∉ s) :
    (StartsBlank s →
      (partsFrom s).map Parts.operator = (endedWords s).find? Operator.isKeyword) ∧
    ∀ d, isBlank d = true → d ≠ '\n' →
      (partsFrom (d :: s)).map Parts.operator = (endedWords s).find? Operator.isKeyword := by
  induction s using words_induction with
  | nil =>
    refine ⟨fun _ => rfl, ?_⟩
    intro d hd hdn
    have hkey : keywordAt? [] = none := by decide
    rw [partsFrom_cons, operatorAt?_blank hd, List.dropWhile_nil, hkey]
    simp only [if_neg hdn]
    rfl
  | blank e s he ih =>
    have hne : e ≠ '\n' := fun h => hn (by simp [h])
    have hstep := (ih fun hm => hn (List.mem_cons_of_mem e hm)).2 e he hne
    rw [← endedWords_cons_blank he] at hstep
    refine ⟨fun _ => hstep, ?_⟩
    intro d hd hdn
    rw [← hstep, partsFrom_cons, operatorAt?_cons_blank hd he]
    cases ho : operatorAt? (e :: s) with
    | some found => simp [partsFrom_cons, ho]
    | none => simp [hdn, Function.comp_def]
  | word t r ht hr ih =>
    have hnr : '\n' ∉ r := fun hm => hn (List.mem_append_right t hm)
    constructor
    · intro hs
      obtain ⟨c, u, rfl⟩ := List.exists_cons_of_ne_nil ht.1
      have hb : isBlank c = true := hs c (by simp)
      rw [ht.2 c (by simp)] at hb
      cases hb
    · intro d hd hdn
      have hskip : (t ++ r).dropWhile isBlank = t ++ r := by
        obtain ⟨c, u, rfl⟩ := List.exists_cons_of_ne_nil ht.1
        exact List.dropWhile_cons_of_neg (by simp [ht.2 c (by simp)])
      rw [partsFrom_cons, operatorAt?_blank hd, hskip, keywordAt?_word ht hr hnr,
        endedWords_word_append ht hr]
      by_cases hr0 : r = []
      · have hrest := partsFrom_visible ht.2 r
        simp only [hr0, ne_eq, not_true, and_false, if_false, if_neg hdn, Option.map_map,
          Function.comp_def] at hrest ⊢
        rw [hrest]
        rfl
      · by_cases hk : Operator.isKeyword t = true
        · simp [hk, hr0]
        · have hrest := (partsFrom_visible ht.2 r).trans ((ih hnr).1 hr)
          rw [if_neg fun h => hk h.1, if_neg hr0, List.find?_cons_of_neg hk]
          simp only [if_neg hdn, Option.map_map, Function.comp_def]
          exact hrest

theorem parts?_operator {code : Text} (hn : '\n' ∉ code) :
    (parts? code).map Parts.operator = (endedWords code).tail.find? Operator.isKeyword := by
  have hsplit : code.takeWhile isBlank ++ code.dropWhile isBlank = code :=
    List.takeWhile_append_dropWhile
  have hwords := endedWords_blank_append (isAllBlank_lead code) (code.dropWhile isBlank)
  rw [hsplit] at hwords
  rw [hwords, parts?, trimStart]
  cases h : code.dropWhile isBlank with
  | nil => rfl
  | cons c s =>
    have hc := isBlank_of_dropWhile_eq h
    -- the first word takes part of the name and ends at a blank
    have hword : IsWord (c :: s.takeWhile (!isBlank ·)) := by
      have hw := isWord_takeWhile (s := s) hc
      rwa [List.takeWhile_cons_of_pos (by simp [hc])] at hw
    have hs : s.takeWhile (!isBlank ·) ++ s.dropWhile (!isBlank ·) = s :=
      List.takeWhile_append_dropWhile
    have hstarts := startsBlank_dropWhile s
    have hvisible := partsFrom_visible (fun d hd => hword.2 d (List.mem_cons_of_mem c hd))
      (s.dropWhile (!isBlank ·))
    have htail := tail_endedWords_word_append hword hstarts
    rw [hs] at hvisible
    rw [List.cons_append, hs] at htail
    have hnr : '\n' ∉ s.dropWhile (!isBlank ·) := by
      intro hm
      apply hn
      rw [← hsplit, h]
      exact List.mem_append_right _ (List.mem_cons_of_mem c ((List.dropWhile_sublist _).mem hm))
    rw [htail, ← (partsFrom_operator _ hnr).1 hstarts, ← hvisible]
    simp [Function.comp_def]

/-! ## The parts in the code -/

/-- The parts of an assignment in its code, with nothing but blanks around them. -/
structure Placed (code : Text) (p : Parts) (lead gap space : Text) : Prop where
  text : code = lead ++ (p.name ++ (gap ++ (p.operator ++ (space ++ p.rest))))
  lead_blank : isAllBlank lead = true
  gap_blank : isAllBlank gap = true
  space_blank : isAllBlank space = true
  name_opens : OpensVisible p.name
  operator_word : IsWord p.operator
  rest_starts : trimStart p.rest = p.rest

theorem isWord_of_isKeyword {s : Text} (h : Operator.isKeyword (s.takeWhile (!isBlank ·)) = true) :
    IsWord (s.takeWhile (!isBlank ·)) := by
  cases s with
  | nil => exact absurd h (by decide)
  | cons c s =>
    cases hc : isBlank c with
    | true =>
      rw [List.takeWhile_cons_of_neg (by simp [hc])] at h
      exact absurd h (by decide)
    | false => exact isWord_takeWhile hc

theorem keywordAt?_text {s keyword rest : Text} (h : keywordAt? s = some (keyword, rest)) :
    ∃ space, s = keyword ++ (space ++ rest) ∧ isAllBlank space = true ∧ space ≠ [] ∧
      Operator.isKeyword keyword = true ∧ IsWord keyword ∧ trimStart rest = rest := by
  simp only [keywordAt?] at h
  split at h
  · rename_i hk
    obtain ⟨rfl, rfl⟩ := Prod.mk.inj (Option.some.inj h)
    simp only [Bool.and_eq_true, decide_eq_true_eq] at hk
    obtain ⟨⟨hkeyword, hafter⟩, -⟩ := hk
    refine ⟨(s.dropWhile (!isBlank ·)).takeWhile isBlank, ?_, isAllBlank_lead _, ?_, hkeyword,
      isWord_of_isKeyword hkeyword, List.dropWhile_idempotent _ _⟩
    · rw [List.takeWhile_append_dropWhile, List.takeWhile_append_dropWhile]
    · -- what ends the keyword is a blank
      obtain ⟨c, after, hc⟩ := List.exists_cons_of_ne_nil hafter
      have hblank := startsBlank_dropWhile s
      rw [hc] at hblank ⊢
      simp [hblank c rfl]
  · cases h

/-- An operator behind a gap and in front of its value. -/
structure Operates (s gap operator space rest : Text) : Prop where
  text : s = gap ++ (operator ++ (space ++ rest))
  gap_blank : isAllBlank gap = true
  gap_ne_nil : gap ≠ []
  space_blank : isAllBlank space = true
  space_ne_nil : space ≠ []
  keyword : Operator.isKeyword operator = true
  word : IsWord operator
  rest_starts : trimStart rest = rest

theorem operatorAt?_operates {s operator rest : Text} (h : operatorAt? s = some (operator, rest)) :
    ∃ gap space, Operates s gap operator space rest := by
  cases s with
  | nil => cases h
  | cons c s =>
    rw [operatorAt?] at h
    split at h
    · rename_i hc
      obtain ⟨space, hs, hspace, hne, hkeyword, hword, hrest⟩ := keywordAt?_text h
      refine ⟨(c :: s).takeWhile isBlank, space, ?_, isAllBlank_lead _, by simp [hc], hspace, hne, hkeyword,
        hword, hrest⟩
      rw [← hs, List.takeWhile_append_dropWhile]
    · cases h

/-- The name goes on to the first place where an operator is seen. -/
theorem partsFrom_eq_some {s : Text} {p : Parts} (h : partsFrom s = some p) :
    (∃ rest, s = p.name ++ rest ∧ operatorAt? rest = some (p.operator, p.rest)) ∧
      ∀ u v, s = u ++ v → u.length < p.name.length → operatorAt? v = none := by
  induction s generalizing p with
  | nil => cases h
  | cons c s ih =>
    rw [partsFrom_cons] at h
    split at h
    next operator rest hoperator =>
      cases h
      exact ⟨⟨c :: s, rfl, hoperator⟩, fun u v _ hlt => absurd hlt (Nat.not_lt_zero _)⟩
    next hnone =>
      split at h
      · cases h
      · obtain ⟨q, hq, rfl⟩ := Option.map_eq_some_iff.mp h
        obtain ⟨⟨rest, hs, hrest⟩, hleast⟩ := ih hq
        refine ⟨⟨rest, by rw [hs, List.cons_append], hrest⟩, ?_⟩
        intro u v huv hlt
        cases u with
        | nil =>
          rw [List.nil_append] at huv
          rw [← huv]
          exact hnone
        | cons d u =>
          obtain ⟨-, hsu⟩ := List.cons.inj huv
          exact hleast u v hsu (Nat.lt_of_succ_lt_succ hlt)

/-- Code without an assignment shows an operator nowhere behind its first character. -/
theorem partsFrom_eq_none {s : Text} (hn : '\n' ∉ s) (h : partsFrom s = none) :
    ∀ u v, s = u ++ v → operatorAt? v = none := by
  induction s with
  | nil =>
    intro u v huv
    obtain ⟨-, rfl⟩ := List.append_eq_nil_iff.mp huv.symm
    rfl
  | cons c s ih =>
    have hc : c ≠ '\n' := fun he => hn (he ▸ List.mem_cons_self)
    rw [partsFrom_cons] at h
    split at h
    · cases h
    next hnone =>
      rw [if_neg hc, Option.map_eq_none_iff] at h
      intro u v huv
      cases u with
      | nil =>
        rw [List.nil_append] at huv
        rw [← huv]
        exact hnone
      | cons d u =>
        obtain ⟨-, hsu⟩ := List.cons.inj huv
        exact ih (fun hm => hn (List.mem_cons_of_mem c hm)) h u v hsu

/-- The first visible character of the code, and the search behind it. -/
theorem parts?_eq_some {code : Text} {p : Parts} (h : parts? code = some p) :
    ∃ lead c s q, code = lead ++ c :: s ∧ isAllBlank lead = true ∧ isBlank c = false ∧
      partsFrom s = some q ∧ p = { q with name := c :: q.name } := by
  rw [parts?] at h
  split at h
  · cases h
  next c s hcode =>
    obtain ⟨q, hq, rfl⟩ := Option.map_eq_some_iff.mp h
    have hsplit : code = code.takeWhile isBlank ++ c :: s := by
      rw [← hcode]
      exact List.takeWhile_append_dropWhile.symm
    exact ⟨_, c, s, q, hsplit, isAllBlank_lead code, isBlank_of_dropWhile_eq hcode, hq, rfl⟩

theorem parts?_operates {code : Text} {p : Parts} (h : parts? code = some p) :
    ∃ lead rest gap space, code = lead ++ (p.name ++ rest) ∧ isAllBlank lead = true ∧ OpensVisible p.name ∧
      Operates rest gap p.operator space p.rest := by
  obtain ⟨lead, c, s, q, rfl, hlead, hc, hq, rfl⟩ := parts?_eq_some h
  obtain ⟨⟨rest, rfl, hoperator⟩, -⟩ := partsFrom_eq_some hq
  obtain ⟨gap, space, hcut⟩ := operatorAt?_operates hoperator
  exact ⟨lead, rest, gap, space, rfl, hlead, ⟨c, q.name, rfl, hc⟩, hcut⟩

theorem Operates.placed {p : Parts} {lead rest gap space : Text}
    (h : Operates rest gap p.operator space p.rest) (hlead : isAllBlank lead = true)
    (hname : OpensVisible p.name) : Placed (lead ++ (p.name ++ rest)) p lead gap space :=
  ⟨by rw [h.text], hlead, h.gap_blank, h.space_blank, hname, h.word, h.rest_starts⟩

theorem parts?_placed {code : Text} {p : Parts} (h : parts? code = some p) :
    ∃ lead gap space, Placed code p lead gap space := by
  obtain ⟨lead, rest, gap, space, rfl, hlead, hname, hcut⟩ := parts?_operates h
  exact ⟨lead, gap, space, hcut.placed hlead hname⟩

theorem before?_isPrefix {part s before : Text} (h : before? part s = some before) :
    before ++ part <+: s := by
  induction s generalizing before with
  | nil =>
    rw [before?] at h
    split at h
    · rename_i hp
      cases h
      simp [hp]
    · cases h
  | cons c s ih =>
    rw [before?] at h
    split at h
    · rename_i hp
      cases h
      exact List.isPrefixOf_iff_prefix.mp hp
    · obtain ⟨b, hb, rfl⟩ := Option.map_eq_some_iff.mp h
      exact (List.prefix_cons_inj c).mpr (ih hb)

/-- A part found behind another stands behind it in the whole text. -/
theorem before?_drop {code front part before : Text} (hf : front <+: code)
    (h : before? part (code.drop front.length) = some before) :
    front ++ before ++ part <+: code := by
  obtain ⟨rest, rfl⟩ := hf
  rw [List.drop_left] at h
  rw [List.append_assoc]
  exact (List.prefix_append_right_inj front).mpr (before?_isPrefix h)

/-- A part that opens with a visible character is not found among blanks. -/
theorem before?_blank_append {part w : Text} (hp : OpensVisible part) (hw : isAllBlank w = true)
    (s : Text) : before? part (w ++ s) = (before? part s).map (w ++ ·) := by
  obtain ⟨c, t, rfl, hc⟩ := hp
  induction w with
  | nil => simp
  | cons d w ih =>
    obtain ⟨hd, hw⟩ := Bool.and_eq_true_iff.mp hw
    have hne : c ≠ d := by
      rintro rfl
      rw [hd] at hc
      cases hc
    rw [List.cons_append, before?, if_neg (by simp [hne]), ih hw, Option.map_map]
    rfl

/-- A part is found where it stands behind blanks. -/
theorem before?_placed {part w : Text} (hp : OpensVisible part) (hw : isAllBlank w = true) (s : Text) :
    before? part (w ++ (part ++ s)) = some w := by
  have hself : before? part (part ++ s) = some [] := by
    have hprefix : part.isPrefixOf (part ++ s) = true :=
      List.isPrefixOf_iff_prefix.mpr (List.prefix_append part s)
    obtain ⟨c, t, rfl, -⟩ := hp
    rw [List.cons_append] at hprefix ⊢
    rw [before?, if_pos hprefix]
  rw [before?_blank_append hp hw, hself, Option.map_some, List.append_nil]

theorem before?_nil (s : Text) : before? [] s = some [] := by
  cases s <;> rfl

/-- What an assignment says: its name, its operator and its value. -/
def meaning (a : Assignment) : Text × Operator × Text := (a.name.text, a.kind, a.value.text)

/-- What code says as an assignment. -/
def meaning? (code : Text) : Option (Text × Operator × Text) :=
  (parts? code).bind fun p => (Operator.ofText? p.operator).map fun kind => (p.name, kind, trim p.rest)

/-- The assignment of code with its parts behind `lead`, `gap` and `space`. An empty value stands right
after the operator. -/
def placed (line : Nat) (lead gap space : Text) (p : Parts) (kind : Operator) : Assignment where
  name := .after line lead p.name
  operator := .after line (lead ++ p.name ++ gap) p.operator
  kind
  value := .after line (lead ++ p.name ++ gap ++ p.operator ++ if trim p.rest = [] then [] else space)
    (trim p.rest)

theorem Placed.before?_value {code lead gap space : Text} {p : Parts}
    (h : Placed code p lead gap space) :
    before? (trim p.rest) (space ++ p.rest) = some (if trim p.rest = [] then [] else space) := by
  split
  · rename_i hn
    rw [hn, before?_nil]
  · rename_i hne
    have htrim : trim p.rest ++ trailing p.rest = p.rest := by
      rw [trim, h.rest_starts, trimEnd_append_trailing]
    have hopens : OpensVisible (trim p.rest) := by
      rw [trim, h.rest_starts] at hne ⊢
      have hrest : p.rest ≠ [] := fun hn => hne (by rw [hn, trimEnd_nil])
      obtain ⟨c, r, hr, hc⟩ := opensVisible_of_trimStart h.rest_starts hrest
      exact ⟨c, trimEnd r, by rw [hr, trimEnd_cons_of_visible hc], hc⟩
    have hfound := before?_placed hopens h.space_blank (trailing p.rest)
    rwa [htrim] at hfound

/-- Once the parts are known and the operator is, each part is found where it stands. -/
theorem Placed.read? {code lead gap space : Text} {p : Parts} {kind : Operator}
    (h : Placed code p lead gap space) (hp : parts? code = some p)
    (hk : Operator.ofText? p.operator = some kind) (line : Nat) :
    read? code line = some (placed line lead gap space p kind) := by
  have hoperator : OpensVisible p.operator := by
    obtain ⟨c, t, hc⟩ := List.exists_cons_of_ne_nil h.operator_word.1
    exact ⟨c, t, hc, h.operator_word.2 c (by simp [hc])⟩
  have hname : before? p.name code = some lead := by
    rw [h.text]
    exact before?_placed h.name_opens h.lead_blank _
  have hnamed : code.drop (lead ++ p.name).length = gap ++ (p.operator ++ (space ++ p.rest)) := by
    apply drop_of_eq_append
    rw [h.text, List.append_assoc]
  have hoperated : code.drop (lead ++ p.name ++ gap ++ p.operator).length = space ++ p.rest := by
    apply drop_of_eq_append
    rw [h.text]
    simp only [List.append_assoc]
  simp only [Assignment.read?, hp, hk, hname, hnamed, hoperated,
    before?_placed hoperator h.gap_blank, h.before?_value, Option.bind_eq_bind, Option.bind_some,
    Option.pure_def]
  rfl

theorem read?_eq_some {code : Text} {line : Nat} {a : Assignment} (h : read? code line = some a) :
    ∃ p kind lead gap space, parts? code = some p ∧ Operator.ofText? p.operator = some kind ∧
      Placed code p lead gap space ∧ a = placed line lead gap space p kind := by
  cases hp : parts? code with
  | none => simp [Assignment.read?, hp] at h
  | some p =>
    cases hk : Operator.ofText? p.operator with
    | none => simp [Assignment.read?, hp, hk] at h
    | some kind =>
      obtain ⟨lead, gap, space, hplaced⟩ := parts?_placed hp
      rw [hplaced.read? hp hk line] at h
      exact ⟨p, kind, lead, gap, space, rfl, hk, hplaced, (Option.some.inj h).symm⟩

theorem read?_meaning (code : Text) (line : Nat) : (read? code line).map meaning = meaning? code := by
  cases hp : parts? code with
  | none => simp [read?, meaning?, hp]
  | some p =>
    cases hk : Operator.ofText? p.operator with
    | none => simp [read?, meaning?, hp, hk]
    | some kind =>
      obtain ⟨lead, gap, space, h⟩ := parts?_placed hp
      simp [meaning?, hp, hk, h.read? hp hk line, meaning, placed, Token.after]

theorem meaning?_isSome {code : Text} (hn : '\n' ∉ code) : (meaning? code).isSome = assigns code := by
  rw [assigns, ← parts?_operator hn, meaning?]
  cases parts? code <;> simp

/-- Code is an assignment exactly if its words say so. -/
theorem read?_isSome {code : Text} (hn : '\n' ∉ code) (line : Nat) :
    (read? code line).isSome = assigns code := by
  rw [← meaning?_isSome hn, ← read?_meaning code line, Option.isSome_map]

theorem parts?_blank_append {w : Text} (hw : isAllBlank w = true) (s : Text) :
    parts? (w ++ s) = parts? s := by
  have htrim : trimStart (w ++ s) = trimStart s :=
    List.dropWhile_append_of_pos (isAllBlank_iff.mp hw)
  rw [parts?, parts?, htrim]

theorem meaning?_blank_append {w : Text} (hw : isAllBlank w = true) (s : Text) :
    meaning? (w ++ s) = meaning? s := by
  rw [meaning?, meaning?, parts?_blank_append hw]

end AsmAssist.Assignment
