import AsmAssist.Proofs.Tokens

/-!
# The operator of an assignment

The name of an assignment goes on to the first blanks that a keyword follows, so the operator is the first
keyword behind the first word of the code. Each part of the assignment is then looked for by its text, behind
the part in front of it. Since only blanks stand between them, each is found where it was read, even if its
text occurs more than once.
-/

namespace AsmAssist

open Text

namespace Assignment

/-- A keyword behind the first word of the code, which a blank follows. -/
structure KeywordAt (code before keyword : Text) : Prop where
  place : WordAt code before keyword
  behind : isAllBlank before = false
  spelled : Operator.isKeyword keyword = true
  ended : ∃ c rest, code = before ++ keyword ++ c :: rest ∧ isBlank c = true

structure FirstKeyword (code before keyword : Text) : Prop extends KeywordAt code before keyword where
  first : ∀ earlier other, KeywordAt code earlier other → before.length ≤ earlier.length

theorem FirstKeyword.unique {code before keyword before' keyword' : Text}
    (h : FirstKeyword code before keyword) (h' : FirstKeyword code before' keyword') :
    before = before' ∧ keyword = keyword' := by
  have hle := h.first before' keyword' h'.toKeywordAt
  have hge := h'.first before keyword h.toKeywordAt
  have hprefix := List.prefix_of_prefix_length_le h.place.before_isPrefix h'.place.before_isPrefix hle
  obtain rfl := hprefix.eq_of_length (Nat.le_antisymm hle hge)
  exact ⟨rfl, h.place.unique h'.place⟩

/-! ## The search -/

/-- An operator is seen from the blanks in front of it. -/
theorem operatorAt?_keyword {gap keyword after : Text} (hgap : isAllBlank gap = true) (hne : gap ≠ [])
    (hword : IsWord keyword) (hkeyword : Operator.isKeyword keyword = true) (hafter : StartsBlank after)
    (hended : after ≠ []) (hn : '\n' ∉ after) :
    operatorAt? (gap ++ (keyword ++ after)) = some (keyword, after.dropWhile isBlank) := by
  obtain ⟨c, gap, rfl⟩ := List.exists_cons_of_ne_nil hne
  obtain ⟨hc, hgap⟩ := Bool.and_eq_true_iff.mp hgap
  obtain ⟨d, keyword', rfl⟩ := List.exists_cons_of_ne_nil hword.1
  have hopens : OpensVisible (d :: keyword' ++ after) :=
    ⟨d, keyword' ++ after, rfl, hword.2 d List.mem_cons_self⟩
  rw [List.cons_append, operatorAt?_blank hc, dropWhile_isBlank_append hgap hopens,
    keywordAt?_word hword hafter hn, if_pos ⟨hkeyword, hended⟩]

/-- A keyword behind the first word shows the search an operator, from the end of the word in front. -/
theorem KeywordAt.seen {code before keyword : Text} (h : KeywordAt code before keyword) (hn : '\n' ∉ code) :
    ∃ lead c u v, code = lead ++ c :: (u ++ v) ∧ isAllBlank lead = true ∧ isBlank c = false ∧
      (lead ++ c :: u).length ≤ before.length ∧ operatorAt? v ≠ none := by
  obtain ⟨d, rest, hcode, hd⟩ := h.ended
  obtain hblank | ⟨lead, t, rfl, hlead, c, u, rfl, hc⟩ := Reading.visible_cases before
  · exact absurd hblank (by simp [h.behind])
  -- the blanks that the search stands at are those at the end of `before`
  have htail : trailing (c :: u) ≠ [] := by
    refine trailing_ne_nil (fun e he => ?_) (List.cons_ne_nil c u)
    exact h.place.opens e (by simpa [List.getLast?_append] using he)
  have hsplit : trimEnd u ++ trailing (c :: u) = u := by
    have hall := trimEnd_append_trailing (c :: u)
    rw [trimEnd_cons_of_visible hc, List.cons_append] at hall
    exact (List.cons.inj hall).2
  refine ⟨lead, c, trimEnd u, trailing (c :: u) ++ (keyword ++ d :: rest), ?_, hlead, hc, ?_, ?_⟩
  · rw [hcode, ← List.append_assoc (trimEnd u), hsplit]
    simp
  · have hle := (trimEnd_isPrefix u).length_le
    simp only [List.length_append, List.length_cons]
    omega
  · have hafter : '\n' ∉ d :: rest := fun hm => hn (by rw [hcode]; exact List.mem_append_right _ hm)
    rw [operatorAt?_keyword (isAllBlank_trailing _) htail h.place.word h.spelled
      (by simpa [StartsBlank] using hd) (List.cons_ne_nil d rest) hafter]
    exact Option.some_ne_none _

theorem parts?_ne_none {code before keyword : Text} (h : KeywordAt code before keyword) (hn : '\n' ∉ code) :
    parts? code ≠ none := by
  obtain ⟨lead, c, u, v, rfl, hlead, hc, -, hseen⟩ := h.seen hn
  intro hnone
  have hopens : OpensVisible (c :: (u ++ v)) := ⟨c, u ++ v, rfl, hc⟩
  rw [parts?, trimStart, dropWhile_isBlank_append hlead hopens, Option.map_eq_none_iff] at hnone
  have hrest : '\n' ∉ u ++ v := fun hm => hn (List.mem_append_right _ (List.mem_cons_of_mem c hm))
  exact hseen (partsFrom_eq_none hrest hnone u v rfl)

/-- A name ends in a visible character: from a blank at its end the operator would be seen. -/
theorem trimEnd_name {code : Text} {p : Parts} (h : parts? code = some p) : trimEnd p.name = p.name := by
  obtain ⟨-, c, s, q, -, -, hc, hq, rfl⟩ := parts?_eq_some h
  obtain ⟨⟨rest, hs, hoperator⟩, hleast⟩ := partsFrom_eq_some hq
  obtain hnil | ⟨t, d, hname⟩ := eq_nil_or_snoc q.name
  · rw [hnil, trimEnd_cons_of_visible hc, trimEnd_nil]
  · have hd : isBlank d = false := by
      cases hd : isBlank d with
      | false => rfl
      | true =>
        obtain ⟨gap, space, hcut⟩ := operatorAt?_operates hoperator
        obtain ⟨e, gap', rfl⟩ := List.exists_cons_of_ne_nil hcut.gap_ne_nil
        have he : isBlank e = true := (Bool.and_eq_true_iff.mp hcut.gap_blank).1
        have hnone := hleast t (d :: rest) (by rw [hs, hname]; simp) (by simp [hname])
        rw [hcut.text, List.cons_append, operatorAt?_cons_blank hd he, ← List.cons_append, ← hcut.text,
          hoperator] at hnone
        cases hnone
    rw [hname, trimEnd_cons_of_visible hc, trimEnd_append_cons hd, trimEnd_nil]

/-- A name ends no later than the first place where an operator is seen. -/
theorem length_name_le {lead u v : Text} {c : Char} {p : Parts}
    (h : parts? (lead ++ c :: (u ++ v)) = some p) (hlead : isAllBlank lead = true) (hc : isBlank c = false)
    (hseen : operatorAt? v ≠ none) : p.name.length ≤ (c :: u).length := by
  have hopens : OpensVisible (c :: (u ++ v)) := ⟨c, u ++ v, rfl, hc⟩
  rw [parts?, trimStart, dropWhile_isBlank_append hlead hopens] at h
  obtain ⟨q, hq, rfl⟩ := Option.map_eq_some_iff.mp h
  apply Nat.succ_le_succ
  apply Nat.le_of_not_lt
  intro hlt
  exact hseen ((partsFrom_eq_some hq).2 u v rfl hlt)

/-- Where an operator is read, the first keyword stands. -/
theorem parts?_firstKeyword {code : Text} {p : Parts} (hn : '\n' ∉ code) (h : parts? code = some p) :
    ∃ lead gap space, Placed code p lead gap space ∧
      FirstKeyword code (lead ++ p.name ++ gap) p.operator := by
  obtain ⟨lead, rest, gap, space, rfl, hlead, hname, hcut⟩ := parts?_operates h
  have htext : lead ++ (p.name ++ rest) = lead ++ p.name ++ gap ++ p.operator ++ (space ++ p.rest) := by
    rw [hcut.text]
    simp only [List.append_assoc]
  obtain ⟨d, space', hspace⟩ := List.exists_cons_of_ne_nil hcut.space_ne_nil
  have hd : isBlank d = true := isAllBlank_iff.mp hcut.space_blank d (by simp [hspace])
  have hopens : EndsBlank (lead ++ p.name ++ gap) :=
    EndsBlank.append (endsBlank_of_blank hcut.gap_blank) fun hnil => absurd hnil hcut.gap_ne_nil
  have hbehind : isAllBlank (lead ++ p.name ++ gap) = false := by
    obtain ⟨c, t, hct, hc⟩ := hname
    simp [hct, hc]
  have hplace : WordAt (lead ++ (p.name ++ rest)) (lead ++ p.name ++ gap) p.operator :=
    ⟨hcut.word, hopens, space ++ p.rest, htext, by simpa [StartsBlank, hspace] using hd⟩
  refine ⟨lead, gap, space, hcut.placed hlead hname,
    ⟨hplace, hbehind, hcut.keyword, d, space' ++ p.rest, by rw [htext, hspace, List.cons_append], hd⟩, ?_⟩
  intro earlier other hother
  obtain ⟨lead', c, u, v, hcode, hlead', hc, hle, hseen⟩ := hother.seen hn
  have hsame : lead' = lead := by
    rw [← takeWhile_isBlank_append hlead (hname.append rest), hcode]
    exact (takeWhile_isBlank_append hlead' ⟨c, u ++ v, rfl, hc⟩).symm
  have hlength := length_name_le (hcode ▸ h) hlead' hc hseen
  refine hother.place.not_inside ⟨p.operator ++ (space ++ p.rest), ?_⟩ hcut.gap_blank ?_
  · rw [htext, List.append_assoc _ p.operator]
  · rw [hsame] at hle
    simp only [List.length_append, List.length_cons] at hle hlength ⊢
    omega

/-! ## Its parts -/

theorem spelled_of_ofText? {t : Text} {op : Operator} (h : Operator.ofText? t = some op) :
    eqAsciiCase op.keyword t = true := by
  have hfound := List.find?_some h
  exact hfound

/-- A text that spells a keyword in ASCII letters folds to it as well. -/
theorem foldsTo_of_eqAsciiCase {t : Text} {op : Operator} (h : eqAsciiCase op.keyword t = true) :
    foldsTo t op.keyword = true := by
  have hupper : op.keyword.map Char.toUpper = op.keyword := by cases op <;> decide
  have ht : op.keyword = t.map Char.toUpper := by
    rw [eqAsciiCase, hupper] at h
    exact beq_iff_eq.mp h
  have hletters : ∀ c ∈ t, c ≠ 'ſ' ∧ c ≠ '\u212a' := by
    intro c hc
    have hmem : c.toUpper ∈ op.keyword := ht ▸ List.mem_map_of_mem hc
    constructor <;> rintro rfl <;> revert hmem <;> cases op <;> decide
  rw [foldsTo, beq_iff_eq, ht]
  apply List.map_congr_left
  intro c hc
  rw [foldLetter, if_neg (hletters c hc).1, if_neg (hletters c hc).2]

/-- The parts of an assignment around its operator `keyword`, in a line where `before` stands in front of the
operator and `rest` is the code behind it. -/
structure StandsAt (number : Nat) (raw before keyword rest : Text) (a : Assignment) : Prop where
  operator : a.operator = .after number before keyword
  kind : eqAsciiCase a.kind.keyword keyword = true
  /-- From the first visible character to the end of the word in front of the operator. -/
  name : a.name = .after number (raw.takeWhile isBlank) (trim before)
  /-- The rest without the blanks around it; right behind the operator if there is nothing else. -/
  value : a.value = if isAllBlank rest then .after number (before ++ keyword) []
    else .after number (before ++ keyword ++ rest.takeWhile isBlank) (trim rest)
  name_before : a.name.span.stop ≤ a.operator.span.start
  value_behind : a.operator.span.stop ≤ a.value.span.start
  name_gap : isAllBlank (Span.slice ⟨a.name.span.stop, a.operator.span.start⟩ raw) = true
  value_gap : isAllBlank (Span.slice ⟨a.operator.span.stop, a.value.span.start⟩ raw) = true

/-- Two tokens with a gap between them. -/
theorem between_tokens {before text gap raw : Text} (h : before ++ text ++ gap <+: raw) (number : Nat)
    (next : Text) :
    let first := Token.after number before text
    let second := Token.after number (before ++ text ++ gap) next
    first.span.stop ≤ second.span.start ∧ Span.slice ⟨first.span.stop, second.span.start⟩ raw = gap := by
  constructor
  · exact .inr ⟨rfl, by simp [Token.after, Span.onLine]⟩
  · have hspan : (⟨(Token.after number before text).span.stop,
        (Token.after number (before ++ text ++ gap) next).span.start⟩ : Span) =
        .over number (before ++ text) gap := by
      simp [Span.over, Token.after, Span.onLine, Nat.add_assoc]
    rw [hspan, Span.slice_over h]

theorem Placed.trim_front {code lead gap space : Text} {p : Parts} (h : Placed code p lead gap space)
    (hp : parts? code = some p) : trim (lead ++ p.name ++ gap) = p.name := by
  rw [trim, trimStart, List.append_assoc, dropWhile_isBlank_append h.lead_blank (h.name_opens.append gap),
    trimEnd_append_of_blank _ h.gap_blank, trimEnd_name hp]

theorem Placed.value_eq {code lead gap space : Text} {p : Parts} {kind : Operator}
    (h : Placed code p lead gap space) (number : Nat) :
    (placed number lead gap space p kind).value =
      if isAllBlank (space ++ p.rest) then .after number (lead ++ p.name ++ gap ++ p.operator) []
      else .after number (lead ++ p.name ++ gap ++ p.operator ++ (space ++ p.rest).takeWhile isBlank)
        (trim (space ++ p.rest)) := by
  have htrim : trim (space ++ p.rest) = trim p.rest := by
    rw [trim, trim, trimStart, trimStart, List.dropWhile_append_of_pos (isAllBlank_iff.mp h.space_blank)]
  have hblank : isAllBlank (space ++ p.rest) = true ↔ trim p.rest = [] := by
    rw [isAllBlank_append, h.space_blank, Bool.true_and, trim, h.rest_starts, trimEnd_eq_nil_iff]
  by_cases hn : trim p.rest = []
  · rw [if_pos (hblank.mpr hn)]
    simp [placed, hn]
  · have hrest : p.rest ≠ [] := fun he => hn (by rw [he]; rfl)
    have hopens := opensVisible_of_trimStart h.rest_starts hrest
    rw [if_neg fun hb => hn (hblank.mp hb), htrim, takeWhile_isBlank_append h.space_blank hopens]
    simp [placed, hn]

/-- The parts of an assignment are found where they were read. -/
theorem Placed.standsAt {code raw lead gap space : Text} {p : Parts} {kind : Operator}
    (h : Placed code p lead gap space) (hp : parts? code = some p)
    (hk : Operator.ofText? p.operator = some kind) (hraw : code <+: raw) (number : Nat) :
    StandsAt number raw (lead ++ p.name ++ gap) p.operator (space ++ p.rest)
      (placed number lead gap space p kind) := by
  obtain ⟨r, rfl⟩ := hraw
  have hlead : (code ++ r).takeWhile isBlank = lead := by
    rw [h.text, List.append_assoc, List.append_assoc]
    exact takeWhile_isBlank_append h.lead_blank (h.name_opens.append _)
  have hname : lead ++ p.name ++ gap <+: code ++ r :=
    ⟨p.operator ++ (space ++ p.rest) ++ r, by rw [h.text]; simp only [List.append_assoc]⟩
  have hvalue : lead ++ p.name ++ gap ++ p.operator ++ (if trim p.rest = [] then [] else space) <+:
      code ++ r := by
    split
    · exact ⟨space ++ p.rest ++ r, by rw [h.text]; simp only [List.append_assoc, List.nil_append]⟩
    · exact ⟨p.rest ++ r, by rw [h.text]; simp only [List.append_assoc]⟩
  obtain ⟨hbefore, hgap⟩ := between_tokens hname number p.operator
  obtain ⟨hbehind, hspace⟩ := between_tokens hvalue number (trim p.rest)
  refine ⟨rfl, spelled_of_ofText? hk, ?_, h.value_eq number, hbefore, hbehind, ?_, ?_⟩
  · rw [hlead, h.trim_front hp]
    rfl
  · exact (congrArg isAllBlank hgap).trans h.gap_blank
  · refine (congrArg isAllBlank hspace).trans ?_
    split
    · rfl
    · exact h.space_blank

end Assignment

namespace Line

open Assignment

/-- `code` ends at the first comment mark outside literals, or where the line ends. -/
def IsCodeOf (raw code : Text) : Prop :=
  FirstMark commentMark raw code ∨ code = raw ∧ ∀ before, ¬ FirstMark commentMark raw before

theorem IsCodeOf.eq_code {raw code : Text} (h : IsCodeOf raw code) : code = Reading.code raw := by
  obtain hmark | ⟨rfl, hnone⟩ := h
  · obtain ⟨rest, hcut⟩ := cutAtMark_of_firstMark (by decide) hmark
    simp [Reading.code, cutAtComment, hcut]
  · cases hcut : cutAtComment code with
    | none => exact (Reading.code_eq_self hcut).symm
    | some cut => exact absurd (cutAtMark_firstMark (by decide) hcut) (hnone cut.1)

theorem kind_eq_assignment_iff {raw : Text} (h : Reading.OpensCode (trimStart raw)) {number : Nat}
    {a : Assignment} :
    (classify raw number).kind = .assignment a ↔ Assignment.read? (Reading.code raw) number = some a := by
  have hlead := isAllBlank_lead raw
  have hsplit : raw.takeWhile AsmAssist.isBlank ++ trimStart raw = raw := List.takeWhile_append_dropWhile
  have hread := Reading.assignment?_classify hlead h number
  rw [← Reading.code_blank_append hlead, hsplit] at hread
  rw [← hread, Line.assignment?]
  split <;> simp_all

/-- A line without line feeds that opens with code is an assignment exactly if its first keyword behind the
first word is spelled in ASCII letters. The parts of the assignment then stand around that keyword, in order
and with only blanks between them. -/
theorem assignment_at_firstKeyword {raw code : Text} (hbreak : '\n' ∉ raw)
    (hopens : Reading.OpensCode (trimStart raw)) (hcode : IsCodeOf raw code) (number : Nat) :
    ((∃ a, (classify raw number).kind = .assignment a) ↔
      ∃ before keyword, FirstKeyword code before keyword ∧
        ∃ op : Operator, foldsTo keyword op.keyword = true ∧ eqAsciiCase op.keyword keyword = true) ∧
    ∀ a before keyword rest, (classify raw number).kind = .assignment a →
      FirstKeyword code before keyword → code = before ++ keyword ++ rest →
      StandsAt number raw before keyword rest a := by
  obtain rfl := hcode.eq_code
  have hn : '\n' ∉ Reading.code raw := Reading.not_mem_code hbreak
  simp only [kind_eq_assignment_iff hopens]
  refine ⟨⟨?_, ?_⟩, ?_⟩
  · rintro ⟨a, ha⟩
    obtain ⟨p, kind, -, -, -, hp, hk, -, -⟩ := read?_eq_some ha
    obtain ⟨lead, gap, space, -, hfirst⟩ := parts?_firstKeyword hn hp
    have hspelled := spelled_of_ofText? hk
    exact ⟨_, _, hfirst, kind, foldsTo_of_eqAsciiCase hspelled, hspelled⟩
  · rintro ⟨before, keyword, hfirst, op, -, hspelled⟩
    obtain ⟨p, hp⟩ := Option.ne_none_iff_exists'.mp (parts?_ne_none hfirst.toKeywordAt hn)
    obtain ⟨lead, gap, space, hplaced, hown⟩ := parts?_firstKeyword hn hp
    obtain ⟨rfl, rfl⟩ := hfirst.unique hown
    have hop : op ∈ Operator.all := by cases op <;> decide
    have hsome : (Operator.ofText? p.operator).isSome = true := List.find?_isSome.mpr ⟨op, hop, hspelled⟩
    obtain ⟨kind, hk⟩ := Option.isSome_iff_exists.mp hsome
    exact ⟨_, hplaced.read? hp hk number⟩
  · intro a before keyword rest ha hfirst hrest
    obtain ⟨p, kind, -, -, -, hp, hk, -, -⟩ := read?_eq_some ha
    obtain ⟨lead, gap, space, hplaced, hown⟩ := parts?_firstKeyword hn hp
    obtain ⟨rfl, rfl⟩ := hfirst.unique hown
    obtain rfl : a = placed number lead gap space p kind :=
      Option.some.inj (ha.symm.trans (hplaced.read? hp hk number))
    have hbehind : Reading.code raw = lead ++ p.name ++ gap ++ p.operator ++ (space ++ p.rest) := by
      rw [hplaced.text]
      simp only [List.append_assoc]
    obtain rfl : rest = space ++ p.rest := List.append_cancel_left (hrest.symm.trans hbehind)
    exact hplaced.standsAt hp hk (Reading.code_isPrefix raw) number

/-- The name, the operator and a part of the value are the same word. -/
theorem assignment_at_firstKeyword_repeated :
    let raw := "EQU EQU EQU 5 ;c".toList
    let code := "EQU EQU EQU 5 ".toList
    let before := "EQU ".toList
    let keyword := "EQU".toList
    '\n' ∉ raw ∧ Reading.OpensCode (trimStart raw) ∧ IsCodeOf raw code ∧ FirstKeyword code before keyword ∧
      ∃ a, (classify raw 2).kind = .assignment a ∧ StandsAt 2 raw before keyword " EQU 5 ".toList a := by
  intro raw code before keyword
  have hbreak : '\n' ∉ raw := by decide
  have hopens : Reading.OpensCode (trimStart raw) := ⟨'E', _, rfl, by decide, by decide⟩
  have hcode : IsCodeOf raw code := by
    refine .inl ⟨⟨['c'], rfl⟩, by decide, fun earlier hp => ?_⟩
    have hmem : commentMark ∈ code := hp.subset (by simp)
    exact absurd hmem (by decide)
  have hfirst : FirstKeyword code before keyword := by
    refine ⟨⟨⟨by decide, by decide, " EQU 5 ".toList, rfl, by decide⟩, by decide, by decide, ' ', _, rfl,
      by decide⟩, fun earlier other hother => ?_⟩
    apply Nat.le_of_not_lt
    intro hlt
    -- the first four places are inside the first word
    have htake := List.prefix_iff_eq_take.mp hother.place.before_isPrefix
    have hopens := hother.place.opens
    have hbehind := hother.behind
    generalize earlier.length = n at htake hlt
    subst htake
    have hinside : ∀ n < before.length, EndsBlank (code.take n) → isAllBlank (code.take n) = true := by
      decide
    simp [hinside n hlt hopens] at hbehind
  obtain ⟨hiff, hstands⟩ := assignment_at_firstKeyword hbreak hopens hcode 2
  obtain ⟨a, ha⟩ := hiff.mpr ⟨before, keyword, hfirst, .equ, by decide, by decide⟩
  exact ⟨hbreak, hopens, hcode, hfirst, a, ha, hstands a _ _ _ ha hfirst rfl⟩

end Line

end AsmAssist
