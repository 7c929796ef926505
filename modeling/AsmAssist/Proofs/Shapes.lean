import AsmAssist.Proofs.Keywords
import AsmAssist.Proofs.Respacing

/-!
# The shape of every line

What formatting makes of a line, said of its label and its mnemonic and not of edits. A blank line becomes
empty and a line without label is indented to the margin. A label starts at column 0, and the mnemonic behind
it at the margin, or on a line of its own where the label reaches the margin. Formatting gives every line of
a document this shape, and leaves a line alone exactly if it has the shape already.
-/

namespace AsmAssist.Format

open Text Reading
open Line (classify)

/-- A line cut at its mnemonic. Between the indentation and the mnemonic stand `front`, which neither opens
nor ends with a blank, and a blank gap. -/
structure CutsAt (l : Line) (mnemonic : Token) (front gap rest : Text) : Prop where
  text : l.raw = l.raw.takeWhile isBlank ++ (front ++ gap) ++ rest
  opens : OpensVisible front
  ends : trimEnd front = front
  gap_blank : isAllBlank gap = true
  column : mnemonic.span.start.character = columns (l.raw.takeWhile isBlank ++ (front ++ gap))
  mnemonic : mnemonic.text <+: rest

/-- `rest` put at the margin, behind `front` on its line or on a line of its own. -/
inductive AtMargin (margin : Nat) (front rest : Text) : Text → Prop
  | behind {n : Nat} (narrow : columns front < margin) (column : columns (front ++ spaces n) = margin) :
      AtMargin margin front rest (front ++ spaces n ++ rest)
  | below (wide : margin ≤ columns front) :
      AtMargin margin front rest (front ++ '\n' :: (spaces margin ++ rest))

/-- `t` is the text that the line is to become. -/
def Prescribed (margin : Nat) (l : Line) (t : Text) : Prop :=
  if l.isBlank then t = []
  else
    match l.label?, l.mnemonic? with
    | none, _ => t = spaces margin ++ trimStart l.raw
    | some _, none => t = trimStart l.raw
    | some _, some mnemonic =>
      ∃ front gap rest, CutsAt l mnemonic front gap rest ∧ AtMargin margin front rest t

theorem columns_spaces (n : Nat) : columns (spaces n) = n := by
  induction n with
  | zero => rfl
  | succ n ih =>
    have hspace : unitWidth ' ' = 1 := rfl
    rw [spaces, List.replicate_succ, columns_cons, hspace, ← spaces, ih, Nat.add_comm]

theorem atMargin_iff {margin : Nat} {front rest t : Text} :
    AtMargin margin front rest t ↔ t = front ++ labelSpacing margin (columns front) ++ rest := by
  unfold labelSpacing
  constructor
  · intro h
    cases h with
    | @behind n narrow column =>
      rw [columns_append, columns_spaces] at column
      obtain rfl : n = margin - columns front := by omega
      rw [if_pos narrow]
    | below wide =>
      rw [if_neg (Nat.not_lt.mpr wide), List.append_assoc, List.cons_append]
  · rintro rfl
    split
    · rename_i narrow
      apply AtMargin.behind narrow
      rw [columns_append, columns_spaces]
      omega
    · rename_i wide
      rw [List.append_assoc, List.cons_append]
      exact .below (Nat.le_of_not_lt wide)

/-! ## The cut at the mnemonic -/

/-- A line is cut at its mnemonic in one way. -/
theorem CutsAt.unique {l : Line} {mnemonic : Token} {front gap rest front' gap' rest' : Text}
    (h : CutsAt l mnemonic front gap rest) (h' : CutsAt l mnemonic front' gap' rest') :
    front = front' ∧ rest = rest' := by
  have hbefore : l.raw.takeWhile isBlank ++ (front ++ gap) =
      l.raw.takeWhile isBlank ++ (front' ++ gap') := by
    -- both are the text in front of the column of the mnemonic
    rw [← takeColumns_of_isPrefix ⟨rest, h.text.symm⟩, ← takeColumns_of_isPrefix ⟨rest', h'.text.symm⟩,
      ← h.column, ← h'.column]
  have hgaps : front ++ gap = front' ++ gap' := List.append_cancel_left hbefore
  have htext := h.text.symm.trans h'.text
  rw [hbefore] at htext
  refine ⟨?_, List.append_cancel_left htext⟩
  calc
    front = trimEnd (front ++ gap) := by rw [trimEnd_append_of_blank _ h.gap_blank, h.ends]
    _ = trimEnd (front' ++ gap') := by rw [hgaps]
    _ = front' := by rw [trimEnd_append_of_blank _ h'.gap_blank, h'.ends]

section

variable {w s : Text}

/-- In a line seen with label and instruction, the mnemonic stands where the view cuts the line. -/
theorem mnemonic?_coded (hw : isAllBlank w = true) (hs : OpensVisible s) (hn : '\n' ∉ w ++ s)
    {before rest : Text} (hv : view (isMargined w s) s = .coded before rest) (number : Nat) :
    ∃ text, (classify (w ++ s) number).mnemonic? = some (.after number (w ++ before) text) ∧
      text <+: rest := by
  have hdescribes := view_describes hw hs hn number
  rw [hv] at hdescribes
  obtain ⟨i, hi⟩ := Option.isSome_iff_exists.mp hdescribes.2.1
  have hm : (classify (w ++ s) number).mnemonic? = some i.mnemonic := by
    rw [Line.mnemonic?, hi]
    rfl
  obtain ⟨w', s', p, he, hw', hs', hp, hplace⟩ := mnemonic?_classify hm
  obtain rfl : w = w' := by
    rw [← takeWhile_isBlank_append hw hs, he, takeWhile_isBlank_append hw' hs'.visible]
  obtain rfl : s = s' := List.append_cancel_left he
  obtain ⟨-, -, hbody, q, hq, rfl⟩ := view_coded hv
  obtain rfl : p = q := Option.some.inj (hp.symm.trans hq)
  exact ⟨p.mnemonic, hm.trans (congrArg some hplace), (bodyParts?_cut hp).mnemonic_isPrefix hbody⟩

theorem cutsAt_coded (hw : isAllBlank w = true) (hs : OpensVisible s) (hn : '\n' ∉ w ++ s)
    {before rest : Text} (hv : view (isMargined w s) s = .coded before rest) (number : Nat) :
    ∃ mnemonic, (classify (w ++ s) number).mnemonic? = some mnemonic ∧
      CutsAt (classify (w ++ s) number) mnemonic (trimEnd before) (trailing before) rest := by
  obtain ⟨text, hm, hprefix⟩ := mnemonic?_coded hw hs hn hv number
  obtain ⟨-, hne, hbody, -⟩ := view_coded hv
  obtain ⟨hraw, -⟩ := classify_number (w ++ s) number
  have hlead : (classify (w ++ s) number).raw.takeWhile isBlank = w := by
    rw [hraw, takeWhile_isBlank_append hw hs]
  refine ⟨_, hm, ?_⟩
  constructor
  case text => rw [hlead, hraw, trimEnd_append_trailing, hbody, List.append_assoc]
  case opens => exact opensVisible_trimEnd (hbody ▸ hs) hne
  case ends => exact trimEnd_trimEnd before
  case gap_blank => exact isAllBlank_trailing before
  case column =>
    rw [hlead, trimEnd_append_trailing]
    rfl
  case mnemonic => exact hprefix

/-! ## One line -/

/-- What is prescribed for a visible line is the shape of its view. -/
theorem prescribed_visible_iff (hw : isAllBlank w = true) (hs : OpensVisible s) (hn : '\n' ∉ w ++ s)
    (margin number : Nat) (t : Text) :
    Prescribed margin (classify (w ++ s) number) t ↔
      t = (view (isMargined w s) s).shape margin s := by
  have hdescribes := view_describes hw hs hn number
  obtain ⟨hraw, -⟩ := classify_number (w ++ s) number
  have hvisible : ¬ (classify (w ++ s) number).isBlank = true := by
    obtain ⟨c, r, rfl, hc⟩ := hs
    simp [Line.isBlank, hraw, hc]
  have hbody : trimStart (classify (w ++ s) number).raw = s := by
    rw [hraw, trimStart, dropWhile_isBlank_append hw hs]
  rw [Prescribed, if_neg hvisible]
  cases hv : view (isMargined w s) s with
  | plain =>
    rw [hv] at hdescribes
    rw [show Line.label? _ = none from hdescribes, hbody]
    rfl
  | named =>
    rw [hv] at hdescribes
    obtain ⟨hlabelled, hbare⟩ := hdescribes
    obtain ⟨label, hlabel⟩ := Option.isSome_iff_exists.mp hlabelled
    have hnone : (classify (w ++ s) number).mnemonic? = none := by
      rw [Line.mnemonic?, hbare]
      rfl
    rw [hlabel, hnone, hbody]
    rfl
  | coded before rest =>
    rw [hv] at hdescribes
    obtain ⟨label, hlabel⟩ := Option.isSome_iff_exists.mp hdescribes.1
    obtain ⟨mnemonic, hm, hcut⟩ := cutsAt_coded hw hs hn hv number
    rw [hlabel, hm, View.shape, ← atMargin_iff]
    constructor
    · rintro ⟨front, gap, rest', hcut', hmargin⟩
      obtain ⟨rfl, rfl⟩ := hcut.unique hcut'
      exact hmargin
    · intro hmargin
      exact ⟨trimEnd before, trailing before, rest, hcut, hmargin⟩

end

theorem prescribed_iff {raw : Text} (hn : '\n' ∉ raw) (margin number : Nat) (t : Text) :
    Prescribed margin (classify raw number) t ↔ t = shape margin raw := by
  rcases visible_cases raw with hb | ⟨w, s, rfl, hw, hs⟩
  · have hblank : (classify raw number).isBlank = true := by
      rw [Line.isBlank, (classify_number raw number).1]
      exact hb
    rw [shape_of_blank hb, Prescribed, if_pos hblank]
  · rw [shape_eq hw hs]
    exact prescribed_visible_iff hw hs hn margin number t

/-! ## Whole documents -/

/-- Formatting puts in the place of every line the text prescribed for it and keeps the breaks, and a line
takes no edit exactly if the text prescribed for it is its own. -/
theorem formatted_in_shape (margin : Nat) (text : Text) :
    ∃ shaped : List Text,
      formatted margin text =
        (List.zipWith (fun t (p : Source.Piece) => t ++ p.brk) shaped (Source.pieces text)).flatten ∧
      shaped.length = (Source.lines text).length ∧
      ∀ number raw, (Source.lines text)[number]? = some raw →
        (∀ t, shaped[number]? = some t ↔ Prescribed margin (classify raw number) t) ∧
        (onLine (edits (indexOf text) margin) number = [] ↔
          Prescribed margin (classify raw number) raw) := by
  refine ⟨(Source.lines text).map (shape margin), ?_, List.length_map _, ?_⟩
  · rw [formatted_eq, ← Source.pieces_line, List.map_map, List.zipWith_map_left, List.zipWith_self,
      List.flatMap_def]
    rfl
  · intro number raw h
    have hn : '\n' ∉ raw := (Source.lines_unbroken (List.mem_of_getElem? h)).1
    constructor
    · intro t
      rw [prescribed_iff hn, List.getElem?_map, h, Option.map_some, Option.some.injEq, eq_comm]
    · rw [prescribed_iff hn, onLine_edits h, lineEdits_eq_nil_iff hn, eq_comm]

/-- A label that ends one column in front of the margin, with letters of two columns, and one that ends at
the margin. -/
theorem formatted_in_shape_boundary :
    let narrow := "  𝓐𝓑:\t ADD R1".toList
    let wide := "ABCDE: NOP ; a".toList
    let text := narrow ++ "\r\n".toList ++ wide
    (Source.lines text)[0]? = some narrow ∧ (Source.lines text)[1]? = some wide ∧
      ∃ shaped : List Text,
        formatted 6 text =
          (List.zipWith (fun t (p : Source.Piece) => t ++ p.brk) shaped (Source.pieces text)).flatten ∧
        shaped[0]? = some "𝓐𝓑: ADD R1".toList ∧ shaped[1]? = some "ABCDE:\n      NOP ; a".toList ∧
        onLine (edits (indexOf text) 6) 1 ≠ [] := by
  intro narrow wide text
  have hnarrow : (Source.lines text)[0]? = some narrow := by decide +kernel
  have hwide : (Source.lines text)[1]? = some wide := by decide +kernel
  have hn : '\n' ∉ narrow ∧ '\n' ∉ wide := by decide
  obtain ⟨shaped, hformatted, -, hshaped⟩ := formatted_in_shape 6 text
  refine ⟨hnarrow, hwide, shaped, hformatted, ?_, ?_, ?_⟩
  · rw [(hshaped 0 narrow hnarrow).1, prescribed_iff hn.1]
    decide +kernel
  · rw [(hshaped 1 wide hwide).1, prescribed_iff hn.2]
    decide +kernel
  · rw [ne_eq, (hshaped 1 wide hwide).2, prescribed_iff hn.2]
    decide +kernel

end AsmAssist.Format
