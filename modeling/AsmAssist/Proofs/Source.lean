import AsmAssist.Source

/-!
# Lines and their breaks

A text is the sequence of its lines, each with the break behind it. The lines hold no break characters. A
line put in the place of another may be read together with the break in front of it, but only if it is empty;
the lines that are not empty are therefore read one by one.
-/

namespace AsmAssist.Source

/-- A line and the break that ends it; the last line has none. -/
structure Piece where
  line : Text
  brk : Text
  deriving DecidableEq, Repr

/-- Splits the rest of a text, with the line being read, in reverse, in `current`. -/
def piecesFrom (current : Text) : Text → List Piece
  | [] => [⟨current.reverse, []⟩]
  | '\n' :: s => ⟨current.reverse, ['\n']⟩ :: piecesFrom [] s
  | '\r' :: '\n' :: s => ⟨current.reverse, ['\r', '\n']⟩ :: piecesFrom [] s
  | '\r' :: s => ⟨current.reverse, ['\r']⟩ :: piecesFrom [] s
  | c :: s => piecesFrom (c :: current) s

def pieces (text : Text) : List Piece := piecesFrom [] text

/-- No break stands in the text. -/
def IsUnbroken (s : Text) : Prop := '\n' ∉ s ∧ '\r' ∉ s

/-- The text of a break. -/
def IsBreak (s : Text) : Prop := s = ['\n'] ∨ s = ['\r', '\n'] ∨ s = ['\r']

@[simp]
theorem splitFrom_nil (current : Text) : splitFrom current [] = [current.reverse] := rfl

@[simp]
theorem splitFrom_newline (current s : Text) :
    splitFrom current ('\n' :: s) = current.reverse :: splitFrom [] s := rfl

@[simp]
theorem splitFrom_return_newline (current s : Text) :
    splitFrom current ('\r' :: '\n' :: s) = current.reverse :: splitFrom [] s := rfl

theorem splitFrom_return {s : Text} (h : ∀ t, s ≠ '\n' :: t) (current : Text) :
    splitFrom current ('\r' :: s) = current.reverse :: splitFrom [] s := by
  rw [splitFrom]
  exact h

theorem splitFrom_cons {c : Char} (hn : c ≠ '\n') (hr : c ≠ '\r') (current s : Text) :
    splitFrom current (c :: s) = splitFrom (c :: current) s := by
  rw [splitFrom] <;> simp_all

theorem pieces_line (text : Text) : (pieces text).map Piece.line = lines text := by
  have hfrom (current text : Text) :
      (piecesFrom current text).map Piece.line = splitFrom current text := by
    fun_induction piecesFrom current text <;> simp_all [splitFrom_return, splitFrom_cons]
  exact hfrom [] text

theorem flatMap_pieces (text : Text) : (pieces text).flatMap (fun p => p.line ++ p.brk) = text := by
  have hfrom (current text : Text) :
      (piecesFrom current text).flatMap (fun p => p.line ++ p.brk) = current.reverse ++ text := by
    fun_induction piecesFrom current text <;> simp_all
  exact hfrom [] text

/-! ## Texts without breaks -/

theorem IsUnbroken.append {s t : Text} (hs : IsUnbroken s) (ht : IsUnbroken t) : IsUnbroken (s ++ t) := by
  constructor
  · intro hm
    exact (List.mem_append.mp hm).elim hs.1 ht.1
  · intro hm
    exact (List.mem_append.mp hm).elim hs.2 ht.2

theorem IsUnbroken.of_subset {s t : Text} (ht : IsUnbroken t) (h : s ⊆ t) : IsUnbroken s :=
  ⟨fun hm => ht.1 (h hm), fun hm => ht.2 (h hm)⟩

theorem splitFrom_unbroken {s : Text} (h : IsUnbroken s) (current rest : Text) :
    splitFrom current (s ++ rest) = splitFrom (s.reverse ++ current) rest := by
  induction s generalizing current with
  | nil => rfl
  | cons c s ih =>
    have hs : IsUnbroken s := h.of_subset (List.subset_cons_self c s)
    have hn : c ≠ '\n' := fun he => h.1 (by simp [he])
    have hr : c ≠ '\r' := fun he => h.2 (by simp [he])
    rw [List.cons_append, splitFrom_cons hn hr, ih hs]
    simp

theorem lines_of_unbroken {s : Text} (h : IsUnbroken s) : lines s = [s] := by
  have := splitFrom_unbroken h [] []
  rw [List.append_nil, List.append_nil] at this
  rw [lines, this, splitFrom_nil, List.reverse_reverse]

theorem lines_append_newline {s : Text} (h : IsUnbroken s) (t : Text) :
    lines (s ++ '\n' :: t) = s :: lines t := by
  rw [lines, splitFrom_unbroken h, splitFrom_newline, List.append_nil, List.reverse_reverse, ← lines]

theorem lines_unbroken {text s : Text} (h : s ∈ lines text) : IsUnbroken s := by
  have hfrom (current text : Text) (hc : IsUnbroken current.reverse) :
      ∀ s ∈ splitFrom current text, IsUnbroken s := by
    have hnil : IsUnbroken [].reverse := ⟨by simp, by simp⟩
    fun_induction splitFrom current text with
    | case1 current => simpa using hc
    | case2 current s ih => simpa using ⟨hc, ih hnil⟩
    | case3 current s ih => simpa using ⟨hc, ih hnil⟩
    | case4 current s _ ih => simpa using ⟨hc, ih hnil⟩
    | case5 current c s hn _ hr ih =>
      apply ih
      rw [List.reverse_cons]
      refine hc.append ⟨?_, ?_⟩
      · simpa using fun he => hn he.symm
      · simpa using fun he => hr he.symm
  exact hfrom [] text ⟨by simp, by simp⟩ s h

/-! ## Lines that are not empty -/

def filled (text : Text) : List Text := (lines text).filter (· ≠ [])

theorem filled_of_unbroken {s : Text} (h : IsUnbroken s) (hne : s ≠ []) : filled s = [s] := by
  rw [filled, lines_of_unbroken h, List.filter_cons_of_pos (by simpa using hne), List.filter_nil]

theorem filled_append_newline {s : Text} (h : IsUnbroken s) (hne : s ≠ []) (t : Text) :
    filled (s ++ '\n' :: t) = s :: filled t := by
  rw [filled, lines_append_newline h, List.filter_cons_of_pos (by simpa using hne), ← filled]

/-- A break ends the line being read. It may swallow an empty line behind it, and no other. -/
theorem filter_splitFrom_break {b : Text} (hb : IsBreak b) (current t : Text) :
    (splitFrom current (b ++ t)).filter (· ≠ []) = [current.reverse].filter (· ≠ []) ++ filled t := by
  rw [filled, ← List.filter_append, List.singleton_append]
  rcases hb with rfl | rfl | rfl
  · rfl
  · rfl
  · cases t with
    | nil => rfl
    | cons c t =>
      by_cases hc : c = '\n'
      · subst hc
        simp [lines, List.filter_cons]
      · have hne : ∀ u, c :: t ≠ '\n' :: u := by simpa using hc
        rw [List.singleton_append, splitFrom_return hne]
        rfl

theorem filled_append_break {s b : Text} (hs : '\r' ∉ s) (hb : IsBreak b) (t : Text) :
    filled (s ++ (b ++ t)) = filled s ++ filled t := by
  have hfrom (current s : Text) (hs : '\r' ∉ s) :
      (splitFrom current (s ++ (b ++ t))).filter (· ≠ []) =
        (splitFrom current s).filter (· ≠ []) ++ filled t := by
    induction s generalizing current with
    | nil => exact filter_splitFrom_break hb current t
    | cons c s ih =>
      have hcr : c ≠ '\r' := fun he => hs (by simp [he])
      have hrest : '\r' ∉ s := fun hm => hs (List.mem_cons_of_mem c hm)
      by_cases hn : c = '\n'
      · subst hn
        rw [List.cons_append, splitFrom_newline, splitFrom_newline, List.filter_cons, List.filter_cons,
          ih [] hrest]
        split <;> rfl
      · rw [List.cons_append, splitFrom_cons hn hcr, splitFrom_cons hn hcr, ih _ hrest]
  exact hfrom [] s hs

/-- Putting texts without carriage returns in the place of the lines, and keeping the breaks. -/
theorem filled_flatMap_pieces {f : Text → Text} {text : Text}
    (hf : ∀ s ∈ lines text, '\r' ∉ f s) :
    filled ((pieces text).flatMap fun p => f p.line ++ p.brk) =
      (lines text).flatMap fun s => filled (f s) := by
  have hfrom (current text : Text) (hf : ∀ s ∈ splitFrom current text, '\r' ∉ f s) :
      filled ((piecesFrom current text).flatMap fun p => f p.line ++ p.brk) =
        (splitFrom current text).flatMap fun s => filled (f s) := by
    fun_induction piecesFrom current text with
    | case1 current => simp
    | case2 current s ih =>
      simp only [splitFrom_newline, List.mem_cons, forall_eq_or_imp] at hf
      simp only [List.flatMap_cons, splitFrom_newline, List.append_assoc]
      rw [filled_append_break hf.1 (.inl rfl), ih hf.2]
    | case3 current s ih =>
      simp only [splitFrom_return_newline, List.mem_cons, forall_eq_or_imp] at hf
      simp only [List.flatMap_cons, splitFrom_return_newline, List.append_assoc]
      rw [filled_append_break hf.1 (.inr (.inl rfl)), ih hf.2]
    | case4 current s hs ih =>
      rw [splitFrom_return hs] at hf ⊢
      simp only [List.mem_cons, forall_eq_or_imp] at hf
      simp only [List.flatMap_cons, List.append_assoc]
      rw [filled_append_break hf.1 (.inr (.inr rfl)), ih hf.2]
    | case5 current c s hn _ hr ih =>
      rw [splitFrom_cons hn hr] at hf ⊢
      exact ih hf
  exact hfrom [] text hf

end AsmAssist.Source
