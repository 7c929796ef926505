import AsmAssist.Hover
import AsmAssist.Proofs.Indexing
import AsmAssist.Proofs.Keywords
import AsmAssist.Proofs.Runs

/-!
# Where a word leads

A word under the cursor leads to the last line that defines it, as a label or else as an assigned name, but
never from a name in its own definition. The target is a place inside that line, and the index finds the line
again by the number of the target.
-/

namespace AsmAssist

open Text Index
open Line (classify)

/-! ## Places in a span -/

theorem Span.contains_onLine {line start stop : Nat} {p : Position} :
    (Span.onLine line start stop).contains p = true ↔
      p.line = line ∧ start ≤ p.character ∧ p.character < stop := by
  rw [Span.contains, Bool.and_eq_true, decide_eq_true_iff, decide_eq_true_iff]
  show (line < p.line ∨ line = p.line ∧ start ≤ p.character) ∧
    (p.line < line ∨ p.line = line ∧ p.character < stop) ↔ _
  omega

theorem Span.touches_onLine {line start stop : Nat} {p : Position} :
    (Span.onLine line start stop).touches p = true ↔
      p.line = line ∧ start ≤ p.character ∧ p.character ≤ stop := by
  rw [Span.touches, Bool.and_eq_true, decide_eq_true_iff, decide_eq_true_iff]
  show (line < p.line ∨ line = p.line ∧ start ≤ p.character) ∧
    (p.line < line ∨ p.line = line ∧ p.character ≤ stop) ↔ _
  omega

namespace Definition

/-- The cursor is outside every literal of its line and touches a word. -/
structure Reads (index : Index) (p : Position) (l : Line) (word : Text) : Prop where
  line : index.line? p.line = some l
  outside : openingQuote l.raw p.character = none
  word : ∃ before, Word.Touched l.raw p.character before word

/-- Some line has the label, and the cursor is not on the label of its own line. -/
def UsesLabel (index : Index) (l : Line) (p : Position) (word : Text) : Prop :=
  (∃ d ∈ index.lines, Labels word d) ∧
    ∀ label i, l.kind = .label label i → label.span.touches p = false

/-- Some line assigns the name, and the cursor is not on the name that its own line assigns. -/
def UsesName (index : Index) (l : Line) (p : Position) (word : Text) : Prop :=
  (∃ d ∈ index.lines, Assigns word d) ∧ ∀ a, l.kind = .assignment a → a.name.span.touches p = false

/-- The start of the mnemonic behind a label, or the end of the label if there is none. -/
def IsLabelTarget (d : Line) (t : Position) : Prop :=
  ∃ label i, d.kind = .label label i ∧
    t = match i with
      | some i => i.mnemonic.span.start
      | none => label.span.stop

def IsNameTarget (d : Line) (t : Position) : Prop := ∃ a, d.kind = .assignment a ∧ t = a.value.span.start

/-- The word leads from the cursor to `t` on the line `d`. A label hides an assigned name. -/
inductive Leads (index : Index) (l : Line) (p : Position) (word : Text) : Line → Position → Prop
  | label {d : Line} {t : Position} (uses : UsesLabel index l p word)
      (last : LastOf (Labels word) index.lines (some d)) (target : IsLabelTarget d t) :
      Leads index l p word d t
  | name {d : Line} {t : Position} (unlabelled : ¬ UsesLabel index l p word)
      (uses : UsesName index l p word) (last : LastOf (Assigns word) index.lines (some d))
      (target : IsNameTarget d t) : Leads index l p word d t

/-! ## The search -/

section

variable {l d : Line} {p t : Position} {word : Text}

theorem onOwnLabel_eq_false_iff :
    onOwnLabel l p = false ↔ ∀ label i, l.kind = .label label i → label.span.touches p = false := by
  cases hk : l.kind <;> simp [onOwnLabel, Line.isLabel, Line.label?, hk]

theorem onOwnName_eq_false_iff :
    onOwnName l p = false ↔ ∀ a, l.kind = .assignment a → a.name.span.touches p = false := by
  cases hk : l.kind <;> simp [onOwnName, Line.assignment?, hk]

theorem isLabelTarget_iff (h : Labels word d) : IsLabelTarget d t ↔ labelTarget? d = some t := by
  obtain ⟨label, i, hk, -⟩ := h
  cases i <;>
    simp [IsLabelTarget, labelTarget?, Line.mnemonic?, Line.instruction?, Line.label?, hk, eq_comm]

theorem isNameTarget_iff : IsNameTarget d t ↔ assignmentTarget? d = some t := by
  cases hk : d.kind <;> simp [IsNameTarget, assignmentTarget?, Line.assignment?, hk, eq_comm]

/-- What a table with the last definitions gives, unless the cursor is on the definition itself. -/
theorem lookup_eq_some_iff {lines : List Line} {defines : Line → Prop} {found : Option Line} {own : Bool}
    (hfound : LastOf defines lines found) :
    (if own then none else found) = some d ↔ own = false ∧ LastOf defines lines (some d) := by
  cases own with
  | true => simp
  | false =>
    simp only [Bool.false_eq_true, if_false, true_and]
    constructor
    · rintro rfl
      exact hfound
    · intro hlast
      exact hfound.unique hlast

theorem lookup_eq_none_iff {lines : List Line} {defines : Line → Prop} {found : Option Line} {own : Bool}
    (hfound : LastOf defines lines found) :
    (if own then none else found) = none ↔ ¬ ((∃ d ∈ lines, defines d) ∧ own = false) := by
  cases own with
  | true => simp
  | false =>
    cases found with
    | none => simpa [LastOf] using hfound
    | some d =>
      obtain ⟨hd, hp⟩ := hfound.mem
      simp only [Bool.false_eq_true, if_false, reduceCtorEq, and_true, false_iff, not_not]
      exact ⟨d, hd, hp⟩

end

section

variable {lines : List Line} {cancelled : Bool} {l : Line} {p t : Position} {word : Text}

theorem usesLabel_iff {index : Index} :
    UsesLabel index l p word ↔ (∃ d ∈ index.lines, Labels word d) ∧ onOwnLabel l p = false := by
  rw [UsesLabel, onOwnLabel_eq_false_iff]

theorem usesName_iff {index : Index} :
    UsesName index l p word ↔ (∃ d ∈ index.lines, Assigns word d) ∧ onOwnName l p = false := by
  rw [UsesName, onOwnName_eq_false_iff]

theorem target?_eq_some_iff :
    target? (ofLines lines cancelled) l p word = some t ↔
      ∃ d, Leads (ofLines lines cancelled) l p word d t := by
  have hlabel := lastOf_label? lines cancelled word
  have hname := lastOf_assignment? lines cancelled word
  unfold target?
  split
  next d hd =>
    obtain ⟨hown, hlast⟩ := (lookup_eq_some_iff hlabel).mp hd
    have huses : UsesLabel (ofLines lines cancelled) l p word :=
      usesLabel_iff.mpr ⟨⟨d, hlast.mem⟩, hown⟩
    rw [← isLabelTarget_iff hlast.mem.2]
    constructor
    · intro ht
      exact ⟨d, .label huses hlast ht⟩
    · rintro ⟨d', h⟩
      cases h with
      | label _ hlast' ht =>
        obtain rfl : d = d' := Option.some.inj (hlast.unique hlast')
        exact ht
      | name hnone => exact absurd huses hnone
  next hnone =>
    have hunlabelled : ¬ UsesLabel (ofLines lines cancelled) l p word := by
      rw [usesLabel_iff]
      exact (lookup_eq_none_iff hlabel).mp hnone
    split
    next d hd =>
      obtain ⟨hown, hlast⟩ := (lookup_eq_some_iff hname).mp hd
      rw [← isNameTarget_iff]
      constructor
      · intro ht
        exact ⟨d, .name hunlabelled (usesName_iff.mpr ⟨⟨d, hlast.mem⟩, hown⟩) hlast ht⟩
      · rintro ⟨d', h⟩
        cases h with
        | label huses => exact absurd huses hunlabelled
        | name _ _ hlast' ht =>
          obtain rfl : d = d' := Option.some.inj (hlast.unique hlast')
          exact ht
    next hnone =>
      constructor
      · intro ht
        cases ht
      · rintro ⟨d', h⟩
        cases h with
        | label huses => exact absurd huses hunlabelled
        | name _ huses =>
          exact absurd (usesName_iff.mp huses) ((lookup_eq_none_iff hname).mp hnone)

theorem find?_eq_some_iff :
    find? (ofLines lines cancelled) p = some t ↔
      ∃ l word d, Reads (ofLines lines cancelled) p l word ∧
        Leads (ofLines lines cancelled) l p word d t := by
  unfold find?
  constructor
  · intro h
    split at h
    · cases h
    next l hl =>
      split at h
      · cases h
      next hquote =>
        split at h
        · cases h
        next token hword =>
          obtain ⟨before, word, htouched, rfl⟩ := Word.at?_eq_some_iff.mp hword
          obtain ⟨d, hleads⟩ := target?_eq_some_iff.mp h
          exact ⟨l, word, d, ⟨hl, hquote, before, htouched⟩, hleads⟩
  · rintro ⟨l, word, d, ⟨hl, hquote, before, htouched⟩, hleads⟩
    have hword : Word.at? l.raw p.line p.character = some (.after p.line before word) :=
      Word.at?_eq_some_iff.mpr ⟨before, word, htouched, rfl⟩
    simp only [hl, hquote, hword]
    exact target?_eq_some_iff.mpr ⟨d, hleads⟩

end

/-- A word that is defined, and not only under the cursor itself, leads somewhere. -/
theorem exists_leads {index : Index} {l : Line} {p : Position} {word : Text}
    (h : UsesLabel index l p word ∨ UsesName index l p word) : ∃ d t, Leads index l p word d t := by
  by_cases huses : UsesLabel index l p word
  · obtain ⟨d, hlast⟩ := exists_lastOf huses.1
    obtain ⟨label, i, hk, -⟩ := hlast.mem.2
    exact ⟨d, _, .label huses hlast ⟨label, i, hk, rfl⟩⟩
  · have hname := h.resolve_left huses
    obtain ⟨d, hlast⟩ := exists_lastOf hname.1
    obtain ⟨a, hk, -⟩ := hlast.mem.2
    exact ⟨d, _, .name huses hname hlast ⟨a, hk, rfl⟩⟩

theorem Leads.mem {index : Index} {l d : Line} {p t : Position} {word : Text}
    (h : Leads index l p word d t) : d ∈ index.lines := by
  cases h with
  | label _ hlast => exact hlast.mem.1
  | name _ _ hlast => exact hlast.mem.1

theorem Leads.uses {index : Index} {l d : Line} {p t : Position} {word : Text}
    (h : Leads index l p word d t) : UsesLabel index l p word ∨ UsesName index l p word := by
  cases h with
  | label huses => exact .inl huses
  | name _ huses => exact .inr huses

/-! ## Targets inside their lines -/

/-- A place in front of some text of the line is inside the line. -/
theorem contains_of_isPrefix {l : Line} {before text : Text} (hp : before ++ text <+: l.raw)
    (hne : text ≠ []) : l.span.contains ⟨l.number, columns before⟩ = true := by
  obtain ⟨c, text, rfl⟩ := List.exists_cons_of_ne_nil hne
  have hle := columns_le_of_isPrefix hp
  have hwidth := unitWidth_pos c
  rw [columns_append, columns_cons] at hle
  refine Span.contains_onLine.mpr ⟨rfl, Nat.zero_le _, ?_⟩
  show columns before < columns l.raw
  omega

section

variable {raw : Text} {number : Nat} {t : Position}

theorem labelTarget_inside (h : IsLabelTarget (classify raw number) t) :
    (classify raw number).span.contains t = true := by
  obtain ⟨hraw, hnumber⟩ := Reading.classify_number raw number
  obtain ⟨label, i, hk, rfl⟩ := h
  cases i with
  | some i =>
    have hm : (classify raw number).mnemonic? = some i.mnemonic := by
      simp [Line.mnemonic?, Line.instruction?, hk]
    obtain ⟨w, s, p, hs, -, -, hp, hplace⟩ := Reading.mnemonic?_classify hm
    have hcut := Reading.bodyParts?_cut hp
    obtain ⟨r, hr⟩ := hcut.before_isPrefix
    have hprefix : w ++ p.before ++ p.mnemonic <+: (classify raw number).raw := by
      rw [hraw, hs, ← hr, List.append_assoc, List.prefix_append_right_inj,
        List.prefix_append_right_inj]
      exact hcut.mnemonic_isPrefix hr.symm
    have hinside := contains_of_isPrefix hprefix hcut.mnemonic.isWord.1
    rw [hnumber] at hinside
    simp only [hplace]
    exact hinside
  | none =>
    obtain ⟨a, hd, hj⟩ := Anatomy.classify_dissects raw number
    have hlabelled := hd.labelled
    have hbare := hd.instructed
    have hjoins := hj
    rw [show Line.label? _ = some label by simp [Line.label?, hk]] at hlabelled
    rw [show Line.instruction? _ = none by simp [Line.instruction?, hk]] at hbare
    rw [Anatomy.Joins, hk] at hjoins
    obtain ⟨hlink, hgap, hinstruction, hogap, hoperands⟩ := hbare
    obtain ⟨blanks, rest, hcolon, -⟩ := hjoins
    -- the colon that makes the label stands behind it
    have hne : a.tail ≠ [] := by
      rintro hnil
      rw [hlink, hnil] at hcolon
      simp at hcolon
    have hprefix : a.leading ++ a.label ++ a.tail <+: (classify raw number).raw := by
      refine List.IsPrefix.trans ⟨a.commentGap ++ a.comment, ?_⟩ hd.visible_isPrefix
      simp [Anatomy.visible_eq, Anatomy.statement, hlink, hgap, hinstruction, hogap, hoperands]
    have hinside := contains_of_isPrefix hprefix hne
    rw [columns_append] at hinside
    rw [show label = _ from hlabelled]
    exact hinside

theorem nameTarget_inside (h : IsNameTarget (classify raw number) t) :
    (classify raw number).span.contains t = true := by
  obtain ⟨hraw, hnumber⟩ := Reading.classify_number raw number
  obtain ⟨a, hk, rfl⟩ := h
  have hassigned : (classify raw number).assignment? = some a := by simp [Line.assignment?, hk]
  have hread := Line.read?_of_classify hassigned
  obtain ⟨p, kind, -, -, -, hp, hkind, -, -⟩ := Assignment.read?_eq_some hread
  obtain ⟨lead, rest, gap, space, hcode, hlead, hname, hoperates⟩ := Assignment.parts?_operates hp
  have hplaced := hoperates.placed hlead hname
  rw [← hcode] at hplaced
  rw [hplaced.read? hp hkind] at hread
  obtain rfl := Option.some.inj hread
  have hcodeText :
      lead ++ p.name ++ gap ++ p.operator ++ (space ++ p.rest) <+: (classify raw number).raw := by
    rw [hraw]
    refine List.IsPrefix.trans ⟨[], ?_⟩ (Reading.code_isPrefix raw)
    rw [hplaced.text]
    simp
  -- an empty value stands in front of the blank behind its operator
  by_cases hvalue : trim p.rest = []
  · have hne : space ++ p.rest ≠ [] := by simp [hoperates.space_ne_nil]
    have hinside := contains_of_isPrefix hcodeText hne
    rw [hnumber] at hinside
    simpa [Assignment.placed, Token.after, Span.onLine, hvalue] using hinside
  · have hne : p.rest ≠ [] := by
      rintro hnil
      rw [hnil] at hvalue
      exact hvalue rfl
    rw [← List.append_assoc] at hcodeText
    have hinside := contains_of_isPrefix hcodeText hne
    rw [hnumber] at hinside
    simpa [Assignment.placed, Token.after, Span.onLine, hvalue] using hinside

end

theorem Leads.inside {index : Index} {l : Line} {p t : Position} {word raw : Text} {number : Nat}
    (h : Leads index l p word (classify raw number) t) : (classify raw number).span.contains t = true := by
  cases h with
  | label _ _ ht => exact labelTarget_inside ht
  | name _ _ _ ht => exact nameTarget_inside ht

/-! ## Definitions in an index -/

section

variable {source : List Text} {range : Option (Nat × Nat)} {poll : Poll} {l d : Line} {p t : Position}
  {word : Text}

/-- The target is inside the line that defines the word, and the index finds that line by the target. -/
theorem Leads.line? (h : Leads (build source range poll) l p word d t) :
    (build source range poll).line? t.line = some d ∧ d.span.contains t = true := by
  have hd := line?_number h.mem
  obtain ⟨raw, -, hclassify⟩ := line?_build hd
  have hinside : d.span.contains t = true := by
    rw [hclassify] at h ⊢
    exact h.inside
  have hline : t.line = d.number := (Span.contains_onLine.mp hinside).1
  rw [hline]
  exact ⟨hd, hinside⟩

theorem find?_build_eq_some_iff :
    find? (build source range poll) p = some t ↔
      ∃ l word d, Reads (build source range poll) p l word ∧
        Leads (build source range poll) l p word d t := find?_eq_some_iff

/-- A search succeeds exactly if the word is defined, and not only under the cursor itself. -/
theorem find?_build_isSome_iff :
    (find? (build source range poll) p).isSome = true ↔
      ∃ l word, Reads (build source range poll) p l word ∧
        (UsesLabel (build source range poll) l p word ∨ UsesName (build source range poll) l p word) := by
  rw [Option.isSome_iff_exists]
  constructor
  · rintro ⟨t, ht⟩
    obtain ⟨l, word, d, hreads, hleads⟩ := find?_build_eq_some_iff.mp ht
    exact ⟨l, word, hreads, hleads.uses⟩
  · rintro ⟨l, word, hreads, huses⟩
    obtain ⟨d, t, hleads⟩ := exists_leads huses
    exact ⟨t, find?_build_eq_some_iff.mpr ⟨l, word, d, hreads, hleads⟩⟩

end

end Definition

end AsmAssist
