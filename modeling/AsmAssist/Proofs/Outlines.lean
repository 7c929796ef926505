import AsmAssist.Outline
import AsmAssist.Proofs.Indexing
import AsmAssist.Proofs.Tokens
import Mathlib.Data.List.Nodup

/-!
# What an outline lists

The outline of an index has one symbol for each label and one for each assigned name, taken from the last
line that defines it. A line defines one label or one name at most, so no two symbols share a line, and the
outline goes strictly down the document.
-/

namespace AsmAssist

open Line (classify)
open Text

/-- A span that stands inside another and does not run backwards. -/
def Span.Within (inner outer : Span) : Prop :=
  outer.start ≤ inner.start ∧ inner.start ≤ inner.stop ∧ inner.stop ≤ outer.stop

theorem Token.Exact.within {raw : Text} {number : Nat} {t : Token} (h : t.Exact raw number) :
    t.span.Within (.onLine number 0 (columns raw)) := by
  obtain ⟨hstart, hstop⟩ := h.on_line
  refine ⟨.inr ⟨hstart.symm, Nat.zero_le _⟩, .inr ⟨?_, h.forward⟩, .inr ⟨hstop, h.inside⟩⟩
  rw [hstart, hstop]

/-! ## The texts that lines define -/

namespace Line

variable {raw : Text} {number : Nat}

/-- The colon of a label stands behind a visible character. -/
theorem label_text_ne_nil {label : Token} {i : Option Instruction}
    (h : (classify raw number).kind = .label label i) : label.text ≠ [] := by
  obtain ⟨w, s, before, rfl, hw, hs, hcolon, rfl, rfl⟩ := Reading.kind_eq_label h
  obtain ⟨⟨rest, hcut⟩, hne, -⟩ := Reading.colonText?_eq_some hcolon
  obtain ⟨c, before, rfl⟩ := List.exists_cons_of_ne_nil hne
  obtain ⟨d, t, hd, hvisible⟩ := hs.visible
  have htext := (cutAtMark_parts hcut).1
  rw [hd, List.cons_append, List.cons.injEq] at htext
  show trimEnd (c :: before) ≠ []
  simp [trimEnd_cons, ← htext.1, hvisible]

theorem name_text_ne_nil {a : Assignment} (h : (classify raw number).kind = .assignment a) :
    a.name.text ≠ [] := by
  have hassigned : (classify raw number).assignment? = some a := by simp [Line.assignment?, h]
  obtain ⟨p, kind, lead, gap, space, -, -, hplaced, rfl⟩ :=
    Assignment.read?_eq_some (read?_of_classify hassigned)
  exact hplaced.name_opens.ne_nil

theorem label_exact {label : Token} {i : Option Instruction}
    (h : (classify raw number).kind = .label label i) : label.Exact raw number := by
  obtain ⟨a, hd, -⟩ := Anatomy.classify_dissects raw number
  obtain ⟨hraw, hnumber⟩ := Reading.classify_number raw number
  have hlabel := hd.labelled.exact hd.label_isPrefix label (by simp [Line.label?, h])
  rwa [hraw, hnumber] at hlabel

theorem value_exact {a : Assignment} (h : (classify raw number).kind = .assignment a) :
    a.value.Exact raw number := by
  have hassigned : (classify raw number).assignment? = some a := by simp [Line.assignment?, h]
  exact Assignment.read?_exact (read?_of_classify hassigned) (Reading.code_isPrefix raw) _ (by simp)

end Line

namespace Outline

open Index

/-- The symbol of a label or a name, on the last of the lines that define it. -/
inductive Marks (lines : List Line) : Symbol → Prop
  | label {l : Line} {label : Token} {i : Option Instruction} (hkind : l.kind = .label label i)
      (hlast : LastOf (Labels label.text) lines (some l)) :
      Marks lines ⟨label.text, .routine, none, l.span, label.span⟩
  | name {l : Line} {a : Assignment} (hkind : l.kind = .assignment a)
      (hlast : LastOf (Assigns a.name.text) lines (some l)) :
      Marks lines ⟨a.name.text, .ofOperator a.kind, some a.kind, l.span, a.value.span⟩

/-- The names are those with a property, and each is there once. -/
structure Lists (names : List Text) (p : Text → Prop) : Prop where
  once : names.Nodup
  mem_iff : ∀ name, name ∈ names ↔ p name

/-- `symbols` is the outline of an index of lines of `source`. -/
structure Outlines (source : List Text) (index : Index) (symbols : List Symbol) : Prop where
  labels : Lists ((symbols.filter (·.kind = .routine)).map (·.name))
    fun name => ∃ l ∈ index.lines, Labels name l
  assignments : Lists ((symbols.filter (·.kind ≠ .routine)).map (·.name))
    fun name => ∃ l ∈ index.lines, Assigns name l
  mem_iff : ∀ s, s ∈ symbols ↔ Marks index.lines s
  named : ∀ s ∈ symbols, s.name ≠ []
  increasing : symbols.Pairwise (·.range.start.line < ·.range.start.line)
  whole : ∀ s ∈ symbols, ∃ number raw, source[number]? = some raw ∧
    s.range = .onLine number 0 (columns raw)
  selected : ∀ s ∈ symbols, s.selection.Within s.range

theorem kind_ofOperator_ne (operator : Operator) : Kind.ofOperator operator ≠ .routine := by
  cases operator <;> exact nofun

/-! ## The tables and the list -/

section

variable {index : Index}

theorem mem_symbols_iff {s : Symbol} :
    s ∈ symbols index ↔
      (∃ name l, index.assignment? name = some l ∧ ofAssignment? name l = some s) ∨
        ∃ name l, index.label? name = some l ∧ ofLabel? name l = some s := by
  simp only [symbols, List.mem_mergeSort, List.mem_append, List.mem_filterMap, Prod.exists,
    Std.TreeMap.mem_toList_iff_getElem?_eq_some, getElem?_assignments, getElem?_labels]

/-- An entry of a table is on the last line that defines it. -/
theorem entry_iff {p : Line → Prop} {lines : List Line} {o : Option Line} (h : LastOf p lines o)
    (l : Line) : o = some l ↔ LastOf p lines (some l) :=
  ⟨fun ho => ho ▸ h, h.unique⟩

theorem mem_symbols_iff_marks (hlabel : ∀ name, LastOf (Labels name) index.lines (index.label? name))
    (hname : ∀ name, LastOf (Assigns name) index.lines (index.assignment? name)) {s : Symbol} :
    s ∈ symbols index ↔ Marks index.lines s := by
  simp only [mem_symbols_iff, entry_iff (hlabel _), entry_iff (hname _)]
  constructor
  · rintro (⟨name, l, hlast, hs⟩ | ⟨name, l, hlast, hs⟩)
    · obtain ⟨a, hkind, rfl⟩ := hlast.mem.2
      simp only [ofAssignment?, Line.assignment?, hkind, Option.map_some, Option.some.injEq] at hs
      exact hs ▸ .name hkind hlast
    · obtain ⟨label, i, hkind, rfl⟩ := hlast.mem.2
      simp only [ofLabel?, Line.label?, hkind, Option.map_some, Option.some.injEq] at hs
      exact hs ▸ .label hkind hlast
  · rintro (⟨hkind, hlast⟩ | ⟨hkind, hlast⟩)
    · exact .inr ⟨_, _, hlast, by simp [ofLabel?, Line.label?, hkind]⟩
    · exact .inl ⟨_, _, hlast, by simp [ofAssignment?, Line.assignment?, hkind]⟩

/-- Symbols that keep the names of their entries are as different as these. -/
theorem nodup_filterMap {table : Std.TreeMap Text Line} {symbol? : Text → Line → Option Symbol}
    (h : ∀ name l s, symbol? name l = some s → s.name = name) :
    (table.toList.filterMap fun (name, l) => symbol? name l).Nodup := by
  refine List.pairwise_filterMap.mpr (Std.TreeMap.distinct_keys_toList.imp ?_)
  rintro ⟨name, l⟩ ⟨name', l'⟩ hne s hs s' hs' rfl
  apply hne
  rw [← h name l s hs, ← h name' l' s hs']
  exact Std.ReflCmp.compare_self

theorem nodup_symbols (index : Index) : (symbols index).Nodup := by
  refine (List.mergeSort_perm _ _).nodup_iff.mpr (List.nodup_append.mpr ⟨?_, ?_, ?_⟩)
  · apply nodup_filterMap
    intro name l s hs
    obtain ⟨a, -, rfl⟩ := Option.map_eq_some_iff.mp hs
    rfl
  · apply nodup_filterMap
    intro name l s hs
    obtain ⟨label, -, rfl⟩ := Option.map_eq_some_iff.mp hs
    rfl
  · -- a label has no operator
    rintro s hs s' hs' rfl
    obtain ⟨⟨name, l⟩, -, hs⟩ := List.mem_filterMap.mp hs
    obtain ⟨⟨name', l'⟩, -, hs'⟩ := List.mem_filterMap.mp hs'
    obtain ⟨a, -, rfl⟩ := Option.map_eq_some_iff.mp hs
    obtain ⟨label, -, hs'⟩ := Option.map_eq_some_iff.mp hs'
    cases congrArg Symbol.operator hs'

theorem sorted_symbols (index : Index) :
    (symbols index).Pairwise (·.range.start.line ≤ ·.range.start.line) := by
  have hsorted : (symbols index).Pairwise fun a b => decide (a.range.start.line ≤ b.range.start.line) := by
    apply List.pairwise_mergeSort
    · intro a b c hab hbc
      exact decide_eq_true (Nat.le_trans (of_decide_eq_true hab) (of_decide_eq_true hbc))
    · intro a b
      simp [Nat.le_total]
  exact hsorted.imp of_decide_eq_true

end

/-! ## One symbol for a definition, one definition on a line -/

/-- Two labels of one name, or two assigned names, are on the same last line. -/
theorem Marks.eq_of_name {lines : List Line} {s s' : Symbol} (h : Marks lines s) (h' : Marks lines s')
    (hname : s.name = s'.name) (hkind : s.kind = .routine ↔ s'.kind = .routine) : s = s' := by
  cases h with
  | label hl hlast =>
    cases h' with
    | label hl' hlast' =>
      dsimp only at hname
      rw [hname] at hlast
      cases hlast.unique hlast'
      cases hl.symm.trans hl'
      rfl
    | name => exact absurd (hkind.mp rfl) (kind_ofOperator_ne _)
  | name hl hlast =>
    cases h' with
    | label => exact absurd (hkind.mpr rfl) (kind_ofOperator_ne _)
    | name hl' hlast' =>
      dsimp only at hname
      rw [hname] at hlast
      cases hlast.unique hlast'
      cases hl.symm.trans hl'
      rfl

theorem exists_routine_iff {lines : List Line} {name : Text} :
    (∃ s, (Marks lines s ∧ s.kind = .routine) ∧ s.name = name) ↔ ∃ l ∈ lines, Labels name l := by
  constructor
  · rintro ⟨s, ⟨hmarks, hkind⟩, rfl⟩
    cases hmarks with
    | label _ hlast => exact ⟨_, hlast.mem⟩
    | name => exact absurd hkind (kind_ofOperator_ne _)
  · intro h
    obtain ⟨l, hlast⟩ := exists_lastOf h
    obtain ⟨label, i, hkind, rfl⟩ := hlast.mem.2
    exact ⟨_, ⟨.label hkind hlast, rfl⟩, rfl⟩

theorem exists_not_routine_iff {lines : List Line} {name : Text} :
    (∃ s, (Marks lines s ∧ s.kind ≠ .routine) ∧ s.name = name) ↔ ∃ l ∈ lines, Assigns name l := by
  constructor
  · rintro ⟨s, ⟨hmarks, hkind⟩, rfl⟩
    cases hmarks with
    | label => exact absurd rfl hkind
    | name _ hlast => exact ⟨_, hlast.mem⟩
  · intro h
    obtain ⟨l, hlast⟩ := exists_lastOf h
    obtain ⟨a, hkind, rfl⟩ := hlast.mem.2
    exact ⟨_, ⟨.name hkind hlast, kind_ofOperator_ne _⟩, rfl⟩

/-- Within labels, and within assigned names, the name tells which symbol it is. -/
theorem lists_names {lines : List Line} {symbols : List Symbol} {p : Symbol → Prop} [DecidablePred p]
    {q : Text → Prop} (hmem : ∀ s, s ∈ symbols ↔ Marks lines s) (hnodup : symbols.Nodup)
    (hp : ∀ s s', p s → p s' → (s.kind = .routine ↔ s'.kind = .routine))
    (hq : ∀ name, (∃ s, (Marks lines s ∧ p s) ∧ s.name = name) ↔ q name) :
    Lists ((symbols.filter p).map (·.name)) q := by
  constructor
  case once =>
    refine (hnodup.filter _).map_on ?_
    simp only [List.mem_filter, hmem, decide_eq_true_eq]
    rintro s ⟨hs, hkind⟩ s' ⟨hs', hkind'⟩ hname
    exact hs.eq_of_name hs' hname (hp s s' hkind hkind')
  case mem_iff =>
    intro name
    simp only [List.mem_map, List.mem_filter, hmem, decide_eq_true_eq]
    exact hq name

/-- The one symbol that a line can have. -/
def ofLine? (l : Line) : Option Symbol :=
  match l.kind with
  | .label label _ => some ⟨label.text, .routine, none, l.span, label.span⟩
  | .assignment a => some ⟨a.name.text, .ofOperator a.kind, some a.kind, l.span, a.value.span⟩
  | _ => none

theorem Marks.exists_line {lines : List Line} {s : Symbol} (h : Marks lines s) :
    ∃ l ∈ lines, ofLine? l = some s := by
  cases h with
  | label hkind hlast => exact ⟨_, hlast.mem.1, by simp [ofLine?, hkind]⟩
  | name hkind hlast => exact ⟨_, hlast.mem.1, by simp [ofLine?, hkind]⟩

/-- The symbol of a line has a name, covers the line and selects a part of it. -/
theorem ofLine?_classify {raw : Text} {number : Nat} {s : Symbol}
    (h : ofLine? (classify raw number) = some s) :
    s.name ≠ [] ∧ s.range = .onLine number 0 (columns raw) ∧ s.selection.Within s.range := by
  have hspan : (classify raw number).span = .onLine number 0 (columns raw) := by
    obtain ⟨hraw, hnumber⟩ := Reading.classify_number raw number
    rw [Line.span, hraw, hnumber]
  unfold ofLine? at h
  split at h
  · rename_i label i hkind
    cases h
    exact ⟨Line.label_text_ne_nil hkind, hspan, hspan ▸ (Line.label_exact hkind).within⟩
  · rename_i a hkind
    cases h
    exact ⟨Line.name_text_ne_nil hkind, hspan, hspan ▸ (Line.value_exact hkind).within⟩
  · cases h

section

variable {source : List Text} {range : Option (Nat × Nat)} {poll : Poll} {s s' : Symbol}

theorem Marks.exists_source (h : Marks (build source range poll).lines s) :
    ∃ number raw, (build source range poll).line? number = some (classify raw number) ∧
      source[number]? = some raw ∧ ofLine? (classify raw number) = some s := by
  obtain ⟨l, hl, hs⟩ := h.exists_line
  have hline := line?_number hl
  obtain ⟨raw, hraw, hclassify⟩ := line?_build hline
  rw [hclassify] at hs
  exact ⟨l.number, raw, hclassify ▸ hline, hraw, hs⟩

theorem Marks.eq_of_line (h : Marks (build source range poll).lines s)
    (h' : Marks (build source range poll).lines s')
    (hline : s.range.start.line = s'.range.start.line) : s = s' := by
  obtain ⟨number, raw, hl, -, hs⟩ := h.exists_source
  obtain ⟨number', raw', hl', -, hs'⟩ := h'.exists_source
  rw [(ofLine?_classify hs).2.1, (ofLine?_classify hs').2.1] at hline
  obtain rfl : number = number' := hline
  rw [hl'] at hl
  rw [Option.some.inj hl, hs] at hs'
  exact Option.some.inj hs'

end

/-! ## The outline of an index -/

/-- Whatever was scanned, the outline has each label and each name once, on its last line and in order. -/
theorem symbols_outlines (source : List Text) (range : Option (Nat × Nat)) (poll : Poll) :
    Outlines source (build source range poll) (symbols (build source range poll)) := by
  obtain ⟨count, hscans⟩ := build_scans source range poll
  have hmem (s : Symbol) := mem_symbols_iff_marks hscans.label? hscans.assignment? (s := s)
  have hnodup := nodup_symbols (build source range poll)
  constructor
  case labels =>
    exact lists_names hmem hnodup (fun _ _ h h' => iff_of_true h h') fun _ => exists_routine_iff
  case assignments =>
    exact lists_names hmem hnodup (fun _ _ h h' => iff_of_false h h') fun _ => exists_not_routine_iff
  case mem_iff => exact hmem
  case named =>
    intro s hs
    obtain ⟨number, raw, -, -, hline⟩ := ((hmem s).mp hs).exists_source
    exact (ofLine?_classify hline).1
  case increasing =>
    have hlines : (symbols (build source range poll)).Pairwise
        (·.range.start.line ≠ ·.range.start.line) := by
      refine hnodup.imp_of_mem ?_
      intro s s' hs hs' hne hline
      exact hne (((hmem s).mp hs).eq_of_line ((hmem s').mp hs') hline)
    exact ((sorted_symbols _).and hlines).imp fun ⟨hle, hne⟩ => Nat.lt_of_le_of_ne hle hne
  case whole =>
    intro s hs
    obtain ⟨number, raw, -, hraw, hline⟩ := ((hmem s).mp hs).exists_source
    exact ⟨number, raw, hraw, (ofLine?_classify hline).2.1⟩
  case selected =>
    intro s hs
    obtain ⟨number, raw, -, -, hline⟩ := ((hmem s).mp hs).exists_source
    exact (ofLine?_classify hline).2.2

end Outline

end AsmAssist
