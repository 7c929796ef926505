import AsmAssist.Proofs.Revision
import AsmAssist.Proofs.Rows

/-!
# Steps that fail

A step that fails or has nothing to do leaves the session as it was: options that cannot be read, tables that
cannot be loaded, documents that are not tracked, changes that come late. A step that succeeds replaces one
thing as a whole, the settings or the catalog. The settings keep the margin within its range, since every
margin that is read is brought into it.
-/

namespace AsmAssist

namespace Settings

/-! ## The margin -/

/-- The margin is one that documents can be formatted with. -/
def Formatting.InRange (f : Formatting) : Prop := 1 ≤ f.leftMargin ∧ f.leftMargin ≤ 80

instance (f : Formatting) : Decidable f.InRange :=
  inferInstanceAs (Decidable (1 ≤ f.leftMargin ∧ f.leftMargin ≤ 80))

theorem foldlM_keeps {α β ε : Type} {P : β → Prop} {f : β → α → Except ε β} {xs : List α}
    (hf : ∀ x ∈ xs, ∀ b b', P b → f b x = .ok b' → P b') {b b' : β} (hb : P b)
    (h : xs.foldlM f b = .ok b') : P b' := by
  induction xs generalizing b with
  | nil =>
    cases h
    exact hb
  | cons x xs ih =>
    rw [List.foldlM_cons, bind_eq_ok_iff] at h
    obtain ⟨next, hnext, hrest⟩ := h
    have hP : P next := hf x List.mem_cons_self b next hb hnext
    exact ih (fun y hy => hf y (List.mem_cons_of_mem x hy)) hP hrest

/-- What every member keeps, a record keeps, in whichever way it is given. -/
theorem readRecord_keeps {α : Type} {P : α → Prop} {wanted : Wanted} {members : List (Member α)}
    (hset : ∀ m ∈ members, ∀ a v b, P a → m.set a v = .ok b → P b) {start result : α} (hstart : P start)
    {v : Value} (h : readRecord wanted members start v = .ok result) : P result := by
  cases v with
  | record given =>
    refine foldlM_keeps ?_ hstart h
    rintro ⟨key, v⟩ - a b ha hb
    simp only [setMember] at hb
    split at hb
    next m hm => exact hset m (List.mem_of_find?_eq_some hm) a v b ha hb
    next =>
      cases hb
      exact ha
  | list items =>
    obtain ⟨a, hfold, hlength⟩ := bind_eq_ok_iff.mp h
    have ha : P a := by
      refine foldlM_keeps ?_ hstart hfold
      rintro ⟨m, v⟩ hm b b' hb hb'
      exact hset m (List.of_mem_zip hm).1 b v b' hb hb'
    split at hlength
    · cases hlength
    · cases hlength
      exact ha
  | _ => cases h

theorem readMargin_inRange {v : Value} {n : Nat} (h : readMargin v = .ok n) : 1 ≤ n ∧ n ≤ 80 := by
  cases v with
  | integer i =>
    simp only [readMargin] at h
    split at h
    · cases h
      omega
    · cases h
  | _ => cases h

theorem formattingMembers_inRange :
    ∀ m ∈ formattingMembers, ∀ a v b, a.InRange → m.set a v = .ok b → b.InRange := by
  simp only [formattingMembers, List.forall_mem_cons, bind_eq_ok_iff]
  refine ⟨?_, ?_, by simp⟩
  · rintro a v b ha ⟨enabled, -, hb⟩
    cases hb
    exact ha
  · rintro a v b - ⟨margin, hmargin, hb⟩
    cases hb
    exact readMargin_inRange hmargin

theorem settingsMembers_inRange :
    ∀ m ∈ settingsMembers, ∀ a v b, a.formatting.InRange → m.set a v = .ok b → b.formatting.InRange := by
  simp only [settingsMembers, List.forall_mem_cons, bind_eq_ok_iff]
  refine ⟨?_, ?_, ?_, by simp⟩
  · rintro a v b - ⟨formatting, hformatting, hb⟩
    cases hb
    exact readRecord_keeps formattingMembers_inRange (by decide) hformatting
  all_goals
    rintro a v b ha ⟨_, -, hb⟩
    cases hb
    exact ha

theorem read_inRange {options : Option Value} {settings : Settings} (h : read options = .ok settings) :
    settings.formatting.InRange := by
  unfold read at h
  split at h
  · cases h
    decide
  · cases h
    decide
  · exact readRecord_keeps settingsMembers_inRange (by decide) h

end Settings

namespace Session

/-- The states that steps lead to, whatever can be read at each of them. -/
inductive Reachable : Session → Prop
  | start : Reachable start
  | step {s : Session} (shelf : Shelf) (step : Step) : Reachable s → Reachable (s.step shelf step).1

@[simp]
theorem cancelAt_settings (s : Session) (a : Text) : (s.cancelAt a).settings = s.settings := by
  unfold cancelAt
  split <;> rfl

/-- Settings come from nowhere but the options of a client. -/
theorem settings_step (shelf : Shelf) (s : Session) (step : Step) :
    (s.step shelf step).1.settings = s.settings ∨
      ∃ options, Settings.read options = .ok (s.step shelf step).1.settings := by
  cases step with
  | configure options =>
    simp only [Session.step, configure]
    cases hread : Settings.read options with
    | ok settings => exact .inr ⟨options, hread⟩
    | error e => exact .inl rfl
  | ready =>
    simp only [Session.step, announce]
    split
    · exact .inl rfl
    · split <;> exact .inl rfl
  | openDocument a languageId text version =>
    left
    simp only [Session.step, openDocument]
    split <;> simp [store]
  | changeDocument a version texts =>
    left
    simp only [Session.step, changeDocument]
    split
    · split <;> simp [store]
    · rfl
  | closeDocument a => exact .inl (cancelAt_settings s a)
  | hold a name =>
    left
    simp only [Session.step, hold]
    split <;> rfl
  | cancel name =>
    left
    simp only [Session.step, cancelHeld]
    split <;> rfl
  | setCatalog instructions registers =>
    left
    simp only [Session.step]
    split <;> rfl
  | _ => exact .inl rfl

theorem Reachable.margin_inRange {s : Session} (h : Reachable s) : s.settings.formatting.InRange := by
  induction h with
  | start => decide
  | @step s shelf step _ ih =>
    obtain hsame | ⟨options, hread⟩ := settings_step shelf s step
    · rw [hsame]
      exact ih
    · exact Settings.read_inRange hread

/-! ## Loading a catalog -/

/-- A table of the directory is missing or has a row with too few fields. -/
def IsUnreadable (shelf : Shelf) (directory : Text) : Prop :=
  ∃ table : Catalog.Table, shelf directory table.fileName = none ∨
    ∃ text, shelf directory table.fileName = some text ∧ ¬ Catalog.HasFields table.width text

def shortRowText (file : String) (least : Nat) (e : Catalog.ShortRow) : String :=
  "invalid documentation row in " ++ file ++ " at line " ++ toString e.line ++
    ": expected " ++ toString least ++ " fields, found " ++ toString e.found

/-- The text of what is wrong with a directory: a file that is missing, else the first row with too few
fields, the instruction table coming before that of the registers. -/
inductive Fails (shelf : Shelf) (directory : Text) : String → Prop
  | missing (h : shelf directory "instructions.csv" = none ∨ shelf directory "registers.csv" = none) :
      Fails shelf directory "I/O error: No such file or directory (os error 2)"
  | instruction {instructions registers : Text} {e : Catalog.ShortRow}
      (hi : shelf directory "instructions.csv" = some instructions)
      (hr : shelf directory "registers.csv" = some registers)
      (hshort : Catalog.FirstShort .instructions 5 instructions e) :
      Fails shelf directory (shortRowText "instructions.csv" 5 e)
  | register {instructions registers : Text} {e : Catalog.ShortRow}
      (hi : shelf directory "instructions.csv" = some instructions)
      (hr : shelf directory "registers.csv" = some registers)
      (hfields : Catalog.HasFields 5 instructions)
      (hshort : Catalog.FirstShort .registers 3 registers e) :
      Fails shelf directory (shortRowText "registers.csv" 3 e)

theorem loadCatalog_eq_ok_iff {shelf : Shelf} {directory : Text} {catalog : Catalog} :
    loadCatalog shelf directory = .ok catalog ↔
      ∃ instructions registers,
        shelf directory Catalog.Table.instructions.fileName = some instructions ∧
        shelf directory Catalog.Table.registers.fileName = some registers ∧
        Catalog.parse instructions registers = .ok catalog := by
  unfold loadCatalog
  split
  next instructions registers hi hr =>
    simp only [hi, hr, Option.some.injEq, exists_and_left, exists_eq_left']
    cases Catalog.parse instructions registers with
    | ok found => constructor <;> rintro ⟨⟩ <;> rfl
    | error e => constructor <;> rintro ⟨⟩
  next hmissing =>
    constructor
    · intro h
      cases h
    · rintro ⟨instructions, registers, hi, hr, -⟩
      exact absurd hr (hmissing instructions registers hi)

/-- A directory is loaded exactly if both of its tables can be read. -/
theorem loadCatalog_ok_iff {shelf : Shelf} {directory : Text} :
    (∃ catalog, loadCatalog shelf directory = .ok catalog) ↔ ¬ IsUnreadable shelf directory := by
  simp only [loadCatalog_eq_ok_iff]
  constructor
  · rintro ⟨catalog, instructions, registers, hi, hr, hparse⟩ ⟨table, hmissing | ⟨text, htext, hshort⟩⟩
    · cases table with
      | instructions => simp [hi] at hmissing
      | registers => simp [hr] at hmissing
    · obtain ⟨hinstructions, hregisters⟩ := Catalog.parse_ok_iff_hasFields.mp ⟨catalog, hparse⟩
      cases table with
      | instructions =>
        obtain rfl := Option.some.inj (hi.symm.trans htext)
        exact hshort hinstructions
      | registers =>
        obtain rfl := Option.some.inj (hr.symm.trans htext)
        exact hshort hregisters
  · intro h
    have hreadable (table : Catalog.Table) :
        ∃ text, shelf directory table.fileName = some text ∧ Catalog.HasFields table.width text := by
      cases htext : shelf directory table.fileName with
      | none => exact absurd ⟨table, .inl htext⟩ h
      | some text =>
        refine ⟨text, rfl, ?_⟩
        by_contra hshort
        exact h ⟨table, .inr ⟨text, htext, hshort⟩⟩
    obtain ⟨instructions, hi, hinstructions⟩ := hreadable .instructions
    obtain ⟨registers, hr, hregisters⟩ := hreadable .registers
    obtain ⟨catalog, hparse⟩ := Catalog.parse_ok_iff_hasFields.mpr ⟨hinstructions, hregisters⟩
    exact ⟨catalog, instructions, registers, hi, hr, hparse⟩

/-- An error says what is wrong. -/
theorem fails_of_loadCatalog {shelf : Shelf} {directory : Text} {e : LoadError}
    (h : loadCatalog shelf directory = .error e) : Fails shelf directory e.message := by
  unfold loadCatalog at h
  split at h
  next instructions registers hi hr =>
    cases hparse : Catalog.parse instructions registers with
    | ok catalog =>
      rw [hparse] at h
      cases h
    | error short =>
      rw [hparse] at h
      cases h
      obtain ⟨table, line, found⟩ := short
      rcases Catalog.parse_error_iff.mp hparse with hshort | ⟨hfields, hshort⟩
      · obtain rfl : table = .instructions := hshort.of_table
        exact .instruction hi hr hshort
      · obtain rfl : table = .registers := hshort.of_table
        exact .register hi hr hfields hshort
  next hmissing =>
    cases h
    apply Fails.missing
    cases hi : shelf directory "instructions.csv" with
    | none => exact .inl rfl
    | some instructions =>
      cases hr : shelf directory "registers.csv" with
      | none => exact .inr rfl
      | some registers => exact absurd hr (hmissing instructions registers hi)

/-! ## Steps without effect -/

/-- The same documents, with their texts, versions and stamps, and the same in everything else. -/
structure SameState (s t : Session) : Prop where
  documents : t.documents.toList = s.documents.toList
  held : t.held = s.held
  cancelled : t.cancelled = s.cancelled
  nextStamp : t.nextStamp = s.nextStamp
  catalog : t.catalog = s.catalog
  settings : t.settings = s.settings

/-- A document that is not tracked, a change that comes late, has no text or is for a document that is not
open, and the end of a document that is not open. -/
def Step.IsIgnored (s : Session) : Step → Prop
  | .openDocument address languageId _ _ =>
    languageId ≠ Address.language ∧ Address.isAssembly address = false
  | .changeDocument address version texts =>
    texts = [] ∨ s.document? address = none ∨ ∃ d, s.document? address = some d ∧ version < d.version
  | .closeDocument address => s.document? address = none
  | _ => False

theorem sameState_refl (s : Session) : SameState s s := ⟨rfl, rfl, rfl, rfl, rfl, rfl⟩

theorem openDocument_of_unsupported {address languageId : Text} (hl : languageId ≠ Address.language)
    (ha : Address.isAssembly address = false) (s : Session) (text : Text) (version : Int) :
    s.openDocument address languageId text version = s := by
  simp [openDocument, Address.supports, hl, ha]

theorem changeDocument_of_unfit {s : Session} {address : Text} {version : Int} {texts : List Text}
    (h : texts = [] ∨ s.document? address = none ∨
      ∃ d, s.document? address = some d ∧ version < d.version) :
    s.changeDocument address version texts = s := by
  unfold changeDocument
  split
  next text d htext hd =>
    have hlate : version < d.version := by
      obtain rfl | hnone | ⟨e, he, hlate⟩ := h
      · cases htext
      · rw [hd] at hnone
        cases hnone
      · rw [hd] at he
        cases he
        exact hlate
    rw [if_pos hlate]
  next => rfl

/-- Erasing what is not there may rebuild the table of documents, but not change it. -/
theorem closeDocument_of_none {s : Session} {address : Text} (h : s.document? address = none) :
    SameState s (s.closeDocument address) := by
  have hcancel : s.cancelAt address = s := by simp [cancelAt, h]
  have hdocuments : (s.closeDocument address).documents.Equiv s.documents := by
    apply Std.TreeMap.Equiv.of_forall_constGet?_eq
    intro a
    refine (document?_closeDocument s address a).trans ?_
    split
    next ha => rw [← ha, h.symm, document?]
    next => rfl
  refine ⟨Std.TreeMap.equiv_iff_toList_eq.mp hdocuments, ?_, ?_, ?_, ?_, ?_⟩ <;>
    simp only [closeDocument, hcancel]

theorem sameState_of_ignored {s : Session} {step : Step} (h : step.IsIgnored s) (shelf : Shelf) :
    SameState s (s.step shelf step).1 := by
  cases step with
  | openDocument address languageId text version =>
    simp only [Session.step, openDocument_of_unsupported h.1 h.2]
    exact sameState_refl s
  | changeDocument address version texts =>
    simp only [Session.step, changeDocument_of_unfit h]
    exact sameState_refl s
  | closeDocument address => exact closeDocument_of_none h
  | _ => cases h

/-- What the steps of a client do to the state they find, when they fail and when they succeed. -/
structure IsAtomic (shelf : Shelf) (s : Session) : Prop where
  /-- Options that cannot be read change nothing. -/
  unread : ∀ options e, Settings.read options = .error e → (s.step shelf (.configure options)).1 = s
  /-- Options that can be read replace the settings as a whole. -/
  configured : ∀ options settings, Settings.read options = .ok settings →
    (s.step shelf (.configure options)).1 = { s with settings }
  /-- Without a directory there is nothing to load. -/
  unasked : s.settings.documentation.path = none →
    s.step shelf .ready = (s, .notices [⟨.info, "p4-lsp ready"⟩])
  /-- A directory that cannot be read changes nothing, and the client is warned once of what is wrong. -/
  unloaded : ∀ directory, s.settings.documentation.path = some directory → IsUnreadable shelf directory →
    ∃ failure, Fails shelf directory failure ∧ s.step shelf .ready =
      (s, .notices [⟨.warning, "Using built-in documentation: " ++ failure⟩, ⟨.info, "p4-lsp ready"⟩])
  /-- A directory that can be read replaces the catalog by what both tables say. -/
  loaded : ∀ directory, s.settings.documentation.path = some directory → ¬ IsUnreadable shelf directory →
    ∃ instructions registers catalog,
      shelf directory "instructions.csv" = some instructions ∧
      shelf directory "registers.csv" = some registers ∧
      Catalog.parse instructions registers = .ok catalog ∧
      s.step shelf .ready = ({ s with catalog }, .notices [⟨.info, "p4-lsp ready"⟩])
  ignored : ∀ step, step.IsIgnored s → SameState s (s.step shelf step).1
  margin : 1 ≤ s.settings.formatting.leftMargin ∧ s.settings.formatting.leftMargin ≤ 80

/-- In every reachable state, a step that fails or has nothing to do leaves no trace. -/
theorem Reachable.isAtomic {s : Session} (h : Reachable s) (shelf : Shelf) : IsAtomic shelf s where
  unread options e hread := by simp [Session.step, configure, hread]
  configured options settings hread := by simp [Session.step, configure, hread]
  unasked hpath := by simp [Session.step, announce, hpath, readyNotice]
  unloaded directory hpath hunreadable := by
    cases hload : loadCatalog shelf directory with
    | ok catalog => exact absurd hunreadable (loadCatalog_ok_iff.mp ⟨catalog, hload⟩)
    | error e =>
      refine ⟨e.message, fails_of_loadCatalog hload, ?_⟩
      simp [Session.step, announce, hpath, hload, loadFailed, readyNotice]
  loaded directory hpath hreadable := by
    obtain ⟨catalog, hload⟩ := loadCatalog_ok_iff.mpr hreadable
    obtain ⟨instructions, registers, hi, hr, hparse⟩ := loadCatalog_eq_ok_iff.mp hload
    exact ⟨instructions, registers, catalog, hi, hr, hparse,
      by simp [Session.step, announce, hpath, hload, readyNotice]⟩
  ignored step hignored := sameState_of_ignored hignored shelf
  margin := h.margin_inRange

/-- A margin beyond the range, a table of registers whose first short row follows a blank line, and a change
that comes late. -/
theorem isAtomic_short_row :
    let instructions := "HLT;HLT;Stops.;;false".toList
    let registers := "R0;Zero.;\n\nR1;one\nR2".toList
    let shelf : Shelf := fun _ file =>
      if file = "instructions.csv" then some instructions else some registers
    let options : Settings.Value := .record
      [("documentation".toList, .record [("path".toList, .text "/docs".toList)]),
        ("formatting".toList, .record [("left_margin".toList, .integer 200)])]
    let main := "file:///w/main.as".toList
    let s := ((start.step shelf (.configure (some options))).1.step shelf
      (.openDocument main "p4".toList "NOP".toList 5)).1
    Reachable s ∧ s.settings.formatting.leftMargin = 80 ∧
      s.step shelf .ready = (s, .notices [
        ⟨.warning, "Using built-in documentation: " ++
          "invalid documentation row in registers.csv at line 3: expected 3 fields, found 2"⟩,
        ⟨.info, "p4-lsp ready"⟩]) ∧
      SameState s (s.step shelf (.changeDocument main 4 ["RTI".toList])).1 := by
  intro instructions registers shelf options main s
  have hreachable : Reachable s := .step _ _ (.step _ _ .start)
  have hpath : s.settings.documentation.path = some "/docs".toList := by decide +kernel
  have hdocument : s.document? main = some ⟨"NOP".toList, 5, 0⟩ := by decide +kernel
  have hinstructions : ∀ row ∈ Catalog.rows instructions, 5 ≤ row.fields.length := by decide +kernel
  have hregisters : Catalog.rows registers = [⟨1, ["R0".toList, "Zero.".toList, []]⟩,
      ⟨3, ["R1".toList, "one".toList]⟩, ⟨4, ["R2".toList]⟩] := by decide +kernel
  have hshort : Catalog.RowAt registers 3 ["R1".toList, "one".toList] := by
    have hmem : ⟨3, ["R1".toList, "one".toList]⟩ ∈ Catalog.rows registers := by simp [hregisters]
    exact Catalog.mem_rows_iff.mp hmem
  have hatomic := hreachable.isAtomic shelf
  refine ⟨hreachable, by decide +kernel, ?_, hatomic.ignored _ (.inr (.inr ⟨_, hdocument, by decide⟩))⟩
  have hunreadable : IsUnreadable shelf "/docs".toList :=
    ⟨.registers, .inr ⟨registers, rfl, fun hfields => absurd (hfields 3 _ hshort) (by decide)⟩⟩
  obtain ⟨failure, hfails, hready⟩ := hatomic.unloaded _ hpath hunreadable
  cases hfails with
  | missing h => simp [shelf] at h
  | instruction hi _ hfirst =>
    cases hi
    obtain ⟨fields, hrow, hlt, -⟩ := hfirst.short
    have hle := hinstructions ⟨_, fields⟩ (Catalog.mem_rows_iff.mpr hrow)
    exact absurd hlt (Nat.not_lt.mpr hle)
  | @register _ _ e _ hr _ hfirst =>
    cases hr
    obtain ⟨table, line, found⟩ := e
    obtain ⟨fields, hrow, hlt, hfound⟩ := hfirst.short
    have hmem : ⟨line, fields⟩ ∈ Catalog.rows registers := Catalog.mem_rows_iff.mpr hrow
    simp only [hregisters, List.mem_cons, Catalog.Row.mk.injEq, List.not_mem_nil, or_false] at hmem
    obtain ⟨-, rfl⟩ | ⟨rfl, rfl⟩ | ⟨rfl, rfl⟩ := hmem
    · exact absurd hlt (by decide)
    · obtain rfl : table = .registers := hfirst.of_table
      obtain rfl : found = 2 := hfound
      have htext : shortRowText "registers.csv" 3 ⟨.registers, 3, 2⟩ =
          "invalid documentation row in registers.csv at line 3: expected 3 fields, found 2" := by
        decide +kernel
      rw [hready, htext]
    · -- the row on line 3 comes first
      exact absurd (hfirst.first 3 (Nat.lt_succ_self 3) _ hshort) (by decide)

end Session

end AsmAssist
