import AsmAssist.Catalog.Bundled
import AsmAssist.Proofs.Cursor
import AsmAssist.Proofs.Definitions

/-!
# What a hover shows

A hover shows the definition of a word, else the documentation of a keyword or of a register, else the
constants under the cursor. A definition reads like none of the others, so it is shown exactly if the word
leads somewhere. Inside a literal no word leads anywhere; there the constants are shown unless something that
the literal spells, or the mnemonic next to it, is documented.
-/

namespace AsmAssist

open Text Index Definition
open Line (classify)

namespace Hover

/-- Where each hover comes from. -/
inductive Shown (index : Index) (p : Position) (catalog : Catalog) (settings : Settings.Hover) :
    Hover → Prop
  | definition {t : Position} {d : Line} (enabled : settings.showDefinitions = true)
      (target : find? index p = some t) (line : index.line? t.line = some d) :
      Shown index p catalog settings ⟨Markdown.definition d.raw settings.jumpHint, none⟩
  | instruction {l : Line} {keyword : Text} {span : Span} {e : InstructionEntry}
      (line : index.line? p.line = some l) (under : keyword? l p = some (keyword, span))
      (entry : catalog.instruction? keyword = some e) :
      Shown index p catalog settings ⟨Markdown.instruction e, some span⟩
  | register {l : Line} {r : Token} {e : RegisterEntry} (line : index.line? p.line = some l)
      (mem : r ∈ l.registers) (under : r.span.touches p = true)
      (entry : catalog.register? r.text = some e) :
      Shown index p catalog settings ⟨Markdown.register e, some r.span⟩
  | constants {l : Line} {value : Int} {values : List Int} (line : index.line? p.line = some l)
      (read : Constant.values l.raw p.character = value :: values) :
      Shown index p catalog settings ⟨Markdown.constants (value :: values), none⟩

/-- A code block that holds a line, and below it the hint unless that is empty. -/
inductive DefinitionText (raw : Text) : Text → String → Prop
  | plain : DefinitionText raw [] ("```p4\n" ++ String.ofList raw ++ "\n```")
  | hinted {hint : Text} (hne : hint ≠ []) :
      DefinitionText raw hint
        ("```p4\n" ++ String.ofList raw ++ "\n```" ++ ("\n\n" ++ String.ofList hint))

/-- The text of a definition, with whatever line and hint. -/
def ShowsDefinition (h : Hover) : Prop := ∃ raw hint, DefinitionText raw hint h.markdown

section

variable {index : Index} {p : Position} {catalog : Catalog} {settings : Settings.Hover} {l : Line} {h : Hover}

theorem instruction?_eq_some (hh : instruction? l p catalog = some h) :
    ∃ keyword span e, keyword? l p = some (keyword, span) ∧ catalog.instruction? keyword = some e ∧
      h = ⟨Markdown.instruction e, some span⟩ := by
  obtain ⟨⟨keyword, span⟩, hk, hmap⟩ := Option.bind_eq_some_iff.mp hh
  obtain ⟨e, he, rfl⟩ := Option.map_eq_some_iff.mp hmap
  exact ⟨keyword, span, e, hk, he, rfl⟩

theorem register?_eq_some (hh : register? l p catalog = some h) :
    ∃ r ∈ l.registers, ∃ e, r.span.touches p = true ∧ catalog.register? r.text = some e ∧
      h = ⟨Markdown.register e, some r.span⟩ := by
  obtain ⟨r, hr, hmap⟩ := List.exists_of_findSome?_eq_some hh
  obtain ⟨hmem, htouches⟩ := List.mem_filter.mp hr
  obtain ⟨e, he, rfl⟩ := Option.map_eq_some_iff.mp hmap
  exact ⟨r, hmem, e, htouches, he, rfl⟩

theorem shown_constant (hl : index.line? p.line = some l) (hh : constant? l p = some h) :
    Shown index p catalog settings h := by
  unfold constant? at hh
  split at hh
  · cases hh
  next hvalues =>
    cases hread : Constant.values l.raw p.character with
    | nil => exact absurd hread hvalues
    | cons value values =>
      rw [hread] at hh
      cases hh
      exact .constants hl hread

theorem shown_operand (hl : index.line? p.line = some l) (hh : operand? l p catalog = some h) :
    Shown index p catalog settings h := by
  unfold operand? at hh
  split at hh
  · rcases Option.or_eq_some_iff.mp hh with hr | ⟨-, hc⟩
    · obtain ⟨r, hmem, e, htouches, he, rfl⟩ := register?_eq_some hr
      exact .register hl hmem htouches he
    · exact shown_constant hl hc
  · split at hh
    · exact shown_constant hl hh
    · cases hh

theorem shown_definition (hh : definition? index p settings = some h) :
    Shown index p catalog settings h := by
  unfold definition? at hh
  split at hh
  next henabled =>
    obtain ⟨t, ht, hmap⟩ := Option.bind_eq_some_iff.mp hh
    obtain ⟨d, hd, rfl⟩ := Option.map_eq_some_iff.mp hmap
    exact .definition henabled ht hd
  · cases hh

/-- Every hover comes from one of the four. -/
theorem at?_shown (hh : at? index p catalog settings = some h) : Shown index p catalog settings h := by
  unfold at? at hh
  split at hh
  next hdefinition =>
    cases hh
    exact shown_definition hdefinition
  · obtain ⟨l, hl, hh⟩ := Option.bind_eq_some_iff.mp hh
    rcases Option.or_eq_some_iff.mp hh with hi | ⟨-, ho⟩
    · obtain ⟨keyword, span, e, hk, he, rfl⟩ := instruction?_eq_some hi
      exact .instruction hl hk he
    · exact shown_operand hl ho

end

/-! ## Definitions -/

theorem head?_toList_append {s : String} {c : Char} (h : s.toList.head? = some c) (t : String) :
    (s ++ t).toList.head? = some c := by
  rw [String.toList_append, List.head?_append, h, Option.some_or]

theorem definitionText_definition (raw hint : Text) :
    DefinitionText raw hint (Markdown.definition raw hint) := by
  unfold Markdown.definition
  split
  next hempty =>
    rw [hempty, String.append_empty]
    exact .plain
  next hne => exact .hinted hne

theorem DefinitionText.head {raw hint : Text} {s : String} (h : DefinitionText raw hint s) :
    s.toList.head? = some '\x60' := by
  cases h with
  | plain | hinted =>
    repeat apply head?_toList_append
    decide

theorem instruction_head (e : InstructionEntry) : (Markdown.instruction e).toList.head? = some '*' := by
  unfold Markdown.instruction
  repeat apply head?_toList_append
  decide

theorem register_head (e : RegisterEntry) : (Markdown.register e).toList.head? = some 'R' := by
  unfold Markdown.register
  repeat apply head?_toList_append
  decide

theorem constant_head (value : Int) : (Markdown.constant value).toList.head? = some '*' := by
  unfold Markdown.constant
  repeat apply head?_toList_append
  decide

theorem constants_head (value : Int) (values : List Int) :
    (Markdown.constants (value :: values)).toList.head? = some '*' := by
  cases values <;> simp [Markdown.constants, String.toList_intercalate, constant_head]

/-- No hover but that of a definition shows one. -/
theorem Shown.find?_of_showsDefinition {index : Index} {p : Position} {catalog : Catalog}
    {settings : Settings.Hover} {h : Hover} (hshown : Shown index p catalog settings h)
    (hdefinition : h.ShowsDefinition) :
    settings.showDefinitions = true ∧ (find? index p).isSome = true := by
  obtain ⟨raw, hint, htext⟩ := hdefinition
  have hhead := htext.head
  cases hshown with
  | definition henabled htarget => exact ⟨henabled, Option.isSome_of_eq_some htarget⟩
  | instruction => simp [instruction_head] at hhead
  | register => simp [register_head] at hhead
  | constants => simp [constants_head] at hhead

theorem at?_of_find? {index : Index} {p t : Position} {settings : Settings.Hover} {d : Line}
    (henabled : settings.showDefinitions = true) (ht : find? index p = some t)
    (hd : index.line? t.line = some d) (catalog : Catalog) :
    at? index p catalog settings = some ⟨Markdown.definition d.raw settings.jumpHint, none⟩ := by
  simp [at?, definition?, henabled, ht, hd]

/-- How an index of `source` answers for the word at a position: where it leads, and what a hover shows of
it. -/
structure Resolves (source : List Text) (index : Index) (p : Position) : Prop where
  found_iff : (find? index p).isSome = true ↔
    ∃ l word, Reads index p l word ∧ (UsesLabel index l p word ∨ UsesName index l p word)
  target_iff : ∀ t, find? index p = some t ↔
    ∃ l word d, Reads index p l word ∧ Leads index l p word d t ∧
      index.line? t.line = some d ∧ d.span.contains t = true
  shows_iff : ∀ catalog settings,
    (∃ h, at? index p catalog settings = some h ∧ h.ShowsDefinition) ↔
      settings.showDefinitions = true ∧ (find? index p).isSome = true
  shown : ∀ catalog settings t, settings.showDefinitions = true → find? index p = some t →
    ∃ raw text, source[t.line]? = some raw ∧ DefinitionText raw settings.jumpHint text ∧
      at? index p catalog settings = some ⟨text, none⟩

/-- Going to a definition and showing it agree on every index, whatever its range and wherever its scan
stopped. -/
theorem build_resolves (source : List Text) (range : Option (Nat × Nat)) (poll : Poll) (p : Position) :
    Resolves source (build source range poll) p := by
  constructor
  case found_iff => exact find?_build_isSome_iff
  case target_iff =>
    intro t
    rw [find?_build_eq_some_iff]
    constructor
    · rintro ⟨l, word, d, hreads, hleads⟩
      exact ⟨l, word, d, hreads, hleads, hleads.line?⟩
    · rintro ⟨l, word, d, hreads, hleads, -⟩
      exact ⟨l, word, d, hreads, hleads⟩
  case shows_iff =>
    intro catalog settings
    constructor
    · rintro ⟨h, hh, hdefinition⟩
      exact (at?_shown hh).find?_of_showsDefinition hdefinition
    · rintro ⟨henabled, hfound⟩
      obtain ⟨t, ht⟩ := Option.isSome_iff_exists.mp hfound
      obtain ⟨l, word, d, -, hleads⟩ := find?_build_eq_some_iff.mp ht
      exact ⟨_, at?_of_find? henabled ht hleads.line?.1 catalog, d.raw, settings.jumpHint,
        definitionText_definition _ _⟩
  case shown =>
    intro catalog settings t henabled ht
    obtain ⟨l, word, d, -, hleads⟩ := find?_build_eq_some_iff.mp ht
    obtain ⟨hd, -⟩ := hleads.line?
    obtain ⟨raw, hraw, hclassify⟩ := line?_build hd
    have hshown := at?_of_find? henabled ht hd catalog
    rw [hclassify, (Reading.classify_number raw t.line).1] at hshown
    exact ⟨raw, _, hraw, definitionText_definition _ _, hshown⟩

/-- The last of two labels in the range counts, and on a label its name leads on to an assignment. -/
theorem build_resolves_redefined :
    let source := ["L: NOP".toList, "X EQU 5".toList, "L: ADD R1".toList, "X: JMP L".toList, "L:".toList]
    let index := build source (some (1, 4)) .never
    find? index ⟨2, 1⟩ = none ∧
      (find? index ⟨3, 7⟩ = some ⟨4, 1⟩ ∧ ∀ catalog,
        at? index ⟨3, 7⟩ catalog { jumpHint := [] } = some ⟨"```p4\nL:\n```", none⟩) ∧
      find? index ⟨3, 1⟩ = some ⟨1, 6⟩ ∧ ∀ catalog, at? index ⟨3, 1⟩ catalog {} =
        some ⟨"```p4\nX EQU 5\n```\n\n**Ctrl+click** to jump to the definition", none⟩ := by
  intro source index
  have hlabel : find? index ⟨3, 7⟩ = some ⟨4, 1⟩ := by decide +kernel
  have hname : find? index ⟨3, 1⟩ = some ⟨1, 6⟩ := by decide +kernel
  refine ⟨by decide +kernel, ⟨hlabel, fun catalog => ?_⟩, hname, fun catalog => ?_⟩
  · obtain ⟨raw, text, hraw, htext, hshown⟩ :=
      (build_resolves _ _ _ _).shown catalog { jumpHint := [] } _ rfl hlabel
    cases hraw
    cases htext with
    | plain => exact hshown
    | hinted hne => exact absurd rfl hne
  · obtain ⟨raw, text, hraw, htext, hshown⟩ := (build_resolves _ _ _ _).shown catalog {} _ rfl hname
    cases hraw
    cases htext
    exact hshown

/-! ## Literals -/

/-- The column is inside the literal of `body`, which a quote opens and the next one closes. -/
structure InLiteral (raw : Text) (character : Nat) (body : Text) : Prop where
  closed : ∃ before after, raw = before ++ quoteMark :: (body ++ quoteMark :: after) ∧
    openingQuote raw character = some (columns before)
  unquoted : quoteMark ∉ body

theorem InLiteral.openingQuote_ne_none {raw body : Text} {character : Nat}
    (h : InLiteral raw character body) : openingQuote raw character ≠ none := by
  obtain ⟨before, after, -, hopened⟩ := h.closed
  simp [hopened]

theorem InLiteral.values {raw body : Text} {character : Nat} (h : InLiteral raw character body) :
    Constant.values raw character = body.map Constant.codePoint := by
  obtain ⟨before, after, rfl, hopened⟩ := h.closed
  rw [Constant.values_of_opened hopened, Constant.literalBody?_closed h.unquoted, Option.getD_some]

section

variable {index : Index} {p : Position} {catalog : Catalog} {l : Line}

theorem find?_of_quoted (hl : index.line? p.line = some l) (hquoted : openingQuote l.raw p.character ≠ none) :
    find? index p = none := by
  obtain ⟨opened, hopened⟩ := Option.ne_none_iff_exists'.mp hquoted
  simp [find?, hl, hopened]

/-- On a line with operands the only keyword is the mnemonic. -/
theorem keyword?_of_operands {o : Token} (ho : l.operands? = some o) :
    keyword? l p =
      (l.mnemonic?.filter fun m => m.span.touches p).map fun m => (Mnemonic.base m.text, m.span) := by
  have hunassigned : l.assignment? = none := by
    cases hk : l.kind <;> simp_all [Line.operands?, Line.instruction?, Line.assignment?]
  unfold keyword?
  cases l.mnemonic?.filter fun m => m.span.touches p <;> simp [hunassigned]

theorem instruction?_eq_none_iff {o : Token} (ho : l.operands? = some o) :
    instruction? l p catalog = none ↔
      ∀ m, l.mnemonic? = some m → m.span.touches p = true →
        catalog.instruction? (Mnemonic.base m.text) = none := by
  rw [instruction?, keyword?_of_operands ho]
  cases l.mnemonic? with
  | none => simp
  | some m => cases ht : m.span.touches p <;> simp [ht, Option.filter]

theorem register?_eq_none_iff :
    register? l p catalog = none ↔
      ∀ r ∈ l.registers, r.span.touches p = true → catalog.register? r.text = none := by
  simp [register?]

/-- Documentation is shown with the range of what it documents. -/
theorem range_ne_none {h : Hover} (hh : (instruction? l p catalog).or (register? l p catalog) = some h) :
    h.range ≠ none := by
  rcases Option.or_eq_some_iff.mp hh with hi | ⟨-, hr⟩
  · obtain ⟨keyword, span, e, -, -, rfl⟩ := instruction?_eq_some hi
    simp
  · obtain ⟨r, -, e, -, -, rfl⟩ := register?_eq_some hr
    simp

/-- Inside a literal among the operands, the constants come last. -/
theorem at?_of_inLiteral {settings : Settings.Hover} {o : Token} {body : Text}
    (hl : index.line? p.line = some l) (ho : l.operands? = some o) (hp : o.span.touches p = true)
    (hliteral : InLiteral l.raw p.character body) (hne : body ≠ []) :
    at? index p catalog settings =
      ((instruction? l p catalog).or (register? l p catalog)).or
        (some ⟨Markdown.constants (body.map Constant.codePoint), none⟩) := by
  have hundefined : definition? index p settings = none := by
    simp [definition?, find?_of_quoted hl hliteral.openingQuote_ne_none]
  have hconstant : constant? l p = some ⟨Markdown.constants (body.map Constant.codePoint), none⟩ := by
    obtain ⟨c, body, rfl⟩ := List.exists_cons_of_ne_nil hne
    simp [constant?, hliteral.values]
  simp [at?, hundefined, hl, operand?, ho, hp, hconstant]

end

/-- Inside a closed literal among the operands a hover shows the characters of the literal exactly if the
catalog has neither the mnemonic, if the cursor touches it, nor any of the registers that it touches. -/
theorem literal_shown_iff {index : Index} {p : Position} {l : Line} {operands : Token} {body : Text}
    (hline : index.line? p.line = some l) (hoperands : l.operands? = some operands)
    (htouches : operands.span.touches p = true) (hliteral : InLiteral l.raw p.character body)
    (hne : body ≠ []) (catalog : Catalog) (settings : Settings.Hover) :
    at? index p catalog settings = some ⟨Markdown.constants (body.map Constant.codePoint), none⟩ ↔
      (∀ m, l.mnemonic? = some m → m.span.touches p = true →
        catalog.instruction? (Mnemonic.base m.text) = none) ∧
      ∀ r ∈ l.registers, r.span.touches p = true → catalog.register? r.text = none := by
  rw [at?_of_inLiteral hline hoperands htouches hliteral hne, ← instruction?_eq_none_iff hoperands,
    ← register?_eq_none_iff, ← Option.or_eq_none_iff]
  cases hdocumented : (instruction? l p catalog).or (register? l p catalog) with
  | none => simp
  | some h =>
    have hrange := range_ne_none hdocumented
    simp only [Option.some_or, Option.some.injEq, reduceCtorEq, iff_false]
    rintro rfl
    exact hrange rfl

/-- `R9` is no register, so inside a literal its letters are shown. -/
theorem literal_shown_unregistered :
    at? (build [" MVI R1, 'R9'".toList] none .never) ⟨0, 11⟩ Catalog.bundled {} =
      some ⟨Markdown.constants [82, 57], none⟩ := by
  have hl : (build [" MVI R1, 'R9'".toList] none .never).line? 0 =
      some (classify " MVI R1, 'R9'".toList 0) := by decide +kernel
  have ho : (classify " MVI R1, 'R9'".toList 0).operands? = some ⟨"R1, 'R9'".toList, .onLine 0 5 13⟩ := by
    decide +kernel
  have hliteral : InLiteral (classify " MVI R1, 'R9'".toList 0).raw 11 "R9".toList :=
    ⟨⟨" MVI R1, ".toList, [], by decide +kernel, by decide +kernel⟩, by decide⟩
  refine (literal_shown_iff (p := ⟨0, 11⟩) hl ho (by decide) hliteral (by decide) _ _).mpr ⟨?_, ?_⟩
  · decide +kernel
  · decide +kernel

/-- A register is documented inside a literal too, and a mnemonic inside one that a label opens. -/
theorem literal_hidden_by_documentation :
    (InLiteral " MVI R1, 'R2'".toList 11 "R2".toList ∧
      at? (build [" MVI R1, 'R2'".toList] none .never) ⟨0, 11⟩ Catalog.bundled {} =
        some ⟨"Register **R2**\n\nGeneral purpose register.", some (.onLine 0 10 12)⟩) ∧
    InLiteral "X' ADD'A'".toList 6 " ADD".toList ∧
      (at? (build ["X' ADD'A'".toList] none .never) ⟨0, 6⟩ Catalog.bundled {}).map Hover.range =
        some (some (.onLine 0 3 6)) := by
  refine ⟨⟨⟨⟨" MVI R1, ".toList, [], rfl, by decide +kernel⟩, by decide⟩, by decide +kernel⟩,
    ⟨⟨"X".toList, "A'".toList, rfl, by decide +kernel⟩, by decide⟩, by decide +kernel⟩

end Hover

end AsmAssist
