import AsmAssist.Proofs.Hovers
import AsmAssist.Proofs.NameTable
import AsmAssist.Proofs.Tables

/-!
# What the bundled catalog documents

A catalog knows the names of its entries, in any case, and of entries with one name the last. The bundled
tables have no short row, so the bundled catalog is that of all their rows. Every keyword and every register
that a line can hold becomes, in capitals, the name of one of its entries. So a hover with the bundled
catalog shows something wherever it touches one of them, and it marks what it touches.
-/

namespace AsmAssist

open Text Index

/-! ## Entries by name -/

theorem RegisterEntry.mem_names_iff (e : RegisterEntry) {name : Text} :
    name ∈ e.names ↔ e.name = name ∨ name ∈ e.aliases := by
  rw [names, List.mem_append, List.mem_singleton, or_comm, eq_comm]

namespace Catalog

/-- If each step enters its item under the key or leaves the key alone, the last item to be entered counts. -/
theorem getElem?_foldl_step {α : Type} {step : Std.TreeMap Text α → α → Std.TreeMap Text α} {key : Text}
    {entered : α → Prop} [DecidablePred entered]
    (hstep : ∀ table e, (step table e)[key]? = if entered e then some e else table[key]?)
    (entries : List α) (table : Std.TreeMap Text α) :
    (entries.foldl step table)[key]? = (entries.reverse.find? fun e => entered e).or table[key]? := by
  induction entries generalizing table with
  | nil => simp
  | cons e entries ih =>
    rw [List.foldl_cons, ih, hstep, List.reverse_cons, List.find?_append, Option.or_assoc]
    by_cases he : entered e <;> simp [he]

theorem getElem?_addInstruction (key : Text) (table : Std.TreeMap Text InstructionEntry)
    (e : InstructionEntry) :
    (addInstruction table e)[key]? = if e.name = key then some e else table[key]? := by
  simp [addInstruction, Std.TreeMap.getElem?_insert]

section

variable (instructions : List InstructionEntry) (registers : List RegisterEntry) (name : Text)

theorem instruction?_ofEntries :
    (ofEntries instructions registers).instruction? name =
      instructions.reverse.find? fun e => e.name = upper name := by
  rw [instruction?, ofEntries, getElem?_foldl_step (getElem?_addInstruction (upper name)),
    Std.TreeMap.getElem?_emptyc, Option.or_none]

theorem register?_ofEntries :
    (ofEntries instructions registers).register? name =
      registers.reverse.find? fun e => e.name = upper name ∨ upper name ∈ e.aliases := by
  rw [register?, ofEntries, NameTable.item?_ofItems]
  simp only [RegisterEntry.mem_names_iff]

end

end Catalog

/-! ## Capitals -/

namespace Text

theorem upperChar_of_toUpper {c : Char} (h : c.toUpper.toNat < 0x80) : upperChar c = [c.toUpper] := by
  rw [upperChar, if_pos (ascii_of_toUpper h)]

/-- What folds to an ASCII character other than `K` has it as its capital. -/
theorem upperChar_of_foldLetter {c : Char} (hascii : (foldLetter c).toNat < 0x80) (hk : foldLetter c ≠ 'K') :
    upperChar c = [foldLetter c] := by
  by_cases hlong : c = 'ſ'
  · rw [hlong]
    decide +kernel
  · by_cases hkelvin : c = '\u212a'
    · simp [foldLetter, hkelvin] at hk
    · have hfold : foldLetter c = c.toUpper := by simp [foldLetter, hlong, hkelvin]
      rw [hfold] at hascii ⊢
      exact upperChar_of_toUpper hascii

theorem upper_eq_map {f : Char → Char} {s : Text} (h : ∀ c ∈ s, upperChar c = [f c]) :
    upper s = s.map f := by
  induction s with
  | nil => rfl
  | cons c s ih =>
    have hs : upper s = s.map f := ih fun d hd => h d (List.mem_cons_of_mem c hd)
    calc upper (c :: s)
      _ = upperChar c ++ upper s := List.flatMap_cons
      _ = (c :: s).map f := by rw [h c List.mem_cons_self, hs]; rfl

/-- What folds to such a text has it as its upper case. The Kelvin sign folds to `K`, but is a capital
itself. -/
def foldsAsUpper (s : Text) : Bool := s.all fun c => c.toNat < 0x80 && c != 'K'

theorem foldsAsUpper_iff {s : Text} : foldsAsUpper s = true ↔ ∀ c ∈ s, c.toNat < 0x80 ∧ c ≠ 'K' := by
  simp [foldsAsUpper]

theorem upper_of_toUpper {s : Text} (h : foldsAsUpper (s.map Char.toUpper) = true) :
    upper s = s.map Char.toUpper := by
  apply upper_eq_map
  intro c hc
  exact upperChar_of_toUpper (foldsAsUpper_iff.mp h _ (List.mem_map_of_mem hc)).1

theorem upper_of_foldLetter {s : Text} (h : foldsAsUpper (s.map foldLetter) = true) :
    upper s = s.map foldLetter := by
  apply upper_eq_map
  intro c hc
  obtain ⟨hascii, hk⟩ := foldsAsUpper_iff.mp h _ (List.mem_map_of_mem hc)
  exact upperChar_of_foldLetter hascii hk

end Text

/-! ## The bundled entries -/

namespace Catalog

theorem eq_ok_getD {ε α : Type} {x : Except ε α} (h : ∃ a, x = .ok a) (default : α) :
    x = .ok (x.toOption.getD default) := by
  obtain ⟨a, rfl⟩ := h
  rfl

/-- The bundled tables can be read. -/
theorem parse_bundled : parse bundledInstructionTable bundledRegisterTable = .ok bundled := by
  have hinstructions : ¬ Table.instructions.HasShortRow bundledInstructionTable := by
    rw [not_hasShortRow_iff]
    decide +kernel
  have hregisters : ¬ Table.registers.HasShortRow bundledRegisterTable := by
    rw [not_hasShortRow_iff]
    decide +kernel
  exact eq_ok_getD (parse_ok_iff.mpr ⟨hinstructions, hregisters⟩) _

def bundledInstructions : List InstructionEntry :=
  (rows bundledInstructionTable).filterMap fun row => (readInstruction row).toOption

def bundledRegisters : List RegisterEntry :=
  (rows bundledRegisterTable).filterMap fun row => (readRegister row).toOption

theorem bundled_eq : bundled = ofEntries bundledInstructions bundledRegisters := by
  obtain ⟨is, rs, his, hrs, hentries⟩ := parse_eq_ok_iff.mp parse_bundled
  rw [bundledInstructions, bundledRegisters, ← eq_filterMap_of_mapM his, ← eq_filterMap_of_mapM hrs,
    hentries]

theorem instruction?_bundled_isSome {name : Text} (h : ∃ e ∈ bundledInstructions, e.name = upper name) :
    (bundled.instruction? name).isSome = true := by
  obtain ⟨e, he, hname⟩ := h
  rw [bundled_eq, instruction?_ofEntries, List.find?_isSome]
  exact ⟨e, List.mem_reverse.mpr he, decide_eq_true hname⟩

theorem register?_bundled_isSome {name : Text}
    (h : ∃ e ∈ bundledRegisters, e.name = upper name ∨ upper name ∈ e.aliases) :
    (bundled.register? name).isSome = true := by
  obtain ⟨e, he, hname⟩ := h
  rw [bundled_eq, register?_ofEntries, List.find?_isSome]
  exact ⟨e, List.mem_reverse.mpr he, decide_eq_true hname⟩

theorem bundled_names : ∀ name ∈ Mnemonic.names, ∃ e ∈ bundledInstructions, e.name = upper name := by
  decide +kernel

theorem bundled_keywords : ∀ op ∈ Operator.all, ∃ e ∈ bundledInstructions, e.name = op.keyword := by
  decide +kernel

theorem bundled_registers : ∀ name ∈ Register.names,
    foldsAsUpper name = true ∧ ∃ e ∈ bundledRegisters, e.name = name ∨ name ∈ e.aliases := by
  decide +kernel

theorem mnemonic_bundled {text : Text} (h : Mnemonic.IsMnemonic text) :
    (bundled.instruction? (Mnemonic.base text)).isSome = true := by
  obtain ⟨name, hname, hspells⟩ := h
  rw [hspells.base_eq hname]
  exact instruction?_bundled_isSome (bundled_names name hname)

theorem operator_bundled {text : Text} {op : Operator} (h : Operator.ofText? text = some op) :
    (bundled.instruction? text).isSome = true := by
  have hcase : op.keyword.map Char.toUpper = text.map Char.toUpper := by
    simpa [eqAsciiCase] using List.find?_some h
  have hkeyword : op.keyword.map Char.toUpper = op.keyword ∧ foldsAsUpper op.keyword = true := by
    cases op <;> decide
  rw [hkeyword.1] at hcase
  have hupper : upper text = op.keyword := by
    rw [hcase]
    apply upper_of_toUpper
    rw [← hcase]
    exact hkeyword.2
  apply instruction?_bundled_isSome
  rw [hupper]
  exact bundled_keywords op (List.mem_of_find?_eq_some h)

theorem register_bundled {operands : Text} {anchor : Position} {r : Token}
    (h : r ∈ Register.all operands anchor) : (bundled.register? r.text).isSome = true := by
  obtain ⟨before, word, -, hname, rfl⟩ := Register.mem_all_iff.mp h
  obtain ⟨hplain, hentry⟩ := bundled_registers _ (Register.isName_iff_mem.mp hname)
  apply register?_bundled_isSome
  rw [upper_of_foldLetter hplain]
  exact hentry

end Catalog

/-! ## Keywords and registers of a line -/

namespace Line

/-- The mnemonic or the operator. -/
def keywords (l : Line) : List Token :=
  l.mnemonic?.toList ++ (l.assignment?.map Assignment.operator).toList

section

variable {raw : Text} {number : Nat}

theorem keywords_exact : ∀ t ∈ (classify raw number).keywords, t.Exact raw number := by
  obtain ⟨a, h, -⟩ := Anatomy.classify_dissects raw number
  obtain ⟨hraw, hnumber⟩ := Reading.classify_number raw number
  have hmnemonic := mnemonic_exact h
  rw [hraw, hnumber] at hmnemonic
  intro t ht
  simp only [keywords, List.mem_append, Option.mem_toList] at ht
  rcases ht with ht | ht
  · exact hmnemonic t ht
  · obtain ⟨b, hb, rfl⟩ := Option.map_eq_some_iff.mp ht
    exact Assignment.read?_exact (read?_of_classify hb) (Reading.code_isPrefix raw) _ (by simp)

theorem documented_on_line : ∀ t ∈ (classify raw number).keywords ++ (classify raw number).registers,
    t.span.start.line = number ∧ t.span.stop.line = number := by
  obtain ⟨a, h, -⟩ := Anatomy.classify_dissects raw number
  have hregisters := registers_exact h
  rw [(Reading.classify_number raw number).2] at hregisters
  intro t ht
  rcases List.mem_append.mp ht with ht | ht
  · exact (keywords_exact t ht).on_line
  · exact (hregisters t ht).on_line

/-- A cursor on a register is on the operands. -/
theorem operands_touched {p : Position} {r : Token} (hr : r ∈ (classify raw number).registers)
    (ht : r.span.touches p = true) :
    ∃ operands, (classify raw number).operands? = some operands ∧ operands.span.touches p = true := by
  obtain ⟨a, h, -⟩ := Anatomy.classify_dissects raw number
  have hholds := h.operands_holds
  rw [registers] at hr
  cases ho : (classify raw number).operands? with
  | none =>
    rw [ho] at hr
    cases hr
  | some operands =>
    rw [ho] at hr hholds
    refine ⟨operands, rfl, ?_⟩
    rw [show operands = _ from hholds] at hr ⊢
    obtain ⟨before, word, hrun, -, rfl⟩ := Register.mem_all_iff.mp hr
    have hcolumns := columns_le_of_isPrefix hrun.isPrefix
    have htouched := Span.touches_onLine.mp ht
    refine Span.touches_onLine.mpr ?_
    simp only [Token.after, Span.onLine] at hcolumns htouched ⊢
    omega

end

end Line

namespace Hover

section

variable {l : Line} {p : Position}

/-- What is looked up under the cursor, and marked, is a keyword of the line. -/
theorem mem_keywords_of_keyword? {keyword : Text} {span : Span} (h : keyword? l p = some (keyword, span)) :
    ∃ t ∈ l.keywords, t.span = span ∧ t.span.touches p = true := by
  unfold keyword? at h
  split at h
  next m hm =>
    cases h
    obtain ⟨hm, htouches⟩ := Option.filter_eq_some_iff.mp hm
    exact ⟨m, by simp [Line.keywords, hm], rfl, htouches⟩
  · obtain ⟨o, ho, heq⟩ := Option.map_eq_some_iff.mp h
    cases heq
    obtain ⟨ho, htouches⟩ := Option.filter_eq_some_iff.mp ho
    exact ⟨o, by simp [Line.keywords, ho], rfl, htouches⟩

theorem keyword?_of_mnemonic {m : Token} (hm : l.mnemonic? = some m) (ht : m.span.touches p = true) :
    keyword? l p = some (Mnemonic.base m.text, m.span) := by
  simp [keyword?, hm, Option.filter, ht]

theorem keyword?_of_operator {a : Assignment} (ha : l.assignment? = some a)
    (ht : a.operator.span.touches p = true) : keyword? l p = some (a.operator.text, a.operator.span) := by
  have hm : l.mnemonic? = none := by
    cases hk : l.kind <;> simp_all [Line.mnemonic?, Line.instruction?, Line.assignment?]
  simp [keyword?, hm, ha, ht]

theorem instruction?_isSome {catalog : Catalog} {keyword : Text} {span : Span}
    (hk : keyword? l p = some (keyword, span)) (he : (catalog.instruction? keyword).isSome = true) :
    (instruction? l p catalog).isSome = true := by
  simpa [instruction?, hk] using he

end

section

variable {raw : Text} {number : Nat} {p : Position}

theorem keyword_documented {t : Token} (ht : t ∈ (Line.classify raw number).keywords)
    (htouches : t.span.touches p = true) :
    (instruction? (Line.classify raw number) p Catalog.bundled).isSome = true := by
  simp only [Line.keywords, List.mem_append, Option.mem_toList] at ht
  rcases ht with hm | ho
  · obtain ⟨w, s, parts, -, -, -, hparts, hplace⟩ := Reading.mnemonic?_classify hm
    have hmnemonic : Mnemonic.IsMnemonic t.text := by
      rw [hplace]
      exact (Reading.bodyParts?_cut hparts).mnemonic
    exact instruction?_isSome (keyword?_of_mnemonic hm htouches) (Catalog.mnemonic_bundled hmnemonic)
  · obtain ⟨a, ha, rfl⟩ := Option.map_eq_some_iff.mp ho
    obtain ⟨parts, kind, lead, gap, space, -, hkind, -, hplaced⟩ :=
      Assignment.read?_eq_some (Line.read?_of_classify ha)
    have hoperator : Operator.ofText? a.operator.text = some kind := by
      rw [hplaced]
      exact hkind
    exact instruction?_isSome (keyword?_of_operator ha htouches) (Catalog.operator_bundled hoperator)

theorem register_documented {r : Token} (hr : r ∈ (Line.classify raw number).registers)
    (htouches : r.span.touches p = true) :
    (operand? (Line.classify raw number) p Catalog.bundled).isSome = true := by
  obtain ⟨operands, ho, htouched⟩ := Line.operands_touched hr htouches
  have hknown : (Catalog.bundled.register? r.text).isSome = true := by
    rw [Line.registers, ho] at hr
    exact Catalog.register_bundled hr
  have hregister : register? (Line.classify raw number) p Catalog.bundled ≠ none := by
    intro hnone
    have hunknown := register?_eq_none_iff.mp hnone r hr htouches
    rw [hunknown] at hknown
    cases hknown
  obtain ⟨h, hh⟩ := Option.ne_none_iff_exists'.mp hregister
  simp [operand?, ho, htouched, hh]

end

theorem at?_isSome {index : Index} {p : Position} {l : Line} {catalog : Catalog} (settings : Settings.Hover)
    (hl : index.line? p.line = some l)
    (h : ((instruction? l p catalog).or (operand? l p catalog)).isSome = true) :
    (at? index p catalog settings).isSome = true := by
  unfold at?
  split
  · rfl
  · simpa [hl] using h

/-- With the bundled catalog a hover shows something on every mnemonic, operator and register. With any
catalog, the range of a hover is that of such a token on the line of the cursor, which touches it. -/
theorem bundled_under_cursor (source : List Text) (range : Option (Nat × Nat)) (poll : Poll) (p : Position)
    (settings : Settings.Hover) :
    (∀ l, (build source range poll).line? p.line = some l → ∀ t ∈ l.keywords ++ l.registers,
      t.span.touches p = true →
        (at? (build source range poll) p Catalog.bundled settings).isSome = true) ∧
    ∀ catalog h span, at? (build source range poll) p catalog settings = some h → h.range = some span →
      (span.start.line = p.line ∧ span.stop.line = p.line ∧ span.touches p = true) ∧
        ∃ l, (build source range poll).line? p.line = some l ∧
          ∃ t ∈ l.keywords ++ l.registers, t.span = span := by
  constructor
  · intro l hl t ht htouches
    apply at?_isSome settings hl
    obtain ⟨raw, -, rfl⟩ := line?_build hl
    rcases List.mem_append.mp ht with ht | ht
    · simp [keyword_documented ht htouches]
    · simp [register_documented ht htouches]
  · intro catalog h span hh hspan
    obtain ⟨l, t, hl, ht, rfl, htouches⟩ : ∃ l t, (build source range poll).line? p.line = some l ∧
        t ∈ l.keywords ++ l.registers ∧ t.span = span ∧ t.span.touches p = true := by
      cases at?_shown hh with
      | definition => cases hspan
      | @instruction l keyword _ e hl hk =>
        cases hspan
        obtain ⟨t, ht, hts, htouches⟩ := mem_keywords_of_keyword? hk
        exact ⟨l, t, hl, List.mem_append_left _ ht, hts, htouches⟩
      | @register l r e hl hr htouches =>
        cases hspan
        exact ⟨l, r, hl, List.mem_append_right _ hr, rfl, htouches⟩
      | constants => cases hspan
    obtain ⟨raw, -, hclassify⟩ := line?_build hl
    have honline : t.span.start.line = p.line ∧ t.span.stop.line = p.line := by
      rw [hclassify] at ht
      exact Line.documented_on_line t ht
    exact ⟨⟨honline.1, honline.2, htouches⟩, l, hl, t, ht, rfl⟩

/-- A register with a long s is known by its capitals, here on the second line of a source. -/
theorem bundled_under_cursor_long_s :
    let index := build ["NOP".toList, " MOV ſp, r12".toList] (some (1, 1)) .never
    let register : Token := ⟨"ſp".toList, .onLine 1 5 7⟩
    (∃ l, index.line? 1 = some l ∧ register ∈ l.keywords ++ l.registers) ∧
      (at? index ⟨1, 6⟩ Catalog.bundled {}).isSome = true ∧
      ∃ h, at? index ⟨1, 6⟩ Catalog.bundled {} = some h ∧ h.range = some register.span ∧
        register.span.touches ⟨1, 6⟩ = true := by
  intro index register
  have hl : index.line? 1 = some (Line.classify " MOV ſp, r12".toList 1) := by decide +kernel
  have hr : register ∈ (Line.classify " MOV ſp, r12".toList 1).keywords ++
      (Line.classify " MOV ſp, r12".toList 1).registers := by decide +kernel
  obtain ⟨hshown, hranged⟩ := bundled_under_cursor ["NOP".toList, " MOV ſp, r12".toList] (some (1, 1))
    .never ⟨1, 6⟩ {}
  have hsome := hshown _ hl register hr (by decide)
  obtain ⟨h, hh⟩ := Option.isSome_iff_exists.mp hsome
  have hrange : h.range = some register.span := by
    have hmap : (at? index ⟨1, 6⟩ Catalog.bundled {}).map Hover.range = some (some register.span) := by
      decide +kernel
    rw [hh] at hmap
    exact Option.some.inj hmap
  exact ⟨⟨_, hl, hr⟩, hsome, h, hh, hrange, (hranged _ h _ hh hrange).1.2.2⟩

end Hover

end AsmAssist
