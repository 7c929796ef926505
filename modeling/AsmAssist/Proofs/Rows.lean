import AsmAssist.Proofs.Documentation
import AsmAssist.Proofs.Tables
import Mathlib.Data.List.Forall2

/-!
# Rows of a table

A table is read line by line, and the lines that are not blank are its rows. The first row with too few
fields is the error, the instruction table coming before that of the registers. Where all rows are long
enough, a name leads to the last row that gives it, be it as a name or as an alias.
-/

namespace AsmAssist

namespace Text

/-! ## Lines and fields -/

/-- The text is made of the lines. Each but the last ends in a break, of which a carriage return in front of
the line feed is a part, and no line is left behind the last break. -/
inductive Lined : Text → List Text → Prop
  | none : Lined [] []
  | last {line : Text} (hline : '\n' ∉ line) (hne : line ≠ []) : Lined line [line]
  | next {line brk rest : Text} {lines : List Text} (hline : '\n' ∉ line)
      (hbrk : brk = ['\n'] ∧ line.getLast? ≠ some '\r' ∨ brk = ['\r', '\n']) (hrest : Lined rest lines) :
      Lined (line ++ (brk ++ rest)) (line :: lines)

theorem lined_tableLines (text : Text) : Lined text (tableLines text) := by
  -- a carriage return that has been read is not the first half of a break
  have hfrom (current text : Text) (hcurrent : '\n' ∉ current)
      (hreturn : current.head? = some '\r' → text.head? ≠ some '\n') :
      Lined (current.reverse ++ text) (tableLinesFrom current text) := by
    fun_induction tableLinesFrom current text with
    | case1 => exact .none
    | case2 current hne =>
      rw [List.append_nil]
      exact .last (by simpa using hcurrent) (by simpa using hne)
    | case3 current s ih =>
      refine .next (by simpa using hcurrent) (.inl ⟨rfl, ?_⟩) (ih (by simp) (by simp))
      rw [List.getLast?_reverse]
      exact fun hlast => hreturn hlast rfl
    | case4 current s ih => exact .next (by simpa using hcurrent) (.inr rfl) (ih (by simp) (by simp))
    | case5 current c s hn hr ih =>
      have hpassed : '\n' ∉ c :: current := by
        intro hmem
        rcases List.mem_cons.mp hmem with hc | hmem
        · exact hn hc.symm
        · exact hcurrent hmem
      have hlined := ih hpassed (by
        intro hc hs
        obtain ⟨t, rfl⟩ := List.head?_eq_some_iff.mp hs
        exact hr t (Option.some.inj hc) rfl)
      simpa using hlined
  exact hfrom [] text (by simp) (by simp)

theorem tableLinesFrom_append {line : Text} (hline : '\n' ∉ line) (current rest : Text)
    (hreturn : line.getLast? = some '\r' → rest.head? ≠ some '\n') :
    tableLinesFrom current (line ++ rest) = tableLinesFrom (line.reverse ++ current) rest := by
  induction line generalizing current with
  | nil => rfl
  | cons c line ih =>
    have hc : c ≠ '\n' := fun he => hline (by simp [he])
    have htail : '\n' ∉ line := fun hmem => hline (List.mem_cons_of_mem c hmem)
    -- the line feed of a break cannot come next
    have hnext : c = '\r' → (line ++ rest).head? ≠ some '\n' := by
      rintro rfl
      cases line with
      | nil => exact hreturn rfl
      | cons d line => simpa using fun he => htail (by simp [he])
    have hstep : tableLinesFrom current (c :: (line ++ rest)) =
        tableLinesFrom (c :: current) (line ++ rest) := by
      rw [tableLinesFrom]
      · exact hc
      · intro t hr ht
        exact hnext hr (by rw [ht]; rfl)
    rw [List.cons_append, hstep, ih htail]
    · simp
    · intro hlast
      apply hreturn
      simp [List.getLast?_cons, hlast]

theorem Lined.eq_tableLines {text : Text} {lines : List Text} (h : Lined text lines) :
    lines = tableLines text := by
  induction h with
  | none => rfl
  | @last line hline hne =>
    have hread := tableLinesFrom_append hline [] [] (by simp)
    rw [List.append_nil] at hread
    simp [tableLines, hread, tableLinesFrom, hne]
  | @next line brk rest lines hline hbrk hrest ih =>
    rcases hbrk with ⟨rfl, hlast⟩ | rfl
    · have hread := tableLinesFrom_append hline [] ('\n' :: rest) (fun h => absurd h hlast)
      simp [tableLines, hread, tableLinesFrom, ih]
    · have hread := tableLinesFrom_append hline [] ('\r' :: '\n' :: rest) (by simp)
      simp [tableLines, hread, tableLinesFrom, ih]

theorem fields_eq_splitOn (separator : Char) (s : Text) : fields separator s = s.splitOn separator := by
  have hfrom (current s : Text) :
      fieldsFrom separator current s = s.splitOnPPrepend (· == separator) current := by
    induction s generalizing current with
    | nil => rfl
    | cons c s ih => simp only [fieldsFrom, ih, List.splitOnPPrepend_cons_eq_if, beq_iff_eq]; rfl
  exact hfrom [] s

end Text

namespace Catalog

open Text

/-! ## Rows by their lines -/

/-- A line that is not blank is a row of the fields between its semicolons. Lines are counted from 1, and
blank ones count. -/
def RowAt (text : Text) (number : Nat) (fields : List Text) : Prop :=
  ∃ lines line, Lined text lines ∧ 1 ≤ number ∧ lines[number - 1]? = some line ∧
    isAllBlank line = false ∧ fields = line.splitOn ';'

theorem mem_rows_iff {text : Text} {row : Row} : row ∈ rows text ↔ RowAt text row.line row.fields := by
  simp only [rows, List.mem_filterMap, Prod.exists, List.mk_mem_zipIdx_iff_le_and_getElem?_sub,
    fields_eq_splitOn]
  constructor
  · rintro ⟨line, number, ⟨hnumber, hline⟩, hrow⟩
    split at hrow
    · cases hrow
    next hvisible =>
      cases hrow
      exact ⟨_, line, lined_tableLines text, hnumber, hline, by simpa using hvisible, rfl⟩
  · rintro ⟨lines, line, hlined, hnumber, hline, hvisible, hfields⟩
    rw [hlined.eq_tableLines] at hline
    exact ⟨line, row.line, ⟨hnumber, hline⟩, by simp [hvisible, ← hfields]⟩

theorem rows_increasing (text : Text) : (rows text).Pairwise fun row row' => row.line < row'.line := by
  have hnumbers : ((tableLines text).zipIdx 1).Pairwise fun p q => p.2 < q.2 := by
    rw [← List.pairwise_map, List.zipIdx_map_snd]
    exact List.pairwise_lt_range'
  apply List.pairwise_filterMap.mpr
  apply hnumbers.imp
  rintro ⟨s, number⟩ ⟨s', number'⟩ hlt row hrow row' hrow'
  simp only [Option.ite_none_left_eq_some, Option.some.injEq] at hrow hrow'
  obtain ⟨-, rfl⟩ := hrow
  obtain ⟨-, rfl⟩ := hrow'
  exact hlt

section

variable {text : Text} {before after : List Row} {row row' : Row}

/-- The rows in front of a row are those on earlier lines, and the rows behind it those on later ones. -/
theorem mem_cut_iff (h : rows text = before ++ row :: after) :
    (row' ∈ before ↔ RowAt text row'.line row'.fields ∧ row'.line < row.line) ∧
      (row' ∈ after ↔ RowAt text row'.line row'.fields ∧ row.line < row'.line) := by
  have hincreasing := rows_increasing text
  rw [h] at hincreasing
  obtain ⟨-, htail, hbefore⟩ := List.pairwise_append.mp hincreasing
  have hearlier (hmem : row' ∈ before) : row'.line < row.line := hbefore row' hmem row List.mem_cons_self
  have hlater : row' ∈ after → row.line < row'.line := (List.pairwise_cons.mp htail).1 row'
  simp only [← mem_rows_iff, h, List.mem_append, List.mem_cons]
  constructor
  · constructor
    · intro hmem
      exact ⟨.inl hmem, hearlier hmem⟩
    · rintro ⟨hmem | rfl | hmem, hlt⟩
      · exact hmem
      · omega
      · have := hlater hmem
        omega
  · constructor
    · intro hmem
      exact ⟨.inr (.inr hmem), hlater hmem⟩
    · rintro ⟨hmem | rfl | hmem, hlt⟩
      · have := hearlier hmem
        omega
      · omega
      · exact hmem

end

/-! ## The first short row -/

/-- Each row has at least so many fields. -/
def HasFields (least : Nat) (text : Text) : Prop :=
  ∀ number fields, RowAt text number fields → least ≤ fields.length

theorem not_hasShortRow_iff_hasFields {table : Table} {text : Text} :
    ¬ table.HasShortRow text ↔ HasFields table.width text := by
  rw [not_hasShortRow_iff]
  constructor
  · intro h number fields hrow
    exact h ⟨number, fields⟩ (mem_rows_iff.mpr hrow)
  · intro h row hrow
    exact h row.line row.fields (mem_rows_iff.mp hrow)

/-- The error is that of the first row with fewer fields. -/
structure FirstShort (table : Table) (least : Nat) (text : Text) (e : ShortRow) : Prop where
  of_table : e.table = table
  short : ∃ fields, RowAt text e.line fields ∧ fields.length < least ∧ e.found = fields.length
  first : ∀ number < e.line, ∀ fields, RowAt text number fields → least ≤ fields.length

theorem bind_eq_error_iff {ε α β : Type} {x : Except ε α} {f : α → Except ε β} {e : ε} :
    x >>= f = .error e ↔ x = .error e ∨ ∃ a, x = .ok a ∧ f a = .error e := by
  cases x with
  | error e' => simp [bind, Except.bind]
  | ok a => simp [bind, Except.bind]

theorem mapM_eq_ok_iff {ε α β : Type} {f : α → Except ε β} {xs : List α} {ys : List β} :
    xs.mapM f = .ok ys ↔ List.Forall₂ (fun x y => f x = .ok y) xs ys := by
  induction xs generalizing ys with
  | nil => simp [pure, Except.pure, eq_comm]
  | cons x xs ih =>
    simp only [List.mapM_cons, bind_eq_ok_iff, ih, List.forall₂_cons_left_iff]
    constructor
    · rintro ⟨y, hy, ys', hys, heq⟩
      cases heq
      exact ⟨y, ys', hy, hys, rfl⟩
    · rintro ⟨y, ys', hy, hys, rfl⟩
      exact ⟨y, hy, ys', hys, rfl⟩

/-- The first failure is the one that is reported. -/
theorem mapM_eq_error_iff {ε α β : Type} {f : α → Except ε β} {xs : List α} {e : ε} :
    xs.mapM f = .error e ↔
      ∃ before x after, xs = before ++ x :: after ∧ (∀ y ∈ before, ∃ b, f y = .ok b) ∧ f x = .error e := by
  induction xs with
  | nil => simp [pure, Except.pure]
  | cons x xs ih =>
    simp only [List.mapM_cons, bind_eq_error_iff, ih]
    constructor
    · rintro (herror | ⟨b, hb, ⟨before, y, after, rfl, hbefore, hy⟩ | ⟨bs, hbs, heq⟩⟩)
      · exact ⟨[], x, xs, rfl, by simp, herror⟩
      · exact ⟨x :: before, y, after, rfl, List.forall_mem_cons.mpr ⟨⟨b, hb⟩, hbefore⟩, hy⟩
      · cases heq
    · rintro ⟨before, y, after, heq, hbefore, hy⟩
      cases before with
      | nil =>
        cases heq
        exact .inl hy
      | cons x' before =>
        cases heq
        obtain ⟨⟨b, hb⟩, hbefore⟩ := List.forall_mem_cons.mp hbefore
        exact .inr ⟨b, hb, .inl ⟨before, y, after, rfl, hbefore, hy⟩⟩

/-- Reads the rows of a table that are long enough, and reports the others. -/
structure Table.Reader {β : Type} (table : Table) (read : Row → Except ShortRow β) : Prop where
  ok_iff : ∀ {row}, (∃ b, read row = .ok b) ↔ table.width ≤ row.fields.length
  error_eq : ∀ {row e}, read row = .error e → e = ⟨table, row.line, row.fields.length⟩

theorem instructions_reader : Table.instructions.Reader readInstruction where
  ok_iff := readInstruction_ok_iff
  error_eq := by
    intro row e h
    unfold readInstruction at h
    split at h <;> cases h
    rfl

theorem registers_reader : Table.registers.Reader readRegister where
  ok_iff := readRegister_ok_iff
  error_eq := by
    intro row e h
    unfold readRegister at h
    split at h <;> cases h
    rfl

section

variable {β : Type} {table : Table} {read : Row → Except ShortRow β} {text : Text}

theorem Table.Reader.error_iff (hread : table.Reader read) {row : Row} {e : ShortRow} :
    read row = .error e ↔ row.fields.length < table.width ∧ e = ⟨table, row.line, row.fields.length⟩ := by
  cases hrow : read row with
  | ok b =>
    have hlong := hread.ok_iff.mp ⟨b, hrow⟩
    constructor
    · intro h
      cases h
    · intro h
      omega
  | error e' =>
    have hshort : row.fields.length < table.width := by
      apply Nat.lt_of_not_le
      intro hlong
      obtain ⟨b, hb⟩ := hread.ok_iff.mpr hlong
      rw [hrow] at hb
      cases hb
    obtain rfl := hread.error_eq hrow
    simp [hshort, eq_comm]

theorem Table.Reader.mapM_ok_iff (hread : table.Reader read) :
    (∃ entries, (rows text).mapM read = .ok entries) ↔ HasFields table.width text := by
  rw [Catalog.mapM_ok_iff, ← not_hasShortRow_iff_hasFields, not_hasShortRow_iff]
  exact forall₂_congr fun row _ => hread.ok_iff

theorem Table.Reader.mapM_error_iff (hread : table.Reader read) {e : ShortRow} :
    (rows text).mapM read = .error e ↔ FirstShort table table.width text e := by
  simp only [mapM_eq_error_iff, hread.error_iff, hread.ok_iff]
  constructor
  · rintro ⟨before, row, after, hrows, hbefore, hshort, rfl⟩
    refine ⟨rfl, ⟨row.fields, mem_rows_iff.mp (by simp [hrows]), hshort, rfl⟩, ?_⟩
    intro number hlt fields hrow
    exact hbefore ⟨number, fields⟩ ((mem_cut_iff hrows).1.mpr ⟨hrow, hlt⟩)
  · rintro ⟨htable, ⟨fields, hrow, hshort, hfound⟩, hfirst⟩
    have hmem : ⟨e.line, fields⟩ ∈ rows text := mem_rows_iff.mpr hrow
    obtain ⟨before, after, hrows⟩ := List.append_of_mem hmem
    refine ⟨before, ⟨e.line, fields⟩, after, hrows, ?_, hshort, ?_⟩
    · intro row hbefore
      obtain ⟨hrow', hlt⟩ := (mem_cut_iff hrows).1.mp hbefore
      exact hfirst row.line hlt row.fields hrow'
    · cases e
      simp_all

end

theorem parse_ok_iff_hasFields {instructions registers : Text} :
    (∃ c, parse instructions registers = .ok c) ↔
      HasFields Table.instructions.width instructions ∧ HasFields Table.registers.width registers :=
  parse_ok_iff.trans (and_congr not_hasShortRow_iff_hasFields not_hasShortRow_iff_hasFields)

theorem parse_error_iff {instructions registers : Text} {e : ShortRow} :
    parse instructions registers = .error e ↔
      FirstShort .instructions Table.instructions.width instructions e ∨
        HasFields Table.instructions.width instructions ∧
          FirstShort .registers Table.registers.width registers e := by
  simp only [parse, bind_eq_error_iff, instructions_reader.mapM_error_iff, registers_reader.mapM_error_iff,
    ← instructions_reader.mapM_ok_iff]
  constructor
  · rintro (h | ⟨is, his, h | ⟨rs, hrs, heq⟩⟩)
    · exact .inl h
    · exact .inr ⟨⟨is, his⟩, h⟩
    · cases heq
  · rintro (h | ⟨⟨is, his⟩, h⟩)
    · exact .inl h
    · exact .inr ⟨is, his, .inl h⟩

/-! ## The last row of a name -/

/-- The last row that gives a name. -/
def LastRow (text : Text) (named : List Text → Prop) (number : Nat) (fields : List Text) : Prop :=
  RowAt text number fields ∧ named fields ∧
    ∀ number' fields', number < number' → RowAt text number' fields' → ¬ named fields'

theorem find?_reverse_rows_iff {text : Text} {named : List Text → Prop} [DecidablePred named] {row : Row} :
    (rows text).reverse.find? (fun row => named row.fields) = some row ↔
      LastRow text named row.line row.fields := by
  simp only [List.find?_eq_some_iff_append, decide_eq_true_eq, Bool.not_eq_true', decide_eq_false_iff_not]
  constructor
  · rintro ⟨hnamed, later, earlier, hreverse, hlater⟩
    have hrows : rows text = earlier.reverse ++ row :: later.reverse := by
      simpa using congrArg List.reverse hreverse
    refine ⟨mem_rows_iff.mp (by simp [hrows]), hnamed, ?_⟩
    intro number' fields' hlt hrow'
    have hmem : ⟨number', fields'⟩ ∈ later.reverse := (mem_cut_iff hrows).2.mpr ⟨hrow', hlt⟩
    exact hlater _ (List.mem_reverse.mp hmem)
  · rintro ⟨hrow, hnamed, hlast⟩
    obtain ⟨earlier, later, hrows⟩ := List.append_of_mem (mem_rows_iff.mpr hrow)
    refine ⟨hnamed, later.reverse, earlier.reverse, by simp [hrows], ?_⟩
    intro row' hlater
    obtain ⟨hrow', hlt⟩ := (mem_cut_iff hrows).2.mp (List.mem_reverse.mp hlater)
    exact hlast _ _ hlt hrow'

theorem find?_reverse_rows_eq_none_iff {text : Text} {named : List Text → Prop} [DecidablePred named] :
    (rows text).reverse.find? (fun row => named row.fields) = none ↔
      ∀ number fields, RowAt text number fields → ¬ named fields := by
  simp only [List.find?_eq_none, List.mem_reverse, mem_rows_iff, decide_eq_true_eq]
  constructor
  · intro h number fields hrow
    exact h ⟨number, fields⟩ hrow
  · intro h row hrow
    exact h row.line row.fields hrow

/-- Searched from the end, related lists have related finds. -/
theorem rel_find?_reverse {α β : Type} {r : α → β → Prop} {p : α → Bool} {q : β → Bool} {xs : List α}
    {ys : List β} (h : List.Forall₂ r xs ys) (hpq : ∀ x y, r x y → p x = q y) :
    Option.Rel r (xs.reverse.find? p) (ys.reverse.find? q) := by
  induction h with
  | nil => exact .none
  | @cons x y xs ys hxy _ ih =>
    simp only [List.reverse_cons, List.find?_append]
    generalize xs.reverse.find? p = found at ih ⊢
    generalize ys.reverse.find? q = found' at ih ⊢
    cases ih with
    | some hfound => exact .some hfound
    | none =>
      have hq := hpq x y hxy
      by_cases hp : p x = true
      · simp [hp, ← hq, hxy]
      · simp [hp, ← hq]

section

variable {β : Type} {read : Row → Except ShortRow β} {text : Text} {entries : List β}
  {named : List Text → Prop} {p : β → Prop} [DecidablePred p]

/-- Of the entries of a table, the last with a property comes from the last row that has it. -/
theorem find?_reverse_entries_iff (hentries : (rows text).mapM read = .ok entries)
    (hnamed : ∀ row e, read row = .ok e → (named row.fields ↔ p e)) :
    (∀ e, entries.reverse.find? (fun e => p e) = some e ↔
      ∃ number fields, LastRow text named number fields ∧ read ⟨number, fields⟩ = .ok e) ∧
    (entries.reverse.find? (fun e => p e) = none ↔
      ∀ number fields, RowAt text number fields → ¬ named fields) := by
  classical
  have hrel := rel_find?_reverse (p := fun row => decide (named row.fields)) (q := fun e => decide (p e))
    (mapM_eq_ok_iff.mp hentries) fun row e h => by simp only [hnamed row e h]
  have hlast (number : Nat) (fields : List Text) : LastRow text named number fields ↔
      (rows text).reverse.find? (fun row => named row.fields) = some ⟨number, fields⟩ :=
    (@find?_reverse_rows_iff text named _ ⟨number, fields⟩).symm
  simp only [hlast, ← find?_reverse_rows_eq_none_iff]
  generalize (rows text).reverse.find? (fun row => decide (named row.fields)) = found at hrel ⊢
  generalize entries.reverse.find? (fun e => decide (p e)) = found' at hrel ⊢
  cases hrel with
  | none => simp
  | @some row e hread =>
    simp only [Option.some.injEq, reduceCtorEq, and_true]
    intro e'
    constructor
    · rintro rfl
      exact ⟨row.line, row.fields, rfl, hread⟩
    · rintro ⟨number, fields, rfl, hread'⟩
      rw [hread] at hread'
      exact Except.ok.inj hread'

end

/-! ## What a row documents -/

/-- The row of an instruction, and its entry. -/
inductive InstructionRow : List Text → InstructionEntry → Prop
  | intro (name format description flags pseudo : Text) (surplus : List Text) :
      InstructionRow (name :: format :: description :: flags :: pseudo :: surplus) {
        name := upper name
        format, description
        flags := "ZCNOE".toList.filter fun f => (upper flags).contains f
        pseudo := eqAsciiCase (trim pseudo) "true".toList }

/-- The row of a register, and its entry. -/
inductive RegisterRow : List Text → RegisterEntry → Prop
  | intro (name description aliases : Text) (surplus : List Text) :
      RegisterRow (name :: description :: aliases :: surplus) {
        name := upper name
        description
        aliases := (((aliases.splitOn ',').map trim).filter (· ≠ [])).map upper }

def NamesInstruction (query : Text) (fields : List Text) : Prop :=
  ∃ name rest, fields = name :: rest ∧ upper name = upper query

/-- The query is the name or an alias. -/
def NamesRegister (query : Text) (fields : List Text) : Prop :=
  ∃ name description aliases rest, fields = name :: description :: aliases :: rest ∧
    (upper name = upper query ∨
      ∃ alternative ∈ aliases.splitOn ',', trim alternative ≠ [] ∧ upper (trim alternative) = upper query)

theorem readInstruction_eq_ok_iff {row : Row} {e : InstructionEntry} :
    readInstruction row = .ok e ↔ InstructionRow row.fields e := by
  constructor
  · intro h
    unfold readInstruction at h
    split at h
    next hfields =>
      cases h
      rw [hfields]
      exact .intro ..
    · cases h
  · obtain ⟨line, fields⟩ := row
    rintro ⟨⟩
    rfl

theorem readRegister_eq_ok_iff {row : Row} {e : RegisterEntry} :
    readRegister row = .ok e ↔ RegisterRow row.fields e := by
  constructor
  · intro h
    unfold readRegister at h
    split at h
    next hfields =>
      cases h
      rw [hfields, fields_eq_splitOn]
      exact .intro ..
    · cases h
  · obtain ⟨line, fields⟩ := row
    rintro ⟨⟩
    simp only [readRegister, fields_eq_splitOn]

theorem InstructionRow.named_iff {fields : List Text} {e : InstructionEntry} (h : InstructionRow fields e)
    (query : Text) : NamesInstruction query fields ↔ e.name = upper query := by
  cases h
  simp [NamesInstruction]

theorem RegisterRow.named_iff {fields : List Text} {e : RegisterEntry} (h : RegisterRow fields e)
    (query : Text) : NamesRegister query fields ↔ e.name = upper query ∨ upper query ∈ e.aliases := by
  cases h
  simp [NamesRegister, and_assoc]

/-! ## The catalog of two tables -/

/-- A query finds the last row that it names, or nothing if it names none. -/
structure Documents (instructions registers : Text) (c : Catalog) : Prop where
  instruction? : ∀ query e, c.instruction? query = some e ↔
    ∃ number fields, LastRow instructions (NamesInstruction query) number fields ∧ InstructionRow fields e
  no_instruction : ∀ query, c.instruction? query = none ↔
    ∀ number fields, RowAt instructions number fields → ¬ NamesInstruction query fields
  register? : ∀ query e, c.register? query = some e ↔
    ∃ number fields, LastRow registers (NamesRegister query) number fields ∧ RegisterRow fields e
  no_register : ∀ query, c.register? query = none ↔
    ∀ number fields, RowAt registers number fields → ¬ NamesRegister query fields
  flags : ∀ (key : Text) (e : InstructionEntry), c.instructions[key]? = some e →
    e.flags.Sublist "ZCNOE".toList
  /-- The names lead to registers that are there. -/
  registerNames : ∀ (name : Text) k, c.registerNames[name]? = some k →
    ∃ e, c.registers[k]? = some e ∧ (e.name = name ∨ name ∈ e.aliases)

theorem InstructionRow.flags_sublist {fields : List Text} {e : InstructionEntry}
    (h : InstructionRow fields e) : e.flags.Sublist "ZCNOE".toList := by
  cases h
  exact List.filter_sublist

theorem documents_ofEntries {instructions registers : Text} {is : List InstructionEntry}
    {rs : List RegisterEntry} (his : (rows instructions).mapM readInstruction = .ok is)
    (hrs : (rows registers).mapM readRegister = .ok rs) :
    Documents instructions registers (ofEntries is rs) := by
  have hinstruction (query : Text) := find?_reverse_entries_iff his fun row e h =>
    (readInstruction_eq_ok_iff.mp h).named_iff query
  have hregister (query : Text) := find?_reverse_entries_iff hrs fun row e h =>
    (readRegister_eq_ok_iff.mp h).named_iff query
  simp only [readInstruction_eq_ok_iff, readRegister_eq_ok_iff] at hinstruction hregister
  constructor
  case instruction? =>
    intro query e
    rw [instruction?_ofEntries]
    exact (hinstruction query).1 e
  case no_instruction =>
    intro query
    rw [instruction?_ofEntries]
    exact (hinstruction query).2
  case register? =>
    intro query e
    rw [register?_ofEntries]
    exact (hregister query).1 e
  case no_register =>
    intro query
    rw [register?_ofEntries]
    exact (hregister query).2
  case flags =>
    intro key e he
    have hflags : List.Forall₂ (fun e row => e.flags.Sublist "ZCNOE".toList ∧ readInstruction row = .ok e)
        is (rows instructions) := by
      refine (mapM_eq_ok_iff.mp his).flip.imp fun e row h => ⟨?_, h⟩
      exact (readInstruction_eq_ok_iff.mp h).flags_sublist
    rw [ofEntries, getElem?_foldl_step (getElem?_addInstruction key), Std.TreeMap.getElem?_emptyc,
      Option.or_none] at he
    have hmem := List.mem_reverse.mp (List.mem_of_find?_eq_some he)
    exact ((List.forall₂_and_left _ _).mp hflags).1 e hmem
  case registerNames =>
    intro name k hk
    obtain ⟨e, he, hname⟩ := NameTable.places_ofItems RegisterEntry.names rs name k hk
    exact ⟨e, he, e.mem_names_iff.mp hname⟩

/-- Two tables make a catalog exactly if all their rows are long enough, and the catalog documents what the
last row of each name says. Otherwise the error names the first row that is not. -/
theorem parse_reads_tables (instructions registers : Text) :
    ((∃ c, parse instructions registers = .ok c) ↔ HasFields 5 instructions ∧ HasFields 3 registers) ∧
    (∀ e, parse instructions registers = .error e ↔
      FirstShort .instructions 5 instructions e ∨
        HasFields 5 instructions ∧ FirstShort .registers 3 registers e) ∧
    ∀ c, parse instructions registers = .ok c → Documents instructions registers c := by
  refine ⟨parse_ok_iff_hasFields, fun e => parse_error_iff, ?_⟩
  intro c h
  obtain ⟨is, rs, his, hrs, rfl⟩ := parse_eq_ok_iff.mp h
  exact documents_ofEntries his hrs

/-- A name in two rows of one table, and a name that is an alias in an earlier row. -/
theorem parse_reads_tables_repeated :
    let instructions := "nop;x;y;z;false\n\nNOP;NOP;Does nothing.;e-q-c;TRUE;more".toList
    let registers := "R14;Stack pointer.; sp ,,\r\nsp;Other.;".toList
    let nop : InstructionEntry := ⟨"NOP".toList, "NOP".toList, "Does nothing.".toList, "CE".toList, true⟩
    let sp : RegisterEntry := ⟨"SP".toList, "Other.".toList, []⟩
    ∃ c, parse instructions registers = .ok c ∧
      (c.instruction? "Nop".toList = some nop ∧ ∃ number fields,
        LastRow instructions (NamesInstruction "Nop".toList) number fields ∧ InstructionRow fields nop) ∧
      c.register? "Sp".toList = some sp ∧ ∃ number fields,
        LastRow registers (NamesRegister "Sp".toList) number fields ∧ RegisterRow fields sp := by
  intro instructions registers nop sp
  have hfound : (parse instructions registers).toOption.map
      (fun c => (c.instruction? "Nop".toList, c.register? "Sp".toList)) = some (some nop, some sp) := by
    decide +kernel
  cases hparse : parse instructions registers with
  | error e =>
    rw [hparse] at hfound
    cases hfound
  | ok c =>
    rw [hparse] at hfound
    obtain ⟨hnop, hsp⟩ := Prod.mk.inj (Option.some.inj hfound)
    have hdocuments := (parse_reads_tables instructions registers).2.2 c hparse
    exact ⟨c, rfl, ⟨hnop, (hdocuments.instruction? _ nop).mp hnop⟩, hsp, (hdocuments.register? _ sp).mp hsp⟩

end Catalog

end AsmAssist
