import AsmAssist.Catalog.Table

/-!
# Tables that can be read

A table is read row by row, and the first row with too few fields ends the reading. Two tables make a
catalog exactly if neither has such a row.
-/

namespace AsmAssist

theorem bind_eq_ok_iff {ε α β : Type} {x : Except ε α} {f : α → Except ε β} {b : β} :
    x >>= f = .ok b ↔ ∃ a, x = .ok a ∧ f a = .ok b := by
  cases x with
  | error e =>
    constructor
    · intro h
      cases h
    · rintro ⟨_, ha, -⟩
      cases ha
  | ok a =>
    constructor
    · intro h
      exact ⟨a, rfl, h⟩
    · rintro ⟨_, ha, h⟩
      cases ha
      exact h

namespace Catalog

/-- A row of the table has too few fields. -/
def Table.HasShortRow (table : Table) (text : Text) : Prop :=
  ∃ row ∈ rows text, row.fields.length < table.width

theorem mapM_ok_iff {ε α β : Type} {f : α → Except ε β} {xs : List α} :
    (∃ ys, xs.mapM f = .ok ys) ↔ ∀ x ∈ xs, ∃ y, f x = .ok y := by
  induction xs with
  | nil => exact ⟨fun _ _ hx => absurd hx List.not_mem_nil, fun _ => ⟨[], rfl⟩⟩
  | cons x xs ih =>
    rw [List.forall_mem_cons, ← ih]
    simp only [List.mapM_cons, bind_eq_ok_iff]
    constructor
    · rintro ⟨_, y, hy, ys, hys, -⟩
      exact ⟨⟨y, hy⟩, ys, hys⟩
    · rintro ⟨⟨y, hy⟩, ys, hys⟩
      exact ⟨y :: ys, y, hy, ys, hys, rfl⟩

/-- Items that are all read give what each of them gives. -/
theorem eq_filterMap_of_mapM {ε α β : Type} {f : α → Except ε β} {xs : List α} {ys : List β}
    (h : xs.mapM f = .ok ys) : ys = xs.filterMap fun x => (f x).toOption := by
  induction xs generalizing ys with
  | nil =>
    cases h
    rfl
  | cons x xs ih =>
    simp only [List.mapM_cons, bind_eq_ok_iff] at h
    obtain ⟨y, hy, zs, hzs, heq⟩ := h
    cases heq
    rw [ih hzs, List.filterMap_cons_some (by rw [hy]; rfl)]

theorem readInstruction_ok_iff {row : Row} :
    (∃ e, readInstruction row = .ok e) ↔ Table.instructions.width ≤ row.fields.length := by
  unfold readInstruction
  split
  next h => simp [h, Table.width]
  next h =>
    refine ⟨fun ⟨_, he⟩ => (nomatch he), fun hlength => ?_⟩
    match hfields : row.fields with
    | [] | [_] | [_, _] | [_, _, _] | [_, _, _, _] => simp [hfields, Table.width] at hlength
    | name :: format :: description :: flags :: pseudo :: rest =>
      exact absurd hfields (h name format description flags pseudo rest)

theorem readRegister_ok_iff {row : Row} :
    (∃ e, readRegister row = .ok e) ↔ Table.registers.width ≤ row.fields.length := by
  unfold readRegister
  split
  next h => simp [h, Table.width]
  next h =>
    refine ⟨fun ⟨_, he⟩ => (nomatch he), fun hlength => ?_⟩
    match hfields : row.fields with
    | [] | [_] | [_, _] => simp [hfields, Table.width] at hlength
    | name :: description :: aliases :: rest => exact absurd hfields (h name description aliases rest)

theorem not_hasShortRow_iff {table : Table} {text : Text} :
    ¬ table.HasShortRow text ↔ ∀ row ∈ rows text, table.width ≤ row.fields.length := by
  simp [Table.HasShortRow]

/-- The catalog of two tables is that of their entries. -/
theorem parse_eq_ok_iff {instructions registers : Text} {c : Catalog} :
    parse instructions registers = .ok c ↔
      ∃ is rs, (rows instructions).mapM readInstruction = .ok is ∧
        (rows registers).mapM readRegister = .ok rs ∧ ofEntries is rs = c := by
  simp only [parse, bind_eq_ok_iff]
  constructor
  · rintro ⟨is, his, rs, hrs, heq⟩
    cases heq
    exact ⟨is, rs, his, hrs, rfl⟩
  · rintro ⟨is, rs, his, hrs, rfl⟩
    exact ⟨is, his, rs, hrs, rfl⟩

theorem parse_ok_iff {instructions registers : Text} :
    (∃ c, parse instructions registers = .ok c) ↔
      ¬ Table.instructions.HasShortRow instructions ∧ ¬ Table.registers.HasShortRow registers := by
  rw [not_hasShortRow_iff, not_hasShortRow_iff]
  simp only [← readInstruction_ok_iff, ← readRegister_ok_iff, ← mapM_ok_iff, parse_eq_ok_iff]
  constructor
  · rintro ⟨_, is, rs, his, hrs, -⟩
    exact ⟨⟨is, his⟩, rs, hrs⟩
  · rintro ⟨⟨is, his⟩, rs, hrs⟩
    exact ⟨ofEntries is rs, is, rs, his, hrs, rfl⟩

end Catalog

end AsmAssist
