import AsmAssist.NameTable
import Mathlib.Data.List.Induction

/-!
# What a name table leads to

A table is made by going through a list and entering each item at the place where the list ends so far.
The places in the table stay inside the list, and the item at a place has the name that leads there. So a
name leads to the last item that has it.
-/

namespace AsmAssist.NameTable

variable {α : Type} {names : α → List Text} {items : List α} {table : NameTable} {name : Text}
  {place : Nat}

theorem getElem?_enter (table : NameTable) (entered : List Text) (place : Nat) (name : Text) :
    (table.enter entered place)[name]? = if name ∈ entered then some place else table[name]? := by
  induction entered generalizing table with
  | nil => simp [enter]
  | cons first entered ih =>
    have hstep : table.enter (first :: entered) place =
        enter (table.insert first place) entered place := rfl
    rw [hstep, ih, Std.TreeMap.getElem?_insert]
    by_cases hmem : name ∈ entered
    · simp [hmem]
    · by_cases hfirst : first = name
      · simp [hfirst]
      · simp [hmem, hfirst, Ne.symm hfirst]

/-- The last item is entered at the place where the others end. -/
theorem ofItems_concat (names : α → List Text) (items : List α) (item : α) :
    ofItems names (items ++ [item]) = (ofItems names items).enter (names item) items.length := by
  simp [ofItems, List.zipIdx_append]

/-! ## Places -/

/-- Each name leads to a place in the list, and the item there has the name. -/
def Places (names : α → List Text) (items : List α) (table : NameTable) : Prop :=
  ∀ name place, table[name]? = some place → ∃ item, items[place]? = some item ∧ name ∈ names item

theorem Places.lt_length (h : Places names items table) (hplace : table[name]? = some place) :
    place < items.length := by
  obtain ⟨item, hitem, -⟩ := h name place hplace
  exact (List.getElem?_eq_some_iff.mp hitem).1

/-- An item more leaves the others at their places. -/
theorem Places.enter (h : Places names items table) (item : α) :
    Places names (items ++ [item]) (table.enter (names item) items.length) := by
  intro name place hplace
  rw [getElem?_enter] at hplace
  split at hplace
  next hname =>
    cases hplace
    exact ⟨item, List.getElem?_concat_length, hname⟩
  next =>
    obtain ⟨earlier, hearlier, hname⟩ := h name place hplace
    exact ⟨earlier, (List.getElem?_append_left (h.lt_length hplace)).trans hearlier, hname⟩

theorem places_ofItems (names : α → List Text) (items : List α) :
    Places names items (ofItems names items) := by
  induction items using List.reverseRecOn with
  | nil => simp [Places, ofItems]
  | append_singleton items item ih =>
    rw [ofItems_concat]
    exact ih.enter item

/-! ## Items -/

/-- A name leads to the last item that has it. -/
theorem item?_ofItems (names : α → List Text) (items : List α) (name : Text) :
    (ofItems names items).item? items name = items.reverse.find? fun item => name ∈ names item := by
  induction items using List.reverseRecOn with
  | nil => simp [item?, ofItems]
  | append_singleton items item ih =>
    rw [item?, ofItems_concat, getElem?_enter, List.reverse_append, List.reverse_singleton,
      List.singleton_append, List.find?_cons]
    by_cases hname : name ∈ names item
    · simp [hname]
    · -- the places of the others are in front of the new one
      simp only [hname, if_false, decide_false, ← ih, item?]
      cases hplace : (ofItems names items)[name]? with
      | none => rfl
      | some place => exact List.getElem?_append_left ((places_ofItems names items).lt_length hplace)

/-- The same for items that have one name at most. -/
theorem item?_ofItems_toList (name? : α → Option Text) (items : List α) (name : Text) :
    (ofItems (fun item => (name? item).toList) items).item? items name =
      items.reverse.find? fun item => name? item = some name := by
  simp only [item?_ofItems, Option.mem_toList]

theorem getElem?_resolve (table : NameTable) (items : List α) (name : Text) :
    (table.resolve items)[name]? = table.item? items name := by
  simp [resolve, item?]

theorem mem_resolve_iff (name? : α → Option Text) (items : List α) (name : Text) :
    name ∈ (ofItems (fun item => (name? item).toList) items).resolve items ↔
      name ∈ items.filterMap name? := by
  rw [Std.TreeMap.mem_iff_isSome_getElem?, getElem?_resolve, item?_ofItems_toList, List.find?_isSome,
    List.mem_filterMap]
  simp

end AsmAssist.NameTable
