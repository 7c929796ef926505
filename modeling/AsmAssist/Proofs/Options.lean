import AsmAssist.Proofs.Tables
import AsmAssist.Settings.Read
import Mathlib.Data.List.Forall2
import Mathlib.Data.List.Nodup
import Mathlib.Data.List.Zip

/-!
# Options that conform

The settings have a schema: which fields each part has, and which values a field can take. Options are read
exactly if there are none or if they conform to it. Each setting is then the one that is given for its field,
or the default; nothing else in the options matters, nor whether a part names its fields or lists them.
-/

namespace AsmAssist.Settings

/-! ## The schema -/

/-- The fields of a part in their order, and what each of them asks for. -/
def Wanted.fields : Wanted → List (Text × Wanted)
  | .settings =>
    [("formatting".toList, .formatting), ("hover".toList, .hover), ("documentation".toList, .documentation)]
  | .formatting => [("enabled".toList, .boolean), ("left_margin".toList, .margin)]
  | .hover => [("show_definitions".toList, .boolean), ("jump_hint_text".toList, .text)]
  | .documentation => [("path".toList, .path)]
  | _ => []

def Wanted.keys (wanted : Wanted) : List Text := wanted.fields.map Prod.fst

/-- What can be given where something is asked for. A part is a record, whose other members are free, or a
list of no more items than it has fields. -/
inductive Conforms : Wanted → Value → Prop
  | boolean (b : Bool) : Conforms .boolean (.bool b)
  | margin {n : Int} (hlow : 0 ≤ n) (hhigh : n < 0x100000000) : Conforms .margin (.integer n)
  | text (s : Text) : Conforms .text (.text s)
  | noPath : Conforms .path .null
  | path (s : Text) : Conforms .path (.text s)
  | record {wanted : Wanted} {members : List (Text × Value)} (hpart : wanted.fields ≠ [])
      (h : ∀ f ∈ wanted.fields, ∀ v, (f.1, v) ∈ members → Conforms f.2 v) :
      Conforms wanted (.record members)
  | list {wanted : Wanted} {items : List Value} (hpart : wanted.fields ≠ [])
      (hlength : items.length ≤ wanted.fields.length)
      (h : ∀ f v, (f, v) ∈ wanted.fields.zip items → Conforms f.2 v) :
      Conforms wanted (.list items)

/-- What a value gives under the keys: a record names it, and a list has it in the order of the keys. -/
def Value.given? (keys : List Text) : Value → Option (List (Text × Value))
  | .record members => some members
  | .list items => if items.length ≤ keys.length then some (keys.zip items) else none
  | _ => none

/-- The values under a key, in their order. -/
def valuesUnder (key : Text) (given : List (Text × Value)) : List Value :=
  given.filterMap fun p => if p.1 = key then some p.2 else none

/-- What a value gives for a field; of two with one key the later counts. -/
def Value.field? (v : Value) (wanted : Wanted) (key : Text) : Option Value :=
  (v.given? wanted.keys).bind fun given => (valuesUnder key given).getLast?

theorem mem_valuesUnder {key : Text} {given : List (Text × Value)} {v : Value} :
    v ∈ valuesUnder key given ↔ (key, v) ∈ given := by
  simp [valuesUnder, List.mem_filterMap]

theorem Wanted.nodup_keys (wanted : Wanted) : wanted.keys.Nodup := by
  cases wanted <;> decide

theorem conforms_iff_given {wanted : Wanted} (hpart : wanted.fields ≠ []) {v : Value} :
    Conforms wanted v ↔ ∃ given, v.given? wanted.keys = some given ∧
      ∀ f ∈ wanted.fields, ∀ w, (f.1, w) ∈ given → Conforms f.2 w := by
  cases v with
  | record members =>
    constructor
    · rintro (_ | _ | _ | _ | _ | ⟨-, h⟩)
      exact ⟨members, rfl, h⟩
    · rintro ⟨given, hgiven, h⟩
      cases hgiven
      exact .record hpart h
  | list items =>
    have hkeys : wanted.keys.length = wanted.fields.length := List.length_map _
    -- the fields have different keys, so an item is under the key of its own field only
    have hzip : (∀ f v, (f, v) ∈ wanted.fields.zip items → Conforms f.2 v) ↔
        ∀ f ∈ wanted.fields, ∀ w, (f.1, w) ∈ wanted.keys.zip items → Conforms f.2 w := by
      simp only [Wanted.keys, List.zip_map_left, List.mem_map, Prod.exists, Prod.map, id, Prod.mk.injEq]
      constructor
      · rintro h f hf w ⟨key, part, w', hmem, hkey, rfl⟩
        have hsame : (key, part) = f :=
          List.inj_on_of_nodup_map wanted.nodup_keys (List.of_mem_zip hmem).1 hf hkey
        exact hsame ▸ h (key, part) w' hmem
      · rintro h ⟨key, part⟩ w hmem
        exact h _ (List.of_mem_zip hmem).1 w ⟨key, part, w, hmem, rfl, rfl⟩
    constructor
    · rintro (_ | _ | _ | _ | _ | _ | ⟨-, hlength, h⟩)
      exact ⟨_, if_pos (hkeys ▸ hlength), hzip.mp h⟩
    · rintro ⟨given, hgiven, h⟩
      simp only [Value.given?, Option.ite_none_right_eq_some, Option.some.injEq] at hgiven
      obtain ⟨hlength, rfl⟩ := hgiven
      exact .list hpart (hkeys ▸ hlength) (hzip.mpr h)
  | _ =>
    constructor
    · intro h
      cases h <;> exact absurd rfl hpart
    · rintro ⟨_, hgiven, -⟩
      cases hgiven

/-! ## Reading a part -/

theorem foldlM_ok_iff {α β ε : Type} {f : β → α → Except ε β} {P : α → Prop}
    (hf : ∀ b x, (∃ b', f b x = .ok b') ↔ P x) (xs : List α) (b : β) :
    (∃ b', xs.foldlM f b = .ok b') ↔ ∀ x ∈ xs, P x := by
  induction xs generalizing b with
  | nil => exact ⟨fun _ _ hx => absurd hx List.not_mem_nil, fun _ => ⟨b, rfl⟩⟩
  | cons x xs ih =>
    simp only [List.foldlM_cons, bind_eq_ok_iff, List.forall_mem_cons]
    constructor
    · rintro ⟨b', next, hnext, hrest⟩
      exact ⟨(hf b x).mp ⟨next, hnext⟩, (ih next).mp ⟨b', hrest⟩⟩
    · rintro ⟨hx, hrest⟩
      obtain ⟨next, hnext⟩ := (hf b x).mpr hx
      obtain ⟨b', hb'⟩ := (ih next).mpr hrest
      exact ⟨b', next, hnext, hb'⟩

section

variable {α β : Type} {members : List (Member α)}

theorem setMember_cons (m : Member α) (members : List (Member α)) (a : α) (key : Text) (v : Value) :
    setMember (m :: members) a key v = if m.key = key then m.set a v else setMember members a key v := by
  by_cases h : m.key = key <;> simp [setMember, h]

theorem setMember_of_mem (hkeys : (members.map Member.key).Nodup) {m : Member α} (hm : m ∈ members) (a : α)
    (v : Value) : setMember members a m.key v = m.set a v := by
  induction members with
  | nil => cases hm
  | cons first members ih =>
    obtain ⟨hfirst, hrest⟩ := List.nodup_cons.mp hkeys
    rw [setMember_cons]
    rcases List.mem_cons.mp hm with rfl | hm
    · rw [if_pos rfl]
    · rw [if_neg, ih hrest hm]
      intro hkey
      exact hfirst (List.mem_map.mpr ⟨m, hm, hkey.symm⟩)

/-- The members of a list are set as if they were named. -/
theorem foldlM_set_eq (hkeys : (members.map Member.key).Nodup) {pairs : List (Member α × Value)}
    (hpairs : ∀ p ∈ pairs, p.1 ∈ members) (a : α) :
    pairs.foldlM (fun a p => p.1.set a p.2) a =
      (pairs.map (Prod.map Member.key id)).foldlM (fun a p => setMember members a p.1 p.2) a := by
  induction pairs generalizing a with
  | nil => rfl
  | cons p pairs ih =>
    obtain ⟨hp, hrest⟩ := List.forall_mem_cons.mp hpairs
    simp only [List.map_cons, List.foldlM_cons, Prod.map, id, setMember_of_mem hkeys hp, ih hrest]

theorem readRecord_eq_ok_iff (hkeys : (members.map Member.key).Nodup) {wanted : Wanted} {start result : α}
    {v : Value} :
    readRecord wanted members start v = .ok result ↔ ∃ given, v.given? (members.map Member.key) = some given ∧
      given.foldlM (fun a p => setMember members a p.1 p.2) start = .ok result := by
  cases v with
  | record given =>
    constructor
    · exact fun h => ⟨given, rfl, h⟩
    · rintro ⟨_, hgiven, h⟩
      cases hgiven
      exact h
  | list items =>
    have hmem : ∀ p ∈ members.zip items, p.1 ∈ members := fun p hp => (List.of_mem_zip hp).1
    have hzip := foldlM_set_eq hkeys hmem start
    simp only [Value.given?, List.length_map, List.zip_map_left, Option.ite_none_right_eq_some,
      Option.some.injEq]
    constructor
    · intro h
      obtain ⟨a, ha, hlength⟩ := bind_eq_ok_iff.mp h
      split at hlength
      · cases hlength
      next hle =>
        cases hlength
        exact ⟨_, ⟨Nat.le_of_not_lt hle, rfl⟩, hzip ▸ ha⟩
    · rintro ⟨_, ⟨hle, rfl⟩, hfold⟩
      exact bind_eq_ok_iff.mpr ⟨result, hzip ▸ hfold, if_neg (Nat.not_lt.mpr hle)⟩
  | _ => simp [readRecord, Value.given?]

/-- The members have the keys of the fields, and each accepts what its field asks for. -/
def Reads (members : List (Member α)) (fields : List (Text × Wanted)) : Prop :=
  List.Forall₂ (fun m f => m.key = f.1 ∧ ∀ a v, (∃ b, m.set a v = .ok b) ↔ Conforms f.2 v) members fields

theorem Reads.keys {fields : List (Text × Wanted)} (h : Reads members fields) :
    members.map Member.key = fields.map Prod.fst := by
  induction h with
  | nil => rfl
  | cons hm _ ih => rw [List.map_cons, List.map_cons, hm.1, ih]

theorem Reads.setMember_ok_iff {fields : List (Text × Wanted)} (h : Reads members fields)
    (hkeys : (fields.map Prod.fst).Nodup) (a : α) (key : Text) (v : Value) :
    (∃ b, setMember members a key v = .ok b) ↔ ∀ f ∈ fields, f.1 = key → Conforms f.2 v := by
  induction h with
  | nil => simp [setMember]
  | @cons m f members fields hm _ ih =>
    obtain ⟨hfirst, hrest⟩ := List.nodup_cons.mp hkeys
    rw [setMember_cons, List.forall_mem_cons, hm.1]
    by_cases hkey : f.1 = key
    · have hother : ∀ f' ∈ fields, f'.1 = key → Conforms f'.2 v := by
        intro f' hf' hkey'
        exact absurd (List.mem_map.mpr ⟨f', hf', hkey'.trans hkey.symm⟩) hfirst
      rw [if_pos hkey, hm.2 a v]
      exact ⟨fun hv => ⟨fun _ => hv, hother⟩, fun hv => hv.1 hkey⟩
    · rw [if_neg hkey, ih hrest]
      exact ⟨fun hv => ⟨fun hk => absurd hk hkey, hv⟩, And.right⟩

/-- A part is read exactly if it conforms. -/
theorem Reads.readRecord_ok_iff {wanted : Wanted} (h : Reads members wanted.fields)
    (hpart : wanted.fields ≠ []) (start : α) (v : Value) :
    (∃ result, readRecord wanted members start v = .ok result) ↔ Conforms wanted v := by
  have hkeys : members.map Member.key = wanted.keys := h.keys
  have hset (a : α) (p : Text × Value) : (∃ b, setMember members a p.1 p.2 = .ok b) ↔
      ∀ f ∈ wanted.fields, f.1 = p.1 → Conforms f.2 p.2 := h.setMember_ok_iff wanted.nodup_keys a p.1 p.2
  rw [conforms_iff_given hpart]
  simp only [readRecord_eq_ok_iff (hkeys ▸ wanted.nodup_keys), hkeys]
  constructor
  · rintro ⟨result, given, hgiven, hfold⟩
    refine ⟨given, hgiven, fun f hf w hmem => ?_⟩
    exact (foldlM_ok_iff hset given start).mp ⟨result, hfold⟩ (f.1, w) hmem f hf rfl
  · rintro ⟨given, hgiven, hconform⟩
    obtain ⟨result, hfold⟩ := (foldlM_ok_iff hset given start).mpr (by
      rintro ⟨_, w⟩ hmem f hf rfl
      exact hconform f hf w hmem)
    exact ⟨result, given, hgiven, hfold⟩

/-! ## What is set -/

/-- `x` stands for what is given, or is the initial value if nothing is. -/
def Chosen (stands : Value → β → Prop) (given : Option Value) (initial x : β) : Prop :=
  match given with
  | none => x = initial
  | some v => stands v x

variable {key : Text} {get : α → β} {stands : Value → β → Prop}

/-- Under the key a member sets what `get` sees to something that stands for the value; under any other key it
leaves it alone. -/
def Member.Sets (m : Member α) (key : Text) (get : α → β) (stands : Value → β → Prop) : Prop :=
  ∀ a v b, m.set a v = .ok b → if m.key = key then stands v (get b) else get b = get a

/-- One of the members is under the key. -/
structure Sets (members : List (Member α)) (key : Text) (get : α → β) (stands : Value → β → Prop) : Prop where
  present : key ∈ members.map Member.key
  each : ∀ m ∈ members, m.Sets key get stands

theorem Sets.setMember (h : Sets members key get stands) {a b : α} {k : Text} {v : Value}
    (hset : setMember members a k v = .ok b) : if k = key then stands v (get b) else get b = get a := by
  unfold Settings.setMember at hset
  split at hset
  next m hm =>
    have hk : m.key = k := by simpa using List.find?_some hm
    exact hk ▸ h.each m (List.mem_of_find?_eq_some hm) a v b hset
  next hnone =>
    cases hset
    rw [if_neg]
    rintro rfl
    obtain ⟨m, hm, hkey⟩ := List.mem_map.mp h.present
    simpa [hkey] using List.find?_eq_none.mp hnone m hm

/-- The last value under the key is the one that counts. -/
theorem Sets.foldlM (h : Sets members key get stands) {given : List (Text × Value)} {start result : α}
    (hfold : given.foldlM (fun a p => Settings.setMember members a p.1 p.2) start = .ok result) :
    Chosen stands (valuesUnder key given).getLast? (get start) (get result) := by
  induction given generalizing start with
  | nil =>
    cases hfold
    rfl
  | cons p given ih =>
    obtain ⟨k, v⟩ := p
    rw [List.foldlM_cons, bind_eq_ok_iff] at hfold
    obtain ⟨next, hnext, hrest⟩ := hfold
    have hlast := ih hrest
    have hfirst := h.setMember hnext
    by_cases hk : k = key
    · have hvalues : valuesUnder key ((k, v) :: given) = v :: valuesUnder key given := by
        simp [valuesUnder, hk]
      rw [if_pos hk] at hfirst
      rw [hvalues, List.getLast?_cons]
      cases hlater : (valuesUnder key given).getLast? with
      | none =>
        rw [hlater] at hlast
        change get result = get next at hlast
        rw [hlast]
        exact hfirst
      | some w =>
        rw [hlater] at hlast
        exact hlast
    · have hvalues : valuesUnder key ((k, v) :: given) = valuesUnder key given := by
        simp [valuesUnder, hk]
      rw [if_neg hk] at hfirst
      rw [hvalues, ← hfirst]
      exact hlast

theorem Sets.readRecord (h : Sets members key get stands) {wanted : Wanted}
    (hkeys : members.map Member.key = wanted.keys) {start result : α} {v : Value}
    (hread : readRecord wanted members start v = .ok result) :
    Chosen stands (v.field? wanted key) (get start) (get result) := by
  obtain ⟨given, hgiven, hfold⟩ := (readRecord_eq_ok_iff (hkeys ▸ wanted.nodup_keys)).mp hread
  rw [hkeys] at hgiven
  rw [Value.field?, hgiven]
  exact h.foldlM hfold

/-- A field of a part that is itself a field. -/
theorem Chosen.through {wanted : Wanted} {start part : α} {given : Option Value}
    (hpart : Chosen (fun v part => readRecord wanted members start v = .ok part) given start part)
    (hkeys : members.map Member.key = wanted.keys) (h : Sets members key get stands) :
    Chosen stands (given.bind (·.field? wanted key)) (get start) (get part) := by
  cases given with
  | none => exact congrArg get hpart
  | some v => exact h.readRecord hkeys hpart

/-! ## Members that put what they read -/

variable {γ : Type} {read : Value → Except Error γ}

theorem put_ok_iff {put : γ → α} {v : Value} :
    (∃ b, (do return put (← read v) : Except Error α) = .ok b) ↔ ∃ x, read v = .ok x := by
  simp only [bind_eq_ok_iff]
  exact ⟨fun ⟨_, x, hx, _⟩ => ⟨x, hx⟩, fun ⟨x, hx⟩ => ⟨put x, x, hx, rfl⟩⟩

variable {put : α → γ → α}

theorem put_sets (hget : ∀ a x v, read v = .ok x → stands v (get (put a x))) :
    Member.Sets ⟨key, fun a v => return put a (← read v)⟩ key get stands := by
  intro a v b h
  obtain ⟨x, hx, hb⟩ := bind_eq_ok_iff.mp h
  cases hb
  rw [if_pos rfl]
  exact hget a x v hx

theorem put_keeps {other : Text} (hne : other ≠ key) (hget : ∀ a x, get (put a x) = get a) :
    Member.Sets ⟨other, fun a v => return put a (← read v)⟩ key get stands := by
  intro a v b h
  obtain ⟨x, -, hb⟩ := bind_eq_ok_iff.mp h
  cases hb
  rw [if_neg hne]
  exact hget a x

end

/-! ## The values of single fields -/

/-- A margin is given by an integer of 32 bits and brought into its range. -/
def IsMargin (v : Value) (margin : Nat) : Prop :=
  ∃ n : Int, v = .integer n ∧ (0 ≤ n ∧ n < 0x100000000) ∧ (margin : Int) = max 1 (min n 80)

def IsPath (v : Value) (path : Option Text) : Prop :=
  v = .null ∧ path = none ∨ ∃ s, v = .text s ∧ path = some s

theorem readBool_eq_ok_iff {v : Value} {b : Bool} : readBool v = .ok b ↔ v = .bool b := by
  cases v <;> simp [readBool]

theorem readText_eq_ok_iff {v : Value} {s : Text} : readText v = .ok s ↔ v = .text s := by
  cases v <;> simp [readText]

theorem readPath_eq_ok_iff {v : Value} {path : Option Text} : readPath v = .ok path ↔ IsPath v path := by
  cases v <;> simp [readPath, IsPath, eq_comm]

theorem readMargin_eq_ok_iff {v : Value} {margin : Nat} : readMargin v = .ok margin ↔ IsMargin v margin := by
  cases v with
  | integer n =>
    simp only [readMargin, IsMargin, Value.integer.injEq, Bool.and_eq_true, decide_eq_true_eq]
    constructor
    · intro h
      split at h
      next hbounds =>
        cases h
        exact ⟨n, rfl, hbounds, by omega⟩
      · cases h
    · rintro ⟨_, rfl, ⟨hlow, hhigh⟩, hmargin⟩
      have hclamped : min (max n.toNat 1) 80 = margin := by omega
      rw [if_pos ⟨hlow, hhigh⟩, hclamped]
  | _ => simp [readMargin, IsMargin]

/-- Where no part is asked for, each kind of value has its own type. -/
theorem conforms_leaf_iff {wanted : Wanted} (hleaf : wanted.fields = []) {v : Value} :
    Conforms wanted v ↔
      match wanted, v with
      | .boolean, .bool _ => True
      | .margin, .integer n => 0 ≤ n ∧ n < 0x100000000
      | .text, .text _ => True
      | .path, .null => True
      | .path, .text _ => True
      | _, _ => False := by
  constructor
  · intro h
    cases h with
    | boolean | text | noPath | path => trivial
    | margin hlow hhigh => exact ⟨hlow, hhigh⟩
    | record hpart => exact absurd hleaf hpart
    | list hpart => exact absurd hleaf hpart
  · intro h
    split at h
    · exact .boolean _
    · exact .margin h.1 h.2
    · exact .text _
    · exact .noPath
    · exact .path _
    · exact h.elim

theorem readBool_ok_iff {v : Value} : (∃ b, readBool v = .ok b) ↔ Conforms .boolean v := by
  rw [conforms_leaf_iff rfl]
  cases v <;> simp [readBool]

theorem readText_ok_iff {v : Value} : (∃ s, readText v = .ok s) ↔ Conforms .text v := by
  rw [conforms_leaf_iff rfl]
  cases v <;> simp [readText]

theorem readPath_ok_iff {v : Value} : (∃ path, readPath v = .ok path) ↔ Conforms .path v := by
  rw [conforms_leaf_iff rfl]
  cases v <;> simp [readPath]

theorem readMargin_ok_iff {v : Value} : (∃ margin, readMargin v = .ok margin) ↔ Conforms .margin v := by
  rw [conforms_leaf_iff rfl]
  cases v with
  | integer n => by_cases h : 0 ≤ n ∧ n < 4294967296 <;> simp [readMargin, h]
  | _ => simp [readMargin]

/-! ## The parts of the settings -/

theorem formattingMembers_reads : Reads formattingMembers Wanted.formatting.fields := by
  refine .cons ⟨rfl, fun a v => ?_⟩ (.cons ⟨rfl, fun a v => ?_⟩ .nil)
  · exact put_ok_iff.trans readBool_ok_iff
  · exact put_ok_iff.trans readMargin_ok_iff

theorem hoverMembers_reads : Reads hoverMembers Wanted.hover.fields := by
  refine .cons ⟨rfl, fun a v => ?_⟩ (.cons ⟨rfl, fun a v => ?_⟩ .nil)
  · exact put_ok_iff.trans readBool_ok_iff
  · exact put_ok_iff.trans readText_ok_iff

theorem documentationMembers_reads : Reads documentationMembers Wanted.documentation.fields :=
  .cons ⟨rfl, fun _ _ => put_ok_iff.trans readPath_ok_iff⟩ .nil

theorem settingsMembers_reads : Reads settingsMembers Wanted.settings.fields := by
  refine .cons ⟨rfl, fun a v => ?_⟩ (.cons ⟨rfl, fun a v => ?_⟩ (.cons ⟨rfl, fun a v => ?_⟩ .nil))
  · exact put_ok_iff.trans (formattingMembers_reads.readRecord_ok_iff (by decide) {} v)
  · exact put_ok_iff.trans (hoverMembers_reads.readRecord_ok_iff (by decide) {} v)
  · exact put_ok_iff.trans (documentationMembers_reads.readRecord_ok_iff (by decide) {} v)

theorem enabled_sets :
    Sets formattingMembers "enabled".toList Formatting.enabled fun v b => v = .bool b where
  present := by decide
  each := List.forall_mem_cons.mpr
    ⟨put_sets fun _ _ _ => readBool_eq_ok_iff.mp,
      List.forall_mem_singleton.mpr (put_keeps (by decide) fun _ _ => rfl)⟩

theorem leftMargin_sets : Sets formattingMembers "left_margin".toList Formatting.leftMargin IsMargin where
  present := by decide
  each := List.forall_mem_cons.mpr
    ⟨put_keeps (by decide) fun _ _ => rfl,
      List.forall_mem_singleton.mpr (put_sets fun _ _ _ => readMargin_eq_ok_iff.mp)⟩

theorem showDefinitions_sets :
    Sets hoverMembers "show_definitions".toList Hover.showDefinitions fun v b => v = .bool b where
  present := by decide
  each := List.forall_mem_cons.mpr
    ⟨put_sets fun _ _ _ => readBool_eq_ok_iff.mp,
      List.forall_mem_singleton.mpr (put_keeps (by decide) fun _ _ => rfl)⟩

theorem jumpHint_sets :
    Sets hoverMembers "jump_hint_text".toList Hover.jumpHint fun v s => v = .text s where
  present := by decide
  each := List.forall_mem_cons.mpr
    ⟨put_keeps (by decide) fun _ _ => rfl,
      List.forall_mem_singleton.mpr (put_sets fun _ _ _ => readText_eq_ok_iff.mp)⟩

theorem path_sets : Sets documentationMembers "path".toList Documentation.path IsPath where
  present := by decide
  each := List.forall_mem_singleton.mpr (put_sets fun _ _ _ => readPath_eq_ok_iff.mp)

theorem formatting_sets :
    Sets settingsMembers "formatting".toList Settings.formatting fun v part =>
      readRecord .formatting formattingMembers {} v = .ok part where
  present := by decide
  each := List.forall_mem_cons.mpr ⟨put_sets fun _ _ _ => id, List.forall_mem_cons.mpr
    ⟨put_keeps (by decide) fun _ _ => rfl,
      List.forall_mem_singleton.mpr (put_keeps (by decide) fun _ _ => rfl)⟩⟩

theorem hover_sets :
    Sets settingsMembers "hover".toList Settings.hover fun v part =>
      readRecord .hover hoverMembers {} v = .ok part where
  present := by decide
  each := List.forall_mem_cons.mpr ⟨put_keeps (by decide) fun _ _ => rfl, List.forall_mem_cons.mpr
    ⟨put_sets fun _ _ _ => id, List.forall_mem_singleton.mpr (put_keeps (by decide) fun _ _ => rfl)⟩⟩

theorem documentation_sets :
    Sets settingsMembers "documentation".toList Settings.documentation fun v part =>
      readRecord .documentation documentationMembers {} v = .ok part where
  present := by decide
  each := List.forall_mem_cons.mpr ⟨put_keeps (by decide) fun _ _ => rfl, List.forall_mem_cons.mpr
    ⟨put_keeps (by decide) fun _ _ => rfl, List.forall_mem_singleton.mpr (put_sets fun _ _ _ => id)⟩⟩

/-! ## The settings -/

/-- What options give for a field of a part; nothing where there is no such part. -/
def given? (options : Option Value) (part : Text × Wanted) (key : Text) : Option Value :=
  (options.bind (·.field? .settings part.1)).bind (·.field? part.2 key)

/-- Each setting is what the options give for its field, or else the default. -/
structure Takes (options : Option Value) (settings : Settings) : Prop where
  enabled : Chosen (fun v b => v = .bool b)
    (given? options ("formatting".toList, .formatting) "enabled".toList) true settings.formatting.enabled
  leftMargin : Chosen IsMargin
    (given? options ("formatting".toList, .formatting) "left_margin".toList) 16 settings.formatting.leftMargin
  showDefinitions : Chosen (fun v b => v = .bool b)
    (given? options ("hover".toList, .hover) "show_definitions".toList) true settings.hover.showDefinitions
  jumpHint : Chosen (fun v s => v = .text s) (given? options ("hover".toList, .hover) "jump_hint_text".toList)
    "**Ctrl+click** to jump to the definition".toList settings.hover.jumpHint
  path : Chosen IsPath (given? options ("documentation".toList, .documentation) "path".toList) none
    settings.documentation.path

theorem takes_of_readRecord {v : Value} {settings : Settings}
    (h : readRecord .settings settingsMembers {} v = .ok settings) : Takes (some v) settings where
  enabled := (formatting_sets.readRecord rfl h).through rfl enabled_sets
  leftMargin := (formatting_sets.readRecord rfl h).through rfl leftMargin_sets
  showDefinitions := (hover_sets.readRecord rfl h).through rfl showDefinitions_sets
  jumpHint := (hover_sets.readRecord rfl h).through rfl jumpHint_sets
  path := (documentation_sets.readRecord rfl h).through rfl path_sets

theorem takes_of_read {options : Option Value} {settings : Settings} (h : read options = .ok settings) :
    Takes options settings := by
  unfold read at h
  split at h
  · cases h
    exact ⟨rfl, rfl, rfl, rfl, rfl⟩
  · cases h
    exact ⟨rfl, rfl, rfl, rfl, rfl⟩
  · exact takes_of_readRecord h

theorem read_ok_iff {options : Option Value} :
    (∃ settings, read options = .ok settings) ↔
      options = none ∨ options = some .null ∨ ∃ v, options = some v ∧ Conforms .settings v := by
  unfold read
  split
  · simp
  · simp
  next v hv =>
    rw [settingsMembers_reads.readRecord_ok_iff (by decide)]
    constructor
    · intro h
      exact .inr (.inr ⟨v, rfl, h⟩)
    · rintro (hnone | hnull | ⟨w, hw, h⟩)
      · cases hnone
      · exact absurd (Option.some.inj hnull) hv
      · cases hw
        exact h

/-! ## Options with the same fields -/

/-- Two values give the same for each field: other members of a part, the order of its members and whether it
names or lists them do not count. -/
inductive SameFields : Wanted → Value → Value → Prop
  | same (wanted : Wanted) (v : Value) : SameFields wanted v v
  | part {wanted : Wanted} {v v' : Value} {given given' : List (Text × Value)} (hpart : wanted.fields ≠ [])
      (hgiven : v.given? wanted.keys = some given) (hgiven' : v'.given? wanted.keys = some given')
      (hlength : ∀ f ∈ wanted.fields, (valuesUnder f.1 given).length = (valuesUnder f.1 given').length)
      (hvalues : ∀ f ∈ wanted.fields, ∀ x x', (x, x') ∈ (valuesUnder f.1 given).zip (valuesUnder f.1 given') →
        SameFields f.2 x x') :
      SameFields wanted v v'

section

variable {wanted : Wanted} {v v' : Value}

theorem SameFields.symm (h : SameFields wanted v v') : SameFields wanted v' v := by
  induction h with
  | same wanted v => exact .same wanted v
  | part hpart hgiven hgiven' hlength _ ih =>
    refine .part hpart hgiven' hgiven (fun f hf => (hlength f hf).symm) fun f hf x x' hx => ?_
    apply ih f hf x' x
    rw [← List.zip_swap]
    exact List.mem_map_of_mem hx

theorem SameFields.conforms (h : SameFields wanted v v') (hv : Conforms wanted v) : Conforms wanted v' := by
  induction h with
  | same => exact hv
  | part hpart hgiven hgiven' hlength _ ih =>
    obtain ⟨_, hsame, hconform⟩ := (conforms_iff_given hpart).mp hv
    obtain rfl := Option.some.inj (hgiven.symm.trans hsame)
    refine (conforms_iff_given hpart).mpr ⟨_, hgiven', fun f hf w hmem => ?_⟩
    -- the value at the same place on the other side conforms
    rw [← mem_valuesUnder, ← List.map_snd_zip (Nat.le_of_eq (hlength f hf).symm)] at hmem
    obtain ⟨⟨x, _⟩, hx, rfl⟩ := List.mem_map.mp hmem
    exact ih f hf x _ hx (hconform f hf x (mem_valuesUnder.mp (List.of_mem_zip hx).1))

theorem SameFields.field? (h : SameFields wanted v v') {f : Text × Wanted} (hf : f ∈ wanted.fields) :
    Option.Rel (SameFields f.2) (v.field? wanted f.1) (v'.field? wanted f.1) := by
  cases h with
  | same =>
    cases v.field? wanted f.1 with
    | none => exact .none
    | some x => exact .some (.same _ x)
  | @part _ _ _ given given' hpart hgiven hgiven' hlength hvalues =>
    have hlast := List.forall₂_reverse_iff.mpr
      (List.forall₂_iff_zip.mpr ⟨hlength f hf, @fun x x' => hvalues f hf x x'⟩)
    simp only [Value.field?, hgiven, hgiven', Option.bind_some, List.getLast?_eq_head?_reverse]
    generalize (valuesUnder f.1 given).reverse = values at hlast ⊢
    generalize (valuesUnder f.1 given').reverse = values' at hlast ⊢
    cases hlast with
    | nil => exact .none
    | cons hx _ => exact .some hx

/-- A field that holds no part has one value only. -/
theorem SameFields.eq_of_leaf (h : SameFields wanted v v') (hleaf : wanted.fields = []) : v = v' := by
  cases h with
  | same => rfl
  | part hpart => exact absurd hleaf hpart

theorem SameFields.given?_eq (h : SameFields .settings v v') (part field : Text × Wanted)
    (hpart : part ∈ Wanted.settings.fields) (hfield : field ∈ part.2.fields)
    (hleaf : field.2.fields = []) : given? (some v) part field.1 = given? (some v') part field.1 := by
  simp only [given?, Option.bind_some]
  generalize v.field? .settings part.1 = x, v'.field? .settings part.1 = x', h.field? hpart = hx
  cases hx with
  | none => rfl
  | some hx =>
    rw [Option.bind_some, Option.bind_some]
    generalize Value.field? _ part.2 field.1 = y, Value.field? _ part.2 field.1 = y', hx.field? hfield = hy
    cases hy with
    | none => rfl
    | some hy => rw [hy.eq_of_leaf hleaf]

/-- The values of each field are the same one by one. -/
theorem sameFields_of_forall₂ {given given' : List (Text × Value)} (hpart : wanted.fields ≠ [])
    (hgiven : v.given? wanted.keys = some given) (hgiven' : v'.given? wanted.keys = some given')
    (h : ∀ f ∈ wanted.fields,
      List.Forall₂ (SameFields f.2) (valuesUnder f.1 given) (valuesUnder f.1 given')) :
    SameFields wanted v v' :=
  .part hpart hgiven hgiven' (fun f hf => (h f hf).length_eq) fun f hf _ _ hx =>
    (List.forall₂_iff_zip.mp (h f hf)).2 hx

theorem forall₂_sameFields_same (wanted : Wanted) (values : List Value) :
    List.Forall₂ (SameFields wanted) values values :=
  List.forall₂_same.mpr fun x _ => .same wanted x

/-- A part is given in another way: without its other members, or by the names of its fields. -/
inductive Restated (wanted : Wanted) : Value → Value → Prop
  | known (members : List (Text × Value)) :
      Restated wanted (.record members) (.record (members.filter fun m => m.1 ∈ wanted.keys))
  | named (items : List Value) (hlength : items.length ≤ wanted.keys.length) :
      Restated wanted (.list items) (.record (wanted.keys.zip items))

theorem Restated.sameFields (h : Restated wanted v v') (hpart : wanted.fields ≠ []) :
    SameFields wanted v v' := by
  cases h with
  | known members =>
    refine sameFields_of_forall₂ hpart rfl rfl fun f hf => ?_
    have hkey : f.1 ∈ wanted.keys := List.mem_map_of_mem hf
    have hvalues : valuesUnder f.1 (members.filter fun m => m.1 ∈ wanted.keys) = valuesUnder f.1 members := by
      rw [valuesUnder, List.filterMap_filter]
      refine List.filterMap_congr fun m _ => ?_
      by_cases hm : m.1 = f.1 <;> simp [hm, hkey]
    rw [hvalues]
    exact forall₂_sameFields_same f.2 _
  | named items hlength =>
    exact sameFields_of_forall₂ hpart (if_pos hlength) rfl fun f _ => forall₂_sameFields_same f.2 _

/-- A record has the same fields if a member of it has. -/
theorem SameFields.inside {f : Text × Wanted} {x x' : Value} (h : SameFields f.2 x x')
    (hf : f ∈ wanted.fields) (before after : List (Text × Value)) :
    SameFields wanted (.record (before ++ (f.1, x) :: after)) (.record (before ++ (f.1, x') :: after)) := by
  refine sameFields_of_forall₂ (List.ne_nil_of_mem hf) rfl rfl fun g hg => ?_
  have hvalues (w : Value) : valuesUnder g.1 (before ++ (f.1, w) :: after) =
      valuesUnder g.1 before ++ (valuesUnder g.1 [(f.1, w)] ++ valuesUnder g.1 after) := by
    simp only [valuesUnder, ← List.filterMap_append, List.singleton_append]
  rw [hvalues, hvalues]
  refine List.rel_append (forall₂_sameFields_same g.2 _)
    (List.rel_append ?_ (forall₂_sameFields_same g.2 _))
  by_cases hkey : f.1 = g.1
  · obtain rfl : f = g := List.inj_on_of_nodup_map wanted.nodup_keys hf hg hkey
    simpa [valuesUnder] using h
  · simp [valuesUnder, hkey]

end

/-! ## Reading options -/

theorem Chosen.unique {β : Type} {stands : Value → β → Prop} {given : Option Value} {initial x y : β}
    (hstands : ∀ v x y, stands v x → stands v y → x = y) (hx : Chosen stands given initial x)
    (hy : Chosen stands given initial y) : x = y := by
  cases given with
  | none => exact Eq.trans hx (Eq.symm hy)
  | some v => exact hstands v x y hx hy

theorem isMargin_unique (v : Value) (m n : Nat) (hm : IsMargin v m) (hn : IsMargin v n) : m = n := by
  rw [← readMargin_eq_ok_iff] at hm hn
  exact Except.ok.inj (hm.symm.trans hn)

theorem isPath_unique (v : Value) (p q : Option Text) (hp : IsPath v p) (hq : IsPath v q) : p = q := by
  rw [← readPath_eq_ok_iff] at hp hq
  exact Except.ok.inj (hp.symm.trans hq)

/-- The options leave no choice. -/
theorem Takes.unique {options : Option Value} {s t : Settings} (hs : Takes options s) (ht : Takes options t) :
    s = t := by
  have hbool (v : Value) (b c : Bool) (hb : v = .bool b) (hc : v = .bool c) : b = c :=
    Value.bool.inj (hb.symm.trans hc)
  have htext (v : Value) (a b : Text) (ha : v = .text a) (hb : v = .text b) : a = b :=
    Value.text.inj (ha.symm.trans hb)
  obtain ⟨⟨enabled, leftMargin⟩, ⟨showDefinitions, jumpHint⟩, ⟨path⟩⟩ := s
  obtain ⟨⟨enabled', leftMargin'⟩, ⟨showDefinitions', jumpHint'⟩, ⟨path'⟩⟩ := t
  obtain rfl : enabled = enabled' := hs.enabled.unique hbool ht.enabled
  obtain rfl : leftMargin = leftMargin' := hs.leftMargin.unique isMargin_unique ht.leftMargin
  obtain rfl : showDefinitions = showDefinitions' := hs.showDefinitions.unique hbool ht.showDefinitions
  obtain rfl : jumpHint = jumpHint' := hs.jumpHint.unique htext ht.jumpHint
  obtain rfl : path = path' := hs.path.unique isPath_unique ht.path
  rfl

theorem SameFields.takes {v v' : Value} (h : SameFields .settings v v') {settings : Settings}
    (ht : Takes (some v) settings) : Takes (some v') settings where
  enabled :=
    h.given?_eq ("formatting".toList, .formatting) ("enabled".toList, .boolean) (by decide) (by decide) rfl ▸
      ht.enabled
  leftMargin :=
    h.given?_eq ("formatting".toList, .formatting) ("left_margin".toList, .margin) (by decide) (by decide)
      rfl ▸ ht.leftMargin
  showDefinitions :=
    h.given?_eq ("hover".toList, .hover) ("show_definitions".toList, .boolean) (by decide) (by decide) rfl ▸
      ht.showDefinitions
  jumpHint :=
    h.given?_eq ("hover".toList, .hover) ("jump_hint_text".toList, .text) (by decide) (by decide) rfl ▸
      ht.jumpHint
  path :=
    h.given?_eq ("documentation".toList, .documentation) ("path".toList, .path) (by decide) (by decide) rfl ▸
      ht.path

theorem read_congr {v v' : Value} (h : SameFields .settings v v') {settings : Settings}
    (hread : read (some v) = .ok settings) : read (some v') = .ok settings := by
  have hok : ∃ settings', read (some v') = .ok settings' := by
    rw [read_ok_iff]
    obtain hnone | hnull | ⟨w, hw, hconforms⟩ := read_ok_iff.mp ⟨settings, hread⟩
    · cases hnone
    · cases hnull
      cases h with
      | same => exact .inr (.inl rfl)
      | part _ hgiven => cases hgiven
    · cases hw
      exact .inr (.inr ⟨v', rfl, h.conforms hconforms⟩)
  obtain ⟨settings', hread'⟩ := hok
  rw [hread', (takes_of_read hread').unique (h.takes (takes_of_read hread))]

/-- How options are read: those that conform to the schema, field by field. -/
structure ReadsBySchema (read : Option Value → Except Error Settings) : Prop where
  ok_iff : ∀ options, (∃ settings, read options = .ok settings) ↔
    options = none ∨ options = some .null ∨ ∃ v, options = some v ∧ Conforms .settings v
  takes : ∀ options settings, read options = .ok settings → Takes options settings
  same_fields : ∀ v v', SameFields .settings v v' →
    ∀ settings, read (some v) = .ok settings ↔ read (some v') = .ok settings
  restated : ∀ v v', Restated .settings v v' →
    ∀ settings, read (some v) = .ok settings ↔ read (some v') = .ok settings
  /-- A part of the settings can be given in another way as well. -/
  restated_inside : ∀ part ∈ Wanted.settings.fields, ∀ v v', Restated part.2 v v' → ∀ before after settings,
    read (some (.record (before ++ (part.1, v) :: after))) = .ok settings ↔
      read (some (.record (before ++ (part.1, v') :: after))) = .ok settings

/-- Options are read exactly if there are none or if they conform, and every setting is then the one given for
its field or the default. -/
theorem read_bySchema : ReadsBySchema read := by
  have hsame (v v' : Value) (h : SameFields .settings v v') (settings : Settings) :
      read (some v) = .ok settings ↔ read (some v') = .ok settings := ⟨read_congr h, read_congr h.symm⟩
  constructor
  case ok_iff => exact fun options => read_ok_iff
  case takes => exact fun options settings => takes_of_read
  case same_fields => exact hsame
  case restated => exact fun v v' h => hsame v v' (h.sameFields (by decide))
  case restated_inside =>
    intro part hpart v v' h before after
    have hfields : ∀ part ∈ Wanted.settings.fields, part.2.fields ≠ [] := by decide
    exact hsame _ _ ((h.sameFields (hfields part hpart)).inside hpart before after)

-- a list of one list, and the same fields named beside a member that is not known
example :
    read (some (.list [.list [.bool false, .integer 200]])) = .ok { formatting := ⟨false, 80⟩ } ∧
      read (some (.record [("formatting".toList, .record [("enabled".toList, .bool false),
        ("left_margin".toList, .integer 200), ("tabs".toList, .null)])])) =
      .ok { formatting := ⟨false, 80⟩ } :=
  ⟨rfl, rfl⟩

end AsmAssist.Settings
