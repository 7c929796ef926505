import AsmAssist.Proofs.History
import AsmAssist.Proofs.Source
import Mathlib.Data.List.Forall2

/-!
# Texts that differ in their breaks

A text is made of its lines with breaks between them, and this can be read in one way only: a carriage
return and a line feed behind it are one break. The lines do not tell which breaks they were, so texts that
differ in nothing else are indexed alike. Two sessions that are given such texts keep the same stamps and
answer every request with the same reply.
-/

namespace AsmAssist

namespace Source

/-- A break in front of a text that does not go on with it. -/
structure BreakBefore (brk rest : Text) : Prop where
  isBreak : IsBreak brk
  whole : brk = ['\r'] → rest.head? ≠ some '\n'

/-- The text is made of the lines, with the breaks between them. -/
inductive Splits : Text → List Text → List Text → Prop
  | last {line : Text} : IsUnbroken line → Splits line [line] []
  | next {line brk rest : Text} {lines breaks : List Text} : IsUnbroken line → BreakBefore brk rest →
      Splits rest lines breaks → Splits (line ++ (brk ++ rest)) (line :: lines) (brk :: breaks)

/-- A line feed for each pair of a carriage return and a line feed. -/
def joinPairs : Text → Text
  | '\r' :: '\n' :: s => '\n' :: joinPairs s
  | c :: s => c :: joinPairs s
  | [] => []

/-- A line feed for each break: first for the pairs, then for the carriage returns that are left. -/
def unified (text : Text) : Text := (joinPairs text).map fun c => if c = '\r' then '\n' else c

/-! ## Reading over a break -/

theorem BreakBefore.cases {brk rest : Text} (h : BreakBefore brk rest) :
    brk = ['\n'] ∨ brk = ['\r', '\n'] ∨ brk = ['\r'] ∧ ∀ s, rest ≠ '\n' :: s := by
  obtain rfl | rfl | rfl := h.isBreak
  · exact .inl rfl
  · exact .inr (.inl rfl)
  · refine .inr (.inr ⟨rfl, ?_⟩)
    rintro s rfl
    exact h.whole rfl rfl

theorem lines_append_break {line brk rest : Text} (hline : IsUnbroken line) (hbrk : BreakBefore brk rest) :
    lines (line ++ (brk ++ rest)) = line :: lines rest := by
  have hbreak : ∀ current, splitFrom current (brk ++ rest) = current.reverse :: lines rest := by
    obtain rfl | rfl | ⟨rfl, hrest⟩ := hbrk.cases
    · exact fun _ => rfl
    · exact fun _ => rfl
    · exact splitFrom_return hrest
  rw [lines, splitFrom_unbroken hline, hbreak, List.append_nil, List.reverse_reverse]

theorem joinPairs_return {s : Text} (h : ∀ t, s ≠ '\n' :: t) :
    joinPairs ('\r' :: s) = '\r' :: joinPairs s := by
  rw [joinPairs]
  simpa using h

theorem joinPairs_cons {c : Char} (hc : c ≠ '\r') (s : Text) : joinPairs (c :: s) = c :: joinPairs s := by
  rw [joinPairs]
  simp [hc]

theorem unified_unbroken {line : Text} (h : IsUnbroken line) (rest : Text) :
    unified (line ++ rest) = line ++ unified rest := by
  induction line with
  | nil => rfl
  | cons c line ih =>
    have hc : c ≠ '\r' := fun he => h.2 (by simp [he])
    have hline : IsUnbroken line := h.of_subset (List.subset_cons_self c line)
    rw [List.cons_append, List.cons_append, ← ih hline, unified, joinPairs_cons hc, List.map_cons, if_neg hc]
    rfl

theorem unified_break {brk rest : Text} (h : BreakBefore brk rest) :
    unified (brk ++ rest) = '\n' :: unified rest := by
  obtain rfl | rfl | ⟨rfl, hrest⟩ := h.cases
  · rfl
  · rfl
  · rw [unified, List.singleton_append, joinPairs_return hrest]
    rfl

/-! ## The lines and breaks of a text -/

theorem exists_splits (text : Text) : ∃ breaks, Splits text (lines text) breaks := by
  have hfrom (current text : Text) (hc : IsUnbroken current.reverse) :
      ∃ breaks, Splits (current.reverse ++ text) (splitFrom current text) breaks := by
    have hnil : IsUnbroken [].reverse := ⟨by simp, by simp⟩
    fun_induction splitFrom current text with
    | case1 current =>
      rw [List.append_nil]
      exact ⟨[], .last hc⟩
    | case2 current s ih =>
      obtain ⟨breaks, h⟩ := ih hnil
      exact ⟨_, .next hc ⟨.inl rfl, by simp⟩ h⟩
    | case3 current s ih =>
      obtain ⟨breaks, h⟩ := ih hnil
      exact ⟨_, .next hc ⟨.inr (.inl rfl), by simp⟩ h⟩
    | case4 current s hs ih =>
      obtain ⟨breaks, h⟩ := ih hnil
      refine ⟨_, .next hc ⟨.inr (.inr rfl), fun _ hhead => ?_⟩ h⟩
      obtain ⟨t, ht⟩ := List.head?_eq_some_iff.mp hhead
      exact hs t ht
    | case5 current c s hn _ hr ih =>
      have hc' : IsUnbroken (c :: current).reverse := by
        rw [List.reverse_cons]
        exact hc.append ⟨by simpa using fun he => hn he.symm, by simpa using fun he => hr he.symm⟩
      simpa using ih hc'
  exact hfrom [] text ⟨by simp, by simp⟩

theorem Splits.eq_lines {text : Text} {ls breaks : List Text} (h : Splits text ls breaks) :
    ls = lines text := by
  induction h with
  | last hline => rw [lines_of_unbroken hline]
  | next hline hbrk _ ih => rw [lines_append_break hline hbrk, ih]

theorem Splits.length {text : Text} {ls breaks : List Text} (h : Splits text ls breaks) :
    ls.length = breaks.length + 1 := by
  induction h with
  | last => rfl
  | next _ _ _ ih => rw [List.length_cons, List.length_cons, ih]

theorem Splits.splitOn_unified {text : Text} {ls breaks : List Text} (h : Splits text ls breaks) :
    (unified text).splitOn '\n' = ls := by
  induction h with
  | @last line hline =>
    have hsame := unified_unbroken hline []
    rw [List.append_nil] at hsame
    rw [hsame]
    simpa [unified, joinPairs] using List.splitOn_eq_singleton hline.1
  | next hline hbrk _ ih =>
    rw [unified_unbroken hline, unified_break hbrk, List.splitOn_append_cons_self_of_not_mem hline.1, ih]

/-- The texts have the same lines, with any breaks between them. -/
def SameLines (text other : Text) : Prop :=
  ∃ ls breaks others, Splits text ls breaks ∧ Splits other ls others

theorem sameLines_iff {text other : Text} : SameLines text other ↔ lines text = lines other := by
  constructor
  · rintro ⟨ls, breaks, others, h, hother⟩
    rw [← h.eq_lines, hother.eq_lines]
  · intro h
    obtain ⟨breaks, htext⟩ := exists_splits text
    obtain ⟨others, hother⟩ := exists_splits other
    exact ⟨lines text, breaks, others, htext, h ▸ hother⟩

end Source

/-- The documents differ at most in the breaks of their texts. -/
structure Document.SameLines (d e : Document) : Prop where
  text : Source.SameLines d.text e.text
  version : d.version = e.version
  stamp : d.stamp = e.stamp

theorem Document.SameLines.index {d e : Document} (h : d.SameLines e) (cancelled : Bool) :
    d.index cancelled = e.index cancelled := by
  rw [Document.index, Document.index, Source.sameLines_iff.mp h.text]

namespace Session

/-- The sessions differ at most in the breaks of the texts they keep. -/
structure SameLines (s t : Session) : Prop where
  document : ∀ a, Option.Rel Document.SameLines (s.document? a) (t.document? a)
  held : ∀ name, Option.Rel Document.SameLines (s.held? name) (t.held? name)
  cancelled : s.cancelled = t.cancelled
  nextStamp : s.nextStamp = t.nextStamp
  catalog : s.catalog = t.catalog
  settings : s.settings = t.settings

/-- The steps differ at most in the breaks of the texts they bring. -/
inductive Step.SameLines : Step → Step → Prop
  | same (step : Step) : SameLines step step
  | openDocument (address languageId : Text) {text other : Text} (version : Int) :
      Source.SameLines text other →
      SameLines (.openDocument address languageId text version)
        (.openDocument address languageId other version)
  | changeDocument (address : Text) (version : Int) {texts others : List Text} :
      List.Forall₂ Source.SameLines texts others →
      SameLines (.changeDocument address version texts) (.changeDocument address version others)

theorem rel_cases {α : Type} {r : α → α → Prop} {o p : Option α} (h : Option.Rel r o p) :
    (o = none ∧ p = none) ∨ ∃ a b, o = some a ∧ p = some b ∧ r a b := by
  cases h with
  | none => exact .inl ⟨rfl, rfl⟩
  | some hr => exact .inr ⟨_, _, rfl, rfl, hr⟩

theorem rel_getLast? {α : Type} {r : α → α → Prop} {xs ys : List α} (h : List.Forall₂ r xs ys) :
    Option.Rel r xs.getLast? ys.getLast? := by
  induction h with
  | nil => exact .none
  | cons hr _ ih =>
    rw [List.getLast?_cons, List.getLast?_cons]
    obtain ⟨hx, hy⟩ | ⟨a, b, hx, hy, hab⟩ := rel_cases ih
    · simpa [hx, hy] using Option.Rel.some hr
    · simpa [hx, hy] using Option.Rel.some hab

/-! ## One step -/

variable {s t : Session}

theorem sameLines_start : start.SameLines start where
  document a := by
    rw [document?_start]
    exact .none
  held name := by
    rw [held?, start, Std.TreeMap.getElem?_emptyc]
    exact .none
  cancelled := rfl
  nextStamp := rfl
  catalog := rfl
  settings := rfl

theorem SameLines.cancel (h : s.SameLines t) {d e : Document} (hd : d.SameLines e) :
    (s.cancel d).SameLines (t.cancel e) where
  document := h.document
  held := h.held
  cancelled := by simp only [Session.cancel, hd.stamp, h.cancelled]
  nextStamp := h.nextStamp
  catalog := h.catalog
  settings := h.settings

theorem SameLines.cancelAt (h : s.SameLines t) (address : Text) :
    (s.cancelAt address).SameLines (t.cancelAt address) := by
  obtain ⟨hs, ht⟩ | ⟨d, e, hs, ht, hde⟩ := rel_cases (h.document address)
  · simpa only [Session.cancelAt, hs, ht] using h
  · simpa only [Session.cancelAt, hs, ht] using h.cancel hde

theorem SameLines.store (h : s.SameLines t) {text other : Text} (htext : Source.SameLines text other)
    (address : Text) (version : Int) :
    (s.store address text version).SameLines (t.store address other version) where
  document b := by
    rw [document?_store, document?_store, h.nextStamp]
    split
    · exact .some ⟨htext, rfl, rfl⟩
    · exact h.document b
  held := (h.cancelAt address).held
  cancelled := (h.cancelAt address).cancelled
  nextStamp := congrArg Nat.succ (h.cancelAt address).nextStamp
  catalog := (h.cancelAt address).catalog
  settings := (h.cancelAt address).settings

theorem SameLines.openDocument (h : s.SameLines t) {text other : Text} (htext : Source.SameLines text other)
    (address languageId : Text) (version : Int) :
    (s.openDocument address languageId text version).SameLines
      (t.openDocument address languageId other version) := by
  unfold Session.openDocument
  split
  · exact h.store htext address version
  · exact h

theorem SameLines.changeDocument (h : s.SameLines t) {texts others : List Text}
    (htexts : List.Forall₂ Source.SameLines texts others) (address : Text) (version : Int) :
    (s.changeDocument address version texts).SameLines (t.changeDocument address version others) := by
  unfold Session.changeDocument
  obtain ⟨hlast, hlast'⟩ | ⟨text, other, hlast, hlast', htext⟩ := rel_cases (rel_getLast? htexts)
  · simpa only [hlast, hlast'] using h
  obtain ⟨hs, ht⟩ | ⟨d, e, hs, ht, hde⟩ := rel_cases (h.document address)
  · simpa only [hlast, hlast', hs, ht] using h
  simp only [hlast, hlast', hs, ht, hde.version]
  split
  · exact h
  · exact h.store htext address version

theorem SameLines.closeDocument (h : s.SameLines t) (address : Text) :
    (s.closeDocument address).SameLines (t.closeDocument address) where
  document b := by
    rw [document?_closeDocument, document?_closeDocument]
    split
    · exact .none
    · exact h.document b
  held := (h.cancelAt address).held
  cancelled := (h.cancelAt address).cancelled
  nextStamp := (h.cancelAt address).nextStamp
  catalog := (h.cancelAt address).catalog
  settings := (h.cancelAt address).settings

theorem SameLines.hold (h : s.SameLines t) (address name : Text) :
    (s.hold address name).SameLines (t.hold address name) := by
  obtain ⟨hs, ht⟩ | ⟨d, e, hs, ht, hde⟩ := rel_cases (h.document address)
  · simpa only [Session.hold, hs, ht] using h
  · simp only [Session.hold, hs, ht]
    refine { h with held := fun other => ?_ }
    simp only [held?, Std.TreeMap.getElem?_insert]
    split
    · exact .some hde
    · exact h.held other

theorem SameLines.cancelHeld (h : s.SameLines t) (name : Text) :
    (s.cancelHeld name).SameLines (t.cancelHeld name) := by
  obtain ⟨hs, ht⟩ | ⟨d, e, hs, ht, hde⟩ := rel_cases (h.held name)
  · simpa only [Session.cancelHeld, hs, ht] using h
  · simpa only [Session.cancelHeld, hs, ht] using h.cancel hde

theorem SameLines.step (h : s.SameLines t) (shelf : Shelf) {step other : Step}
    (hstep : step.SameLines other) : (s.step shelf step).1.SameLines (t.step shelf other).1 := by
  cases hstep with
  | openDocument address languageId version htext => exact h.openDocument htext address languageId version
  | changeDocument address version htexts => exact h.changeDocument htexts address version
  | same =>
    cases step with
    | openDocument address languageId text version =>
      exact h.openDocument (Source.sameLines_iff.mpr rfl) address languageId version
    | changeDocument address version texts =>
      exact h.changeDocument (List.forall₂_same.mpr fun _ _ => Source.sameLines_iff.mpr rfl) address version
    | closeDocument address => exact h.closeDocument address
    | hold address name => exact h.hold address name
    | cancel name => exact h.cancelHeld name
    | configure options =>
      simp only [Session.step, configure]
      split
      · exact { h with settings := rfl }
      · exact h
    | ready =>
      simp only [Session.step, announce, h.settings]
      split
      · exact h
      · split
        · exact { h with catalog := rfl, settings := rfl }
        · exact h
    | setCatalog instructions registers =>
      simp only [Session.step]
      split
      · exact { h with catalog := rfl }
      · exact h
    | _ => exact h

/-! ## Whole runs -/

theorem SameLines.run (h : s.SameLines t) (shelf : Shelf) {steps others : List Step}
    (hsteps : List.Forall₂ Step.SameLines steps others) :
    (s.run shelf steps).1.SameLines (t.run shelf others).1 := by
  induction hsteps generalizing s t with
  | nil => exact h
  | cons hstep _ ih => exact ih (h.step shelf hstep)

theorem SameLines.index? (h : s.SameLines t) (address : Text) : s.index? address = t.index? address := by
  obtain ⟨hs, ht⟩ | ⟨d, e, hs, ht, hde⟩ := rel_cases (h.document address)
  · rw [Session.index?, Session.index?, hs, ht, Option.bind_none, Option.bind_none]
  · have hcancelled : s.isCancelled d = t.isCancelled e := by
      rw [isCancelled, isCancelled, h.cancelled, hde.stamp]
    rw [Session.index?, Session.index?, hs, ht, Option.bind_some, Option.bind_some, hcancelled, hde.index]

theorem SameLines.reply (h : s.SameLines t) (shelf : Shelf) (address : Text) (request : Request) :
    (s.step shelf (request.step address)).2 = (t.step shelf (request.step address)).2 := by
  cases request <;>
    simp only [Request.step, Session.step, hover?, definition?, symbols?, edits?, h.index?, h.catalog,
      h.settings]

end Session

namespace Source

/-- A text is its lines with breaks between them, in one way only, and the lines are those between the line
feeds of the text with unified breaks. Texts with the same lines have the same index. After any two runs whose
texts have the same lines, every request has the same reply. -/
theorem lines_between_breaks :
    (∀ text, (∃ breaks, Splits text (lines text) breaks ∧ (lines text).length = breaks.length + 1) ∧
      (∀ ls breaks, Splits text ls breaks → ls = lines text) ∧
      lines text = (unified text).splitOn '\n') ∧
    (∀ text other, SameLines text other → ∀ range poll,
      Index.build (lines text) range poll = Index.build (lines other) range poll) ∧
    ∀ shelf steps others, List.Forall₂ Session.Step.SameLines steps others → ∀ address request,
      ((Session.reached shelf steps).step shelf (Session.Request.step address request)).2 =
        ((Session.reached shelf others).step shelf (Session.Request.step address request)).2 := by
  refine ⟨fun text => ?_, fun text other h range poll => ?_, fun shelf steps others h address request => ?_⟩
  · obtain ⟨breaks, h⟩ := exists_splits text
    exact ⟨⟨breaks, h, h.length⟩, fun ls breaks h => h.eq_lines, h.splitOn_unified.symm⟩
  · rw [sameLines_iff.mp h]
  · exact (Session.sameLines_start.run shelf h).reply shelf address request

/-- All three breaks, in the place of each other and next to each other. -/
theorem lines_between_breaks_mixed :
    let text := "A EQU 1\r\n\nLOOP: NOP\r".toList
    let other := "A EQU 1\n\rLOOP: NOP\r\n".toList
    let address := "file:///w/main.as".toList
    let opened (text : Text) : List Session.Step :=
      [.openDocument address Address.language [] 1, .changeDocument address 2 [[], text]]
    let reply (text : Text) (request : Session.Request) : Session.Reply :=
      ((Session.reached (fun _ _ => none) (opened text)).step (fun _ _ => none) (request.step address)).2
    SameLines text other ∧ List.Forall₂ Session.Step.SameLines (opened text) (opened other) ∧
      lines text = (unified text).splitOn '\n' ∧
      Index.build (lines text) none .never = Index.build (lines other) none .never ∧
      ∀ request, reply text request = reply other request := by
  intro text other address opened reply
  have hsame : SameLines text other := sameLines_iff.mpr (by decide)
  have hopened : List.Forall₂ Session.Step.SameLines (opened text) (opened other) :=
    .cons (.same _)
      (.cons (.changeDocument address 2 (.cons (sameLines_iff.mpr rfl) (.cons hsame .nil))) .nil)
  obtain ⟨hlines, hindex, hreply⟩ := lines_between_breaks
  exact ⟨hsame, hopened, (hlines text).2.2, hindex text other hsame none .never,
    fun request => hreply _ _ _ hopened address request⟩

end Source

end AsmAssist
