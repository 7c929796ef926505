import AsmAssist.Proofs.History

/-!
# Cancelled documents

A document that was taken from a session keeps its stamp. As long as nothing is cancelled explicitly, the
stamp is cancelled exactly when the document it was taken from has been superseded: its address was opened
again, changed or closed, whatever is there now. Open documents are never cancelled.
-/

namespace AsmAssist

open Format (indexOf indexOf_cancelled)

theorem Source.lines_ne_nil (text : Text) : lines text ≠ [] := by
  have hfrom (current text : Text) : splitFrom current text ≠ [] := by
    fun_induction splitFrom current text <;> simp_all
  exact hfrom [] text

theorem Document.index_true (d : Document) :
    (d.index true).lines = [] ∧ (d.index true).cancelled = true := by
  have hpoll : (Poll.always true).scan 0 (Source.lines d.text).zipIdx = ([], true) := by
    obtain ⟨first, rest, hlines⟩ := List.exists_cons_of_ne_nil (Source.lines_ne_nil d.text)
    rw [hlines]
    rfl
  simp [Document.index, Index.build, Index.selected, hpoll, Index.ofLines]

namespace Session

/-- A step of `future` revises an address, after the steps of `past`. -/
def Superseded (address : Text) (past future : List Step) : Prop :=
  ∃ before step after, future = before ++ step :: after ∧
    step.revision address (history address (past ++ before)) ≠ .keep

/-- Which documents are cancelled after some steps. -/
structure CancelsSuperseded (shelf : Shelf) (steps : List Step) : Prop where
  current : ∀ address d, (reached shelf steps).document? address = some d →
    (reached shelf steps).isCancelled d = false
  apart : ∀ a b d e, (reached shelf steps).document? a = some d →
    (reached shelf steps).document? b = some e → a ≠ b → d.stamp ≠ e.stamp
  /-- Every held document was taken by a step. -/
  taken : ∀ name d, (reached shelf steps).held? name = some d →
    ∃ before address after, steps = before ++ .hold address name :: after ∧
      (reached shelf before).document? address = some d
  /-- What a step took is cancelled once its address has another document or none. -/
  cancelled_iff : ∀ before address name after d, steps = before ++ .hold address name :: after →
    (reached shelf before).document? address = some d →
      ((reached shelf steps).isCancelled d = true ↔
        (reached shelf steps).document? address ≠ some d) ∧
      ((reached shelf steps).isCancelled d = true ↔ Superseded address before (.hold address name :: after))
  index : ∀ name d, (reached shelf steps).held? name = some d →
    let index := d.index ((reached shelf steps).isCancelled d)
    if (reached shelf steps).isCancelled d then index.lines = [] ∧ index.cancelled = true
    else index = indexOf d.text ∧ index.cancelled = false

theorem isCancelled_iff {s : Session} {d : Document} : s.isCancelled d = true ↔ d.stamp ∈ s.cancelled := by
  simp [isCancelled]

/-! ## One document along a run -/

/-- A document with a given stamp is at an address if it was there and the step kept it. -/
theorem Revises.document_iff {r : Text → Revision} {s t : Session} (h : Revises r s t) {d : Document}
    (hd : d.stamp < s.nextStamp) (address : Text) :
    t.document? address = some d ↔ r address = .keep ∧ s.document? address = some d := by
  rw [h.document]
  constructor
  · intro hplace
    obtain hkept | ⟨-, hnew⟩ := Revision.place_cases hplace
    · exact hkept
    · omega
  · rintro ⟨hkeep, hold⟩
    rw [hkeep]
    exact hold

/-- A document that was once at an address: no other has its stamp. -/
structure Follows (address : Text) (d : Document) (s : Session) : Prop where
  given : d.stamp < s.nextStamp
  own : ∀ a e, s.document? a = some e → e.stamp = d.stamp → a = address ∧ e = d
  cancelled_iff : d.stamp ∈ s.cancelled ↔ s.document? address ≠ some d

theorem WellStamped.follows {s : Session} (hs : WellStamped s) {address : Text} {d : Document}
    (hd : s.document? address = some d) : Follows address d s where
  given := hs.given address d hd
  own a e he heq := by
    have ha := hs.apart a address e d he hd heq
    rw [ha, hd] at he
    exact ⟨ha, (Option.some.inj he).symm⟩
  cancelled_iff := iff_of_false (hs.current address d hd) (fun hne => hne hd)

theorem Follows.revises {address : Text} {d : Document} {r : Text → Revision} {s t : Session}
    (hf : Follows address d s) (h : Revises r s t) : Follows address d t where
  given := Nat.lt_of_lt_of_le hf.given h.later
  own a e he heq :=
    hf.own a e ((h.document_iff (heq ▸ hf.given) a).1 he).2 heq
  cancelled_iff := by
    rw [h.cancelled, hf.cancelled_iff, Ne, Ne, h.document_iff hf.given]
    constructor
    · rintro (hgone | ⟨a, e, he, heq, hrevised⟩) ⟨hkeep, hold⟩
      · exact hgone hold
      · exact hrevised ((hf.own a e he heq).1 ▸ hkeep)
    · intro hgone
      by_cases hold : s.document? address = some d
      · exact .inr ⟨address, d, hold, rfl, fun hkeep => hgone ⟨hkeep, hold⟩⟩
      · exact .inl hold

theorem superseded_cons {address : Text} {past future : List Step} {step : Step} :
    Superseded address past (step :: future) ↔
      step.revision address (history address past) ≠ .keep ∨
        Superseded address (past ++ [step]) future := by
  constructor
  · rintro ⟨before, later, after, heq, hrevised⟩
    cases before with
    | nil =>
      obtain ⟨rfl, -⟩ := List.cons.inj heq
      exact .inl (by simpa using hrevised)
    | cons first before =>
      obtain ⟨rfl, rfl⟩ := List.cons.inj heq
      exact .inr ⟨before, later, after, rfl, by simpa using hrevised⟩
  · rintro (hrevised | ⟨before, later, after, rfl, hrevised⟩)
    · exact ⟨[], step, future, rfl, by simpa using hrevised⟩
    · exact ⟨step :: before, later, after, rfl, by simpa using hrevised⟩

theorem reached_snoc (shelf : Shelf) (past : List Step) (step : Step) :
    reached shelf (past ++ [step]) = ((reached shelf past).step shelf step).1 :=
  reached_append shelf past [step]

/-- A document stays where it is until a step revises its address, and it does not come back. -/
theorem document?_reached_iff (shelf : Shelf) {past future : List Step}
    (h : Uncancelled (past ++ future)) (address : Text) {d : Document}
    (hd : d.stamp < (reached shelf past).nextStamp) :
    (reached shelf (past ++ future)).document? address = some d ↔
      (reached shelf past).document? address = some d ∧ ¬ Superseded address past future := by
  induction future generalizing past with
  | nil => simp [Superseded]
  | cons step future ih =>
    have hstep := revises_step shelf (reached shelf past) (h.ne (by simp : step ∈ past ++ step :: future))
    rw [← reached_snoc] at hstep
    have hrevision : (reached shelf past).revision step address =
        step.revision address (history address past) := by
      rw [revision, content?_reached shelf h.of_append_left]
    rw [List.append_cons] at h ⊢
    rw [ih h (Nat.lt_of_lt_of_le hd hstep.later), hstep.document_iff hd, superseded_cons, hrevision]
    grind

/-! ## Held documents -/

theorem cancelAt_held (s : Session) (a : Text) : (s.cancelAt a).held = s.held := by
  unfold cancelAt
  split <;> rfl

theorem store_held (s : Session) (a text : Text) (version : Int) :
    (s.store a text version).held = s.held :=
  cancelAt_held s a

theorem held_step (shelf : Shelf) (s : Session) {step : Step}
    (h : ∀ address name, step ≠ .hold address name) : (s.step shelf step).1.held = s.held := by
  cases step with
  | hold address name => exact absurd rfl (h address name)
  | openDocument a languageId text version =>
    simp only [Session.step, openDocument]
    split
    · exact store_held s a text version
    · rfl
  | changeDocument a version texts =>
    simp only [Session.step, changeDocument]
    split
    · split
      · rfl
      · exact store_held s a _ version
    · rfl
  | closeDocument a => exact cancelAt_held s a
  | cancel name =>
    simp only [Session.step, cancelHeld]
    split <;> rfl
  | configure options =>
    simp only [Session.step, configure]
    split <;> rfl
  | ready =>
    simp only [Session.step, announce]
    split
    · rfl
    · split <;> rfl
  | setCatalog instructions registers =>
    simp only [Session.step]
    split <;> rfl
  | _ => rfl

theorem held?_step {shelf : Shelf} {s : Session} {step : Step} {name : Text} {d : Document}
    (h : (s.step shelf step).1.held? name = some d) :
    s.held? name = some d ∨ ∃ address, step = .hold address name ∧ s.document? address = some d := by
  by_cases hhold : ∃ address n, step = .hold address n
  · obtain ⟨address, n, rfl⟩ := hhold
    simp only [Session.step, hold] at h
    split at h
    next e he =>
      rw [held?, Std.TreeMap.getElem?_insert] at h
      split at h
      next hname =>
        obtain rfl := Std.LawfulEqCmp.compare_eq_iff_eq.1 hname
        cases h
        exact .inr ⟨address, rfl, he⟩
      next => exact .inl h
    next => exact .inl h
  · have hsame := held_step shelf s fun address n heq => hhold ⟨address, n, heq⟩
    rw [held?, hsame] at h
    exact .inl h

/-- A held document was held before or is taken by a step. -/
theorem held?_reached {shelf : Shelf} {past future : List Step} {name : Text} {d : Document}
    (h : (reached shelf (past ++ future)).held? name = some d) :
    (reached shelf past).held? name = some d ∨
      ∃ before address after, future = before ++ .hold address name :: after ∧
        (reached shelf (past ++ before)).document? address = some d := by
  induction future generalizing past with
  | nil => exact .inl (by simpa using h)
  | cons step future ih =>
    rw [List.append_cons] at h
    obtain hheld | ⟨before, address, after, rfl, hd⟩ := ih h
    · rw [reached_snoc] at hheld
      obtain hold | ⟨address, rfl, hd⟩ := held?_step hheld
      · exact .inl hold
      · exact .inr ⟨[], address, future, rfl, by simpa using hd⟩
    · exact .inr ⟨step :: before, address, after, rfl, by simpa using hd⟩

/-- No step takes a cancellation back. -/
theorem isCancelled_step (shelf : Shelf) (s : Session) (step : Step) {d : Document}
    (h : s.isCancelled d = true) : (s.step shelf step).1.isCancelled d = true := by
  rw [isCancelled_iff] at h ⊢
  by_cases hcancel : ∃ name, step = .cancel name
  · obtain ⟨name, rfl⟩ := hcancel
    simp only [Session.step, cancelHeld]
    split
    · exact List.mem_cons_of_mem _ h
    · exact h
  · have hstep := revises_step shelf s fun name heq => hcancel ⟨name, heq⟩
    exact (hstep.cancelled _).2 (.inl h)

/-- As long as nothing is cancelled explicitly, exactly the superseded documents are cancelled, and they
stay so. -/
theorem cancellation_marks_superseded (shelf : Shelf) {steps : List Step} (h : Uncancelled steps) :
    CancelsSuperseded shelf steps ∧
      ∀ s step d, isCancelled s d = true → (s.step shelf step).1.isCancelled d = true := by
  have hs := wellStamped_reached shelf h
  refine ⟨⟨?_, ?_, ?_, ?_, ?_⟩, fun s step d hd => isCancelled_step shelf s step hd⟩
  · intro address d hd
    rw [Bool.eq_false_iff, Ne, isCancelled_iff]
    exact hs.current address d hd
  · intro a b d e hd he hne heq
    exact hne (hs.apart a b d e hd he heq)
  · intro name d hd
    have hrun : (reached shelf ([] ++ steps)).held? name = some d := hd
    obtain hstart | htaken := held?_reached hrun
    · cases hstart.symm.trans Std.TreeMap.getElem?_emptyc
    · exact htaken
  · rintro before address name after d rfl hd
    have hbefore := wellStamped_reached shelf h.of_append_left
    have hfollows : Follows address d (reached shelf (before ++ .hold address name :: after)) := by
      rw [reached_append]
      exact run_invariant
        (fun s step hmem hf => hf.revises (revises_step shelf s (h.ne (List.mem_append_right before hmem))))
        (hbefore.follows hd)
    have hexact := isCancelled_iff.trans hfollows.cancelled_iff
    refine ⟨hexact, hexact.trans ?_⟩
    rw [Ne, document?_reached_iff shelf h address (hbefore.given address d hd)]
    simp [hd]
  · intro name d hd
    cases (reached shelf steps).isCancelled d with
    | true => exact d.index_true
    | false => exact ⟨rfl, indexOf_cancelled d.text⟩

/-- Two documents are held. The first is closed and opened again with the same text, so what was held of it
is cancelled; a late change and a refused opening leave the second alone. -/
theorem cancellation_marks_superseded_reopened :
    let shelf : Shelf := fun _ _ => none
    let main := "file:///w/main.as".toList
    let other := "file:///w/other".toList
    let before : List Step := [.openDocument main "p4".toList "NOP".toList 1,
      .openDocument other "p4".toList "NOP".toList 2]
    let after : List Step := [.hold other "b".toList, .closeDocument main,
      .openDocument main "p4".toList "NOP".toList 1, .changeDocument other 1 ["DEC R1".toList],
      .openDocument other "plain".toList "DEC R1".toList 3]
    let steps := before ++ .hold main "a".toList :: after
    Uncancelled steps ∧ (reached shelf before).document? main = some ⟨"NOP".toList, 1, 0⟩ ∧
      (reached shelf steps).document? main = some ⟨"NOP".toList, 1, 2⟩ ∧
      (reached shelf steps).isCancelled ⟨"NOP".toList, 1, 0⟩ = true ∧
      (reached shelf steps).document? other = some ⟨"NOP".toList, 2, 1⟩ ∧
      (reached shelf steps).isCancelled ⟨"NOP".toList, 2, 1⟩ = false := by
  intro shelf main other before after steps
  have h : Uncancelled steps := by simp [Uncancelled, steps, before, after]
  have hbefore : (reached shelf before).document? main = some ⟨"NOP".toList, 1, 0⟩ := by decide +kernel
  have hmain : (reached shelf steps).document? main = some ⟨"NOP".toList, 1, 2⟩ := by decide +kernel
  have hother : (reached shelf steps).document? other = some ⟨"NOP".toList, 2, 1⟩ := by decide +kernel
  obtain ⟨hcancels, -⟩ := cancellation_marks_superseded shelf h
  refine ⟨h, hbefore, hmain, ?_, hother, hcancels.current other _ hother⟩
  rw [(hcancels.cancelled_iff before main "a".toList after _ rfl hbefore).1, hmain]
  decide

end Session

end AsmAssist
