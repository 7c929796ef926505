import AsmAssist.Session.Step

/-!
# What a step does to the documents

At each address a step keeps what is there, puts a new text in its place or drops it, and it revises one
address at most. A text put somewhere gets a stamp that no text had before, and a stamp is cancelled exactly
when the text that carries it is revised. Every invariant of the documents follows from this.
-/

namespace AsmAssist

/-- A document without its stamp. -/
structure Content where
  text : Text
  version : Int
  deriving DecidableEq, Repr

def Document.content (d : Document) : Content := ⟨d.text, d.version⟩

inductive Revision
  | keep
  | put (content : Content)
  | drop
  deriving DecidableEq, Repr

namespace Revision

def apply : Revision → Option Content → Option Content
  | .keep, content => content
  | .put content, _ => some content
  | .drop, _ => none

/-- The document at a revised address, when the next stamp is given. -/
def place (stamp : Nat) : Revision → Option Document → Option Document
  | .keep, document => document
  | .put content, _ => some ⟨content.text, content.version, stamp⟩
  | .drop, _ => none

theorem content_place (stamp : Nat) (r : Revision) (document : Option Document) :
    (r.place stamp document).map Document.content = r.apply (document.map Document.content) := by
  cases r <;> rfl

/-- A document at a revised address was there before, or it carries the next stamp. -/
theorem place_cases {stamp : Nat} {r : Revision} {document : Option Document} {d : Document}
    (h : r.place stamp document = some d) :
    (r = .keep ∧ document = some d) ∨ (∃ content, r = .put content) ∧ d.stamp = stamp := by
  cases r with
  | keep => exact .inl ⟨rfl, h⟩
  | put content =>
    cases h
    exact .inr ⟨⟨content, rfl⟩, rfl⟩
  | drop => cases h

end Revision

namespace Session

/-- What a step does at an address, by the content there. -/
def Step.revision (address : Text) (content : Option Content) : Step → Revision
  | .openDocument a languageId text version =>
    if a = address ∧ (languageId = Address.language ∨ Address.isAssembly a) then .put ⟨text, version⟩
    else .keep
  | .changeDocument a version texts =>
    match content, texts.getLast? with
    | some old, some text =>
      if a = address ∧ old.version ≤ version then .put ⟨text, version⟩ else .keep
    | _, _ => .keep
  | .closeDocument a => if a = address then .drop else .keep
  | _ => .keep

def content? (s : Session) (address : Text) : Option Content := (s.document? address).map Document.content

def revision (s : Session) (step : Step) (address : Text) : Revision :=
  step.revision address (s.content? address)

/-! ## Storing and closing -/

@[simp]
theorem cancelAt_documents (s : Session) (a : Text) : (s.cancelAt a).documents = s.documents := by
  unfold cancelAt
  split <;> rfl

@[simp]
theorem cancelAt_nextStamp (s : Session) (a : Text) : (s.cancelAt a).nextStamp = s.nextStamp := by
  unfold cancelAt
  split <;> rfl

theorem mem_cancelAt_cancelled {s : Session} {a : Text} {n : Nat} :
    n ∈ (s.cancelAt a).cancelled ↔
      n ∈ s.cancelled ∨ ∃ d, s.document? a = some d ∧ d.stamp = n := by
  unfold cancelAt
  cases h : s.document? a with
  | none => simp
  | some d =>
    simp only [cancel, List.mem_cons, Option.some.injEq, exists_eq_left']
    rw [or_comm, eq_comm]

theorem document?_store (s : Session) (a text : Text) (version : Int) (b : Text) :
    (s.store a text version).document? b =
      if a = b then some ⟨text, version, s.nextStamp⟩ else s.document? b := by
  simp [store, document?, Std.TreeMap.getElem?_insert]

theorem document?_closeDocument (s : Session) (a b : Text) :
    (s.closeDocument a).document? b = if a = b then none else s.document? b := by
  simp [closeDocument, document?, Std.TreeMap.getElem?_erase]

/-! ## One step -/

/-- The documents and stamps of a state `t` that comes from `s` by revising each address as given. -/
structure Revises (r : Text → Revision) (s t : Session) : Prop where
  document : ∀ a, t.document? a = (r a).place s.nextStamp (s.document? a)
  cancelled : ∀ n, n ∈ t.cancelled ↔
    n ∈ s.cancelled ∨ ∃ a d, s.document? a = some d ∧ d.stamp = n ∧ r a ≠ .keep
  later : s.nextStamp ≤ t.nextStamp
  fresh : ∀ a content, r a = .put content → s.nextStamp < t.nextStamp
  /-- Two addresses are never revised together. -/
  single : ∀ a b, r a ≠ .keep → r b ≠ .keep → a = b

theorem revises_keep {r : Text → Revision} {s t : Session} (h : ∀ a, r a = .keep)
    (hdocuments : t.documents = s.documents) (hcancelled : t.cancelled = s.cancelled)
    (hnext : t.nextStamp = s.nextStamp) : Revises r s t where
  document a := by simp only [h, document?, hdocuments, Revision.place]
  cancelled n := by simp [hcancelled, h]
  later := Nat.le_of_eq hnext.symm
  fresh a content hput := by rw [h] at hput; cases hput
  single a b ha := absurd (h a) ha

theorem single_of_else_keep {r : Text → Revision} {a : Text} (h : ∀ b, a ≠ b → r b = .keep) :
    ∀ b c, r b ≠ .keep → r c ≠ .keep → b = c := by
  have hself : ∀ b, r b ≠ .keep → b = a := fun b hb =>
    Decidable.byContradiction fun hne => hb (h b (Ne.symm hne))
  intro b c hb hc
  rw [hself b hb, hself c hc]

/-- The stamps cancelled by revising one address are those of the document there. -/
theorem exists_revised_iff {r : Text → Revision} {s : Session} {a : Text} (ha : r a ≠ .keep)
    (h : ∀ b, a ≠ b → r b = .keep) (n : Nat) :
    (∃ b d, s.document? b = some d ∧ d.stamp = n ∧ r b ≠ .keep) ↔
      ∃ d, s.document? a = some d ∧ d.stamp = n := by
  constructor
  · rintro ⟨b, d, hd, hn, hb⟩
    exact ⟨d, single_of_else_keep h b a hb ha ▸ hd, hn⟩
  · rintro ⟨d, hd, hn⟩
    exact ⟨a, d, hd, hn, ha⟩

theorem revises_store {r : Text → Revision} {a text : Text} {version : Int} (s : Session)
    (h : ∀ b, r b = if a = b then .put ⟨text, version⟩ else .keep) :
    Revises r s (s.store a text version) := by
  have ha : r a ≠ .keep := by simp [h]
  have helse : ∀ b, a ≠ b → r b = .keep := fun b hb => by simp [h, hb]
  refine ⟨fun b => ?_, fun n => ?_, Nat.le_of_lt ?_, fun _ _ _ => ?_, single_of_else_keep helse⟩
  · rw [document?_store, h]
    split <;> rfl
  · rw [exists_revised_iff ha helse]
    exact mem_cancelAt_cancelled
  all_goals
    simp only [store, cancelAt_nextStamp]
    exact Nat.lt_succ_self _

theorem revises_closeDocument {r : Text → Revision} {a : Text} (s : Session)
    (h : ∀ b, r b = if a = b then .drop else .keep) : Revises r s (s.closeDocument a) := by
  have ha : r a ≠ .keep := by simp [h]
  have helse : ∀ b, a ≠ b → r b = .keep := fun b hb => by simp [h, hb]
  refine ⟨fun b => ?_, fun n => ?_, ?_, fun b content hput => ?_, single_of_else_keep helse⟩
  · rw [document?_closeDocument, h]
    split <;> rfl
  · rw [exists_revised_iff ha helse]
    exact mem_cancelAt_cancelled
  · simp [closeDocument]
  · rw [h] at hput
    split at hput <;> cases hput

theorem revises_openDocument (s : Session) (a languageId text : Text) (version : Int) :
    Revises (s.revision (.openDocument a languageId text version)) s
      (s.openDocument a languageId text version) := by
  unfold openDocument Address.supports
  by_cases h : languageId = Address.language ∨ Address.isAssembly a
  · simp only [Bool.or_eq_true, decide_eq_true_eq, h, if_true]
    exact revises_store s fun b => by simp [revision, Step.revision, h]
  · simp only [Bool.or_eq_true, decide_eq_true_eq, h, if_false]
    exact revises_keep (fun b => by simp [revision, Step.revision, h]) rfl rfl rfl

theorem revises_changeDocument (s : Session) (a : Text) (version : Int) (texts : List Text) :
    Revises (s.revision (.changeDocument a version texts)) s (s.changeDocument a version texts) := by
  -- Elsewhere a change keeps what it finds, whatever the version there.
  have helse : ∀ b, a ≠ b → s.revision (.changeDocument a version texts) b = .keep := by
    intro b hb
    simp only [revision, Step.revision, hb, false_and, if_false]
    split <;> rfl
  unfold changeDocument
  split
  next text d htext hd =>
    have hself : s.revision (.changeDocument a version texts) a =
        if d.version ≤ version then .put ⟨text, version⟩ else .keep := by
      simp [revision, Step.revision, content?, hd, htext, Document.content]
    split
    next hold =>
      refine revises_keep (fun b => ?_) rfl rfl rfl
      by_cases hb : a = b
      · subst hb
        rw [hself, if_neg (Int.not_le.2 hold)]
      · exact helse b hb
    next hold =>
      refine revises_store s fun b => ?_
      by_cases hb : a = b
      · subst hb
        rw [hself, if_pos (Int.not_lt.1 hold), if_pos rfl]
      · rw [helse b hb, if_neg hb]
  next hnone =>
    refine revises_keep (fun b => ?_) rfl rfl rfl
    by_cases hb : a = b
    · subst hb
      simp only [revision, Step.revision, content?]
      split
      next old text hcontent htext =>
        obtain ⟨d, hd, -⟩ := Option.map_eq_some_iff.1 hcontent
        exact absurd hd (hnone text d htext)
      next => rfl
    · exact helse b hb

/-- Every step but an explicit cancellation revises the documents as it says. -/
theorem revises_step (shelf : Shelf) (s : Session) {step : Step} (h : ∀ name, step ≠ .cancel name) :
    Revises (s.revision step) s (s.step shelf step).1 := by
  cases step with
  | openDocument a languageId text version => exact revises_openDocument s a languageId text version
  | changeDocument a version texts => exact revises_changeDocument s a version texts
  | closeDocument a => exact revises_closeDocument s fun b => rfl
  | cancel name => exact absurd rfl (h name)
  | configure options =>
    simp only [Session.step, configure]
    split <;> exact revises_keep (fun b => rfl) rfl rfl rfl
  | ready =>
    simp only [Session.step, announce]
    split
    · exact revises_keep (fun b => rfl) rfl rfl rfl
    · split <;> exact revises_keep (fun b => rfl) rfl rfl rfl
  | hold a name =>
    simp only [Session.step, hold]
    split <;> exact revises_keep (fun b => rfl) rfl rfl rfl
  | setCatalog instructions registers =>
    simp only [Session.step]
    split <;> exact revises_keep (fun b => rfl) rfl rfl rfl
  | _ => exact revises_keep (fun b => rfl) rfl rfl rfl

/-! ## Whole runs -/

@[simp]
theorem document?_start (a : Text) : start.document? a = none := Std.TreeMap.getElem?_emptyc

/-- The state that steps lead to from the start. -/
def reached (shelf : Shelf) (steps : List Step) : Session := (start.run shelf steps).1

/-- No step cancels a document explicitly. -/
def Uncancelled (steps : List Step) : Prop := ∀ name, .cancel name ∉ steps

theorem Uncancelled.ne {steps : List Step} (h : Uncancelled steps) {step : Step} (hmem : step ∈ steps)
    (name : Text) : step ≠ .cancel name :=
  fun heq => h name (heq ▸ hmem)

theorem Uncancelled.of_append_left {before after : List Step} (h : Uncancelled (before ++ after)) :
    Uncancelled before :=
  fun name hmem => h name (List.mem_append_left after hmem)

theorem run_append (shelf : Shelf) (s : Session) (before after : List Step) :
    s.run shelf (before ++ after) =
      (((s.run shelf before).1.run shelf after).1,
        (s.run shelf before).2 ++ ((s.run shelf before).1.run shelf after).2) := by
  induction before generalizing s with
  | nil => rfl
  | cons first rest ih =>
    simp only [List.cons_append, run, ih]

theorem reached_append (shelf : Shelf) (before after : List Step) :
    reached shelf (before ++ after) = ((reached shelf before).run shelf after).1 := by
  rw [reached, run_append]
  rfl

theorem length_run (shelf : Shelf) (s : Session) (steps : List Step) :
    (s.run shelf steps).2.length = steps.length := by
  induction steps generalizing s with
  | nil => rfl
  | cons first rest ih => simp [run, ih]

/-- What every step keeps, a run keeps. -/
theorem run_invariant {shelf : Shelf} {Inv : Session → Prop} {steps : List Step}
    (hstep : ∀ s, ∀ step ∈ steps, Inv s → Inv (s.step shelf step).1) {s : Session} (h : Inv s) :
    Inv (s.run shelf steps).1 := by
  induction steps generalizing s with
  | nil => exact h
  | cons first rest ih =>
    have hfirst := hstep s first List.mem_cons_self h
    exact ih (fun s step hmem => hstep s step (List.mem_cons_of_mem first hmem)) hfirst

/-! ## Stamps -/

/-- Stamps are given once, no two addresses have one in common, and no document is cancelled. -/
structure WellStamped (s : Session) : Prop where
  given : ∀ a d, s.document? a = some d → d.stamp < s.nextStamp
  cancelled_given : ∀ n ∈ s.cancelled, n < s.nextStamp
  current : ∀ a d, s.document? a = some d → d.stamp ∉ s.cancelled
  apart : ∀ a b d e, s.document? a = some d → s.document? b = some e → d.stamp = e.stamp → a = b

theorem wellStamped_start : WellStamped start := by
  have hcancelled : start.cancelled = [] := rfl
  constructor <;> simp [document?_start, hcancelled]

theorem WellStamped.revises {r : Text → Revision} {s t : Session} (hs : WellStamped s)
    (h : Revises r s t) : WellStamped t := by
  have hfrom : ∀ a d, t.document? a = some d → (r a = .keep ∧ s.document? a = some d) ∨
      (∃ content, r a = .put content) ∧ d.stamp = s.nextStamp :=
    fun a d hd => Revision.place_cases (h.document a ▸ hd)
  refine ⟨fun a d hd => ?_, fun n hn => ?_, fun a d hd hmem => ?_, fun a b d e hd he heq => ?_⟩
  · obtain ⟨-, hold⟩ | ⟨⟨content, hput⟩, hnew⟩ := hfrom a d hd
    · exact Nat.lt_of_lt_of_le (hs.given a d hold) h.later
    · rw [hnew]
      exact h.fresh a content hput
  · obtain hold | ⟨a, d, hd, rfl, -⟩ := (h.cancelled n).1 hn
    · exact Nat.lt_of_lt_of_le (hs.cancelled_given n hold) h.later
    · exact Nat.lt_of_lt_of_le (hs.given a d hd) h.later
  · obtain hold | ⟨b, e, he, heq, hb⟩ := (h.cancelled _).1 hmem
    · obtain ⟨-, hkept⟩ | ⟨-, hnew⟩ := hfrom a d hd
      · exact hs.current a d hkept hold
      · exact Nat.lt_irrefl _ (hnew ▸ hs.cancelled_given _ hold)
    · obtain ⟨hkeep, hkept⟩ | ⟨-, hnew⟩ := hfrom a d hd
      · exact hb (hs.apart b a e d he hkept heq ▸ hkeep)
      · exact Nat.lt_irrefl _ (hnew ▸ heq ▸ hs.given b e he)
  · obtain ⟨-, hd⟩ | ⟨⟨c, hput⟩, hnew⟩ := hfrom a d hd <;>
      obtain ⟨-, he⟩ | ⟨⟨c', hput'⟩, hnew'⟩ := hfrom b e he
    · exact hs.apart a b d e hd he heq
    · exact absurd (hs.given a d hd) (by omega)
    · exact absurd (hs.given b e he) (by omega)
    · exact h.single a b (by simp [hput]) (by simp [hput'])

theorem wellStamped_reached (shelf : Shelf) {steps : List Step} (h : Uncancelled steps) :
    WellStamped (reached shelf steps) :=
  run_invariant (fun s _ hmem hs => hs.revises (revises_step shelf s (h.ne hmem))) wellStamped_start

end Session

end AsmAssist
