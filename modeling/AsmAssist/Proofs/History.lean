import AsmAssist.Proofs.Formatting
import AsmAssist.Proofs.Revision

/-!
# Documents and their history

What a session has at an address depends on the steps about that address alone. A request is answered from
the index of the whole text there, with the settings and the catalog of the moment: the stamp of a document
is not cancelled as long as the document is open.
-/

namespace AsmAssist.Session

open Format (indexOf indexOf_cancelled)

/-- Whether a step opens, changes or closes the document at an address. -/
def Step.isAbout (address : Text) : Step → Bool
  | .openDocument a _ _ _ => a = address
  | .changeDocument a _ _ => a = address
  | .closeDocument a => a = address
  | _ => false

def Step.amend (address : Text) (content : Option Content) (step : Step) : Option Content :=
  (step.revision address content).apply content

/-- The content that the steps about an address leave there. -/
def history (address : Text) (steps : List Step) : Option Content :=
  (steps.filter (·.isAbout address)).foldl (Step.amend address) none

theorem Step.revision_of_not_isAbout {address : Text} {step : Step} (h : step.isAbout address = false)
    (content : Option Content) : step.revision address content = .keep := by
  cases step with
  | openDocument a languageId text version => simp_all [isAbout, revision]
  | changeDocument a version texts =>
    have ha : a ≠ address := by simpa [isAbout] using h
    simp only [revision, ha, false_and, if_false]
    split <;> rfl
  | closeDocument a => simp_all [isAbout, revision]
  | _ => rfl

/-- The steps about other addresses do not matter. -/
theorem history_eq_foldl (address : Text) (steps : List Step) :
    history address steps = steps.foldl (Step.amend address) none := by
  rw [history, List.foldl_filter]
  congr 1
  funext content step
  split
  · rfl
  next h =>
    rw [Step.amend, Step.revision_of_not_isAbout (Bool.eq_false_iff.2 h)]
    rfl

theorem history_append (address : Text) (before after : List Step) :
    history address (before ++ after) = after.foldl (Step.amend address) (history address before) := by
  rw [history_eq_foldl, history_eq_foldl, List.foldl_append]

theorem Revises.content {r : Text → Revision} {s t : Session} (h : Revises r s t) (address : Text) :
    t.content? address = (r address).apply (s.content? address) := by
  rw [content?, h.document, Revision.content_place]
  rfl

theorem content?_run (shelf : Shelf) {steps : List Step} (h : Uncancelled steps) (s : Session)
    (address : Text) :
    (s.run shelf steps).1.content? address =
      steps.foldl (Step.amend address) (s.content? address) := by
  induction steps generalizing s with
  | nil => rfl
  | cons first rest ih =>
    have hrest : Uncancelled rest := fun name hmem => h name (List.mem_cons_of_mem first hmem)
    have hfirst := (revises_step shelf s (h.ne List.mem_cons_self)).content address
    calc
      ((s.step shelf first).1.run shelf rest).1.content? address
        = rest.foldl (Step.amend address) ((s.step shelf first).1.content? address) := ih hrest _
      _ = rest.foldl (Step.amend address) (first.amend address (s.content? address)) := by
        rw [hfirst]
        rfl

theorem content?_reached (shelf : Shelf) {steps : List Step} (h : Uncancelled steps) (address : Text) :
    (reached shelf steps).content? address = history address steps := by
  rw [reached, content?_run shelf h, history_eq_foldl, content?, document?_start]
  rfl

/-! ## Requests -/

inductive Request
  | hover (p : Position)
  | definition (p : Position)
  | symbols
  | formatting

namespace Request

def step (address : Text) : Request → Step
  | .hover p => .hover address p
  | .definition p => .definition address p
  | .symbols => .symbols address
  | .formatting => .formatting address

/-- The reply to a request, by the content at its address. -/
def answer (address : Text) (content : Option Content) (catalog : Catalog) (settings : Settings) :
    Request → Reply
  | .hover p => .hover (content.bind fun c => Hover.at? (indexOf c.text) p catalog settings.hover)
  | .definition p => .definition address (content.bind fun c => Definition.find? (indexOf c.text) p)
  | .symbols => .symbols (content.map fun c => Outline.symbols (indexOf c.text))
  | .formatting =>
    .edits (if settings.formatting.enabled then
      content.map fun c => Format.edits (indexOf c.text) settings.formatting.leftMargin
    else none)

end Request

/-- An open document is indexed to its end. -/
theorem WellStamped.index? {s : Session} (hs : WellStamped s) (address : Text) :
    s.index? address = (s.content? address).map fun c => indexOf c.text := by
  rw [Session.index?, content?]
  cases hd : s.document? address with
  | none => rfl
  | some d =>
    have hcurrent : s.isCancelled d = false := by
      simpa [isCancelled] using hs.current address d hd
    have hwhole : d.index false = indexOf d.text := rfl
    simp [hcurrent, hwhole, indexOf_cancelled, Document.content]

theorem WellStamped.answer {s : Session} (hs : WellStamped s) (shelf : Shelf) (address : Text)
    (request : Request) :
    (s.step shelf (request.step address)).2 =
      request.answer address (s.content? address) s.catalog s.settings := by
  cases request <;>
    simp [Request.step, Request.answer, Session.step, hover?, definition?, symbols?, edits?,
      hs.index?, Option.bind_map, Function.comp_def]

theorem reply_run (shelf : Shelf) (s : Session) (before : List Step) (step : Step) (after : List Step) :
    (s.run shelf (before ++ step :: after)).2[before.length]? =
      some ((s.run shelf before).1.step shelf step).2 := by
  rw [run_append, List.getElem?_append_right (Nat.le_of_eq (length_run shelf s before)), length_run,
    Nat.sub_self]
  rfl

/-- After any steps, the content at an address is what the steps about that address leave there, and every
request on the way is answered from the index of the whole text at its address. -/
theorem requests_answered_from_history (shelf : Shelf) {steps : List Step} (h : Uncancelled steps)
    (address : Text) :
    (reached shelf steps).content? address = history address steps ∧
      ∀ before request after, steps = before ++ Request.step address request :: after →
        (start.run shelf steps).2[before.length]? =
          some (request.answer address (history address before) (reached shelf before).catalog
            (reached shelf before).settings) := by
  refine ⟨content?_reached shelf h address, ?_⟩
  rintro before request after rfl
  have hbefore := h.of_append_left
  have hanswer := (wellStamped_reached shelf hbefore).answer shelf address request
  rw [content?_reached shelf hbefore] at hanswer
  rw [reply_run]
  exact congrArg some hanswer

/-- A document opened by its file name and then changed; the older change that comes late and the document
that is no assembly source leave no trace. -/
theorem requests_answered_from_history_late_change :
    let shelf : Shelf := fun _ _ => none
    let main := "file:///w/main.as".toList
    let before : List Step := [.openDocument main "plain".toList "A NOP".toList 1,
      .openDocument "file:///w/notes.txt".toList "plain".toList "C NOP".toList 1,
      .changeDocument main 3 ["".toList, "B: NOP".toList], .changeDocument main 2 ["D: NOP".toList]]
    Uncancelled (before ++ [.symbols main]) ∧
      (reached shelf (before ++ [.symbols main])).content? main = some ⟨"B: NOP".toList, 3⟩ ∧
      (start.run shelf (before ++ [.symbols main])).2[4]? =
        some (.symbols (some (Outline.symbols (indexOf "B: NOP".toList)))) := by
  intro shelf main before
  have h : Uncancelled (before ++ [.symbols main]) := by simp [Uncancelled, before]
  have hhistory : history main before = some ⟨"B: NOP".toList, 3⟩ := by decide +kernel
  obtain ⟨hcontent, hreply⟩ := requests_answered_from_history shelf h main
  refine ⟨h, ?_, ?_⟩
  · rw [hcontent, history_append, hhistory]
    rfl
  · have hsymbols := hreply before .symbols [] rfl
    rw [hhistory] at hsymbols
    exact hsymbols

end AsmAssist.Session
