import GeneratorHost.Proofs.Invocation.Calls
import GeneratorHost.Unit.Sample

/-! The boundary of a unit. Entry points catch the panics of a generator, but not those that are raised when the error
it returns is written or dropped, or when what a panic carries is dropped. -/
namespace GeneratorHost

variable {α β σ : Type} [ArtifactSink σ]

/-- An error can be written, and goes away quietly. -/
structure ReturnedError.IsQuiet (error : ReturnedError) : Prop where
  text : error.text?.isSome
  drops : error.dropsQuietly

theorem ReturnedError.isQuiet_iff {error : ReturnedError} :
    error.IsQuiet ↔ error.text?.isSome ∧ error.dropsQuietly :=
  ⟨fun h => ⟨h.text, h.drops⟩, fun h => ⟨h.1, h.2⟩⟩

/-- What a run ends with goes away quietly. -/
def RunEnd.IsQuiet : RunEnd α → Prop
  | .done _ => True
  | .failed error => error.IsQuiet
  | .panicked panic => panic.dropsQuietly

namespace Generator

/-- No panic leaves the entry points, whatever the host does. -/
structure Returns (g : Generator) : Prop where
  construct (σ : Type) [ArtifactSink σ] (s? : Option (InvocationSink σ)) : (g.constructEntry s?).isSome
  execute (σ : Type) [ArtifactSink σ] (s? : Option (InvocationSink σ)) (ds : List RawDeclaration) :
    (executeEntry (some g) s? ds).isSome
  release : g.releaseEntry.isSome

/-- Whatever the host does, a generator hands out nothing that panics when it is written or dropped. -/
structure IsQuiet (g : Generator) : Prop where
  construction : ∀ panic ∈ g.construction?, panic.dropsQuietly
  execution (σ : Type) [ArtifactSink σ] (s : InvocationSink σ) (ds : List RawDeclaration) :
    ((g.execute (unmarshal ds)).perform s).1.IsQuiet
  disposal : ∀ panic ∈ g.disposal?, panic.dropsQuietly

/-! ### Entry points -/

omit [ArtifactSink σ] in
theorem isSome_handled (p : Panic) (s? : Option (InvocationSink σ)) : (p.handled s?).isSome = p.dropsQuietly := by
  unfold Panic.handled
  cases p.dropsQuietly <;> rfl

omit [ArtifactSink σ] in
theorem isSome_constructEntry_iff (g : Generator) (s? : Option (InvocationSink σ)) :
    (g.constructEntry s?).isSome ↔ ∀ panic ∈ g.construction?, panic.dropsQuietly := by
  unfold constructEntry
  cases g.construction? with
  | none => simp
  | some panic => simp [isSome_handled]

theorem isSome_executeEntry_iff (g : Generator) (s : InvocationSink σ) (ds : List RawDeclaration) :
    (executeEntry (some g) (some s) ds).isSome ↔ ((g.execute (unmarshal ds)).perform s).1.IsQuiet := by
  simp only [executeEntry]
  obtain ⟨ending, s'⟩ := (g.execute (unmarshal ds)).perform s
  cases ending with
  | done value => simp [RunEnd.IsQuiet]
  | failed error =>
    obtain ⟨text?, drops⟩ := error
    cases text? <;> cases drops <;> simp [RunEnd.IsQuiet, ReturnedError.isQuiet_iff]
  | panicked panic => simp [RunEnd.IsQuiet, isSome_handled]

theorem isSome_releaseEntry_iff (g : Generator) :
    g.releaseEntry.isSome ↔ ∀ panic ∈ g.disposal?, panic.dropsQuietly := by
  unfold releaseEntry
  cases g.disposal? with
  | none => simp
  | some panic => cases hp : panic.dropsQuietly <;> simp [hp]

theorem Returns.isQuiet {g : Generator} (h : g.Returns) : g.IsQuiet where
  construction := (isSome_constructEntry_iff g none).mp (h.construct ArtifactStore none)
  execution := fun σ _ s ds => (isSome_executeEntry_iff g s ds).mp (h.execute σ (some s) ds)
  disposal := (isSome_releaseEntry_iff g).mp h.release

theorem IsQuiet.returns {g : Generator} (h : g.IsQuiet) : g.Returns where
  construct := fun σ _ s? => (isSome_constructEntry_iff g s?).mpr h.construction
  execute := by
    intro σ _ s? ds
    cases s? with
    | none => rfl
    | some s => exact (isSome_executeEntry_iff g s ds).mpr (h.execution σ s ds)
  release := (isSome_releaseEntry_iff g).mpr h.disposal

/-- The entry points contain a generator exactly if all that it hands out can be written and dropped. -/
theorem returns_iff_isQuiet (g : Generator) : g.Returns ↔ g.IsQuiet := ⟨Returns.isQuiet, IsQuiet.returns⟩

/-- An error that panics when it is written gets through, and one that panics when it is dropped. -/
theorem not_returns :
    ¬ Returns { execute := fun _ => .failed { text? := none } } ∧
      ¬ Returns { execute := fun _ => .failed { text? := some "no", dropsQuietly := false } } := by
  constructor
  · exact fun h => nomatch h.execute ArtifactStore (some { artifacts := {} }) []
  · exact fun h => nomatch h.execute ArtifactStore (some { artifacts := {} }) []

end Generator

/-! ### Runs -/

namespace Run

/-- Whatever the host answers, a run ends quietly. -/
def EndsQuietly : Run α → Prop
  | done _ => True
  | failed error => error.IsQuiet
  | panicked panic => panic.dropsQuietly
  | add _ _ next => ∀ accepted, (next accepted).EndsQuietly
  | report _ next => next.EndsQuietly
  | pause _ next => next.EndsQuietly

namespace EndsQuietly

theorem perform {r : Run α} (h : r.EndsQuietly) (s : InvocationSink σ) : (r.perform s).1.IsQuiet := by
  induction r generalizing s with
  | done | failed | panicked => exact h
  | add name text next ih => exact ih _ (h _) _
  | report text next ih => exact ih h _
  | pause time next ih => exact ih h _

theorem bind {r : Run α} {f : α → Run β} (h : r.EndsQuietly) (hf : ∀ a, (f a).EndsQuietly) :
    (r.bind f).EndsQuietly := by
  induction r with
  | done value => exact hf value
  | failed | panicked => exact h
  | add name text next ih => exact fun accepted => ih accepted (h accepted)
  | report text next ih => exact ih h
  | pause time next ih => exact ih h

theorem caught {r : Run α} (h : r.EndsQuietly) : r.caught.EndsQuietly := by
  induction r with
  | done | panicked => trivial
  | failed => exact h
  | add name text next ih => exact fun accepted => ih accepted (h accepted)
  | report text next ih => exact ih h
  | pause time next ih => exact ih h

theorem forM {f : α → Run PUnit} (hf : ∀ a, (f a).EndsQuietly) (l : List α) : (l.forM f).EndsQuietly := by
  induction l with
  | nil => trivial
  | cons a l ih => exact (hf a).bind fun _ => ih

end EndsQuietly
end Run

/-! ### Scripts -/

theorem GeneratorContext.addSource_quiet (site : PanicSite) (name text : String) (c : GeneratorContext) :
    (c.addSource site name text).EndsQuietly := by
  intro accepted
  cases accepted <;> trivial

theorem ScriptStep.run_quiet (site : PanicSite) (ds : List DeclarationView) (c : GeneratorContext) (step : ScriptStep) :
    (step.run site ds c).EndsQuietly := by
  cases step with
  | add name text => exact c.addSource_quiet site name text
  | tryAdd name text =>
    refine (c.addSource_quiet site name text).caught.bind fun result => ?_
    cases result <;> trivial
  | nodes file =>
    have hnote (d : DeclarationView) : (Run.note d.line).EndsQuietly := trivial
    exact (Run.EndsQuietly.forM hnote _).bind fun _ => trivial
  | fail text => exact ⟨rfl, rfl⟩
  | panic => rfl
  | _ => trivial

theorem Script.run_quiet (site : PanicSite) (ds : List DeclarationView) (s : Script) (c : GeneratorContext) :
    (s.run site ds c).EndsQuietly := by
  induction s generalizing c with
  | nil => trivial
  | cons step rest ih => exact (step.run_quiet site ds c).bind ih

/-- No script hands out anything that panics when it is written or dropped. -/
theorem Script.generator_isQuiet (site : PanicSite) (s : Script) : (s.generator site).IsQuiet where
  construction := by
    intro panic h
    obtain ⟨step, -, h⟩ := List.exists_of_findSome?_eq_some h
    cases step <;> cases h
    rfl
  execution := fun _ _ sink ds => (s.run_quiet site (unmarshal ds) {}).perform sink
  disposal := by
    intro panic h
    obtain ⟨step, -, h⟩ := List.exists_of_findSome?_eq_some h
    cases step <;> cases h
    rfl

namespace SampleUnit

omit [ArtifactSink σ] in
theorem answers_onSink {entry : Option (InvocationSink σ) → Option (α × Option (InvocationSink σ))}
    (h : ∀ s, (entry (some s)).isSome) : Call.Answers (onSink entry) := by
  intro s
  rw [onSink, ne_eq, Option.map_eq_none_iff]
  exact Option.ne_none_iff_isSome.mpr (h s)

/-- Calls into a unit of generators that hand out nothing that panics come back. -/
theorem loaded_answers {generator : String → Generator} (h : ∀ name, (generator name).IsQuiet) :
    (loaded (σ := σ) generator).ForCalls Call.Answers := by
  have hr (name : String) := (h name).returns
  constructor
  · intro symbol call hc
    obtain ⟨⟨name, behaviour⟩, -, rfl⟩ := Option.map_eq_some_iff.mp hc
    dsimp only
    split
    · exact Call.answers_pure _
    · refine Call.answers_bind (answers_onSink fun s => (hr name).construct σ (some s)) fun made => ?_
      split <;> exact Call.answers_pure _
  · intro symbol call he address ds
    obtain ⟨⟨name, behaviour⟩, -, rfl⟩ := Option.map_eq_some_iff.mp he
    dsimp only
    split
    · exact Call.answers_pure _
    · refine Call.answers_bind (answers_onSink fun s => ?_) fun status => Call.answers_pure _
      split
      · rfl
      · exact (hr name).execute σ (some s) ds
  · intro symbol call hrel address s
    obtain ⟨⟨name, behaviour⟩, -, rfl⟩ := Option.map_eq_some_iff.mp hrel
    rw [ne_eq, Option.map_eq_none_iff]
    exact Option.ne_none_iff_isSome.mpr (hr name).release

/-- Calls into the unit of scripted generators come back. -/
theorem load_answers (reason : String) (scripts : String → Script) :
    LoadedUnit.ForLoaded (load (σ := σ) reason scripts) Call.Answers := by
  intro image unit hl
  unfold load at hl
  split at hl
  · cases hl
    exact loaded_answers fun name => (scripts name).generator_isQuiet {}
  · cases hl

end SampleUnit
end GeneratorHost
