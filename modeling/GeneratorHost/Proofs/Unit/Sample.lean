import GeneratorHost.Proofs.Invocation.Dialogue
import GeneratorHost.Unit.Sample

/-! Generators see nothing of the host but its answers: the unit around them is one whose calls are
dialogues. -/
namespace GeneratorHost

variable {α σ : Type} [ArtifactSink σ]

namespace Run

/-- A run as the dialogue of its entry point. -/
def dialogue : Run α → Dialogue (RunEnd α)
  | done value => .done (.done value)
  | failed error => .done (.failed error)
  | panicked panic => .done (.panicked panic)
  | add name text next => .add (.ofString name) (.ofString text) fun accepted => (next accepted).dialogue
  | report text next => .report (.ofString text) next.dialogue
  | pause time next => .pause time next.dialogue

theorem perform_dialogue (r : Run α) (s : InvocationSink σ) : r.dialogue.perform s = some (r.perform s) := by
  induction r generalizing s with
  | done => rfl
  | failed => rfl
  | panicked => rfl
  | add name text next ih => exact ih _ _
  | report text next ih => exact ih _
  | pause time next ih => exact ih _

end Run

/-- A caught panic is reported, unless its payload does not go away quietly. -/
def Panic.dialogue (p : Panic) (answer : α) : Dialogue α :=
  if p.dropsQuietly then .fail p.report (.done answer) else .stopped

namespace Generator

def construction (g : Generator) : Dialogue Bool :=
  match g.construction? with
  | none => .done true
  | some panic => panic.dialogue false

/-- What running a generator says once its run has ended. -/
def ending : RunEnd Unit → Dialogue Status
  | .done () => .done .succeeded
  | .failed error =>
    match error.text? with
    | some text =>
      if error.dropsQuietly then .fail (ReturnedError.report text) (.done .returnedError) else .stopped
    | none => .stopped
  | .panicked panic => panic.dialogue .panicked

def execution (g : Generator) (ds : List RawDeclaration) : Dialogue Status :=
  (g.execute (unmarshal ds)).dialogue.bind ending

def disposal (g : Generator) : Dialogue Unit :=
  match g.releaseEntry with
  | some () => .done ()
  | none => .stopped

end Generator

namespace SampleUnit

theorem onSink_handled (p : Panic) (answer : α) :
    onSink (fun s? => (p.handled s?).map (answer, ·)) = ((p.dialogue answer).perform : Call (InvocationSink σ) α) := by
  funext s
  unfold onSink Panic.handled Panic.dialogue
  cases p.dropsQuietly <;> rfl

theorem onSink_constructEntry (g : Generator) :
    onSink g.constructEntry = (g.construction.perform : Call (InvocationSink σ) Bool) := by
  unfold Generator.constructEntry Generator.construction
  cases g.construction? with
  | none => rfl
  | some panic => exact onSink_handled panic false

theorem onSink_executeEntry (g : Generator) (ds : List RawDeclaration) :
    onSink (fun s? => Generator.executeEntry (some g) s? ds) =
      ((g.execution ds).perform : Call (InvocationSink σ) Status) := by
  funext s
  rw [Generator.execution, Dialogue.perform_bind]
  change _ = ((g.execute (unmarshal ds)).dialogue.perform s).bind fun (e, s) => (Generator.ending e).perform s
  rw [Run.perform_dialogue, Option.bind_some]
  simp only [onSink, Generator.executeEntry]
  obtain ⟨outcome, s'⟩ := (g.execute (unmarshal ds)).perform s
  cases outcome with
  | done => rfl
  | failed error =>
    simp only [Generator.ending]
    cases error.text? with
    | none => rfl
    | some text =>
      dsimp only
      cases error.dropsQuietly <;> rfl
  | panicked panic =>
    simp only [Generator.ending, Panic.dialogue, Panic.handled]
    cases panic.dropsQuietly <;> rfl

/-- The unit in dialogues; the generator of a name is given. -/
def dialogues (generator : String → Generator) : DialogueUnit where
  construct? symbol := (find? .construct symbol).map fun (name, behaviour) =>
    if behaviour = .null then .done none
    else (generator name).construction.bind fun made => .done (if made then some address else none)
  execute? symbol := (find? .execute symbol).map fun (name, behaviour) => fun _ ds =>
    match behaviour with
    | .status code => .done code
    | .rejecting => .done Status.noInstance.code
    | _ => ((generator name).execution ds).bind fun status => .done status.code
  release? symbol := (find? .release symbol).map fun (name, _) => fun _ => (generator name).disposal

/-- The entry points around generators are dialogues. -/
theorem loaded_dialogues (generator : String → Generator) :
    (dialogues generator).loaded = (loaded generator : LoadedUnit (InvocationSink σ)) := by
  simp only [DialogueUnit.loaded, dialogues, loaded, Option.map_map, LoadedUnit.mk.injEq]
  refine ⟨?_, ?_, ?_⟩
  · funext symbol
    refine congrArg (Option.map · _) ?_
    funext entry
    obtain ⟨name, behaviour⟩ := entry
    dsimp only [Function.comp_apply]
    split
    · rfl
    · rw [Dialogue.perform_bind, ← onSink_constructEntry]
      rfl
  · funext symbol
    refine congrArg (Option.map · _) ?_
    funext entry address ds
    obtain ⟨name, behaviour⟩ := entry
    dsimp only [Function.comp_apply]
    cases behaviour with
    | status code | rejecting => rfl
    | complete | constructOnly | withoutRelease | null =>
      rw [Dialogue.perform_bind, ← onSink_executeEntry]
      rfl
  · funext symbol
    refine congrArg (Option.map · _) ?_
    funext entry address s
    obtain ⟨name, behaviour⟩ := entry
    dsimp only [Function.comp_apply, Generator.disposal]
    cases (generator name).releaseEntry <;> rfl

theorem loaded_callbacks (generator : String → Generator) :
    (loaded (σ := σ) generator).ForCalls (Call.Leads Callbacks) := by
  rw [← loaded_dialogues]
  exact (dialogues generator).loaded_callbacks

end SampleUnit
end GeneratorHost
