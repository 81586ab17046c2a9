import GeneratorHost.Proofs.Artifact.Store
import GeneratorHost.Proofs.Invocation.Callbacks

/-! Units that see nothing of the sink of their invocation but whether it takes what they add. What
is in the sink under names that they do not ask for makes no difference to them. -/
namespace GeneratorHost

/-- What a unit does in a call; what it does next depends on what the host answered before. -/
inductive Dialogue (α : Type) where
  | done (value : α)
  /-- A panic leaves the call. -/
  | stopped
  | add (name text : RawText) (next : Bool → Dialogue α)
  | report (text : RawText) (next : Dialogue α)
  | fail (report : PanicReport) (next : Dialogue α)
  | pause (time : Duration) (next : Dialogue α)

namespace Dialogue

variable {α β σ : Type} [ArtifactSink σ]

def bind : Dialogue α → (α → Dialogue β) → Dialogue β
  | done value, f => f value
  | stopped, _ => stopped
  | add name text next, f => add name text fun accepted => (next accepted).bind f
  | report text next, f => report text (next.bind f)
  | fail failure next, f => fail failure (next.bind f)
  | pause time next, f => pause time (next.bind f)

/-- Follows a dialogue with a sink that answers it. -/
def perform : Dialogue α → Call (InvocationSink σ) α
  | done value => pure value
  | stopped => fun _ => none
  | add name text next => fun s => (next (s.add name text).1).perform (s.add name text).2
  | report text next => fun s => next.perform (s.report text)
  | fail failure next => fun s => next.perform (s.fail failure)
  | pause time next => fun s => next.perform (s.pause time)

/-- The names that a dialogue asks a sink to take something under. -/
def attempts : Dialogue α → InvocationSink σ → List String
  | done _, _ => []
  | stopped, _ => []
  | add name text next, s => name.toText :: (next (s.add name text).1).attempts (s.add name text).2
  | report text next, s => next.attempts (s.report text)
  | fail failure next, s => next.attempts (s.fail failure)
  | pause time next, s => next.attempts (s.pause time)

theorem perform_bind (d : Dialogue α) (f : α → Dialogue β) :
    (d.bind f).perform = (d.perform >>= fun a => (f a).perform : Call (InvocationSink σ) β) := by
  induction d with
  | done value => rfl
  | stopped => rfl
  | add name text next ih =>
    funext s
    exact congrFun (ih (s.add name text).1) (s.add name text).2
  | report text next ih =>
    funext s
    exact congrFun ih (s.report text)
  | fail failure next ih =>
    funext s
    exact congrFun ih (s.fail failure)
  | pause time next ih =>
    funext s
    exact congrFun ih (s.pause time)

/-- A dialogue reaches its sink through callbacks alone. -/
theorem perform_callbacks (d : Dialogue α) : Call.Leads Callbacks (d.perform : Call (InvocationSink σ) α) := by
  intro s a s' h
  induction d generalizing s with
  | done value =>
    cases h
    exact .refl
  | stopped => cases h
  | add name text next ih => exact .head (.add s name text) (ih _ _ h)
  | report text next ih => exact .head (.report s text) (ih _ h)
  | fail failure next ih => exact .head (.fail s failure) (ih _ h)
  | pause time next ih => exact .head (.pause s time) (ih _ h)

end Dialogue

/-! ### Artifacts of others in a sink -/

namespace ArtifactStore

variable {s : ArtifactStore} {n : Nat} {others : List Artifact} {name : String}

/-- The store with artifacts of others behind its first ones. -/
def insertAt (n : Nat) (others : List Artifact) (s : ArtifactStore) : ArtifactStore :=
  ⟨s.artifacts.take n ++ others ++ s.artifacts.drop n⟩

theorem insertAt_size (others : List Artifact) (s : ArtifactStore) :
    s.insertAt s.size others = ⟨s.artifacts ++ others⟩ := by
  rw [insertAt, size, List.take_length, List.drop_length, List.append_nil]

theorem mem_names_insertAt : name ∈ (s.insertAt n others).names ↔ name ∈ others.map (·.name) ∨ name ∈ s.names := by
  have h : s.names = (s.artifacts.take n ++ s.artifacts.drop n).map (·.name) := by
    rw [List.take_append_drop, names]
  rw [h, insertAt, names_mk, List.map_append, List.map_append, List.map_append, List.mem_append, List.mem_append,
    List.mem_append]
  exact or_right_comm.trans or_comm

/-- What others added changes nothing for a name that is not theirs. -/
theorem add_insertAt (hn : n ≤ s.size) (ho : name ∉ others.map (·.name)) (text : String) :
    (s.insertAt n others).add name text = (s.add name text).map (insertAt n others) := by
  have hc : (s.insertAt n others).names.contains name = s.names.contains name := by
    rw [Bool.eq_iff_iff, List.contains_iff_mem, List.contains_iff_mem, mem_names_insertAt]
    exact or_iff_right ho
  unfold add
  rw [hc]
  split
  · rfl
  · split
    · rfl
    · simp only [Except.map, insertAt]
      rw [List.take_append_of_le_length hn, List.drop_append_of_le_length hn, List.append_assoc _ _ [_]]

end ArtifactStore

namespace InvocationSink

/-- The sink with artifacts of others behind the first ones of the sink behind it. -/
def insertAt (n : Nat) (others : List Artifact) (s : InvocationSink ArtifactStore) : InvocationSink ArtifactStore :=
  { s with artifacts := s.artifacts.insertAt n others }

variable {s : InvocationSink ArtifactStore} {n : Nat} {others : List Artifact}

theorem add_insertAt (hn : n ≤ s.artifacts.size) {name : RawText} (ho : name.toText ∉ others.map (·.name))
    (text : RawText) : (s.insertAt n others).add name text =
      ((s.add name text).1, (s.add name text).2.insertAt n others) := by
  have ha : ArtifactSink.add (s.artifacts.insertAt n others) name.toText text.toText =
      (ArtifactSink.add s.artifacts name.toText text.toText).map (ArtifactStore.insertAt n others) :=
    ArtifactStore.add_insertAt hn ho text.toText
  unfold InvocationSink.add
  simp only [insertAt, ha]
  split
  · rfl
  · cases ArtifactSink.add s.artifacts name.toText text.toText with
    | error e => rfl
    | ok artifacts => rfl

theorem report_insertAt (s : InvocationSink ArtifactStore) (text : RawText) :
    (s.insertAt n others).report text = (s.report text).insertAt n others := by
  unfold InvocationSink.report
  by_cases hc : s.closed
  · rw [if_pos hc]
    exact if_pos hc
  · rw [if_neg hc]
    exact if_neg hc

theorem fail_insertAt (s : InvocationSink ArtifactStore) (report : PanicReport) :
    (s.insertAt n others).fail report = (s.fail report).insertAt n others := by
  unfold InvocationSink.fail
  simp only [insertAt]
  split <;> rfl

/-- A sink takes at most what it is asked to take. -/
theorem exists_artifacts_add (s : InvocationSink ArtifactStore) (name text : RawText) :
    ∃ added, (s.add name text).2.artifacts.artifacts = s.artifacts.artifacts ++ added ∧
      ∀ a ∈ added, a.name = name.toText := by
  unfold InvocationSink.add
  split
  · exact ⟨[], (List.append_nil _).symm, List.forall_mem_nil _⟩
  · cases h : ArtifactSink.add s.artifacts name.toText text.toText with
    | error e => exact ⟨[], (List.append_nil _).symm, List.forall_mem_nil _⟩
    | ok artifacts =>
      obtain ⟨-, -, rfl⟩ := ArtifactStore.add_eq_ok_iff.mp h
      exact ⟨_, rfl, List.forall_mem_singleton.mpr rfl⟩

end InvocationSink

namespace Dialogue

variable {α : Type}

/-- A dialogue adds to what is there, and only under names that it asks for. -/
theorem exists_artifacts_perform (d : Dialogue α) {s s' : InvocationSink ArtifactStore} {a : α}
    (h : d.perform s = some (a, s')) :
    ∃ added, s'.artifacts.artifacts = s.artifacts.artifacts ++ added ∧ ∀ a ∈ added, a.name ∈ d.attempts s := by
  induction d generalizing s with
  | done value =>
    cases h
    exact ⟨[], (List.append_nil _).symm, List.forall_mem_nil _⟩
  | stopped => cases h
  | add name text next ih =>
    obtain ⟨first, hf, hfirst⟩ := s.exists_artifacts_add name text
    obtain ⟨rest, hr, hrest⟩ := ih _ h
    refine ⟨first ++ rest, by rw [hr, hf, List.append_assoc], List.forall_mem_append.mpr ⟨?_, ?_⟩⟩
    · intro a ha
      rw [hfirst a ha]
      exact List.mem_cons_self
    · intro a ha
      exact List.mem_cons_of_mem _ (hrest a ha)
  | report text next ih =>
    obtain ⟨added, hr, hadded⟩ := ih h
    rw [s.artifacts_report] at hr
    exact ⟨added, hr, hadded⟩
  | fail failure next ih =>
    obtain ⟨added, hr, hadded⟩ := ih h
    rw [s.artifacts_fail] at hr
    exact ⟨added, hr, hadded⟩
  | pause time next ih => exact ih h

/-- A dialogue goes the same way whatever others have in the sink under names it does not ask for. -/
theorem perform_insertAt (d : Dialogue α) {s : InvocationSink ArtifactStore} {n : Nat} {others : List Artifact}
    (hn : n ≤ s.artifacts.size) (ho : List.Disjoint (d.attempts s) (others.map (·.name))) :
    d.perform (s.insertAt n others) = (d.perform s).map fun (a, s') => (a, s'.insertAt n others) := by
  induction d generalizing s with
  | done value => rfl
  | stopped => rfl
  | add name text next ih =>
    obtain ⟨hname, hnext⟩ := List.disjoint_cons_left.mp ho
    obtain ⟨added, ha, -⟩ := s.exists_artifacts_add name text
    have hle : n ≤ (s.add name text).2.artifacts.size := by
      rw [ArtifactStore.size, ha, List.length_append]
      exact Nat.le_add_right_of_le hn
    change (next ((s.insertAt n others).add name text).1).perform ((s.insertAt n others).add name text).2 = _
    rw [InvocationSink.add_insertAt hn hname]
    exact ih _ hle hnext
  | report text next ih =>
    change next.perform ((s.insertAt n others).report text) = _
    rw [InvocationSink.report_insertAt]
    exact ih (by rwa [s.artifacts_report]) ho
  | fail failure next ih =>
    change next.perform ((s.insertAt n others).fail failure) = _
    rw [InvocationSink.fail_insertAt]
    exact ih (by rwa [s.artifacts_fail]) ho
  | pause time next ih => exact ih (s := s.pause time) hn ho

end Dialogue

/-! ### Units -/

/-- A unit whose calls are dialogues. -/
structure DialogueUnit where
  construct? : String → Option (Dialogue (Option Nat))
  execute? : String → Option (Nat → List RawDeclaration → Dialogue Int)
  release? : String → Option (Nat → Dialogue Unit)

/-- How the life of a generator ends, before the host asks for its failure. -/
inductive LifeEnd where
  | rejected (error : InvocationError)
  | null
  | ended (status : Int)

namespace LifeEnd

variable {σ : Type}

/-- What an end comes to with the failure that the sink kept. -/
def settle (name : String) : LifeEnd → Call (InvocationSink σ) (InvocationResult Unit)
  | rejected error => pure (.error error)
  | null => fun s => some (.ofNull name s.failure?, s.takeFailure.2)
  | ended status => fun s => some (.ofStatus name status s.failure?, s.takeFailure.2)

end LifeEnd

namespace DialogueUnit

variable {σ : Type} [ArtifactSink σ]

/-- The unit as the host loads it. -/
def loaded (u : DialogueUnit) : LoadedUnit (InvocationSink σ) where
  construct? symbol := (u.construct? symbol).map (·.perform)
  execute? symbol := (u.execute? symbol).map fun execute address ds => (execute address ds).perform
  release? symbol := (u.release? symbol).map fun release address => (release address).perform

theorem loaded_callbacks (u : DialogueUnit) : u.loaded.ForCalls (ω := InvocationSink σ) (Call.Leads Callbacks) where
  construct h := by
    obtain ⟨construct, -, rfl⟩ := Option.map_eq_some_iff.mp h
    exact construct.perform_callbacks
  execute h address ds := by
    obtain ⟨execute, -, rfl⟩ := Option.map_eq_some_iff.mp h
    exact (execute address ds).perform_callbacks
  release h address := by
    obtain ⟨release, -, rfl⟩ := Option.map_eq_some_iff.mp h
    exact (release address).perform_callbacks

/-- The dialogue of a generator's whole life. -/
def life (u : DialogueUnit) (name : String) (ds : List RawDeclaration) : Dialogue LifeEnd :=
  match u.construct? (EntryPoint.construct.symbol name), u.execute? (EntryPoint.execute.symbol name) with
  | none, _ => .done (.rejected (.typeNotFound name (EntryPoint.construct.symbol name)))
  | some _, none => .done (.rejected (.entryPointNotFound name (EntryPoint.execute.symbol name)))
  | some construct, some execute =>
    construct.bind fun
      | none => .done .null
      | some address =>
        (execute address ds).bind fun status =>
          match u.release? (EntryPoint.release.symbol name) with
          | some release => (release address).bind fun _ => .done (.ended status)
          | none => .done (.ended status)

/-- Running a unit is following its life and settling its end. -/
theorem loaded_run (u : DialogueUnit) (name : String) (ds : List RawDeclaration) :
    u.loaded.run InvocationSink.takeFailure name ds =
      ((u.life name ds).perform >>= LifeEnd.settle name : Call (InvocationSink σ) (InvocationResult Unit)) := by
  cases hc : u.construct? (EntryPoint.construct.symbol name) with
  | none =>
    simp only [LoadedUnit.run, life, loaded, hc, Option.map_none, Dialogue.perform, pure_bind]
    rfl
  | some construct =>
    cases he : u.execute? (EntryPoint.execute.symbol name) with
    | none =>
      simp only [LoadedUnit.run, life, loaded, hc, he, Option.map_some, Option.map_none, Dialogue.perform, pure_bind]
      rfl
    | some execute =>
      simp only [LoadedUnit.run, life, loaded, hc, he, Option.map_some, Dialogue.perform_bind, bind_assoc]
      refine bind_congr fun address? => ?_
      cases address? with
      | none => rfl
      | some address =>
        simp only [Dialogue.perform_bind, bind_assoc]
        refine bind_congr fun status => ?_
        cases hr : u.release? (EntryPoint.release.symbol name) with
        | none => rfl
        | some release =>
          simp only [Option.map_some, Dialogue.perform_bind, bind_assoc]
          rfl

end DialogueUnit

/-! ### Invocations -/

/-- The life that a generator has in its compiled unit, or why it has none. -/
def CompiledUnit.life (u : CompiledUnit) (units : Image → Except String DialogueUnit) (name : String)
    (ds : List RawDeclaration) : Except InvocationError (Dialogue LifeEnd) :=
  if !u.hasExport (EntryPoint.construct.symbol name) then
    .error (.typeNotFound name (EntryPoint.construct.symbol name))
  else if !u.hasExport (EntryPoint.execute.symbol name) then
    .error (.entryPointNotFound name (EntryPoint.execute.symbol name))
  else
    match units u.image with
    | .error reason => .error (.load name reason)
    | .ok unit => .ok (unit.life name ds)

namespace Dispatcher

variable {σ : Type} [ArtifactSink σ]

/-- Takes a generator through its life. -/
def follow (d : Dispatcher) (name : String) :
    Except InvocationError (Dialogue LifeEnd) → Call σ (InvocationResult InvocationReport)
  | .error e => pure (.error e)
  | .ok life => fun artifacts =>
    ((life.perform >>= LifeEnd.settle name) (d.sink artifacts)).map fun (result, s) =>
      (conclude name result s, s.artifacts)

/-- The names that a generator asks for in its life. -/
def attempts (d : Dispatcher) (artifacts : σ) : Except InvocationError (Dialogue LifeEnd) → List String
  | .error _ => []
  | .ok life => life.attempts (d.sink artifacts)

/-- What comes of invoking a unit is what comes of its generator's life. -/
theorem invoke_eq_follow (d : Dispatcher) (units : Image → Except String DialogueUnit) (u : CompiledUnit)
    (name : String) (ds : List RawDeclaration) :
    d.invoke (fun i => (units i).map (·.loaded)) u name ds =
      (d.follow name (u.life units name ds) : Call σ (InvocationResult InvocationReport)) := by
  funext artifacts
  unfold invoke CompiledUnit.life
  dsimp only
  split
  · rfl
  · split
    · rfl
    · cases units u.image with
      | error reason => rfl
      | ok unit =>
        simp only [Except.map, DialogueUnit.loaded_run, follow]

variable {d : Dispatcher} {name : String} {life : Except InvocationError (Dialogue LifeEnd)} {a b : ArtifactStore}
  {result : InvocationResult InvocationReport}

/-- An invocation adds to what is there, and only under names that its generator asks for. -/
theorem exists_artifacts_follow (h : d.follow name life a = some (result, b)) :
    ∃ added, b.artifacts = a.artifacts ++ added ∧ ∀ x ∈ added, x.name ∈ d.attempts a life := by
  cases life with
  | error e =>
    cases h
    exact ⟨[], (List.append_nil _).symm, List.forall_mem_nil _⟩
  | ok life =>
    obtain ⟨⟨outcome, s⟩, hs, h⟩ := Option.map_eq_some_iff.mp h
    cases h
    obtain ⟨⟨e, t⟩, ht, hs⟩ := Option.bind_eq_some_iff.mp hs
    obtain ⟨added, ha, hn⟩ := life.exists_artifacts_perform ht
    have hst : s.artifacts = t.artifacts := by
      cases e <;> cases hs <;> rfl
    exact ⟨added, by rw [hst]; exact ha, hn⟩

theorem follow_append {others : List Artifact} (ho : List.Disjoint (d.attempts a life) (others.map (·.name))) :
    d.follow name life ⟨a.artifacts ++ others⟩ =
      (d.follow name life a).map fun (result, b) => (result, b.insertAt a.size others) := by
  cases life with
  | error e =>
    rw [← ArtifactStore.insertAt_size]
    rfl
  | ok life =>
    rw [← ArtifactStore.insertAt_size]
    change ((life.perform ((d.sink a).insertAt a.size others)).bind fun (e, s) => e.settle name s).map
      (fun (result, s) => (conclude name result s, s.artifacts)) =
        (((life.perform (d.sink a)).bind fun (e, s) => e.settle name s).map
          fun (result, s) => (conclude name result s, s.artifacts)).map _
    rw [life.perform_insertAt (Nat.le_refl a.size) ho]
    cases life.perform (d.sink a) with
    | none => rfl
    | some ended =>
      obtain ⟨e, s⟩ := ended
      cases e <;> rfl

end Dispatcher
end GeneratorHost
