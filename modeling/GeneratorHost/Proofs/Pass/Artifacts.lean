import Mathlib.Algebra.Ring.Nat
import GeneratorHost.Proofs.Image.Exporting
import GeneratorHost.Proofs.Pass.Books
import GeneratorHost.Proofs.Unit.Sample

/-! The artifacts of a pass: those in its sink against those in its statistics. -/
namespace GeneratorHost

theorem ArtifactStore.size_of_add {s s' : ArtifactStore} {name text : String} (h : s.add name text = .ok s') :
    s'.size = s.size + 1 := by
  unfold add at h
  split at h
  · cases h
  · split at h
    · cases h
    · cases h
      exact List.length_append

/-! ### Invocations -/

/-- The sink of an invocation counts what it adds to the sink behind it. -/
structure InvocationSink.Counts (s s' : InvocationSink ArtifactStore) : Prop where
  size : s'.artifacts.size + s.added = s.artifacts.size + s'.added
  grows : s.artifacts.size ≤ s'.artifacts.size

namespace InvocationSink.Counts

variable {s s' s'' : InvocationSink ArtifactStore}

theorem of_eq (ha : s'.artifacts = s.artifacts) (hn : s'.added = s.added) : Counts s s' := by
  constructor
  · rw [ha, hn]
  · exact Nat.le_of_eq (by rw [ha])

theorem refl (s : InvocationSink ArtifactStore) : Counts s s := of_eq rfl rfl

theorem trans (h : Counts s s') (h' : Counts s' s'') : Counts s s'' := by
  obtain ⟨hs, hg⟩ := h
  obtain ⟨hs', hg'⟩ := h'
  exact ⟨by omega, Nat.le_trans hg hg'⟩

theorem of_callback (h : Callback s s') : Counts s s' := by
  cases h with
  | add name text =>
    unfold InvocationSink.add
    split
    · exact refl s
    · cases h : ArtifactSink.add s.artifacts name.toText text.toText with
      | error e => exact refl s
      | ok artifacts =>
        have hs := ArtifactStore.size_of_add h
        constructor
        · dsimp only
          omega
        · dsimp only
          omega
  | report text =>
    unfold InvocationSink.report
    split <;> exact of_eq rfl rfl
  | fail report =>
    unfold InvocationSink.fail
    split <;> exact of_eq rfl rfl
  | pause time => exact of_eq rfl rfl

theorem callbackOrder : CallbackOrder Counts where
  refl := refl
  trans := trans
  callback := of_callback
  takeFailure _ := of_eq rfl rfl

end InvocationSink.Counts

/-- What an invocation reports is what it added; one that fails may have added something too. -/
theorem Dispatcher.size_of_invoke {d : Dispatcher}
    {load : Image → Except String (LoadedUnit (InvocationSink ArtifactStore))}
    (hl : LoadedUnit.ForLoaded load (Call.Leads Callbacks)) {u : CompiledUnit} {name : String}
    {ds : List RawDeclaration} {before after : ArtifactStore} {result : InvocationResult InvocationReport}
    (h : d.invoke load u name ds before = some (result, after)) :
    before.size ≤ after.size ∧ ∀ report, result = .ok report → after.size = before.size + report.added := by
  rcases InvocationSink.Counts.callbackOrder.of_invoke hl h with ⟨e, rfl, rfl⟩ | ⟨outcome, s, hc, rfl, rfl⟩
  · exact ⟨Nat.le_refl _, fun _ hr => by cases hr⟩
  · refine ⟨hc.grows, fun report hr => ?_⟩
    unfold conclude at hr
    split at hr
    · cases hr
    · cases outcome with
      | error e => cases hr
      | ok =>
        cases hr
        exact hc.size

/-! ### Passes -/

namespace Pass

variable {p : Pass} {tools : PassTools ArtifactStore} {ds : List RawDeclaration}

/-- The artifacts that a visit left in the sink and did not report. -/
def unreported (v : Visit ArtifactStore) : Nat :=
  if v.outcome.stage? = some .invoke then v.after.size - v.before.size else 0

/-- What a visit leaves in the sink it reports, unless its generator failed. -/
theorem Visits.size {v : Visit ArtifactStore} (hl : LoadedUnit.ForLoaded tools.load (Call.Leads Callbacks))
    (h : Visits p tools ds v) : v.after.size = v.before.size + v.outcome.reported + unreported v := by
  cases h with
  | notCompiled => rfl
  | notInvoked compile invoke =>
    obtain ⟨hg, -⟩ := Dispatcher.size_of_invoke hl invoke
    exact (Nat.add_sub_of_le hg).symm
  | succeeded compile invoke =>
    obtain ⟨-, hs⟩ := Dispatcher.size_of_invoke hl invoke
    exact hs _ rfl

theorem Visits.unreported_eq_zero_iff {v : Visit ArtifactStore}
    (hl : LoadedUnit.ForLoaded tools.load (Call.Leads Callbacks)) (h : Visits p tools ds v) :
    unreported v = 0 ↔ (v.outcome.stage? = some .invoke → v.after.size = v.before.size) := by
  cases h with
  | notCompiled => simp [unreported, Visit.Outcome.stage?]
  | notInvoked compile invoke =>
    obtain ⟨hg, -⟩ := Dispatcher.size_of_invoke hl invoke
    simp only [unreported, Visit.Outcome.stage?, if_true, true_implies]
    omega
  | succeeded compile invoke => simp [unreported, Visit.Outcome.stage?]

/-- The sink holds what was counted and what visits did not report. -/
def Tallies (s : PassState ArtifactStore) (vs : List (Visit ArtifactStore)) : Prop :=
  s.artifacts.size = s.statistics.artifacts + (vs.map unreported).sum

theorem Tallies.meet {s : PassState ArtifactStore} {vs : List (Visit ArtifactStore)} {v : Visit ArtifactStore}
    (h : Tallies s vs) (hl : LoadedUnit.ForLoaded tools.load (Call.Leads Callbacks)) (hv : Visits p tools ds v)
    (hb : v.before = s.artifacts) : Tallies (s.meet v) (vs ++ [v]) := by
  have hs : (s.meet v).statistics.artifacts = s.statistics.artifacts + v.outcome.reported :=
    congrArg Statistics.artifacts (s.meet_unnamed v)
  unfold Tallies at h ⊢
  rw [hv.meet_artifacts hb, hv.size hl, hb, h, hs, List.map_append, List.sum_append]
  simp only [List.map_singleton, List.sum_singleton]
  omega

theorem Tallies.emit {s : PassState ArtifactStore} {vs : List (Visit ArtifactStore)} (h : Tallies s vs)
    (name text : String) : Tallies (s.emit name text) vs := by
  unfold Tallies at h ⊢
  unfold PassState.emit
  cases ha : ArtifactSink.add s.artifacts name text with
  | error e => exact h
  | ok artifacts =>
    have hs := ArtifactStore.size_of_add ha
    simp only [Statistics.withArtifact]
    omega

theorem begin_tallies (index : DeclarationIndex) : Tallies (p.begin index {}) [] :=
  begin_keeps (P := (Tallies · [])) rfl fun _ name text h => h.emit name text

/-! ### A generator that fails -/

/-- What a unit for the sample candidate exports. -/
def sampleExports : List String := ["selfgen_construct__crate__Root", "selfgen_on_execute__crate__Root"]

theorem sampleExports_exports : (Image.exporting sampleExports).exports = .ok sampleExports :=
  Image.exports_exporting (by decide +kernel) (by decide +kernel) (by decide) (by decide)

/-- It adds a source and returns an error. -/
def failingGenerator : Generator where
  execute _ := .add "a" "" fun _ => .failed { text? := some "no" }

def failingUnit : CompiledUnit := ⟨"crate::Root", .exporting sampleExports, sampleExports, ⟨0⟩⟩

def failingTools : PassTools ArtifactStore where
  compiler _ _ := .ok ⟨0, "", ⟨0⟩, .ok (.exporting sampleExports)⟩
  load _ := .ok (SampleUnit.loaded fun _ => failingGenerator)

theorem failing_compile {c : Candidate} {call : CompilerCall} (hn : c.name = "crate::Root")
    (hc : (samplePass.compiler.call c).run = some (.ok call)) :
    (samplePass.compiler.compile failingTools.compiler c).run = some (.ok failingUnit) := by
  rw [UnitCompiler.compile_run_of_quiet hc rfl rfl sampleExports_exports, hn]
  rfl

private theorem failing_invoke (ds : List RawDeclaration) :
    ∃ e, samplePass.dispatcher.invoke failingTools.load failingUnit "crate::Root" ds {} =
      some (.error e, ⟨[⟨"a", ""⟩]⟩) := by
  have hc : failingUnit.hasExport (EntryPoint.construct.symbol "crate::Root") := by decide
  have he : failingUnit.hasExport (EntryPoint.execute.symbol "crate::Root") := by decide
  have hf : ∀ e ∈ [EntryPoint.construct, .execute, .release],
      SampleUnit.find? e (e.symbol "crate::Root") = some ("crate::Root", .complete) := by
    decide
  simp only [List.forall_mem_cons] at hf
  obtain ⟨hfc, hfe, hfr, -⟩ := hf
  let s := ((samplePass.dispatcher.sink ({} : ArtifactStore)).add (.ofString "a") (.ofString "")).2
  have hs : s.artifacts = ⟨[⟨"a", ""⟩]⟩ := by decide +kernel
  have hr : ∃ e s', (SampleUnit.loaded fun _ => failingGenerator).run InvocationSink.takeFailure "crate::Root" ds
      (samplePass.dispatcher.sink ({} : ArtifactStore)) = some (.error e, s') ∧ s'.artifacts = s.artifacts := by
    simp only [LoadedUnit.run, SampleUnit.loaded, hfc, hfe, hfr, Option.map_some]
    exact ⟨_, (s.fail (ReturnedError.report "no")).takeFailure.2, rfl, InvocationSink.artifacts_fail s _⟩
  obtain ⟨e, s', hr, ha⟩ := hr
  obtain ⟨e', hcon⟩ := Dispatcher.exists_conclude_error "crate::Root" e s'
  refine ⟨e', ?_⟩
  rw [Dispatcher.invoke_of_exports hc he rfl, hr, ← hcon, ← hs, ← ha]
  rfl

private theorem failing_callbacks : LoadedUnit.ForLoaded failingTools.load (Call.Leads Callbacks) := by
  intro image unit hu
  cases hu
  exact SampleUnit.loaded_callbacks _

private theorem failing_run : ∃ report out, samplePass.run failingTools sampleHost {} = some (report, out) ∧
    out.size = report.statistics.artifacts + 1 := by
  obtain ⟨c, hi, hn, -, call, hc⟩ := exists_sample_candidate
  obtain ⟨e, he⟩ := failing_invoke (marshal (samplePass.index sampleHost).records)
  rw [← hn] at he
  let v : Visit ArtifactStore := ⟨c, .notInvoked failingUnit e, {}, ⟨[⟨"a", ""⟩]⟩⟩
  let last := (samplePass.begin (samplePass.index sampleHost) {}).meet v
  have hv : Visits samplePass failingTools (marshal (samplePass.index sampleHost).records) v :=
    .notInvoked (failing_compile hn hc) he
  have hlast : (samplePass.index sampleHost).candidates.foldlM
      (samplePass.process failingTools (marshal (samplePass.index sampleHost).records))
      (samplePass.begin (samplePass.index sampleHost) {}) = some last := by
    rw [hi, List.foldlM_cons, hv.process rfl]
    rfl
  have ht : Tallies (finish last) [v] := ((begin_tallies _).meet failing_callbacks hv rfl).emit _ _
  have hu : unreported v = 1 := rfl
  rw [Tallies, List.map_singleton, List.sum_singleton, hu] at ht
  exact ⟨_, _, by rw [run_eq_map, hlast]; rfl, ht⟩

/-- The statistics of a pass leave out the artifacts of generators that failed, and only those. -/
theorem statistics_artifacts_eq_size_iff (p : Pass) (tools : PassTools ArtifactStore)
    (hl : LoadedUnit.ForLoaded tools.load (Call.Leads Callbacks)) (host : HostCompilation) {report : PassReport}
    {out : ArtifactStore} (h : p.run tools host {} = some (report, out)) :
    ∃ vs, Follow p tools (marshal (p.index host).records) (p.begin (p.index host) {}).artifacts vs ∧
      vs.map (·.candidate) = (p.index host).candidates ∧
      out.size = report.statistics.artifacts + (vs.map unreported).sum ∧
      (report.statistics.artifacts = out.size ↔
        ∀ v ∈ vs, v.outcome.stage? = some .invoke → v.after.size = v.before.size) := by
  obtain ⟨last, vs, -, hf, hc, hv, rfl, rfl⟩ := exists_visits_of_run h
  have ht : Tallies last vs := by
    rw [hv]
    exact hf.keeps (fun _ _ _ hv hb h => Tallies.meet h hl hv hb) (begin_tallies _)
  have ht : (finish last).artifacts.size = (finish last).statistics.artifacts + (vs.map unreported).sum := ht.emit _ _
  have hz : (vs.map unreported).sum = 0 ↔
      ∀ v ∈ vs, v.outcome.stage? = some .invoke → v.after.size = v.before.size := by
    rw [List.sum_eq_zero_iff_forall_eq_nat, List.forall_mem_map]
    exact forall₂_congr fun v hv => (hf.forall v hv).unreported_eq_zero_iff hl
  refine ⟨vs, hf, hc, ht, ?_⟩
  rw [← hz, ht, Nat.left_eq_add]

/-- After a pass with one generator that fails, the sink holds an artifact more than the statistics. -/
theorem statistics_artifacts_eq_size_iff_of_failing : ∃ report out,
    samplePass.run failingTools sampleHost {} = some (report, out) ∧ out.size = report.statistics.artifacts + 1 ∧
    ∃ vs : List (Visit ArtifactStore), vs.map (·.candidate) = (samplePass.index sampleHost).candidates ∧
      out.size = report.statistics.artifacts + (vs.map unreported).sum := by
  obtain ⟨report, out, hrun, hs⟩ := failing_run
  obtain ⟨vs, -, hc, ht, -⟩ :=
    statistics_artifacts_eq_size_iff samplePass failingTools failing_callbacks sampleHost hrun
  exact ⟨report, out, hrun, hs, vs, hc, ht⟩

/-- A generator that adds a source and returns an error leaves an artifact that no count knows. -/
theorem not_statistics_artifacts_eq_size : ¬ ∀ (p : Pass) (tools : PassTools ArtifactStore) (host : HostCompilation)
    (report : PassReport) (out : ArtifactStore), LoadedUnit.ForLoaded tools.load (Call.Leads Callbacks) →
      p.run tools host {} = some (report, out) → report.statistics.artifacts = out.size := by
  intro h
  obtain ⟨report, out, hrun, hs⟩ := failing_run
  have h := h _ _ _ _ _ failing_callbacks hrun
  exact Nat.ne_of_lt (Nat.lt_succ_self _) (h.trans hs)

end Pass
end GeneratorHost
