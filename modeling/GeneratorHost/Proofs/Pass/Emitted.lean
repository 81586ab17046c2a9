import GeneratorHost.Proofs.Artifact.Names
import GeneratorHost.Proofs.Artifact.Store
import GeneratorHost.Proofs.Pass.Artifacts

/-! What is in the sink of a pass: the file of the support module first, the record of what failed
last, and between them what the generators added, which takes neither of these two names. -/
namespace GeneratorHost

open ArtifactStore (Takes)

/-! ### Invocations -/

/-- The sink of an invocation keeps the names that it reserves from the sink behind it. -/
structure InvocationSink.Guards (s s' : InvocationSink ArtifactStore) : Prop where
  reserved : s'.reserved = s.reserved
  takes : Takes s.reserved s.artifacts s'.artifacts

namespace InvocationSink.Guards

variable {s s' s'' : InvocationSink ArtifactStore}

theorem of_eq (hr : s'.reserved = s.reserved) (ha : s'.artifacts = s.artifacts) : Guards s s' := by
  refine ⟨hr, ?_⟩
  rw [ha]
  exact .refl _ _

theorem trans (h : Guards s s') (h' : Guards s' s'') : Guards s s'' := by
  obtain ⟨hr, ht⟩ := h
  obtain ⟨hr', ht'⟩ := h'
  rw [hr] at ht'
  exact ⟨hr'.trans hr, ht.trans ht'⟩

theorem of_callback (h : Callback s s') : Guards s s' := by
  cases h with
  | add name text =>
    unfold InvocationSink.add
    split
    · exact of_eq rfl rfl
    · rename_i hopen
      cases h : ArtifactSink.add s.artifacts name.toText text.toText with
      | error e => exact of_eq rfl rfl
      | ok artifacts =>
        have hn : name.toText ∉ s.reserved := by
          intro hm
          simp [hm] at hopen
        exact ⟨rfl, .of_add hn h⟩
  | report text =>
    unfold InvocationSink.report
    split <;> exact of_eq rfl rfl
  | fail report =>
    unfold InvocationSink.fail
    split <;> exact of_eq rfl rfl
  | pause time => exact of_eq rfl rfl

theorem callbackOrder : CallbackOrder Guards where
  refl _ := of_eq rfl rfl
  trans := trans
  callback := of_callback
  takeFailure _ := of_eq rfl rfl

end InvocationSink.Guards

/-- An invocation adds nothing under a reserved name, however it ends. -/
theorem Dispatcher.takes_of_invoke {d : Dispatcher}
    {load : Image → Except String (LoadedUnit (InvocationSink ArtifactStore))}
    (hl : LoadedUnit.ForLoaded load (Call.Leads Callbacks)) {u : CompiledUnit} {name : String}
    {ds : List RawDeclaration} {before after : ArtifactStore} {result : InvocationResult InvocationReport}
    (h : d.invoke load u name ds before = some (result, after)) : Takes d.reserved before after := by
  rcases InvocationSink.Guards.callbackOrder.of_invoke hl h with ⟨e, -, rfl⟩ | ⟨outcome, s, hs, -, rfl⟩
  · exact .refl _ _
  · exact hs.takes

/-! ### Passes -/

/-- The artifacts that a visit added. -/
def Visit.added (v : Visit ArtifactStore) : List Artifact := v.after.artifacts.drop v.before.size

namespace Pass

variable {p : Pass} {tools : PassTools ArtifactStore} {ds : List RawDeclaration}

theorem Visits.takes {v : Visit ArtifactStore} (hl : LoadedUnit.ForLoaded tools.load (Call.Leads Callbacks))
    (h : Visits p tools ds v) : Takes p.dispatcher.reserved v.before v.after := by
  cases h with
  | notCompiled => exact .refl _ _
  | notInvoked compile invoke => exact Dispatcher.takes_of_invoke hl invoke
  | succeeded compile invoke => exact Dispatcher.takes_of_invoke hl invoke

/-- A visit leaves what was there, and what it adds has no reserved name. -/
theorem Visits.added {v : Visit ArtifactStore} (hl : LoadedUnit.ForLoaded tools.load (Call.Leads Callbacks))
    (h : Visits p tools ds v) : v.after.artifacts = v.before.artifacts ++ v.added ∧
      (∀ a ∈ v.added, a.name ∉ p.dispatcher.reserved) ∧ (v.before.Sound → v.after.Sound) := by
  obtain ⟨added, he, hr, hs⟩ := h.takes hl
  have ha : v.added = added := by
    rw [Visit.added, he, ArtifactStore.size, List.drop_left]
  rw [ha]
  exact ⟨he, hr, hs⟩

/-- The names that a dispatcher keeps for its pass. -/
theorem mem_reserved_iff (p : Pass) (name : String) : name ∈ p.dispatcher.reserved ↔
    name = DiagnosticLog.artifactName ∨ p.config.emitsSupport ∧ name = p.support.fileName := by
  unfold dispatcher
  cases p.config.emitsSupport with
  | false => simp
  | true => simp [Dispatcher.reserve]

/-- A prepared pass has the configuration it was prepared with, and that is valid. -/
theorem validate_of_prepare {config : PassConfig} {workspace : String}
    {discover : ToolchainConfig → Except ConfigError References} (h : prepare config workspace discover = .ok p) :
    p.config.validate = .ok () := by
  unfold prepare at h
  cases hv : config.validate with
  | error e =>
    rw [hv] at h
    cases h
  | ok =>
    rw [hv] at h
    cases hd : discover config.toolchain with
    | error e =>
      simp only [hd] at h
      cases h
    | ok references =>
      simp only [hd] at h
      cases h
      exact hv

theorem emit_of_add {s : PassState ArtifactStore} {name text : String} {out : ArtifactStore}
    (h : s.artifacts.add name text = .ok out) : (s.emit name text).artifacts = out := by
  have h : ArtifactSink.add s.artifacts name text = .ok out := h
  rw [PassState.emit, h]

theorem emit_of_not_isArtifactName {s : PassState ArtifactStore} {name : String} (h : ¬ isArtifactName name)
    (text : String) : s.emit name text = s := by
  have h : ArtifactSink.add s.artifacts name text = .error (.invalidName name) := by
    exact if_pos (by simpa using h)
  rw [PassState.emit, h]

/-- A pass begins with the support module's file, if it emits one and its name is plain. -/
theorem begin_artifacts (p : Pass) (index : DeclarationIndex) :
    (p.begin index ({} : ArtifactStore)).artifacts =
      if p.config.emitsSupport ∧ isArtifactName p.support.fileName then ⟨[⟨p.support.fileName, supportSource⟩]⟩
      else {} := by
  unfold Pass.begin
  by_cases he : p.config.emitsSupport
  · rw [if_pos he]
    by_cases hp : isArtifactName p.support.fileName
    · rw [if_pos ⟨he, hp⟩]
      exact emit_of_add (ArtifactStore.add_eq_ok_iff.mpr ⟨hp, List.not_mem_nil, rfl⟩)
    · rw [if_neg fun h => hp h.2, emit_of_not_isArtifactName hp]
  · rw [if_neg he, if_neg fun h => he h.1]

/-- A pass begins with nothing or with the support module's file alone. -/
theorem begin_artifacts_subset (p : Pass) (index : DeclarationIndex) :
    ∀ a ∈ (p.begin index ({} : ArtifactStore)).artifacts.artifacts, a.name = p.support.fileName := by
  rw [begin_artifacts]
  split
  · exact List.forall_mem_singleton.mpr rfl
  · exact List.forall_mem_nil _

theorem begin_sound (p : Pass) (index : DeclarationIndex) : (p.begin index ({} : ArtifactStore)).artifacts.Sound := by
  rw [begin_artifacts]
  split
  · rename_i h
    exact ArtifactStore.sound_empty.add (ArtifactStore.add_eq_ok_iff.mpr ⟨h.2, List.not_mem_nil, rfl⟩)
  · exact ArtifactStore.sound_empty

/-- The record of what failed. -/
def record (text : String) : Artifact := ⟨DiagnosticLog.artifactName, DiagnosticLog.comment text⟩

/-- Where nothing has the record's name, the record is added. -/
theorem add_record {s : PassState ArtifactStore}
    (hn : ∀ a ∈ s.artifacts.artifacts, a.name ≠ DiagnosticLog.artifactName) :
    s.artifacts.add DiagnosticLog.artifactName (DiagnosticLog.comment s.log.text) =
      .ok ⟨s.artifacts.artifacts ++ [record s.log.text]⟩ := by
  refine ArtifactStore.add_eq_ok_iff.mpr ⟨by decide, fun hm => ?_, rfl⟩
  obtain ⟨a, ha, he⟩ := List.mem_map.mp hm
  exact hn a ha he

theorem finish_artifacts {s : PassState ArtifactStore}
    (hn : ∀ a ∈ s.artifacts.artifacts, a.name ≠ DiagnosticLog.artifactName) :
    (finish s).artifacts = ⟨s.artifacts.artifacts ++ [record s.log.text]⟩ :=
  emit_of_add (add_record hn)

/-- The artifacts of a pass are told apart by plain names. The record of what failed is the last
one, the support module's file the first, and neither name is taken by what a visit added. -/
structure Emits (p : Pass) (report : PassReport) (out : ArtifactStore) (begun : ArtifactStore)
    (vs : List (Visit ArtifactStore)) : Prop where
  plain : ∀ a ∈ out.artifacts, isArtifactName a.name
  nodup : (out.artifacts.map (·.name)).Nodup
  once : out.artifacts.filter (·.name = DiagnosticLog.artifactName) = [record report.diagnostics]
  last : out.artifacts.getLast? = some (record report.diagnostics)
  support : p.config.emitsSupport → UnitRoot.isIdentifier p.config.supportName.toList →
    out.artifacts.head? = some ⟨p.config.supportName ++ ".rs", supportSource⟩
  artifacts : out.artifacts = begun.artifacts ++ vs.flatMap Visit.added ++ [record report.diagnostics]
  added : ∀ v ∈ vs, v.after.artifacts = v.before.artifacts ++ v.added ∧ ∀ a ∈ v.added,
    a.name ≠ DiagnosticLog.artifactName ∧ (p.config.emitsSupport → a.name ≠ p.config.supportName ++ ".rs")

/-- After some visits, the sink holds what it held before and what they added. -/
theorem Follow.artifacts {s : PassState ArtifactStore} {vs : List (Visit ArtifactStore)}
    (hl : LoadedUnit.ForLoaded tools.load (Call.Leads Callbacks)) (hf : Follow p tools ds s.artifacts vs) :
    (vs.foldl PassState.meet s).artifacts.artifacts = s.artifacts.artifacts ++ vs.flatMap Visit.added ∧
      (s.artifacts.Sound → (vs.foldl PassState.meet s).artifacts.Sound) := by
  have hstart : s.artifacts.artifacts = s.artifacts.artifacts ++ ([] : List (Visit ArtifactStore)).flatMap Visit.added ∧
      (s.artifacts.Sound → s.artifacts.Sound) := ⟨(List.append_nil _).symm, id⟩
  refine hf.keeps (P := fun s' ws => s'.artifacts.artifacts = s.artifacts.artifacts ++ ws.flatMap Visit.added ∧
    (s.artifacts.Sound → s'.artifacts.Sound)) (fun s' ws v hv hb h => ?_) hstart
  obtain ⟨ha, hs⟩ := h
  obtain ⟨he, -, hsound⟩ := hv.added hl
  rw [hv.meet_artifacts hb]
  refine ⟨?_, fun h => hsound (hb ▸ hs h)⟩
  rw [he, hb, ha, List.flatMap_append, List.flatMap_singleton, List.append_assoc]

/-- No visit takes a name of the pass's own artifacts. -/
theorem Follow.added {a : ArtifactStore} {vs : List (Visit ArtifactStore)}
    (hl : LoadedUnit.ForLoaded tools.load (Call.Leads Callbacks)) (hf : Follow p tools ds a vs) :
    ∀ v ∈ vs, v.after.artifacts = v.before.artifacts ++ v.added ∧ ∀ a ∈ v.added,
      a.name ≠ DiagnosticLog.artifactName ∧ (p.config.emitsSupport → a.name ≠ p.support.fileName) := by
  intro v hv
  obtain ⟨he, hr, -⟩ := (hf.forall v hv).added hl
  refine ⟨he, fun a ha => ?_⟩
  have hr := hr a ha
  rw [mem_reserved_iff, not_or, not_and] at hr
  exact hr

/-- Whatever its generators try to add, a pass that was prepared and has ended emitted its own
artifacts under their names, and theirs under others. -/
theorem run_emits {config : PassConfig} {workspace : String}
    {discover : ToolchainConfig → Except ConfigError References} (hp : prepare config workspace discover = .ok p)
    (hl : LoadedUnit.ForLoaded tools.load (Call.Leads Callbacks)) (host : HostCompilation) {report : PassReport}
    {out : ArtifactStore} (h : p.run tools host {} = some (report, out)) :
    ∃ vs, Follow p tools (marshal (p.index host).records) (p.begin (p.index host) {}).artifacts vs ∧
      vs.map (·.candidate) = (p.index host).candidates ∧
      Emits p report out (p.begin (p.index host) {}).artifacts vs := by
  obtain ⟨last, vs, -, hf, hc, hv, rfl, rfl⟩ := exists_visits_of_run h
  have hadded := hf.added hl
  obtain ⟨hartifacts, hsound⟩ := hf.artifacts hl
  rw [← hv] at hartifacts hsound
  have hnone : ∀ a ∈ last.artifacts.artifacts, a.name ≠ DiagnosticLog.artifactName := by
    rw [hartifacts, List.forall_mem_append]
    refine ⟨fun a ha => ?_, fun a ha => ?_⟩
    · rw [p.begin_artifacts_subset _ a ha]
      exact SupportModule.fileName_ne_artifactName (PassConfig.isNameText_of_validate (validate_of_prepare hp))
    · obtain ⟨v, hv, ha⟩ := List.mem_flatMap.mp ha
      exact ((hadded v hv).2 a ha).1
  have hsound := (hsound (p.begin_sound _)).add (add_record hnone)
  refine ⟨vs, hf, hc, ?_⟩
  rw [finish_log, finish_artifacts hnone]
  refine ⟨List.forall_mem_map.mp hsound.plain, hsound.nodup, ?_, List.getLast?_concat, fun he hi => ?_, ?_, hadded⟩
  · rw [List.filter_append, List.filter_eq_nil_iff.mpr fun a ha => by simpa using hnone a ha]
    simp [record]
  · have hplain : isArtifactName p.support.fileName := SupportModule.isArtifactName_fileName hi
    rw [hartifacts, begin_artifacts, if_pos ⟨he, hplain⟩]
    rfl
  · rw [hartifacts]

/-- It goes for the names of the pass's own artifacts before it adds one under its own. -/
def intrudingGenerator : Generator where
  execute _ := .add DiagnosticLog.artifactName "" fun _ => .add "selfgen_rt.rs" "" fun _ =>
    .add "a" "" fun _ => .done ()

def intrudingTools : PassTools ArtifactStore :=
  { failingTools with load := fun _ => .ok (SampleUnit.loaded fun _ => intrudingGenerator) }

def emittingPass : Pass := { samplePass with config := { emitsSupport := true } }

/-- A life without panics comes to what running the generator comes to. -/
theorem run_loaded_of_done (generator : String → Generator) (name : String) {ds : List RawDeclaration}
    {s s' : InvocationSink ArtifactStore}
    (hf : ∀ e ∈ [EntryPoint.construct, .execute, .release], SampleUnit.find? e (e.symbol name) = some (name, .complete))
    (hc : (generator name).construction? = none) (hd : (generator name).disposal? = none)
    (hp : ((generator name).execute (unmarshal ds)).perform s = (.done (), s')) :
    (SampleUnit.loaded generator).run InvocationSink.takeFailure name ds s = some (.ok (), s'.takeFailure.2) := by
  simp only [List.forall_mem_cons] at hf
  obtain ⟨hfc, hfe, hfr, -⟩ := hf
  have hconstruct : SampleUnit.onSink (generator name).constructEntry s = some (true, s) := by
    simp [SampleUnit.onSink, Generator.constructEntry, hc]
  have hexecute : SampleUnit.onSink (fun s? => Generator.executeEntry (some (generator name)) s? ds) s =
      some (.succeeded, s') := by
    simp [SampleUnit.onSink, Generator.executeEntry, hp]
  have hrelease : (generator name).releaseEntry = some () := by
    simp [Generator.releaseEntry, hd]
  have hpure {α : Type} (a : α) (s : InvocationSink ArtifactStore) :
      (pure a : StateT (InvocationSink ArtifactStore) Option α) s = some (a, s) := rfl
  simp only [LoadedUnit.run, SampleUnit.loaded, hfc, hfe, hfr, Option.map_some]
  simp [hconstruct, hexecute, hrelease, bind, StateT.bind, hpure]
  rfl

private theorem intruding_perform (ds : List DeclarationView) {s : InvocationSink ArtifactStore}
    (hc : s.closed = false) (hr : s.reserved = emittingPass.dispatcher.reserved) (ha : "a" ∉ s.artifacts.names) :
    (intrudingGenerator.execute ds).perform s =
      (.done (), { s with artifacts := ⟨s.artifacts.artifacts ++ [⟨"a", ""⟩]⟩, added := s.added + 1 }) := by
  have hrecord : s.add (.ofString DiagnosticLog.artifactName) (.ofString "") = (false, s) := by
    refine InvocationSink.add_of_reserved ?_ _
    rw [hr]
    decide +kernel
  have hsupport : s.add (.ofString "selfgen_rt.rs") (.ofString "") = (false, s) := by
    refine InvocationSink.add_of_reserved ?_ _
    rw [hr]
    decide +kernel
  have hown : s.add (.ofString "a") (.ofString "") =
      (true, { s with artifacts := ⟨s.artifacts.artifacts ++ [⟨"a", ""⟩]⟩, added := s.added + 1 }) := by
    have hname : (RawText.ofString "a").toText = "a" := by decide +kernel
    have htext : (RawText.ofString "").toText = "" := by decide +kernel
    have hadd : ArtifactSink.add s.artifacts "a" "" = .ok ⟨s.artifacts.artifacts ++ [⟨"a", ""⟩]⟩ :=
      ArtifactStore.add_eq_ok_iff.mpr ⟨by decide, ha, rfl⟩
    have hfree : s.reserved.contains "a" = false := by
      rw [hr]
      decide
    simp only [InvocationSink.add, hc, hname, htext, hfree, hadd]
    rfl
  simp only [intrudingGenerator, Run.perform, hrecord, hsupport, hown]

private theorem intruding_invoke (ds : List RawDeclaration) {before : ArtifactStore} (ha : "a" ∉ before.names) :
    emittingPass.dispatcher.invoke intrudingTools.load failingUnit "crate::Root" ds before =
      some (.ok ⟨"crate::Root", 1, []⟩, ⟨before.artifacts ++ [⟨"a", ""⟩]⟩) := by
  have hc : failingUnit.hasExport (EntryPoint.construct.symbol "crate::Root") := by decide
  have he : failingUnit.hasExport (EntryPoint.execute.symbol "crate::Root") := by decide
  have hp := intruding_perform (unmarshal ds) (s := emittingPass.dispatcher.sink before) rfl rfl ha
  have hrun := run_loaded_of_done (fun _ => intrudingGenerator) "crate::Root" (by decide) rfl rfl hp
  rw [Dispatcher.invoke_of_exports hc he rfl, hrun]
  rfl

private theorem intruding_callbacks : LoadedUnit.ForLoaded intrudingTools.load (Call.Leads Callbacks) := by
  intro image unit hu
  cases hu
  exact SampleUnit.loaded_callbacks _

private theorem intruding_run : ∃ report out, emittingPass.run intrudingTools sampleHost {} = some (report, out) ∧
    out.names = ["selfgen_rt.rs", "a", DiagnosticLog.artifactName] := by
  obtain ⟨c, hi, hn, -, call, hc⟩ := exists_sample_candidate
  have hi : (emittingPass.index sampleHost).candidates = [c] := hi
  let s := emittingPass.begin (emittingPass.index sampleHost) ({} : ArtifactStore)
  have hs : s.artifacts = ⟨[⟨"selfgen_rt.rs", supportSource⟩]⟩ := by
    refine (begin_artifacts _ _).trans (if_pos ⟨rfl, ?_⟩)
    decide
  have ha : "a" ∉ s.artifacts.names := by
    rw [hs]
    decide
  have hinvoke := intruding_invoke (marshal (emittingPass.index sampleHost).records) ha
  rw [← hn] at hinvoke
  let v : Visit ArtifactStore :=
    ⟨c, .succeeded failingUnit ⟨c.name, 1, []⟩, s.artifacts, ⟨s.artifacts.artifacts ++ [⟨"a", ""⟩]⟩⟩
  have hv : Visits emittingPass intrudingTools (marshal (emittingPass.index sampleHost).records) v :=
    .succeeded (failing_compile hn hc) hinvoke
  have hlast : (emittingPass.index sampleHost).candidates.foldlM
      (emittingPass.process intrudingTools (marshal (emittingPass.index sampleHost).records)) s = some (s.meet v) := by
    rw [hi, List.foldlM_cons, hv.process rfl]
    rfl
  have hleft : (s.meet v).artifacts = ⟨[⟨"selfgen_rt.rs", supportSource⟩, ⟨"a", ""⟩]⟩ := by
    rw [hv.meet_artifacts rfl]
    exact congrArg (fun before => (⟨before.artifacts ++ [⟨"a", ""⟩]⟩ : ArtifactStore)) hs
  have hnone : ∀ a ∈ (s.meet v).artifacts.artifacts, a.name ≠ DiagnosticLog.artifactName := by
    rw [hleft]
    decide
  refine ⟨_, _, by rw [run_eq_map, hlast]; rfl, ?_⟩
  rw [finish_artifacts hnone, hleft]
  rfl

/-- A generator that goes for both reserved names gets neither. -/
theorem run_emits_of_intruding : ∃ report out,
    prepare { emitsSupport := true } "/unit" (fun _ => .ok samplePass.references) = .ok emittingPass ∧
    emittingPass.run intrudingTools sampleHost {} = some (report, out) ∧
    out.names = ["selfgen_rt.rs", "a", DiagnosticLog.artifactName] ∧
    ∃ vs, Emits emittingPass report out (emittingPass.begin (emittingPass.index sampleHost) {}).artifacts vs := by
  obtain ⟨report, out, hrun, hnames⟩ := intruding_run
  have hp : prepare { emitsSupport := true } "/unit" (fun _ => .ok samplePass.references) = .ok emittingPass := by
    have hv : PassConfig.validate { emitsSupport := true } = .ok () := by decide +kernel
    rw [prepare, hv]
    rfl
  obtain ⟨vs, -, -, he⟩ := run_emits hp intruding_callbacks sampleHost hrun
  exact ⟨report, out, hp, hrun, hnames, vs, he⟩

end Pass
end GeneratorHost
