import GeneratorHost.Pass.Run
import GeneratorHost.Proofs.Invocation.Calls
import GeneratorHost.Proofs.Unit.Attempt

/-! A pass as the list of its visits: what came of each candidate, one after the other. -/
namespace GeneratorHost

/-- What came of a candidate. -/
inductive Visit.Outcome where
  | notCompiled (error : CompileError)
  | notInvoked (unit : CompiledUnit) (error : InvocationError)
  | succeeded (unit : CompiledUnit) (report : InvocationReport)

/-- A candidate that a pass met: what came of it, and the sink before and after. -/
structure Visit (σ : Type) where
  candidate : Candidate
  outcome : Visit.Outcome
  before : σ
  after : σ

namespace Visit.Outcome

/-- Where the candidate failed, if it did. -/
def stage? : Outcome → Option Stage
  | notCompiled _ => some .compile
  | notInvoked .. => some .invoke
  | succeeded .. => none

/-- What is recorded about the candidate. -/
def diagnostics : Outcome → List Diagnostic
  | notCompiled e => e.toDiagnostics
  | notInvoked _ e => [e.toDiagnostic]
  | succeeded .. => []

/-- The number of artifacts that is reported. -/
def reported : Outcome → Nat
  | succeeded _ report => report.added
  | _ => 0

theorem diagnostics_of_stage? {o : Outcome} (h : o.stage? = none) : o.diagnostics = [] := by
  cases o with
  | succeeded => rfl
  | _ => cases h

end Visit.Outcome

variable {σ : Type}

/-- The state after a visit. -/
def PassState.meet (s : PassState σ) (v : Visit σ) : PassState σ :=
  match v.outcome with
  | .notCompiled e => s.fail .compile v.candidate.name e.toDiagnostics
  | .notInvoked unit e =>
    { s.compiled v.candidate.name unit with artifacts := v.after }.invoked v.candidate.name (.error e)
  | .succeeded unit report =>
    { s.compiled v.candidate.name unit with artifacts := v.after }.invoked v.candidate.name (.ok report)

namespace Pass

/-- A visit that a pass can make: compiling and running its candidate comes to its outcome. -/
inductive Visits (p : Pass) (tools : PassTools σ) (ds : List RawDeclaration) : Visit σ → Prop
  | notCompiled {c : Candidate} {e : CompileError} {a : σ}
      (compile : (p.compiler.compile tools.compiler c).run = some (.error e)) :
      Visits p tools ds ⟨c, .notCompiled e, a, a⟩
  | notInvoked {c : Candidate} {unit : CompiledUnit} {e : InvocationError} {a b : σ}
      (compile : (p.compiler.compile tools.compiler c).run = some (.ok unit))
      (invoke : p.dispatcher.invoke tools.load unit c.name ds a = some (.error e, b)) :
      Visits p tools ds ⟨c, .notInvoked unit e, a, b⟩
  | succeeded {c : Candidate} {unit : CompiledUnit} {report : InvocationReport} {a b : σ}
      (compile : (p.compiler.compile tools.compiler c).run = some (.ok unit))
      (invoke : p.dispatcher.invoke tools.load unit c.name ds a = some (.ok report, b)) :
      Visits p tools ds ⟨c, .succeeded unit report, a, b⟩

/-- Visits that follow each other from a sink on. -/
def Follow (p : Pass) (tools : PassTools σ) (ds : List RawDeclaration) : σ → List (Visit σ) → Prop
  | _, [] => True
  | a, v :: vs => v.before = a ∧ Visits p tools ds v ∧ Follow p tools ds v.after vs

variable {p : Pass} {tools : PassTools σ} {ds : List RawDeclaration} {s s' : PassState σ}

/-- A failure to compile is recorded with something to report. -/
theorem Visits.diagnostics_ne_nil {v : Visit σ} (h : Visits p tools ds v) (hs : v.outcome.stage? ≠ none) :
    v.outcome.diagnostics ≠ [] := by
  cases h with
  | notCompiled compile => exact (UnitCompiler.compile_failsWith _ compile).diagnostics
  | notInvoked => exact List.cons_ne_nil _ _
  | succeeded => exact absurd rfl hs

theorem Visits.meet_artifacts {v : Visit σ} (h : Visits p tools ds v) (hb : v.before = s.artifacts) :
    (s.meet v).artifacts = v.after := by
  cases h with
  | notCompiled => exact hb.symm
  | notInvoked => rfl
  | succeeded => rfl

/-- Processing a candidate is a visit. -/
theorem exists_visit {c : Candidate} (h : p.process tools ds s c = some s') :
    ∃ v, Visits p tools ds v ∧ v.candidate = c ∧ v.before = s.artifacts ∧ s' = s.meet v := by
  simp only [process, Option.bind_eq_bind, Option.bind_eq_some_iff] at h
  obtain ⟨result, hc, h⟩ := h
  cases result with
  | error e =>
    cases h
    exact ⟨_, .notCompiled hc, rfl, rfl, rfl⟩
  | ok unit =>
    simp only [Option.bind_eq_some_iff] at h
    obtain ⟨⟨result, artifacts⟩, hi, h⟩ := h
    cases h
    cases result with
    | error e => exact ⟨_, .notInvoked hc hi, rfl, rfl, rfl⟩
    | ok report => exact ⟨_, .succeeded hc hi, rfl, rfl, rfl⟩

/-- A pass makes the visits it can make. -/
theorem Visits.process {v : Visit σ} (h : Visits p tools ds v) (hb : v.before = s.artifacts) :
    p.process tools ds s v.candidate = some (s.meet v) := by
  unfold Pass.process
  cases h with
  | notCompiled compile =>
    rw [compile]
    rfl
  | notInvoked compile invoke =>
    obtain rfl : _ = s.artifacts := hb
    simp only [compile, Option.bind_eq_bind, Option.bind_some, PassState.compiled, invoke]
    rfl
  | succeeded compile invoke =>
    obtain rfl : _ = s.artifacts := hb
    simp only [compile, Option.bind_eq_bind, Option.bind_some, PassState.compiled, invoke]
    rfl

/-- A run over candidates is a visit to each of them, in order. -/
theorem exists_visits {cs : List Candidate} (h : cs.foldlM (p.process tools ds) s = some s') :
    ∃ vs, Follow p tools ds s.artifacts vs ∧ vs.map (·.candidate) = cs ∧ s' = vs.foldl PassState.meet s := by
  induction cs generalizing s with
  | nil =>
    cases h
    exact ⟨[], trivial, rfl, rfl⟩
  | cons c cs ih =>
    rw [List.foldlM_cons, Option.bind_eq_bind, Option.bind_eq_some_iff] at h
    obtain ⟨t, hc, h⟩ := h
    obtain ⟨v, hv, rfl, hb, rfl⟩ := exists_visit hc
    obtain ⟨vs, hvs, rfl, rfl⟩ := ih h
    rw [hv.meet_artifacts hb] at hvs
    exact ⟨v :: vs, ⟨hb, hv, hvs⟩, rfl, rfl⟩

/-- What every visit keeps, with the visits made so far, holds after all of them. -/
theorem Follow.keeps {P : PassState σ → List (Visit σ) → Prop}
    (hm : ∀ s ws v, Visits p tools ds v → v.before = s.artifacts → P s ws → P (s.meet v) (ws ++ [v]))
    {vs ws : List (Visit σ)} (hf : Follow p tools ds s.artifacts vs) (hs : P s ws) :
    P (vs.foldl PassState.meet s) (ws ++ vs) := by
  induction vs generalizing s ws with
  | nil => rwa [List.append_nil]
  | cons v vs ih =>
    obtain ⟨hb, hv, hf⟩ := hf
    rw [List.append_cons]
    refine ih ?_ (hm s ws v hv hb hs)
    rw [hv.meet_artifacts hb]
    exact hf

theorem Follow.forall {a : σ} {vs : List (Visit σ)} (h : Follow p tools ds a vs) : ∀ v ∈ vs, Visits p tools ds v := by
  induction vs generalizing a with
  | nil => exact List.forall_mem_nil _
  | cons v vs ih => exact List.forall_mem_cons.mpr ⟨h.2.1, ih h.2.2⟩

/-- Processing a candidate ends if its root can be generated and no panic leaves a unit. -/
theorem process_ne_none {c : Candidate} (hr : p.compiler.root? c.name c.node.tree ≠ none)
    (hu : LoadedUnit.ForLoaded tools.load Call.Answers) (s : PassState σ) :
    p.process tools ds s c ≠ none := by
  unfold process
  cases hc : (p.compiler.compile tools.compiler c).run with
  | none => exact absurd hc (UnitCompiler.compile_ends hr)
  | some result =>
    cases result with
    | error e => exact Option.some_ne_none _
    | ok unit =>
      cases h : p.dispatcher.invoke tools.load unit c.name ds s.artifacts with
      | none => exact absurd h (Dispatcher.invoke_ne_none hu s.artifacts)
      | some result =>
        simp [PassState.compiled, h]

theorem foldlM_process_ne_none {cs : List Candidate} (hr : ∀ c ∈ cs, p.compiler.root? c.name c.node.tree ≠ none)
    (hu : LoadedUnit.ForLoaded tools.load Call.Answers) (s : PassState σ) :
    cs.foldlM (p.process tools ds) s ≠ none := by
  induction cs generalizing s with
  | nil => exact Option.some_ne_none _
  | cons c cs ih =>
    rw [List.forall_mem_cons] at hr
    cases h : p.process tools ds s c with
    | none => exact absurd h (process_ne_none hr.1 hu s)
    | some t =>
      rw [List.foldlM_cons, h]
      exact ih hr.2 t

/-! ### Runs -/

variable [ArtifactSink σ]

/-- A pass begins with what holds before any artifact and is kept by artifacts of its own. -/
theorem begin_keeps {P : PassState σ → Prop} {index : DeclarationIndex} {artifacts : σ}
    (h : P ⟨artifacts, {}, ({} : Statistics).withIndex index.records.length index.candidates.length⟩)
    (he : ∀ s name text, P s → P (s.emit name text)) : P (p.begin index artifacts) := by
  unfold Pass.begin
  split
  · exact he _ _ _ h
  · exact h

theorem run_eq_map (p : Pass) (tools : PassTools σ) (host : HostCompilation) (artifacts : σ) :
    p.run tools host artifacts = ((p.index host).candidates.foldlM (p.process tools (marshal (p.index host).records))
      (p.begin (p.index host) artifacts)).map fun last =>
        (⟨(finish last).statistics, (finish last).log.text, (p.index host).candidates.map (·.name)⟩,
          (finish last).artifacts) := by
  unfold run
  dsimp only
  cases (p.index host).candidates.foldlM (p.process tools (marshal (p.index host).records))
    (p.begin (p.index host) artifacts) with
  | none => rfl
  | some last => rfl

/-- A run that ends is a visit to each candidate, between its beginning and its last artifact. -/
theorem exists_visits_of_run {host : HostCompilation} {artifacts out : σ} {report : PassReport}
    (h : p.run tools host artifacts = some (report, out)) :
    ∃ last vs, (p.index host).candidates.foldlM (p.process tools (marshal (p.index host).records))
        (p.begin (p.index host) artifacts) = some last ∧
      Follow p tools (marshal (p.index host).records) (p.begin (p.index host) artifacts).artifacts vs ∧
      vs.map (·.candidate) = (p.index host).candidates ∧
      last = vs.foldl PassState.meet (p.begin (p.index host) artifacts) ∧
      report = ⟨(finish last).statistics, (finish last).log.text, (p.index host).candidates.map (·.name)⟩ ∧
      out = (finish last).artifacts := by
  rw [run_eq_map] at h
  obtain ⟨last, hl, h⟩ := Option.map_eq_some_iff.mp h
  obtain ⟨vs, hf, hc, hv⟩ := exists_visits hl
  cases h
  exact ⟨last, vs, hl, hf, hc, hv, rfl, rfl⟩

end Pass
end GeneratorHost
