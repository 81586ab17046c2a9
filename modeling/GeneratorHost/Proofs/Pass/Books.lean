import GeneratorHost.Proofs.Index.Walk
import GeneratorHost.Proofs.Pass.Visits

/-! The books that a pass keeps: counts of what came of its candidates, and a log of what failed. -/
namespace GeneratorHost

/-! ### Statistics -/

/-- The statistics without the name of the slowest candidate, which is the first of equally slow ones. -/
def Statistics.unnamed (s : Statistics) : Statistics := { s with slowestCandidate := "" }

theorem Statistics.unnamed_withCompiled (candidate : String) (size : Nat) (time : Duration) (s : Statistics) :
    (s.withCompiled candidate size time).unnamed =
      { s.unnamed with
        compiled := s.compiled + 1
        imageBytes := s.imageBytes + size
        compileTime := ⟨s.compileTime.nanoseconds + time.nanoseconds⟩
        slowest := ⟨max s.slowest.nanoseconds time.nanoseconds⟩ } := by
  unfold withCompiled
  dsimp only
  split
  · rename_i h
    rw [Nat.max_eq_right (Nat.le_of_lt h)]
    rfl
  · rename_i h
    rw [Nat.max_eq_left (Nat.not_lt.mp h)]
    rfl

namespace Visit.Outcome

/-- The compiled unit, if there is one. -/
def unit? : Outcome → Option CompiledUnit
  | notCompiled _ => none
  | notInvoked unit _ => some unit
  | succeeded unit _ => some unit

def imageBytes (o : Outcome) : Nat := (o.unit?.map (·.size)).getD 0

def nanoseconds (o : Outcome) : Nat := (o.unit?.map (·.compileTime.nanoseconds)).getD 0

/-- What an outcome adds to statistics. -/
def tally (s : Statistics) (o : Outcome) : Statistics where
  declarations := s.declarations
  candidates := s.candidates
  compiled := s.compiled + if o.stage? ≠ some .compile then 1 else 0
  invoked := s.invoked + if o.stage? = none then 1 else 0
  compileFailures := s.compileFailures + if o.stage? = some .compile then 1 else 0
  invocationFailures := s.invocationFailures + if o.stage? = some .invoke then 1 else 0
  artifacts := s.artifacts + o.reported
  imageBytes := s.imageBytes + o.imageBytes
  compileTime := ⟨s.compileTime.nanoseconds + o.nanoseconds⟩
  slowest := ⟨max s.slowest.nanoseconds o.nanoseconds⟩

/-- Statistics do not tell in which order outcomes were added. -/
theorem tally_right_comm (s : Statistics) (o o' : Outcome) : tally (tally s o) o' = tally (tally s o') o := by
  simp only [tally, Statistics.mk.injEq, Duration.mk.injEq, true_and, and_true]
  refine ⟨?_, ?_, ?_, ?_, ?_, ?_, ?_, ?_⟩ <;> omega

end Visit.Outcome

variable {σ : Type}

/-- The entry of a candidate in the log. -/
def Visit.entry (v : Visit σ) : String := DiagnosticLog.entry v.candidate.name v.outcome.diagnostics

/-- The visits to candidates that were not compiled or not run to a success. -/
def Visit.failed (vs : List (Visit σ)) : List (Visit σ) := vs.filter (·.outcome.stage? ≠ none)

/-- Compiled or not, and if compiled, run to a success or not: every visit is counted once. -/
theorem Visit.countP_stage? (vs : List (Visit σ)) :
    vs.length = vs.countP (·.outcome.stage? ≠ some .compile) + vs.countP (·.outcome.stage? = some .compile) ∧
      vs.countP (·.outcome.stage? ≠ some .compile) =
        vs.countP (·.outcome.stage? = none) + vs.countP (·.outcome.stage? = some .invoke) ∧
      (Visit.failed vs).length =
        vs.countP (·.outcome.stage? = some .compile) + vs.countP (·.outcome.stage? = some .invoke) := by
  induction vs with
  | nil => exact ⟨rfl, rfl, rfl⟩
  | cons v vs ih =>
    rw [Visit.failed, ← List.countP_eq_length_filter] at ih ⊢
    simp only [List.countP_cons, List.length_cons]
    rcases v.outcome.stage? with _ | _ | _ <;> simp at ih ⊢ <;> omega

/-- The counts of what came of candidates are those of some visits. -/
structure Statistics.Counts (s : Statistics) (vs : List (Visit σ)) : Prop where
  compiled : s.compiled = vs.countP (·.outcome.stage? ≠ some .compile)
  invoked : s.invoked = vs.countP (·.outcome.stage? = none)
  compileFailures : s.compileFailures = vs.countP (·.outcome.stage? = some .compile)
  invocationFailures : s.invocationFailures = vs.countP (·.outcome.stage? = some .invoke)

namespace DiagnosticLog

/-- The entries of a log are those of the visits that failed. -/
structure Covers (log : DiagnosticLog) (vs : List (Visit σ)) : Prop where
  entries : log.entries = (Visit.failed vs).length
  text : log.text = String.join ((Visit.failed vs).map Visit.entry)

theorem entry_ne_empty (candidate : String) (ds : List Diagnostic) : entry candidate ds ≠ "" := by
  intro h
  have h := congrArg String.length h
  simp only [entry, String.length_append, String.length_empty] at h
  have : "Error From ".length = 11 := rfl
  omega

/-- A log without text is one without entries. -/
theorem Covers.text_eq_empty_iff {log : DiagnosticLog} {vs : List (Visit σ)} (h : log.Covers vs) :
    log.text = "" ↔ ∀ v ∈ vs, v.outcome.stage? = none := by
  have he (v : Visit σ) : v.entry.toList ≠ [] := fun h => entry_ne_empty _ _ (String.toList_eq_nil_iff.mp h)
  rw [h.text, ← String.toList_inj, String.toList_join, List.flatMap_map]
  simp [Visit.failed, he]

end DiagnosticLog

namespace PassState

variable {s : PassState σ} {v : Visit σ} {vs : List (Visit σ)}

theorem meet_log (s : PassState σ) (v : Visit σ) :
    (s.meet v).log = s.log.record v.candidate.name v.outcome.diagnostics := by
  obtain ⟨candidate, outcome, before, after⟩ := v
  cases outcome <;> rfl

theorem meet_covers (h : s.log.Covers vs) (hv : v.outcome.stage? ≠ none → v.outcome.diagnostics ≠ []) :
    (s.meet v).log.Covers (vs ++ [v]) := by
  obtain ⟨he, ht⟩ := h
  rw [meet_log]
  by_cases hs : v.outcome.stage? = none
  · rw [Visit.Outcome.diagnostics_of_stage? hs, DiagnosticLog.record_nil]
    have hf : Visit.failed (vs ++ [v]) = Visit.failed vs := by simp [Visit.failed, hs]
    exact ⟨hf ▸ he, hf ▸ ht⟩
  · rw [DiagnosticLog.record_of_ne_nil (hv hs)]
    have hf : Visit.failed (vs ++ [v]) = Visit.failed vs ++ [v] := by simp [Visit.failed, hs]
    constructor
    · rw [hf, List.length_append, he]
      rfl
    · rw [hf, List.map_append, String.join_append, ht]
      simp [Visit.entry]

/-- A visit adds its outcome to the statistics. -/
theorem meet_unnamed (s : PassState σ) (v : Visit σ) :
    (s.meet v).statistics.unnamed = v.outcome.tally s.statistics.unnamed := by
  obtain ⟨candidate, outcome, before, after⟩ := v
  cases outcome with
  | notCompiled e =>
    simp [meet, fail, Statistics.withFailure, Statistics.unnamed, Visit.Outcome.tally, Visit.Outcome.stage?,
      Visit.Outcome.reported, Visit.Outcome.imageBytes, Visit.Outcome.nanoseconds, Visit.Outcome.unit?]
  | notInvoked unit e =>
    change (s.statistics.withCompiled candidate.name unit.size unit.compileTime).unnamed.withFailure .invoke = _
    rw [Statistics.unnamed_withCompiled]
    rfl
  | succeeded unit report =>
    change (s.statistics.withCompiled candidate.name unit.size unit.compileTime).unnamed.withInvoked report.added = _
    rw [Statistics.unnamed_withCompiled]
    rfl

private theorem countP_concat {α : Type} (p : α → Prop) [DecidablePred p] (l : List α) (a : α) :
    (l ++ [a]).countP p = l.countP p + if p a then 1 else 0 := by
  simp [List.countP_append, List.countP_singleton]

theorem meet_counts (h : s.statistics.Counts vs) : (s.meet v).statistics.Counts (vs ++ [v]) := by
  have hs := meet_unnamed s v
  constructor
  · rw [countP_concat, ← h.compiled]
    exact congrArg Statistics.compiled hs
  · rw [countP_concat, ← h.invoked]
    exact congrArg Statistics.invoked hs
  · rw [countP_concat, ← h.compileFailures]
    exact congrArg Statistics.compileFailures hs
  · rw [countP_concat, ← h.invocationFailures]
    exact congrArg Statistics.invocationFailures hs

/-- The books of a state with a number of candidates after some visits. -/
structure Books (n : Nat) (s : PassState σ) (vs : List (Visit σ)) : Prop where
  candidates : s.statistics.candidates = n
  counts : s.statistics.Counts vs
  covers : s.log.Covers vs

theorem Books.meet {n : Nat} (h : s.Books n vs) (hv : v.outcome.stage? ≠ none → v.outcome.diagnostics ≠ []) :
    (s.meet v).Books n (vs ++ [v]) := by
  refine ⟨?_, meet_counts h.counts, meet_covers h.covers hv⟩
  exact (congrArg Statistics.candidates (meet_unnamed s v)).trans h.candidates

/-- An artifact of the pass itself changes neither the log nor the counts of candidates. -/
theorem Books.emit [ArtifactSink σ] {n : Nat} (h : s.Books n vs) (name text : String) :
    (s.emit name text).Books n vs := by
  obtain ⟨hn, ⟨hc, hi, hcf, hif⟩, hl⟩ := h
  unfold PassState.emit
  cases ArtifactSink.add s.artifacts name text with
  | ok artifacts => exact ⟨hn, ⟨hc, hi, hcf, hif⟩, hl⟩
  | error e => exact ⟨hn, ⟨hc, hi, hcf, hif⟩, hl⟩

end PassState

/-! ### Finished passes -/

namespace Pass

/-- Every candidate of a pass is counted once and every one that fails is in its log. -/
structure Conserved (report : PassReport) (log : DiagnosticLog) (vs : List (Visit σ)) : Prop where
  candidates : report.statistics.candidates = report.statistics.compiled + report.statistics.compileFailures
  compiled : report.statistics.compiled = report.statistics.invoked + report.statistics.invocationFailures
  counts : report.statistics.Counts vs
  entries : log.entries = report.statistics.failures
  covers : log.Covers vs
  reported : ∀ v ∈ Visit.failed vs, v.outcome.diagnostics ≠ []
  text : report.diagnostics = log.text
  quiet : report.diagnostics = "" ↔ ∀ v ∈ vs, v.outcome.stage? = none

theorem conserved_of_books {s : PassState σ} {vs : List (Visit σ)} (h : s.Books vs.length vs)
    (hv : ∀ v ∈ vs, v.outcome.stage? ≠ none → v.outcome.diagnostics ≠ []) (names : List String) :
    Conserved ⟨s.statistics, s.log.text, names⟩ s.log vs := by
  obtain ⟨hn, hs, hl⟩ := h
  obtain ⟨h1, h2, h3⟩ := Visit.countP_stage? vs
  refine ⟨?_, ?_, hs, ?_, hl, fun v hf => ?_, rfl, hl.text_eq_empty_iff⟩
  · rw [hn, hs.compiled, hs.compileFailures, h1]
  · rw [hs.compiled, hs.invoked, hs.invocationFailures, h2]
  · rw [hl.entries, Statistics.failures, hs.compileFailures, hs.invocationFailures, h3]
  · obtain ⟨hm, hs⟩ := List.mem_filter.mp hf
    exact hv v hm (of_decide_eq_true hs)

variable [ArtifactSink σ] {p : Pass} {tools : PassTools σ} {artifacts : σ}

theorem begin_books (index : DeclarationIndex) : (p.begin index artifacts).Books index.candidates.length [] :=
  begin_keeps (P := fun s => s.Books index.candidates.length []) ⟨rfl, ⟨rfl, rfl, rfl, rfl⟩, rfl, rfl⟩
    fun _ name text h => h.emit name text

@[simp] theorem finish_log (s : PassState σ) : (finish s).log = s.log := by
  unfold finish PassState.emit
  split <;> rfl

/-- A run that ends has met each candidate once and kept its books; only a root that cannot be
generated or a panic that leaves a unit keeps it from ending. -/
theorem run_conserves (p : Pass) (tools : PassTools σ) (host : HostCompilation) (artifacts : σ) :
    ((∀ c ∈ (p.index host).candidates, p.compiler.root? c.name c.node.tree ≠ none) →
      LoadedUnit.ForLoaded tools.load Call.Answers → p.run tools host artifacts ≠ none) ∧
    ∀ report out, p.run tools host artifacts = some (report, out) →
      ∃ last vs, (p.index host).candidates.foldlM (p.process tools (marshal (p.index host).records))
          (p.begin (p.index host) artifacts) = some last ∧
        Follow p tools (marshal (p.index host).records) (p.begin (p.index host) artifacts).artifacts vs ∧
        vs.map (·.candidate) = (p.index host).candidates ∧ Conserved report last.log vs := by
  constructor
  · intro hr hu h
    rw [run_eq_map, Option.map_eq_none_iff] at h
    exact foldlM_process_ne_none hr hu _ h
  · intro report out h
    obtain ⟨last, vs, hl, hf, hc, hv, rfl, rfl⟩ := exists_visits_of_run h
    refine ⟨last, vs, hl, hf, hc, ?_⟩
    have hb : last.Books (p.index host).candidates.length vs := by
      rw [hv]
      exact hf.keeps (fun _ _ _ hv _ h => h.meet hv.diagnostics_ne_nil) (begin_books _)
    rw [← hc, List.length_map] at hb
    rw [← finish_log last]
    exact conserved_of_books (hb.emit _ _) (fun v hv => (hf.forall v hv).diagnostics_ne_nil) _

/-- A host with one candidate. -/
def sampleHost : HostCompilation :=
  ⟨[⟨"lib.rs", "crate",
      "mod selfgen_rt; #[selfgen_rt::generator] struct Root; impl selfgen_rt::SourceGenerator for Root \x7b\x7d",
      .e2021, _, rfl⟩,
    ⟨"selfgen_rt.rs", "crate::selfgen_rt", "", .e2021, _, rfl⟩], .e2021⟩

def samplePass : Pass := ⟨{}, ⟨"rustc", ⟨1, 80, 0⟩, "", "", "macros.so", [], []⟩, "/unit"⟩

theorem exists_ok_of_isSome {ε α : Type} {o : Option (Except ε α)} (h : o.map (·.toOption.isSome) = some true) :
    ∃ a, o = some (.ok a) := by
  obtain ⟨result, rfl, hs⟩ := Option.map_eq_some_iff.mp h
  cases result with
  | error e => cases hs
  | ok a => exact ⟨a, rfl⟩

/-- The compiler can be called for a type in the file of the sample. -/
theorem exists_call_of_sample {c : Candidate} (hn : c.name = "crate::Root") (ht : c.node.tree = sampleHost.trees[0]) :
    samplePass.compiler.root? c.name c.node.tree ≠ none ∧
      ∃ call, (samplePass.compiler.call c).run = some (.ok call) := by
  obtain ⟨hr, hp⟩ : (samplePass.compiler.root? "crate::Root" sampleHost.trees[0]).isSome ∧
      (samplePass.compiler.prepare "crate::Root" sampleHost.trees[0]).run.map (·.toOption.isSome) = some true := by
    decide +kernel
  rw [← hn, ← ht] at hr hp
  obtain ⟨disk, hp⟩ := exists_ok_of_isSome hp
  exact ⟨Option.isSome_iff_ne_none.mp hr, _, UnitCompiler.call_run_of_prepare hp⟩

set_option maxRecDepth 4000 in
open Index.ParsedTree in
theorem exists_sample_candidate : ∃ c, (samplePass.index sampleHost).candidates = [c] ∧ c.name = "crate::Root" ∧
    samplePass.compiler.root? c.name c.node.tree ≠ none ∧
    ∃ call, (samplePass.compiler.call c).run = some (.ok call) := by
  have hroot := ofTree_eq_ofChars sampleHost.trees[0] String.toList_ofList
  have hlist : (sampleHost.withSupport samplePass.support).trees.map ofTree =
      [ofTree sampleHost.trees[0], ofTree sampleHost.trees[1]] := rfl
  have h : (samplePass.index sampleHost).candidates.map (fun c => (c.name, c.node.tree.path)) =
      [("crate::Root", "lib.rs")] := by
    rw [index, DeclarationIndex.build, hlist, hroot]
    decide +kernel
  obtain ⟨c, hi, hc⟩ := List.map_eq_singleton_iff.mp h
  obtain ⟨hn, hpath⟩ := Prod.mk.inj hc
  have hd : (sampleHost.trees.map (·.path)).Nodup := by decide
  have ht : c.node.tree ∈ sampleHost.trees :=
    DeclarationIndex.tree_mem_of_mem_candidates (c := sampleHost.withSupport samplePass.support)
      (hi ▸ List.mem_singleton_self c)
  have htree : c.node.tree = sampleHost.trees[0] := List.inj_on_of_nodup_map hd ht (List.getElem_mem _) hpath
  exact ⟨c, hi, hn, exists_call_of_sample hn htree⟩

/-- Without a compiler the candidate fails, and the pass ends all the same. -/
theorem run_conserves_without_compiler : ∃ report out,
    samplePass.run ⟨fun _ _ => .error "not found", fun _ => .error "no unit"⟩ sampleHost ({} : ArtifactStore) =
      some (report, out) ∧
    report.statistics.candidates = report.statistics.compiled + report.statistics.compileFailures := by
  obtain ⟨c, hi, -, hr, -⟩ := exists_sample_candidate
  obtain ⟨hends, hbooks⟩ := run_conserves samplePass ⟨fun _ _ => .error "not found", fun _ => .error "no unit"⟩
    sampleHost ({} : ArtifactStore)
  have hrun := hends (by rw [hi]; exact List.forall_mem_singleton.mpr hr) fun image unit h => by cases h
  obtain ⟨⟨report, out⟩, hrun⟩ := Option.ne_none_iff_exists'.mp hrun
  obtain ⟨last, vs, -, -, -, h⟩ := hbooks report out hrun
  exact ⟨report, out, hrun, h.candidates⟩

end Pass
end GeneratorHost
