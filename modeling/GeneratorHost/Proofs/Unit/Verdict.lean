import GeneratorHost.Proofs.Pass.Artifacts
import GeneratorHost.Proofs.Unit.Attempt

/-! What a compiler run comes to. There is a unit exactly after a run in time that printed no error, ended well and
left a readable image; otherwise there is an error about the candidate with something to report. -/
namespace GeneratorHost

/-- Units of an edition can be built: before 2018 names resolve differently, and 2024 came with release 1.85. -/
def References.Supports (r : References) (e : Edition) : Prop :=
  e ≠ .e2015 ∧ (e = .e2024 → 1 < r.version.major ∨ (r.version.major = 1 ∧ 85 ≤ r.version.minor))

theorem References.checkEdition_eq_ok_iff {r : References} {e : Edition} :
    r.checkEdition e = .ok () ↔ r.Supports e := by
  cases e with
  | e2015 => simp [checkEdition, Supports]
  | e2018 | e2021 => simp [checkEdition, Supports]
  | e2024 =>
    have hv : firstOf2024.lessOrEqual r.version ↔
        1 < r.version.major ∨ (r.version.major = 1 ∧ 85 ≤ r.version.minor) := by
      simp only [CompilerVersion.lessOrEqual, Bool.or_eq_true, Bool.and_eq_true, decide_eq_true_eq]
      simp only [firstOf2024]
      omega
    simp only [checkEdition, Supports]
    split
    · rename_i h
      simp [hv.mp h]
    · rename_i h
      simp [mt hv.mpr h]

namespace CompilerMessage

/-- A line of an output is a message, and it is an error of its own. -/
def Reports (output : String) (m : CompilerMessage) : Prop :=
  m.isError ∧ ∃ line ∈ Text.lines output, isMessageLine line ∧ (JsonValue.ofText? line).bind ofJson? = some m

theorem mem_errors_iff {output : String} {m : CompilerMessage} : m ∈ errors output ↔ Reports output m := by
  simp only [errors, Reports, List.mem_filter, List.mem_filterMap]
  constructor
  · rintro ⟨⟨line, ⟨hl, hb⟩, hm⟩, he⟩
    exact ⟨he, line, hl, hb, hm⟩
  · rintro ⟨he, line, hl, hb, hm⟩
    exact ⟨⟨line, ⟨hl, hb⟩, hm⟩, he⟩

end CompilerMessage

/-! ### Errors -/

/-- What an error about a candidate leaves to report is error diagnostics about that candidate. -/
structure CompileError.Concerns (name : String) (e : CompileError) : Prop extends CompileError.Reports name e where
  message : name.toList <:+: e.message.toList
  all : ∀ d ∈ e.toDiagnostics, d.severity = .error ∧ d.candidate = name

namespace CompileError

private theorem infix_append (a b c d : String) : b.toList <:+: (a ++ b ++ c ++ d).toList := by
  rw [String.toList_append, String.toList_append, String.toList_append, List.append_assoc _ c.toList]
  exact List.infix_append _ _ _

theorem candidate_infix_message (e : CompileError) : e.candidate.toList <:+: e.message.toList := by
  cases e with
  | configuration c reason => exact infix_append _ c _ _
  | diagnostics c ds =>
    have h := infix_append "" c " failed to compile with " (toString ds.length ++ " error(s)")
    rwa [String.empty_append, ← String.append_assoc] at h
  | toolchain c reason => exact infix_append _ c _ _
  | timedOut c deadline =>
    have h := infix_append "Compiling " c " exceeded the " (deadline.text ++ " deadline")
    rwa [← String.append_assoc] at h
  | io c source => exact infix_append _ c _ _

/-- An error that is no list of diagnostics is itself the one that is recorded. -/
theorem Concerns.of_code {name : String} {e : CompileError} (hc : e.candidate = name) (h : e.code? ≠ none) :
    e.Concerns name := by
  subst hc
  refine ⟨⟨rfl, ?_⟩, e.candidate_infix_message, ?_⟩
  · cases e with
    | diagnostics => exact absurd rfl h
    | _ => exact List.cons_ne_nil _ _
  · cases e with
    | diagnostics => exact absurd rfl h
    | _ => exact List.forall_mem_singleton.mpr ⟨rfl, rfl⟩

theorem Concerns.of_diagnostics {name : String} {ds : List Diagnostic} (hne : ds ≠ [])
    (h : ∀ d ∈ ds, d.severity = .error ∧ d.candidate = name) : (CompileError.diagnostics name ds).Concerns name :=
  ⟨⟨rfl, hne⟩, candidate_infix_message (.diagnostics name ds), h⟩

end CompileError

namespace UnitCompiler

variable {c : UnitCompiler} {name : String} {tree : SourceTree} {finished : CompilerRun} {unit : CompiledUnit}

/-! ### Judging a run -/

theorem errors_eq_nil_iff {stderr : String} :
    c.errors name tree stderr = [] ↔ ∀ m, ¬ CompilerMessage.Reports stderr m := by
  rw [errors, CompilerMessage.diagnostics, List.map_eq_nil_iff, List.map_eq_nil_iff, List.eq_nil_iff_forall_not_mem]
  exact forall_congr' fun m => not_congr CompilerMessage.mem_errors_iff

/-- Restating an error changes neither what it is about nor that it is an error. -/
theorem explain_concerns (name root : String) (firstLine : Nat) (d : Diagnostic) :
    (explain name root firstLine d).severity = d.severity ∧
      (explain name root firstLine d).candidate = d.candidate := by
  unfold explain
  split
  · split <;> exact ⟨rfl, rfl⟩
  · exact ⟨rfl, rfl⟩

theorem forall_mem_errors (c : UnitCompiler) (name : String) (tree : SourceTree) (stderr : String) :
    ∀ d ∈ c.errors name tree stderr, d.severity = .error ∧ d.candidate = name := by
  rw [errors, CompilerMessage.diagnostics, List.forall_mem_map, List.forall_mem_map]
  intro m _
  obtain ⟨hs, hc⟩ := explain_concerns name (rootName tree) (firstGeneratedLine tree)
    (m.toDiagnostic name (c.fileMap tree))
  exact ⟨hs, hc⟩

/-- Errors that the compiler printed count before the number it ended with. -/
theorem judge_of_errors (h : c.errors name tree finished.stderr ≠ []) :
    c.judge name tree finished = .error (.diagnostics name (c.errors name tree finished.stderr)) := by
  rw [judge, if_pos]
  rwa [Bool.not_eq_true', List.isEmpty_eq_false_iff]

theorem judge_of_status (h : c.errors name tree finished.stderr = []) (hs : finished.status ≠ 0) :
    c.judge name tree finished = .error (.diagnostics name [silentFailure name finished]) := by
  rw [judge, if_neg, if_pos hs]
  rw [h]
  exact Bool.false_ne_true

/-- A finished run left a unit. -/
structure Leaves (name : String) (finished : CompilerRun) (unit : CompiledUnit) : Prop where
  quiet : ∀ m, ¬ CompilerMessage.Reports finished.stderr m
  status : finished.status = 0
  image : finished.image = .ok unit.image
  exports : unit.image.exports = .ok unit.exports
  candidate : unit.candidate = name
  compileTime : unit.compileTime = finished.elapsed

theorem judge_of_clean (h : c.errors name tree finished.stderr = []) (hs : finished.status = 0) :
    c.judge name tree finished =
      match finished.image with
      | .error source =>
        .error (.toolchain name ("rustc produced no image at " ++ c.imageFile ++ ": " ++ source))
      | .ok image =>
        match image.exports with
        | .error message => .error (.toolchain name ("unreadable image: " ++ message))
        | .ok exports => .ok ⟨name, image, exports, finished.elapsed⟩ := by
  have he : ¬ (!(c.errors name tree finished.stderr).isEmpty) = true := by simp [h]
  rw [judge, if_neg he]
  exact if_neg (not_not_intro hs)

theorem judge_of_leaves (h : Leaves name finished unit) : c.judge name tree finished = .ok unit := by
  obtain ⟨hq, hs, hi, hx, hc, ht⟩ := h
  obtain ⟨candidate, image, exports, compileTime⟩ := unit
  cases hc
  cases ht
  rw [judge_of_clean (errors_eq_nil_iff.mpr hq) hs, hi]
  dsimp only at hx ⊢
  rw [hx]

/-- A finished run left a unit, or there is an error about the candidate. -/
theorem leaves_or_concerns (c : UnitCompiler) (name : String) (tree : SourceTree) (finished : CompilerRun) :
    (∃ unit, Leaves name finished unit) ∨ ∃ e, c.judge name tree finished = .error e ∧ e.Concerns name := by
  by_cases he : c.errors name tree finished.stderr = []
  · by_cases hs : finished.status = 0
    · rw [judge_of_clean he hs]
      cases hi : finished.image with
      | error source => exact .inr ⟨_, rfl, .of_code rfl (Option.some_ne_none _)⟩
      | ok image =>
        cases hx : image.exports with
        | error message =>
          dsimp only
          rw [hx]
          exact .inr ⟨_, rfl, .of_code rfl (Option.some_ne_none _)⟩
        | ok exports =>
          exact .inl ⟨⟨name, image, exports, finished.elapsed⟩, errors_eq_nil_iff.mp he, hs, hi, hx, rfl, rfl⟩
    · exact .inr ⟨_, judge_of_status he hs,
        .of_diagnostics (List.cons_ne_nil _ _) (List.forall_mem_singleton.mpr ⟨rfl, rfl⟩)⟩
  · exact .inr ⟨_, judge_of_errors he, .of_diagnostics he (c.forall_mem_errors name tree finished.stderr)⟩

/-! ### Compiling a candidate -/

/-- The workspace takes the files of a unit, whose root can be generated. -/
def Fills (c : UnitCompiler) (name : String) (tree : SourceTree) (disk : Disk) : Prop :=
  ∃ sources root, c.writeSources tree = .ok sources ∧ c.root? name tree = some root ∧
    sources.write c.rootFile (Text.bytes root) = .ok disk

/-- The call for a unit whose files are on a disk. -/
def callOn (c : UnitCompiler) (tree : SourceTree) (disk : Disk) : CompilerCall :=
  ⟨c.references.rustc, c.workspace, c.arguments tree.edition, c.filesOf disk⟩

theorem checkEdition_eq_ok_iff :
    c.checkEdition tree = .ok () ↔ tree.edition = c.support.edition ∧ c.references.Supports tree.edition := by
  unfold checkEdition
  split
  · rename_i h
    rw [References.checkEdition_eq_ok_iff]
    exact (and_iff_right h).symm
  · rename_i h
    simp [h]

variable {disk : Disk} {run : Compiler} {candidate : Candidate}

/-- Preparing a unit checks the edition, writes the sources, generates the root and writes it. -/
theorem run_prepare (c : UnitCompiler) (name : String) (tree : SourceTree) : (c.prepare name tree).run =
    match c.checkEdition tree, c.writeSources tree, c.root? name tree with
    | .error reason, _, _ => some (.error (.configuration name reason))
    | .ok (), .error source, _ => some (.error (.io name source))
    | .ok (), .ok _, none => none
    | .ok (), .ok sources, some root => some ((sources.write c.rootFile (Text.bytes root)).mapError (.io name)) := by
  unfold prepare
  cases c.checkEdition tree with
  | error reason => rfl
  | ok =>
    cases c.writeSources tree with
    | error source => rfl
    | ok sources =>
      cases c.root? name tree with
      | none => rfl
      | some root =>
        cases hw : sources.write c.rootFile (Text.bytes root) with
        | error source => simp [liftM, ExceptT.run_bind, hw, Except.mapError]
        | ok disk => simp [liftM, ExceptT.run_bind, hw, Except.mapError]

theorem run_call (c : UnitCompiler) (candidate : Candidate) : (c.call candidate).run =
    (c.prepare candidate.name candidate.node.tree).run.map (·.map (c.callOn candidate.node.tree)) := by
  change ((c.prepare candidate.name candidate.node.tree) >>= fun disk =>
    pure (c.callOn candidate.node.tree disk) : Attempt CompilerCall).run = _
  rw [ExceptT.run_bind]
  cases (c.prepare candidate.name candidate.node.tree).run with
  | none => rfl
  | some result => cases result <;> rfl

/-- The compiler is called exactly if units of the edition can be built and the workspace was filled. -/
theorem call_eq_ok_iff {asked : CompilerCall} : (c.call candidate).run = some (.ok asked) ↔
    c.checkEdition candidate.node.tree = .ok () ∧
      ∃ disk, c.Fills candidate.name candidate.node.tree disk ∧ c.callOn candidate.node.tree disk = asked := by
  rw [run_call, run_prepare]
  constructor
  · intro h
    split at h
    · cases h
    · cases h
    · cases h
    · rename_i sources root he hs hr
      cases hw : sources.write c.rootFile (Text.bytes root) with
      | error source =>
        rw [hw] at h
        cases h
      | ok disk =>
        rw [hw] at h
        cases h
        exact ⟨he, disk, ⟨sources, root, hs, hr, hw⟩, rfl⟩
  · rintro ⟨he, disk, ⟨sources, root, hs, hr, hw⟩, rfl⟩
    simp only [he, hs, hr, hw]
    rfl

/-- Without a call there is no unit, only the reason. -/
theorem compile_of_checkEdition {reason : String} (h : c.checkEdition candidate.node.tree = .error reason) :
    (c.compile run candidate).run = some (.error (.configuration candidate.name reason)) := by
  unfold compile
  rw [ExceptT.run_bind, run_call, run_prepare, h]
  rfl

theorem compile_of_not_run {call : CompilerCall} {source : String}
    (hc : (c.call candidate).run = some (.ok call)) (hr : run candidate.name call = .error source) :
    (c.compile run candidate).run = some (.error (.toolchain candidate.name
      ("failed to run " ++ c.references.rustc ++ ": " ++ source))) := by
  unfold compile
  rw [ExceptT.run_bind, hc]
  simp only [Option.bind_eq_bind, Option.bind_some, hr]
  rfl

theorem compile_of_missed {call : CompilerCall} {deadline : Duration}
    (hc : (c.call candidate).run = some (.ok call)) (hr : run candidate.name call = .ok finished)
    (hm : c.missed? finished = some deadline) :
    (c.compile run candidate).run = some (.error (.timedOut candidate.name deadline)) := by
  unfold compile
  rw [ExceptT.run_bind, hc]
  simp only [Option.bind_eq_bind, Option.bind_some, hr, hm]
  rfl

theorem missed?_eq_none_iff :
    c.missed? finished = none ↔ ∀ deadline ∈ c.timeout?, finished.elapsed < deadline := by
  unfold missed?
  cases c.timeout? with
  | none => simp
  | some deadline => simp

/-- The compiler was called and ran to its end in time. -/
structure Finishes (c : UnitCompiler) (run : Compiler) (candidate : Candidate) (disk : Disk)
    (finished : CompilerRun) : Prop where
  edition : candidate.node.tree.edition = c.support.edition
  supported : c.references.Supports candidate.node.tree.edition
  ran : run candidate.name (c.callOn candidate.node.tree disk) = .ok finished
  inTime : ∀ deadline ∈ c.timeout?, finished.elapsed < deadline

theorem Finishes.compile (hd : c.Fills candidate.name candidate.node.tree disk)
    (h : c.Finishes run candidate disk finished) :
    (c.compile run candidate).run = some (c.judge candidate.name candidate.node.tree finished) := by
  have he := checkEdition_eq_ok_iff.mpr ⟨h.edition, h.supported⟩
  exact compile_run_eq_judge (call_eq_ok_iff.mpr ⟨he, disk, hd, rfl⟩) h.ran (missed?_eq_none_iff.mpr h.inTime)

/-- The compiler ran to its end in time, or there is an error about the candidate. -/
theorem finishes_or_concerns (run : Compiler) (hd : c.Fills candidate.name candidate.node.tree disk) :
    (∃ finished, c.Finishes run candidate disk finished) ∨
      ∃ e, (c.compile run candidate).run = some (.error e) ∧ e.Concerns candidate.name := by
  cases he : c.checkEdition candidate.node.tree with
  | error reason => exact .inr ⟨_, compile_of_checkEdition he, .of_code rfl (Option.some_ne_none _)⟩
  | ok =>
    have hc := call_eq_ok_iff.mpr ⟨he, disk, hd, rfl⟩
    obtain ⟨hedition, hsupported⟩ := checkEdition_eq_ok_iff.mp he
    cases hr : run candidate.name (c.callOn candidate.node.tree disk) with
    | error source => exact .inr ⟨_, compile_of_not_run hc hr, .of_code rfl (Option.some_ne_none _)⟩
    | ok finished =>
      cases hm : c.missed? finished with
      | none => exact .inl ⟨finished, hedition, hsupported, hr, missed?_eq_none_iff.mp hm⟩
      | some deadline => exact .inr ⟨_, compile_of_missed hc hr hm, .of_code rfl (Option.some_ne_none _)⟩

/-- There is a unit exactly after a clean run, with the candidate's name and the image that the run left; otherwise
there is an error about the candidate. Errors that the compiler printed count before the number it ended with, and a
failure without any is reported once. -/
theorem compile_verdict (c : UnitCompiler) (run : Compiler) (candidate : Candidate) (disk : Disk)
    (hd : c.Fills candidate.name candidate.node.tree disk) :
    (∀ unit, (c.compile run candidate).run = some (.ok unit) ↔
      ∃ finished, c.Finishes run candidate disk finished ∧ Leaves candidate.name finished unit) ∧
    ((∀ unit, (c.compile run candidate).run ≠ some (.ok unit)) →
      ∃ e, (c.compile run candidate).run = some (.error e) ∧ e.Concerns candidate.name) ∧
    ∀ finished, c.Finishes run candidate disk finished →
      ((∃ m, CompilerMessage.Reports finished.stderr m) → (c.compile run candidate).run =
        some (.error (.diagnostics candidate.name (c.errors candidate.name candidate.node.tree finished.stderr)))) ∧
      ((∀ m, ¬ CompilerMessage.Reports finished.stderr m) → finished.status ≠ 0 →
        ∃ e d, (c.compile run candidate).run = some (.error e) ∧ e.toDiagnostics = [d] ∧
          d.code? = some "SG0002") := by
  -- Either a unit is left, or the run is an error about the candidate.
  have hends : (∃ finished unit, c.Finishes run candidate disk finished ∧ Leaves candidate.name finished unit ∧
        (c.compile run candidate).run = some (.ok unit)) ∨
      ∃ e, (c.compile run candidate).run = some (.error e) ∧ e.Concerns candidate.name := by
    rcases finishes_or_concerns run hd with ⟨finished, hf⟩ | he
    · rw [hf.compile hd]
      rcases c.leaves_or_concerns candidate.name candidate.node.tree finished with ⟨unit, hl⟩ | ⟨e, he, hc⟩
      · exact .inl ⟨finished, unit, hf, hl, congrArg some (judge_of_leaves hl)⟩
      · exact .inr ⟨e, congrArg some he, hc⟩
    · exact .inr he
  refine ⟨fun unit => ⟨fun h => ?_, ?_⟩, fun h => ?_, fun finished hf => ⟨?_, ?_⟩⟩
  · rcases hends with ⟨finished, left, hf, hl, hr⟩ | ⟨e, hr, -⟩
    · rw [hr] at h
      cases h
      exact ⟨finished, hf, hl⟩
    · rw [hr] at h
      cases h
  · rintro ⟨finished, hf, hl⟩
    rw [hf.compile hd, judge_of_leaves hl]
  · rcases hends with ⟨-, left, -, -, hr⟩ | he
    · exact absurd hr (h left)
    · exact he
  · rintro ⟨m, hm⟩
    rw [hf.compile hd, judge_of_errors fun h => errors_eq_nil_iff.mp h m hm]
  · intro hq hs
    rw [hf.compile hd, judge_of_status (errors_eq_nil_iff.mpr hq) hs]
    exact ⟨_, _, rfl, rfl, rfl⟩

/-- A message of the compiler that is an error. -/
def sampleError : String :=
  "\x7b\"message\":\"no such name\",\"code\":null,\"level\":\"error\",\"spans\":[]\x7d\n"

/-- A compiler that ends in no time. -/
def ending (status : Nat) (stderr : String) : Compiler := fun _ _ =>
  .ok ⟨status, stderr, ⟨0⟩, .ok (.exporting Pass.sampleExports)⟩

/-- The same image makes a unit after a clean run, and none after a printed error or a failure without one. -/
theorem compile_verdict_of_sample : ∃ (candidate : Candidate) (disk : Disk),
    Pass.samplePass.compiler.Fills candidate.name candidate.node.tree disk ∧
    (Pass.samplePass.compiler.compile (ending 0 "") candidate).run =
      some (.ok ⟨candidate.name, .exporting Pass.sampleExports, Pass.sampleExports, ⟨0⟩⟩) ∧
    (Pass.samplePass.compiler.compile (ending 0 sampleError) candidate).run =
      some (.error (.diagnostics candidate.name
        (Pass.samplePass.compiler.errors candidate.name candidate.node.tree sampleError))) ∧
    ∃ e d, (Pass.samplePass.compiler.compile (ending 1 "") candidate).run = some (.error e) ∧
      e.toDiagnostics = [d] ∧ d.code? = some "SG0002" := by
  obtain ⟨candidate, -, -, -, asked, hc⟩ := Pass.exists_sample_candidate
  obtain ⟨he, disk, hd, -⟩ := call_eq_ok_iff.mp hc
  obtain ⟨hedition, hsupported⟩ := checkEdition_eq_ok_iff.mp he
  have hf (status : Nat) (stderr : String) : Pass.samplePass.compiler.Finishes (ending status stderr) candidate disk
      ⟨status, stderr, ⟨0⟩, .ok (.exporting Pass.sampleExports)⟩ :=
    ⟨hedition, hsupported, rfl, missed?_eq_none_iff.mp rfl⟩
  have hquiet : ∀ m, ¬ CompilerMessage.Reports "" m := by
    rintro m ⟨-, line, hl, -⟩
    cases hl
  have hloud : ∃ m, CompilerMessage.Reports sampleError m := by
    have h : CompilerMessage.errors sampleError ≠ [] := by decide +kernel
    obtain ⟨m, hm⟩ := List.exists_mem_of_ne_nil _ h
    exact ⟨m, CompilerMessage.mem_errors_iff.mp hm⟩
  obtain ⟨hok, -, -⟩ := compile_verdict Pass.samplePass.compiler (ending 0 "") candidate disk hd
  obtain ⟨-, -, herror⟩ := compile_verdict Pass.samplePass.compiler (ending 0 sampleError) candidate disk hd
  obtain ⟨-, -, hsilent⟩ := compile_verdict Pass.samplePass.compiler (ending 1 "") candidate disk hd
  exact ⟨candidate, disk, hd, (hok _).mpr ⟨_, hf 0 "", hquiet, rfl, rfl, Pass.sampleExports_exports, rfl, rfl⟩,
    (herror _ (hf 0 sampleError)).1 hloud, (hsilent _ (hf 1 "")).2 hquiet Nat.one_ne_zero⟩

end UnitCompiler
end GeneratorHost
