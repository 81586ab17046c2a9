import GeneratorHost.Proofs.Invocation.Dialogue
import GeneratorHost.Proofs.Invocation.History

/-! The life of a generator: which entry points are called, in which order and on which instance, and what comes of
their answers. The calls are observed by a unit that keeps a log behind the sink. -/
namespace GeneratorHost

variable {ω σ τ α β : Type}

/-- A call of an entry point that came back: its symbol, what was passed to it and what it answered. -/
inductive EntryCall where
  | construct (symbol : String) (instance? : Option Nat)
  | execute (symbol : String) (address : Nat) (ds : List RawDeclaration) (status : Int)
  | release (symbol : String) (address : Nat)

/-- Calls in order, each with the failures that were reported in it. -/
abbrev EntryLog := List (EntryCall × List PanicReport)

namespace EntryLog

def calls (log : EntryLog) : List EntryCall := log.map (·.1)

def failures (log : EntryLog) : List PanicReport := log.flatMap (·.2)

end EntryLog

/-- The sink with something else behind it. -/
def InvocationSink.map (f : σ → τ) (s : InvocationSink σ) : InvocationSink τ :=
  { s with artifacts := f s.artifacts }

namespace Call

/-- An account of the failures that are reported in a call: a sink that keeps none keeps the first of them. -/
def Reports (x : Call (InvocationSink σ) α) (account : InvocationSink σ → List PanicReport) : Prop :=
  ∀ s a s', x s = some (a, s') → s'.failure? = s.failure?.or (account s).head?

/-- The call with a log behind the sink. -/
def logged (x : Call (InvocationSink σ) α) (entry : α → EntryCall) (account : InvocationSink σ → List PanicReport) :
    Call (InvocationSink (σ × EntryLog)) α := fun s =>
  (x (s.map Prod.fst)).map fun (a, s') =>
    (a, s'.map (·, s.artifacts.2 ++ [(entry a, account (s.map Prod.fst))]))

/-- A call does the same as one that knows nothing of the log. -/
def Forgets (y : Call (InvocationSink (σ × EntryLog)) α) (x : Call (InvocationSink σ) α) : Prop :=
  ∀ s, (y s).map (fun (a, s') => (a, s'.map Prod.fst)) = x (s.map Prod.fst)

theorem forgets_pure (a : α) : Forgets (σ := σ) (pure a) (pure a) := fun _ => rfl

theorem forgets_bind {y : Call (InvocationSink (σ × EntryLog)) α} {x : Call (InvocationSink σ) α}
    {g : α → Call (InvocationSink (σ × EntryLog)) β} {f : α → Call (InvocationSink σ) β} (hx : Forgets y x)
    (hf : ∀ a, Forgets (g a) (f a)) : Forgets (y >>= g) (x >>= f) := by
  intro s
  change ((y s).bind fun (a, s) => g a s).map _ = (x (s.map Prod.fst)).bind fun (a, s) => f a s
  rw [← hx s]
  cases y s with
  | none => rfl
  | some result => exact hf result.1 result.2

theorem forgets_logged (x : Call (InvocationSink σ) α) (entry : α → EntryCall)
    (account : InvocationSink σ → List PanicReport) : Forgets (x.logged entry account) x := by
  intro s
  unfold logged
  cases x (s.map Prod.fst) <;> rfl

theorem forgets_takeFailure : Forgets (σ := σ) (fun s => some s.takeFailure) fun s => some s.takeFailure := fun _ => rfl

end Call

namespace LoadedUnit

/-! ### Runs -/

/-- How a run that comes back went: what was called, in which world, and what it answered. -/
inductive Runs (u : LoadedUnit ω) (take : ω → Option PanicReport × ω) (name : String) (ds : List RawDeclaration)
    (w : ω) : InvocationResult Unit → ω → Prop
  | typeNotFound (hc : u.construct? (EntryPoint.construct.symbol name) = none) :
    Runs u take name ds w (.error (.typeNotFound name (EntryPoint.construct.symbol name))) w
  | entryPointNotFound (hc : u.construct? (EntryPoint.construct.symbol name) ≠ none)
    (he : u.execute? (EntryPoint.execute.symbol name) = none) :
    Runs u take name ds w (.error (.entryPointNotFound name (EntryPoint.execute.symbol name))) w
  | null {construct execute w₁} (hc : u.construct? (EntryPoint.construct.symbol name) = some construct)
    (he : u.execute? (EntryPoint.execute.symbol name) = some execute) (h₁ : construct w = some (none, w₁)) :
    Runs u take name ds w (.ofNull name (take w₁).1) (take w₁).2
  | kept {construct execute address status w₁ w₂}
    (hc : u.construct? (EntryPoint.construct.symbol name) = some construct)
    (he : u.execute? (EntryPoint.execute.symbol name) = some execute)
    (hr : u.release? (EntryPoint.release.symbol name) = none) (h₁ : construct w = some (some address, w₁))
    (h₂ : execute address ds w₁ = some (status, w₂)) :
    Runs u take name ds w (.ofStatus name status (take w₂).1) (take w₂).2
  | released {construct execute release address status w₁ w₂ w₃}
    (hc : u.construct? (EntryPoint.construct.symbol name) = some construct)
    (he : u.execute? (EntryPoint.execute.symbol name) = some execute)
    (hr : u.release? (EntryPoint.release.symbol name) = some release) (h₁ : construct w = some (some address, w₁))
    (h₂ : execute address ds w₁ = some (status, w₂)) (h₃ : release address w₂ = some ((), w₃)) :
    Runs u take name ds w (.ofStatus name status (take w₃).1) (take w₃).2

theorem runs_of_run {u : LoadedUnit ω} {take : ω → Option PanicReport × ω} {name : String} {ds : List RawDeclaration}
    {w w' : ω} {outcome : InvocationResult Unit} (h : u.run take name ds w = some (outcome, w')) :
    u.Runs take name ds w outcome w' := by
  unfold run at h
  cases hc : u.construct? (EntryPoint.construct.symbol name) with
  | none =>
    rw [hc] at h
    cases h
    exact .typeNotFound hc
  | some construct =>
    cases he : u.execute? (EntryPoint.execute.symbol name) with
    | none =>
      rw [hc, he] at h
      cases h
      exact .entryPointNotFound (by simp [hc]) he
    | some execute =>
      rw [hc, he] at h
      obtain ⟨⟨address?, w₁⟩, h₁, h⟩ := Option.bind_eq_some_iff.mp h
      cases address? with
      | none =>
        cases h
        exact .null hc he h₁
      | some address =>
        obtain ⟨⟨status, w₂⟩, h₂, h⟩ := Option.bind_eq_some_iff.mp h
        cases hr : u.release? (EntryPoint.release.symbol name) with
        | none =>
          rw [hr] at h
          cases h
          exact .kept hc he hr h₁ h₂
        | some release =>
          rw [hr] at h
          obtain ⟨⟨⟨⟩, w₃⟩, h₃, h⟩ := Option.bind_eq_some_iff.mp h
          cases h
          exact .released hc he hr h₁ h₂ h₃

/-! ### The log -/

/-- For every call of a unit, the failures that are reported in it. -/
structure Account (u : LoadedUnit (InvocationSink σ)) where
  construct : String → InvocationSink σ → List PanicReport
  execute : String → Nat → List RawDeclaration → InvocationSink σ → List PanicReport
  release : String → Nat → InvocationSink σ → List PanicReport
  construct_reports {symbol : String} {call : Call (InvocationSink σ) (Option Nat)}
    (h : u.construct? symbol = some call) : call.Reports (construct symbol)
  execute_reports {symbol : String} {call : Nat → List RawDeclaration → Call (InvocationSink σ) Int}
    (h : u.execute? symbol = some call) (address : Nat) (ds : List RawDeclaration) :
    (call address ds).Reports (execute symbol address ds)
  release_reports {symbol : String} {call : Nat → Call (InvocationSink σ) Unit} (h : u.release? symbol = some call)
    (address : Nat) : (call address).Reports (release symbol address)

/-- The unit that keeps a log of the calls of its entry points behind the sink. -/
def logged (u : LoadedUnit (InvocationSink σ)) (r : u.Account) : LoadedUnit (InvocationSink (σ × EntryLog)) where
  construct? symbol := (u.construct? symbol).map fun call =>
    call.logged (.construct symbol) (r.construct symbol)
  execute? symbol := (u.execute? symbol).map fun call address ds =>
    (call address ds).logged (.execute symbol address ds) (r.execute symbol address ds)
  release? symbol := (u.release? symbol).map fun call address =>
    (call address).logged (fun _ => .release symbol address) (r.release symbol address)

variable {u : LoadedUnit (InvocationSink σ)}

/-- The log makes no difference to a run. -/
theorem forgets_run (r : u.Account) (name : String) (ds : List RawDeclaration) :
    Call.Forgets ((u.logged r).run InvocationSink.takeFailure name ds)
      (u.run InvocationSink.takeFailure name ds) := by
  unfold LoadedUnit.run
  cases hc : u.construct? (EntryPoint.construct.symbol name) with
  | none =>
    simp only [logged, hc, Option.map_none]
    exact Call.forgets_pure _
  | some construct =>
    cases he : u.execute? (EntryPoint.execute.symbol name) with
    | none =>
      simp only [logged, hc, he, Option.map_some, Option.map_none]
      exact Call.forgets_pure _
    | some execute =>
      simp only [logged, hc, he, Option.map_some]
      -- Both runs go on with the same answers, so they take the same turns.
      refine Call.forgets_bind (Call.forgets_logged _ _ _) fun address? => ?_
      cases address? with
      | none => exact Call.forgets_bind Call.forgets_takeFailure fun _ => Call.forgets_pure _
      | some address =>
        refine Call.forgets_bind (Call.forgets_logged _ _ _) fun status => ?_
        cases hr : u.release? (EntryPoint.release.symbol name) with
        | none => exact Call.forgets_bind Call.forgets_takeFailure fun _ => Call.forgets_pure _
        | some release =>
          refine Call.forgets_bind (Call.forgets_logged _ _ _) fun _ => ?_
          exact Call.forgets_bind Call.forgets_takeFailure fun _ => Call.forgets_pure _

end LoadedUnit

/-! ### The life of a generator -/

/-- What an outcome tells of the number that a generator ended with and the failure that was reported first. -/
structure InvocationResult.Tells (name : String) (status : Int) (first? : Option PanicReport)
    (outcome : InvocationResult Unit) : Prop where
  ok_iff : outcome = .ok () ↔ status = 0
  returned : status = 1 → outcome = .error (.returned name ((first?.map (·.message)).getD ""))
  runtime : status = 2 → outcome = .error (.runtime name (first?.getD ⟨"unknown", "panic without a report", "", ""⟩))
  rejected : status ≠ 0 → status ≠ 1 → status ≠ 2 → ∃ reason, outcome = .error (.constructionFailed name reason)

theorem InvocationResult.tells_ofStatus (name : String) (status : Int) (first? : Option PanicReport) :
    Tells name status first? (ofStatus name status first?) := by
  unfold ofStatus
  split
  case h_1 => exact ⟨by simp, by simp, by simp, by simp⟩
  case h_2 => exact ⟨by simp, fun _ => rfl, by simp, by simp⟩
  case h_3 => exact ⟨by simp, by simp, fun _ => rfl, by simp⟩
  case h_4 h₀ h₁ h₂ =>
    exact ⟨iff_of_false (by simp) h₀, fun h => (h₁ h).elim, fun h => (h₂ h).elim, fun _ _ _ => ⟨_, rfl⟩⟩

namespace LoadedUnit

/-- The lives that a generator may have in a unit: the calls that came back, and the outcome. -/
inductive Life (u : LoadedUnit ω) (name : String) (ds : List RawDeclaration) :
    EntryLog → InvocationResult Unit → Prop
  | typeNotFound (hc : u.construct? (EntryPoint.construct.symbol name) = none) :
    Life u name ds [] (.error (.typeNotFound name (EntryPoint.construct.symbol name)))
  | entryPointNotFound (hc : u.construct? (EntryPoint.construct.symbol name) ≠ none)
    (he : u.execute? (EntryPoint.execute.symbol name) = none) :
    Life u name ds [] (.error (.entryPointNotFound name (EntryPoint.execute.symbol name)))
  | null {log : EntryLog} (hc : u.construct? (EntryPoint.construct.symbol name) ≠ none)
    (he : u.execute? (EntryPoint.execute.symbol name) ≠ none)
    (calls : log.calls = [.construct (EntryPoint.construct.symbol name) none]) :
    Life u name ds log (.error (.constructionFailed name
      ((log.failures.head?.map (·.text)).getD "the constructor returned no instance")))
  | ended {log : EntryLog} {address : Nat} {status : Int} {outcome : InvocationResult Unit}
    (hc : u.construct? (EntryPoint.construct.symbol name) ≠ none)
    (he : u.execute? (EntryPoint.execute.symbol name) ≠ none)
    (calls : log.calls =
      [.construct (EntryPoint.construct.symbol name) (some address),
        .execute (EntryPoint.execute.symbol name) address ds status] ++
      if u.release? (EntryPoint.release.symbol name) = none then []
      else [.release (EntryPoint.release.symbol name) address])
    (tells : outcome.Tells name status log.failures.head?) : Life u name ds log outcome

end LoadedUnit

/-- The sink keeps the failure that the log behind it has first. -/
def InvocationSink.KeepsFirst (s : InvocationSink (σ × EntryLog)) : Prop := s.failure? = s.artifacts.2.failures.head?

theorem Call.Reports.keepsFirst {x : Call (InvocationSink σ) α} {account : InvocationSink σ → List PanicReport}
    (hx : x.Reports account) {entry : α → EntryCall} {s t : InvocationSink (σ × EntryLog)} {a : α}
    (h : x.logged entry account s = some (a, t)) (hs : s.KeepsFirst) :
    t.KeepsFirst ∧ t.artifacts.2.calls = s.artifacts.2.calls ++ [entry a] := by
  obtain ⟨⟨a', s'⟩, hx', h⟩ := Option.map_eq_some_iff.mp h
  cases h
  constructor
  · have hf : s'.failure? = s.failure?.or (account (s.map Prod.fst)).head? := hx _ _ _ hx'
    change s'.failure? = (s.artifacts.2 ++ [(entry a, account (s.map Prod.fst))]).failures.head?
    rw [hf, hs, EntryLog.failures, EntryLog.failures, List.flatMap_append, List.flatMap_singleton, List.head?_append]
  · change (s.artifacts.2 ++ [(entry a, account (s.map Prod.fst))]).calls = _
    rw [EntryLog.calls, List.map_append, List.map_singleton, EntryLog.calls]

namespace LoadedUnit

variable {u : LoadedUnit (InvocationSink σ)} {name : String} {ds : List RawDeclaration}

/-- A run that comes back was one of the lives that a generator may have. -/
theorem life_of_run (r : u.Account) {s t : InvocationSink (σ × EntryLog)} {outcome : InvocationResult Unit}
    (h : (u.logged r).run InvocationSink.takeFailure name ds s = some (outcome, t)) (hs : s.KeepsFirst)
    (hn : s.artifacts.2 = []) : u.Life name ds t.artifacts.2 outcome := by
  cases runs_of_run h with
  | typeNotFound hc =>
    rw [hn]
    exact .typeNotFound (Option.map_eq_none_iff.mp hc)
  | entryPointNotFound hc he =>
    rw [hn]
    exact .entryPointNotFound (mt Option.map_eq_none_iff.mpr hc) (Option.map_eq_none_iff.mp he)
  | null hc he h₁ =>
    obtain ⟨construct, hc', rfl⟩ := Option.map_eq_some_iff.mp hc
    obtain ⟨execute, he', rfl⟩ := Option.map_eq_some_iff.mp he
    obtain ⟨hk, hl⟩ := (r.construct_reports hc').keepsFirst h₁ hs
    rw [hn] at hl
    rw [InvocationSink.takeFailure, hk]
    exact .null (by simp [hc']) (by simp [he']) hl
  | kept hc he hr h₁ h₂ =>
    obtain ⟨construct, hc', rfl⟩ := Option.map_eq_some_iff.mp hc
    obtain ⟨execute, he', rfl⟩ := Option.map_eq_some_iff.mp he
    have hr := Option.map_eq_none_iff.mp hr
    obtain ⟨hk, hl⟩ := (r.construct_reports hc').keepsFirst h₁ hs
    obtain ⟨hk, hl'⟩ := (r.execute_reports he' _ _).keepsFirst h₂ hk
    rw [hl, hn] at hl'
    rw [InvocationSink.takeFailure, hk]
    exact .ended (by simp [hc']) (by simp [he']) (by rw [if_pos hr]; exact hl') (InvocationResult.tells_ofStatus _ _ _)
  | released hc he hr h₁ h₂ h₃ =>
    obtain ⟨construct, hc', rfl⟩ := Option.map_eq_some_iff.mp hc
    obtain ⟨execute, he', rfl⟩ := Option.map_eq_some_iff.mp he
    obtain ⟨release, hr', rfl⟩ := Option.map_eq_some_iff.mp hr
    obtain ⟨hk, hl⟩ := (r.construct_reports hc').keepsFirst h₁ hs
    obtain ⟨hk, hl'⟩ := (r.execute_reports he' _ _).keepsFirst h₂ hk
    obtain ⟨hk, hl''⟩ := (r.release_reports hr' _).keepsFirst h₃ hk
    rw [hl', hl, hn] at hl''
    rw [InvocationSink.takeFailure, hk]
    exact .ended (by simp [hc']) (by simp [he']) (by rw [if_neg (by simp [hr'])]; exact hl'')
      (InvocationResult.tells_ofStatus _ _ _)

end LoadedUnit

/-! ### Units whose calls are dialogues -/

namespace Dialogue

variable [ArtifactSink σ]

/-- The failures that a dialogue reports. -/
def reports : Dialogue α → InvocationSink σ → List PanicReport
  | done _, _ => []
  | stopped, _ => []
  | add name text next, s => (next (s.add name text).1).reports (s.add name text).2
  | report text next, s => next.reports (s.report text)
  | fail failure next, s => failure :: next.reports (s.fail failure)
  | pause time next, s => next.reports (s.pause time)

theorem perform_reports (d : Dialogue α) : d.perform.Reports (d.reports (σ := σ)) := by
  intro s a s' h
  induction d generalizing s with
  | done value =>
    cases h
    exact (Option.or_none).symm
  | stopped => cases h
  | add name text next ih =>
    rw [ih _ _ h, InvocationSink.failure?_add]
    rfl
  | report text next ih =>
    rw [ih _ h, InvocationSink.failure?_report]
    rfl
  | fail failure next ih =>
    rw [ih _ h, InvocationSink.fail_eq, reports, List.head?_cons, Option.or_assoc, Option.some_or]
  | pause time next ih => exact ih _ h

end Dialogue

namespace DialogueUnit

variable [ArtifactSink σ]

/-- The account of what the dialogues of a unit report. -/
def account (u : DialogueUnit) : (u.loaded (σ := σ)).Account where
  construct symbol s := ((u.construct? symbol).map (·.reports s)).getD []
  execute symbol address ds s := ((u.execute? symbol).map fun execute => (execute address ds).reports s).getD []
  release symbol address s := ((u.release? symbol).map fun release => (release address).reports s).getD []
  construct_reports h := by
    obtain ⟨construct, hc, rfl⟩ := Option.map_eq_some_iff.mp h
    simp only [hc, Option.map_some, Option.getD_some]
    exact construct.perform_reports
  execute_reports h address ds := by
    obtain ⟨execute, he, rfl⟩ := Option.map_eq_some_iff.mp h
    simp only [he, Option.map_some, Option.getD_some]
    exact (execute address ds).perform_reports
  release_reports h address := by
    obtain ⟨release, hr, rfl⟩ := Option.map_eq_some_iff.mp h
    simp only [hr, Option.map_some, Option.getD_some]
    exact (release address).perform_reports

end DialogueUnit

/-! ### Invocations -/

/-- An invocation loads nothing without both entry points; with both, it leads its generator through one life, and what
comes of that is what the invocation comes to unless it took too long. -/
theorem Dispatcher.invoke_lifecycle (d : Dispatcher) (u : CompiledUnit) (name : String) (ds : List RawDeclaration)
    (load : Image → Except String (LoadedUnit (InvocationSink σ))) (artifacts : σ) :
    (¬ u.hasExport (EntryPoint.construct.symbol name) → d.invoke load u name ds artifacts =
      some (.error (.typeNotFound name (EntryPoint.construct.symbol name)), artifacts)) ∧
    (u.hasExport (EntryPoint.construct.symbol name) → ¬ u.hasExport (EntryPoint.execute.symbol name) →
      d.invoke load u name ds artifacts =
        some (.error (.entryPointNotFound name (EntryPoint.execute.symbol name)), artifacts)) ∧
    (u.hasExport (EntryPoint.construct.symbol name) → u.hasExport (EntryPoint.execute.symbol name) →
      ∀ unit (r : unit.Account), load u.image = .ok unit →
        let logged := (unit.logged r).run InvocationSink.takeFailure name ds (d.sink (artifacts, []))
        d.invoke load u name ds artifacts =
          logged.map (fun (outcome, s) => (conclude name outcome s, s.artifacts.1)) ∧
        (unit.ForCalls Call.Answers → logged ≠ none) ∧
        ∀ outcome s, logged = some (outcome, s) → unit.Life name ds s.artifacts.2 outcome) := by
  refine ⟨?_, ?_, ?_⟩
  · intro hc
    simp [invoke, hc]
  · intro hc he
    simp [invoke, hc, he]
  · intro hc he unit r hl
    have hf := LoadedUnit.forgets_run r name ds (d.sink (artifacts, []))
    change _ = unit.run InvocationSink.takeFailure name ds (d.sink artifacts) at hf
    refine ⟨?_, ?_, fun outcome s h => LoadedUnit.life_of_run r h rfl rfl⟩
    · rw [invoke_of_exports hc he hl, ← hf, Option.map_map]
      rfl
    · intro ha hn
      rw [hn] at hf
      exact ha.run Call.answers_pure Call.answers_bind (fun _ => Option.some_ne_none _) name ds _ hf.symm

/-- A unit whose generators report a failure while they are made and one while they run, and end with a panic. -/
def DialogueUnit.panicking (made ran : PanicReport) : DialogueUnit where
  construct? _ := some (.fail made (.done (some 7)))
  execute? _ := some fun _ _ => .fail ran (.done 2)
  release? _ := some fun _ => .done ()

/-- The first failure counts, though the second is that of the panic, and the instance is released. -/
theorem Dispatcher.invoke_lifecycle_of_panicking : ∃ (u : CompiledUnit) (made ran : PanicReport)
    (s : InvocationSink (ArtifactStore × EntryLog)), made ≠ ran ∧
    u.hasExport (EntryPoint.construct.symbol "G") ∧ u.hasExport (EntryPoint.execute.symbol "G") ∧
    ({} : Dispatcher).invoke (fun _ => .ok (DialogueUnit.panicking made ran).loaded) u "G" [] ({} : ArtifactStore) =
      some (.error (.runtime "G" made), {}) ∧
    s.artifacts.2.calls = [.construct (EntryPoint.construct.symbol "G") (some 7),
      .execute (EntryPoint.execute.symbol "G") 7 [] 2, .release (EntryPoint.release.symbol "G") 7] ∧
    (DialogueUnit.panicking made ran).loaded.Life (ω := InvocationSink ArtifactStore) "G" [] s.artifacts.2
      (.error (.runtime "G" made)) := by
  let made : PanicReport := ⟨"&str", "made", "", ""⟩
  let ran : PanicReport := ⟨"&str", "ran", "", ""⟩
  let unit := DialogueUnit.panicking made ran
  let u : CompiledUnit :=
    ⟨"G", ⟨#[]⟩, [EntryPoint.construct.symbol "G", EntryPoint.execute.symbol "G"], ⟨0⟩⟩
  have hc : u.hasExport (EntryPoint.construct.symbol "G") := List.contains_iff_mem.mpr (.head _)
  have he : u.hasExport (EntryPoint.execute.symbol "G") := List.contains_iff_mem.mpr (.tail _ (.head _))
  obtain ⟨-, -, h⟩ := ({} : Dispatcher).invoke_lifecycle u "G" [] (fun _ => .ok unit.loaded) ({} : ArtifactStore)
  obtain ⟨hi, -, hl⟩ := h hc he unit.loaded unit.account rfl
  exact ⟨u, made, ran, _, by decide, hc, he, hi.trans rfl, rfl, hl _ _ rfl⟩

end GeneratorHost
