import GeneratorHost.Unit.Compile

/-! How attempts to compile a candidate fail, and when they end at all. -/
namespace GeneratorHost

/-- An error about a candidate that leaves something to report. -/
structure CompileError.Reports (name : String) (e : CompileError) : Prop where
  candidate : e.candidate = name
  diagnostics : e.toDiagnostics ≠ []

namespace Attempt

variable {α β : Type} {P : CompileError → Prop}

/-- Every error of an attempt is of a kind. -/
def FailsWith (P : CompileError → Prop) (x : Attempt α) : Prop := ∀ e, x.run = some (.error e) → P e

/-- No panic stops an attempt. -/
def Ends (x : Attempt α) : Prop := x.run ≠ none

theorem failsWith_pure (a : α) : FailsWith P (pure a : Attempt α) := by
  intro e h
  cases h

theorem failsWith_throw {e : CompileError} (h : P e) : FailsWith P (throw e : Attempt α) := by
  intro e' h'
  cases h'
  exact h

theorem failsWith_lift (o : Option α) : FailsWith P (liftM o : Attempt α) := by
  intro e h
  cases o <;> cases h

theorem failsWith_bind {x : Attempt α} {f : α → Attempt β} (hx : FailsWith P x) (hf : ∀ a, FailsWith P (f a)) :
    FailsWith P (x >>= f) := by
  intro e h
  rw [ExceptT.run_bind] at h
  cases hr : x.run with
  | none =>
    rw [hr] at h
    cases h
  | some result =>
    rw [hr] at h
    cases result with
    | error e' =>
      cases h
      exact hx e hr
    | ok a => exact hf a e h

theorem ends_pure (a : α) : Ends (pure a : Attempt α) := Option.some_ne_none _

theorem ends_throw (e : CompileError) : Ends (throw e : Attempt α) := Option.some_ne_none _

theorem ends_lift {o : Option α} (h : o ≠ none) : Ends (liftM o : Attempt α) := by
  cases o with
  | none => exact absurd rfl h
  | some a => exact Option.some_ne_none _

theorem ends_bind {x : Attempt α} {f : α → Attempt β} (hx : Ends x) (hf : ∀ a, Ends (f a)) : Ends (x >>= f) := by
  rw [Ends, ExceptT.run_bind]
  cases hr : x.run with
  | none => exact absurd hr hx
  | some result =>
    cases result with
    | error e => exact Option.some_ne_none _
    | ok a => exact hf a

end Attempt

namespace UnitCompiler

open Attempt

variable {c : UnitCompiler} {name : String} {tree : SourceTree}

theorem prepare_failsWith : FailsWith (CompileError.Reports name) (c.prepare name tree) := by
  unfold prepare
  cases c.checkEdition tree with
  | error reason => exact failsWith_throw (α := Disk) ⟨rfl, List.cons_ne_nil _ _⟩
  | ok =>
    cases c.writeSources tree with
    | error source => exact failsWith_throw ⟨rfl, List.cons_ne_nil _ _⟩
    | ok disk =>
      refine failsWith_bind (failsWith_lift _) fun root => ?_
      cases disk.write c.rootFile (Text.bytes root) with
      | error source => exact failsWith_throw ⟨rfl, List.cons_ne_nil _ _⟩
      | ok disk => exact failsWith_pure _

theorem prepare_ends (h : c.root? name tree ≠ none) : Ends (c.prepare name tree) := by
  unfold prepare
  cases c.checkEdition tree with
  | error reason => exact ends_throw (α := Disk) _
  | ok =>
    cases c.writeSources tree with
    | error source => exact ends_throw _
    | ok disk =>
      refine ends_bind (ends_lift h) fun root => ?_
      cases disk.write c.rootFile (Text.bytes root) with
      | error source => exact ends_throw _
      | ok disk => exact ends_pure _

/-- A run of the compiler is judged an error only with something to report. -/
theorem judge_reports {run : CompilerRun} {e : CompileError} (h : c.judge name tree run = .error e) :
    e.Reports name := by
  simp only [judge] at h
  split at h
  · rename_i he
    cases h
    rw [Bool.not_eq_true', List.isEmpty_eq_false_iff] at he
    exact ⟨rfl, he⟩
  · split at h
    · cases h
      exact ⟨rfl, List.cons_ne_nil _ _⟩
    · split at h
      · cases h
        exact ⟨rfl, List.cons_ne_nil _ _⟩
      · split at h
        · cases h
          exact ⟨rfl, List.cons_ne_nil _ _⟩
        · cases h

variable {run : Compiler} {candidate : Candidate}

/-- A candidate that cannot be compiled leaves something to report about it. -/
theorem compile_failsWith : FailsWith (CompileError.Reports candidate.name) (c.compile run candidate) := by
  unfold compile
  refine failsWith_bind (failsWith_bind prepare_failsWith fun _ => failsWith_pure _) fun call => ?_
  cases run candidate.name call with
  | error source => exact failsWith_throw ⟨rfl, List.cons_ne_nil _ _⟩
  | ok finished =>
    dsimp only
    cases c.missed? finished with
    | some deadline => exact failsWith_throw ⟨rfl, List.cons_ne_nil _ _⟩
    | none =>
      intro e h
      exact judge_reports (Option.some.inj h)

theorem call_run_of_prepare {disk : Disk}
    (h : (c.prepare candidate.name candidate.node.tree).run = some (.ok disk)) :
    (c.call candidate).run = some (.ok ⟨c.references.rustc, c.workspace, c.arguments candidate.node.tree.edition,
      c.filesOf disk⟩) := by
  unfold call
  rw [ExceptT.run_bind, h]
  rfl

/-- A run of the compiler in time is what decides. -/
theorem compile_run_eq_judge {call : CompilerCall} {finished : CompilerRun}
    (hc : (c.call candidate).run = some (.ok call)) (hr : run candidate.name call = .ok finished)
    (hm : c.missed? finished = none) :
    (c.compile run candidate).run = some (c.judge candidate.name candidate.node.tree finished) := by
  unfold compile
  rw [ExceptT.run_bind, hc]
  simp only [Option.bind_eq_bind, Option.bind_some, hr, hm]
  rfl

/-- A run in time that ends well, says nothing and leaves an image makes a unit. -/
theorem compile_run_of_quiet {call : CompilerCall} {elapsed : Duration} {image : Image} {exports : List String}
    (hc : (c.call candidate).run = some (.ok call))
    (hr : run candidate.name call = .ok ⟨0, "", elapsed, .ok image⟩)
    (hm : c.missed? ⟨0, "", elapsed, .ok image⟩ = none) (hx : image.exports = .ok exports) :
    (c.compile run candidate).run = some (.ok ⟨candidate.name, image, exports, elapsed⟩) := by
  have he : c.errors candidate.name candidate.node.tree "" = [] := rfl
  rw [compile_run_eq_judge hc hr hm]
  simp [judge, he, hx]

/-- Compiling a candidate ends if its root can be generated. -/
theorem compile_ends (h : c.root? candidate.name candidate.node.tree ≠ none) : Ends (c.compile run candidate) := by
  unfold compile
  refine ends_bind (ends_bind (prepare_ends h) fun _ => ends_pure _) fun call => ?_
  cases run candidate.name call with
  | error source => exact ends_throw _
  | ok finished =>
    dsimp only
    cases c.missed? finished with
    | some deadline => exact ends_throw _
    | none => exact Option.some_ne_none _

end UnitCompiler
end GeneratorHost
