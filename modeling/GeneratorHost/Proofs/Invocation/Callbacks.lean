import Mathlib.Logic.Relation
import GeneratorHost.Proofs.Invocation.Calls

/-! Units reach the sink of an invocation through callbacks alone. -/
namespace GeneratorHost

variable {σ : Type} [ArtifactSink σ]

namespace InvocationSink

theorem add_of_reserved {s : InvocationSink σ} {name : RawText} (h : name.toText ∈ s.reserved) (text : RawText) :
    s.add name text = (false, s) :=
  if_pos (by simp [h])

omit [ArtifactSink σ] in
theorem artifacts_report (s : InvocationSink σ) (text : RawText) : (s.report text).artifacts = s.artifacts := by
  unfold InvocationSink.report
  split <;> rfl

omit [ArtifactSink σ] in
theorem artifacts_fail (s : InvocationSink σ) (report : PanicReport) : (s.fail report).artifacts = s.artifacts := by
  unfold InvocationSink.fail
  split <;> rfl

end InvocationSink

/-- A single thing that a unit can do to the sink of its invocation. -/
inductive Callback : InvocationSink σ → InvocationSink σ → Prop
  | add (s : InvocationSink σ) (name text : RawText) : Callback s (s.add name text).2
  | report (s : InvocationSink σ) (text : RawText) : Callback s (s.report text)
  | fail (s : InvocationSink σ) (report : PanicReport) : Callback s (s.fail report)
  | pause (s : InvocationSink σ) (time : Duration) : Callback s (s.pause time)

/-- What a unit can do to the sink of its invocation. -/
abbrev Callbacks : InvocationSink σ → InvocationSink σ → Prop := Relation.ReflTransGen Callback

/-! ### Invocations -/

/-- A preorder of sinks that goes on whatever a unit does to its sink and when its failure is handed out. -/
structure CallbackOrder (R : InvocationSink σ → InvocationSink σ → Prop) : Prop where
  refl (s : InvocationSink σ) : R s s
  trans {s s' s'' : InvocationSink σ} (h : R s s') (h' : R s' s'') : R s s''
  callback {s s' : InvocationSink σ} (h : Callback s s') : R s s'
  takeFailure (s : InvocationSink σ) : R s s.takeFailure.2

namespace CallbackOrder

variable {R : InvocationSink σ → InvocationSink σ → Prop}

theorem of_callbacks (hr : CallbackOrder R) {s s' : InvocationSink σ} (h : Callbacks s s') : R s s' := by
  induction h with
  | refl => exact hr.refl s
  | tail _ h ih => exact hr.trans ih (hr.callback h)

/-- An invocation leaves the sink behind its own as it was, or as callbacks left it. -/
theorem of_invoke (hr : CallbackOrder R) {d : Dispatcher}
    {load : Image → Except String (LoadedUnit (InvocationSink σ))}
    (hl : LoadedUnit.ForLoaded load (Call.Leads Callbacks)) {u : CompiledUnit} {name : String}
    {ds : List RawDeclaration} {before after : σ} {result : InvocationResult InvocationReport}
    (h : d.invoke load u name ds before = some (result, after)) :
    (∃ e, result = .error e ∧ after = before) ∨
    ∃ outcome s, R (d.sink before) s ∧ result = Dispatcher.conclude name outcome s ∧ after = s.artifacts := by
  rcases Dispatcher.invoke_cases d load u name ds before with ⟨e, he⟩ | ⟨unit, hu, he⟩
  · rw [he] at h
    cases h
    exact .inl ⟨e, rfl, rfl⟩
  · rw [he] at h
    obtain ⟨⟨outcome, s⟩, hs, h⟩ := Option.map_eq_some_iff.mp h
    cases h
    have hf : unit.ForCalls (Call.Leads R) := (hl _ _ hu).mono fun hx => hx.mono hr.of_callbacks
    have ht : Call.Leads R fun w : InvocationSink σ => some w.takeFailure := by
      intro w a w' hw
      cases hw
      exact hr.takeFailure w
    have hrun : Call.Leads R (unit.run InvocationSink.takeFailure name ds) :=
      hf.run (Call.leads_pure hr.refl) (Call.leads_bind (R := R) hr.trans) ht name ds
    exact .inr ⟨outcome, s, hrun _ _ _ hs, rfl, rfl⟩

end CallbackOrder

end GeneratorHost
