import GeneratorHost.Invocation.Dispatch

/-! Calls into a unit: when they end, and what they do to the sink of an invocation. -/
namespace GeneratorHost

variable {ω α β : Type}

namespace Call

/-- A call answers whatever its world is. -/
def Answers (x : Call ω α) : Prop := ∀ w, x w ≠ none

/-- A call leads only to worlds that are related to the one before. -/
def Leads (R : ω → ω → Prop) (x : Call ω α) : Prop := ∀ w a w', x w = some (a, w') → R w w'

theorem answers_pure (a : α) : Answers (pure a : Call ω α) := fun _ => Option.some_ne_none _

theorem answers_bind {x : Call ω α} {f : α → Call ω β} (hx : Answers x) (hf : ∀ a, Answers (f a)) :
    Answers (x >>= f) := by
  intro w
  change (x w).bind (fun (a, w) => f a w) ≠ none
  cases h : x w with
  | none => exact absurd h (hx w)
  | some result => exact hf result.1 result.2

variable {R : ω → ω → Prop}

theorem leads_pure (hr : ∀ w, R w w) (a : α) : Leads R (pure a : Call ω α) := by
  intro w a' w' h
  cases h
  exact hr w

theorem leads_bind (ht : ∀ {u v w}, R u v → R v w → R u w) {x : Call ω α} {f : α → Call ω β} (hx : Leads R x)
    (hf : ∀ a, Leads R (f a)) : Leads R (x >>= f) := by
  intro w b w' h
  change (x w).bind (fun (a, w) => f a w) = some (b, w') at h
  obtain ⟨⟨a, v⟩, ha, hb⟩ := Option.bind_eq_some_iff.mp h
  exact ht (hx w a v ha) (hf a v b w' hb)

theorem Leads.mono {R' : ω → ω → Prop} (hr : ∀ {w w'}, R w w' → R' w w') {x : Call ω α} (h : Leads R x) :
    Leads R' x :=
  fun w a w' hw => hr (h w a w' hw)

end Call

namespace LoadedUnit

/-- What holds of every call of a unit. -/
structure ForCalls (u : LoadedUnit ω) (P : ∀ {α : Type}, Call ω α → Prop) : Prop where
  construct {symbol : String} {call : Call ω (Option Nat)} (h : u.construct? symbol = some call) : P call
  execute {symbol : String} {call : Nat → List RawDeclaration → Call ω Int} (h : u.execute? symbol = some call)
    (address : Nat) (ds : List RawDeclaration) : P (call address ds)
  release {symbol : String} {call : Nat → Call ω Unit} (h : u.release? symbol = some call) (address : Nat) :
    P (call address)

/-- What holds of every call of every unit that can be loaded. -/
def ForLoaded (load : Image → Except String (LoadedUnit ω)) (P : ∀ {α : Type}, Call ω α → Prop) : Prop :=
  ∀ image unit, load image = .ok unit → unit.ForCalls P

theorem ForCalls.mono {u : LoadedUnit ω} {P Q : ∀ {α : Type}, Call ω α → Prop} (h : u.ForCalls P)
    (hp : ∀ {α : Type} {x : Call ω α}, P x → Q x) : u.ForCalls Q where
  construct hc := hp (h.construct hc)
  execute he address ds := hp (h.execute he address ds)
  release hr address := hp (h.release hr address)

/-- What holds of the calls of a unit and of handing out its failure holds of a whole run. -/
theorem ForCalls.run {u : LoadedUnit ω} {P : ∀ {α : Type}, Call ω α → Prop} (h : u.ForCalls P)
    (hp : ∀ {α : Type} (a : α), P (pure a : Call ω α))
    (hb : ∀ {α β : Type} {x : Call ω α} {f : α → Call ω β}, P x → (∀ a, P (f a)) → P (x >>= f))
    {take : ω → Option PanicReport × ω} (ht : P (fun w => some (take w) : Call ω (Option PanicReport)))
    (name : String) (ds : List RawDeclaration) : P (u.run take name ds) := by
  unfold LoadedUnit.run
  cases hc : u.construct? (EntryPoint.construct.symbol name) with
  | none => exact hp _
  | some construct =>
    cases he : u.execute? (EntryPoint.execute.symbol name) with
    | none => exact hp _
    | some execute =>
      refine hb (h.construct hc) fun address? => ?_
      cases address? with
      | none => exact hb ht fun _ => hp _
      | some address =>
        refine hb (h.execute he address ds) fun status => ?_
        cases hr : u.release? (EntryPoint.release.symbol name) with
        | none => exact hb ht fun _ => hp _
        | some release => exact hb (h.release hr address) fun _ => hb ht fun _ => hp _

end LoadedUnit

namespace Dispatcher

variable {σ : Type} {d : Dispatcher} {load : Image → Except String (LoadedUnit (InvocationSink σ))}
  {u : CompiledUnit} {name : String} {ds : List RawDeclaration}

/-- A unit that exports both entry points and can be loaded is run. -/
theorem invoke_of_exports {unit : LoadedUnit (InvocationSink σ)}
    (hc : u.hasExport (EntryPoint.construct.symbol name)) (he : u.hasExport (EntryPoint.execute.symbol name))
    (hl : load u.image = .ok unit) (artifacts : σ) :
    d.invoke load u name ds artifacts =
      (unit.run InvocationSink.takeFailure name ds (d.sink artifacts)).map fun (result, s) =>
        (conclude name result s, s.artifacts) := by
  simp [invoke, hc, he, hl]

/-- Either the unit is not run and the sink stays as it is, or running it decides. -/
theorem invoke_cases (d : Dispatcher) (load : Image → Except String (LoadedUnit (InvocationSink σ)))
    (u : CompiledUnit) (name : String) (ds : List RawDeclaration) (artifacts : σ) :
    (∃ e, d.invoke load u name ds artifacts = some (.error e, artifacts)) ∨
    ∃ unit, load u.image = .ok unit ∧ d.invoke load u name ds artifacts =
      (unit.run InvocationSink.takeFailure name ds (d.sink artifacts)).map fun (result, s) =>
        (conclude name result s, s.artifacts) := by
  by_cases hc : u.hasExport (EntryPoint.construct.symbol name)
  · by_cases he : u.hasExport (EntryPoint.execute.symbol name)
    · cases hl : load u.image with
      | error reason => exact .inl ⟨.load name reason, by simp [invoke, hc, he, hl]⟩
      | ok unit => exact .inr ⟨unit, rfl, invoke_of_exports hc he hl artifacts⟩
    · exact .inl ⟨.entryPointNotFound name (EntryPoint.execute.symbol name), by simp [invoke, hc, he]⟩
  · exact .inl ⟨.typeNotFound name (EntryPoint.construct.symbol name), by simp [invoke, hc]⟩

/-- An invocation whose generator fails has failed. -/
theorem exists_conclude_error (name : String) (e : InvocationError) (s : InvocationSink σ) :
    ∃ e', conclude name (.error e) s = .error e' := by
  unfold conclude
  split
  · exact ⟨_, rfl⟩
  · exact ⟨e, rfl⟩

/-- An invocation comes to an end where the calls of the loaded units do. -/
theorem invoke_ne_none (h : LoadedUnit.ForLoaded load Call.Answers) (artifacts : σ) :
    d.invoke load u name ds artifacts ≠ none := by
  rcases invoke_cases d load u name ds artifacts with ⟨e, he⟩ | ⟨unit, hl, he⟩
  · rw [he]
    exact Option.some_ne_none _
  · rw [he]
    have hr : Call.Answers (unit.run InvocationSink.takeFailure name ds) :=
      (h _ _ hl).run Call.answers_pure Call.answers_bind (fun _ => Option.some_ne_none _) name ds
    intro hn
    exact hr _ (Option.map_eq_none_iff.mp hn)

end Dispatcher
end GeneratorHost
