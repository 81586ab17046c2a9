import Mathlib.Data.List.DropRight
import GeneratorHost.Invocation.Dispatch
import GeneratorHost.Proofs.Artifact.Store
import GeneratorHost.Proofs.Text.Lossy

/-! Histories of the sink of an invocation: whatever is done to it, in any order, its books agree with the answers
that it gave and with the store behind it. -/
namespace GeneratorHost

/-- What is done to the sink of an invocation: the unit calls back, or the host asks for the failure or closes it. -/
inductive SinkStep where
  | add (name text : RawText)
  | report (text : RawText)
  | fail (typeName message location backtrace : RawText)
  | takeFailure
  | close

/-- What a sink answers to a step. -/
inductive SinkAnswer where
  | taken (accepted : Bool)
  | failure (report? : Option PanicReport)
  | nothing
deriving DecidableEq, Repr

namespace SinkStep

variable {σ : Type} [ArtifactSink σ]

def perform (s : InvocationSink σ) : SinkStep → SinkAnswer × InvocationSink σ
  | add name text => (.taken (s.add name text).1, (s.add name text).2)
  | report text => (.nothing, s.report text)
  | fail typeName message location backtrace =>
    (.nothing, s.fail ⟨typeName.toText, message.toText, location.toText, backtrace.toText⟩)
  | takeFailure => (.failure s.takeFailure.1, s.takeFailure.2)
  | close => (.nothing, s.close)

def closes : SinkStep → Bool
  | close => true
  | add .. | report .. | fail .. | takeFailure => false

def asksForFailure : SinkStep → Bool
  | takeFailure => true
  | add .. | report .. | fail .. | close => false

/-- The note that a step brings. -/
def note? : SinkStep → Option String
  | report text => some text.toText
  | add .. | fail .. | takeFailure | close => none

/-- The failure that a step reports. -/
def failure? : SinkStep → Option PanicReport
  | fail typeName message location backtrace =>
    some ⟨typeName.toText, message.toText, location.toText, backtrace.toText⟩
  | add .. | report .. | takeFailure | close => none

/-- The source that a step brings to the sink behind, if the answer is that it was taken. -/
def artifact? : SinkStep → SinkAnswer → Option Artifact
  | add name text, .taken true => some ⟨name.toText, text.toText⟩
  | _, _ => none

/-- The failures that were reported since the last time that the host asked for one. -/
def unclaimed (steps : List SinkStep) : List PanicReport :=
  (steps.rtakeWhile (!·.asksForFailure)).filterMap failure?

end SinkStep

namespace SinkAnswer

def report? : SinkAnswer → Option PanicReport
  | failure report? => report?
  | _ => none

end SinkAnswer

namespace InvocationSink

variable {σ : Type}

section

variable [ArtifactSink σ]

/-- The sink after some steps. -/
def after (s : InvocationSink σ) (steps : List SinkStep) : InvocationSink σ :=
  steps.foldl (fun s step => (step.perform s).2) s

/-- What a sink answers to some steps, one by one. -/
def answers (s : InvocationSink σ) : List SinkStep → List SinkAnswer
  | [] => []
  | step :: rest => (step.perform s).1 :: (step.perform s).2.answers rest

/-- The sources that some steps bring to the sink behind. -/
def taken (s : InvocationSink σ) (steps : List SinkStep) : List Artifact :=
  (steps.zip (s.answers steps)).filterMap fun (step, answer) => step.artifact? answer

variable {s : InvocationSink σ} {name text : RawText} {step : SinkStep} {steps more : List SinkStep}

theorem after_append : s.after (steps ++ more) = (s.after steps).after more := List.foldl_append

theorem length_answers : (s.answers steps).length = steps.length := by
  induction steps generalizing s with
  | nil => rfl
  | cons step rest ih => rw [answers, List.length_cons, ih, List.length_cons]

theorem answers_append : s.answers (steps ++ more) = s.answers steps ++ (s.after steps).answers more := by
  induction steps generalizing s with
  | nil => rfl
  | cons step rest ih =>
    rw [List.cons_append, answers, ih, answers, List.cons_append]
    rfl

/-- The answer to a step is that of the sink that the steps before it left. -/
theorem getElem?_answers :
    (s.answers (steps ++ step :: more))[steps.length]? = some (step.perform (s.after steps)).1 := by
  rw [answers_append, ← length_answers (s := s), List.getElem?_append_right (Nat.le_refl _), Nat.sub_self, answers]
  rfl

/-! ### One step -/

/-- An open sink takes a source if its name is free to use and the sink behind takes it. -/
def Accepts (s : InvocationSink σ) (name text : RawText) : Prop :=
  s.closed = false ∧ name.toText ∉ s.reserved ∧
    ∃ artifacts, ArtifactSink.add s.artifacts name.toText text.toText = .ok artifacts

/-- A sink that takes a source counts it and passes it on; otherwise it stays as it is. -/
theorem add_cases (s : InvocationSink σ) (name text : RawText) :
    (∃ artifacts, s.Accepts name text ∧ ArtifactSink.add s.artifacts name.toText text.toText = .ok artifacts ∧
      s.add name text = (true, { s with artifacts, added := s.added + 1 })) ∨
    ¬ s.Accepts name text ∧ s.add name text = (false, s) := by
  unfold add Accepts
  by_cases hc : s.closed
  · simp [hc]
  · by_cases hr : name.toText ∈ s.reserved
    · simp [hc, hr]
    · cases ha : ArtifactSink.add s.artifacts name.toText text.toText with
      | ok artifacts => simp [hc, hr]
      | error e => simp [hc, hr]

theorem add_fst_iff : (s.add name text).1 = true ↔ s.Accepts name text := by
  rcases s.add_cases name text with ⟨artifacts, ha, -, h⟩ | ⟨ha, h⟩
  · simp [h, ha]
  · simp [h, ha]

theorem add_snd_of_false (h : (s.add name text).1 = false) : (s.add name text).2 = s := by
  rcases s.add_cases name text with ⟨artifacts, -, -, ha⟩ | ⟨-, ha⟩
  · rw [ha] at h
    cases h
  · rw [ha]

theorem failure?_add (s : InvocationSink σ) (name text : RawText) : (s.add name text).2.failure? = s.failure? := by
  rcases s.add_cases name text with ⟨artifacts, -, -, h⟩ | ⟨-, h⟩ <;> rw [h]

omit [ArtifactSink σ] in
theorem fail_eq (s : InvocationSink σ) (report : PanicReport) :
    s.fail report = { s with failure? := s.failure?.or (some report) } := by
  unfold fail
  cases h : s.failure? with
  | none => rfl
  | some kept =>
    rw [Option.or_some]
    cases s
    cases h
    rfl

omit [ArtifactSink σ] in
theorem report_eq (s : InvocationSink σ) (text : RawText) :
    s.report text = { s with notes := if s.closed then s.notes else s.notes ++ [text.toText] } := by
  unfold report
  split <;> rfl

omit [ArtifactSink σ] in
theorem failure?_report (s : InvocationSink σ) (text : RawText) : (s.report text).failure? = s.failure? := by
  rw [report_eq]

/-- What a step does to a sink, the sink behind apart. -/
theorem perform_snd (step : SinkStep) (s : InvocationSink σ) :
    (step.perform s).2 =
      { s with
        artifacts := (step.perform s).2.artifacts
        closed := s.closed || step.closes
        added := s.added + (step.artifact? (step.perform s).1).toList.length
        notes := if s.closed then s.notes else s.notes ++ step.note?.toList
        failure? := if step.asksForFailure then none else s.failure?.or step.failure? } := by
  unfold SinkStep.closes SinkStep.artifact? SinkStep.note? SinkStep.asksForFailure SinkStep.failure?
  cases step with
  | add name text =>
    rcases s.add_cases name text with ⟨artifacts, -, -, h⟩ | ⟨-, h⟩
    · simp [SinkStep.perform, h]
    · simp [SinkStep.perform, h]
  | report text => simp [SinkStep.perform, report_eq]
  | fail typeName message location backtrace => simp [SinkStep.perform, fail_eq]
  | takeFailure => simp [SinkStep.perform, takeFailure]
  | close => simp [SinkStep.perform, close]

/-- A source that a step brings to the sink behind has a name that is not reserved, and comes while the sink is open. -/
theorem of_artifact?_perform {a : Artifact} (h : step.artifact? (step.perform s).1 = some a) :
    s.closed = false ∧ a.name ∉ s.reserved := by
  cases step with
  | add name text =>
    rcases s.add_cases name text with ⟨artifacts, hs, -, ha⟩ | ⟨-, ha⟩
    · simp only [SinkStep.perform, ha, SinkStep.artifact?, Option.some.injEq] at h
      subst h
      exact ⟨hs.1, hs.2.1⟩
    · simp [SinkStep.perform, SinkStep.artifact?, ha] at h
  | _ => simp [SinkStep.artifact?] at h

/-- A step brings a source where the answer is that one was taken. -/
theorem length_artifact?_perform (step : SinkStep) (s : InvocationSink σ) :
    (step.artifact? (step.perform s).1).toList.length = if (step.perform s).1 = .taken true then 1 else 0 := by
  cases step with
  | add name text => cases h : (s.add name text).1 <;> simp [SinkStep.perform, SinkStep.artifact?, h]
  | _ => simp [SinkStep.perform, SinkStep.artifact?]

/-- A failure that is handed out is not kept. -/
theorem report?_perform_sublist (step : SinkStep) (s : InvocationSink σ) :
    ((step.perform s).1.report?.toList ++ (step.perform s).2.failure?.toList).Sublist
      (s.failure?.toList ++ step.failure?.toList) := by
  rw [perform_snd]
  unfold SinkStep.asksForFailure SinkStep.failure? SinkAnswer.report?
  cases step with
  | takeFailure => simp [SinkStep.perform, takeFailure]
  | fail => cases h : s.failure? <;> simp [SinkStep.perform]
  | _ => simp [SinkStep.perform]

/-! ### Histories -/

theorem reserved_after : (s.after steps).reserved = s.reserved := by
  induction steps generalizing s with
  | nil => rfl
  | cons step rest ih =>
    change ((step.perform s).2.after rest).reserved = _
    rw [ih, perform_snd]

theorem closed_after : (s.after steps).closed = (s.closed || steps.any (·.closes)) := by
  induction steps generalizing s with
  | nil => exact (Bool.or_false _).symm
  | cons step rest ih =>
    change ((step.perform s).2.after rest).closed = _
    rw [ih, perform_snd, List.any_cons, Bool.or_assoc]

/-- Notes are kept until the sink is closed. -/
theorem notes_after : (s.after steps).notes =
    if s.closed then s.notes else s.notes ++ (steps.takeWhile (!·.closes)).filterMap (·.note?) := by
  induction steps generalizing s with
  | nil => simp [after]
  | cons step rest ih =>
    change ((step.perform s).2.after rest).notes = _
    rw [ih, perform_snd]
    cases hc : s.closed with
    | true => simp
    | false =>
      cases hs : step.closes with
      | true =>
        cases step with
        | close => simp [SinkStep.closes, SinkStep.note?]
        | _ => cases hs
      | false => cases hn : step.note? <;> simp [hs, hn]

theorem taken_cons : s.taken (step :: steps) =
    (step.artifact? (step.perform s).1).toList ++ (step.perform s).2.taken steps := by
  unfold taken
  rw [answers, List.zip_cons_cons, List.filterMap_eq_flatMap_toList, List.flatMap_cons,
    List.filterMap_eq_flatMap_toList]

theorem of_mem_taken {a : Artifact} (h : a ∈ s.taken steps) : s.closed = false ∧ a.name ∉ s.reserved := by
  induction steps generalizing s with
  | nil => cases h
  | cons step rest ih =>
    rw [taken_cons, List.mem_append, Option.mem_toList] at h
    rcases h with h | h
    · exact of_artifact?_perform h
    · obtain ⟨hc, hr⟩ := ih h
      rw [perform_snd] at hc hr
      exact ⟨(Bool.or_eq_false_iff.mp hc).1, hr⟩

theorem taken_of_closed (h : s.closed) : s.taken steps = [] := by
  refine List.eq_nil_iff_forall_not_mem.mpr fun a ha => ?_
  rw [(of_mem_taken ha).1] at h
  cases h

theorem length_taken : (s.taken steps).length = (s.answers steps).count (.taken true) := by
  induction steps generalizing s with
  | nil => rfl
  | cons step rest ih =>
    rw [taken_cons, List.length_append, ih, length_artifact?_perform, answers, List.count_cons, Nat.add_comm]
    simp only [beq_iff_eq]

theorem added_after : (s.after steps).added = s.added + (s.taken steps).length := by
  induction steps generalizing s with
  | nil => rfl
  | cons step rest ih =>
    change ((step.perform s).2.after rest).added = _
    rw [ih, taken_cons, List.length_append, perform_snd, Nat.add_assoc]

/-- Every failure is handed out or kept at most once. -/
theorem reports_sublist :
    ((s.answers steps).filterMap (·.report?) ++ (s.after steps).failure?.toList).Sublist
      (s.failure?.toList ++ steps.filterMap (·.failure?)) := by
  simp only [List.filterMap_eq_flatMap_toList]
  induction steps generalizing s with
  | nil => simp [answers, after]
  | cons step rest ih =>
    have hs := (report?_perform_sublist step s).append_right (rest.flatMap (·.failure?.toList))
    have ih := (ih (s := (step.perform s).2)).append_left (step.perform s).1.report?.toList
    -- what the first step hands out stands before all that comes of the sink that it leaves
    rw [answers, List.flatMap_cons, List.flatMap_cons, List.append_assoc, ← List.append_assoc s.failure?.toList]
    rw [List.append_assoc] at hs
    exact ih.trans hs

theorem unclaimed_concat : SinkStep.unclaimed (steps ++ [step]) =
    if step.asksForFailure then [] else SinkStep.unclaimed steps ++ step.failure?.toList := by
  unfold SinkStep.unclaimed
  cases h : step.asksForFailure with
  | true => rw [List.rtakeWhile_concat_neg _ _ _ (by simp [h])]; simp
  | false =>
    rw [List.rtakeWhile_concat_pos _ _ _ (by simp [h]), List.filterMap_append]
    simp only [List.filterMap_eq_flatMap_toList, List.flatMap_singleton]
    rfl

/-- The failure that is kept is the first one that was not claimed. -/
theorem failure?_after (h : s.failure? = none) : (s.after steps).failure? = (SinkStep.unclaimed steps).head? := by
  -- From the right: only the last step can have emptied the slot.
  induction steps using List.reverseRecOn with
  | nil => exact h
  | append_singleton steps step ih =>
    rw [after_append, unclaimed_concat]
    change (step.perform (s.after steps)).2.failure? = _
    rw [perform_snd]
    cases step.asksForFailure with
    | true => rfl
    | false =>
      simp only [Bool.false_eq_true, if_false]
      rw [ih, List.head?_append, Option.head?_toList]

end

/-! ### The sink behind -/

/-- The sink behind is not asked about reserved names. -/
theorem perform_congr {i j : ArtifactSink σ} {s : InvocationSink σ}
    (h : ∀ artifacts name text, name ∉ s.reserved → i.add artifacts name text = j.add artifacts name text)
    (step : SinkStep) : @SinkStep.perform σ i s step = @SinkStep.perform σ j s step := by
  cases step with
  | add name text =>
    have ha : @InvocationSink.add σ i s name text = @InvocationSink.add σ j s name text := by
      unfold add
      split
      · rfl
      · rename_i hr
        rw [h _ _ _ (by simpa using (not_or.mp (mt Bool.or_eq_true_iff.mpr hr)).2)]
    exact congrArg (fun r => (SinkAnswer.taken r.1, r.2)) ha
  | _ => rfl

theorem after_congr {i j : ArtifactSink σ} {s : InvocationSink σ}
    (h : ∀ artifacts name text, name ∉ s.reserved → i.add artifacts name text = j.add artifacts name text)
    (steps : List SinkStep) :
    @after σ i s steps = @after σ j s steps ∧ @answers σ i s steps = @answers σ j s steps := by
  induction steps generalizing s with
  | nil => exact ⟨rfl, rfl⟩
  | cons step rest ih =>
    have hs := perform_congr h step
    have hr : (@SinkStep.perform σ j s step).2.reserved = s.reserved := by rw [perform_snd]
    obtain ⟨ha, hn⟩ := ih (s := (@SinkStep.perform σ j s step).2) (by rwa [hr])
    constructor
    · change @after σ i (@SinkStep.perform σ i s step).2 rest = _
      rw [hs]
      exact ha
    · rw [@answers.eq_2, hs, hn, answers]

variable {s : InvocationSink ArtifactStore} {steps more : List SinkStep}

theorem artifacts_perform (step : SinkStep) (s : InvocationSink ArtifactStore) :
    (step.perform s).2.artifacts = ⟨s.artifacts.artifacts ++ (step.artifact? (step.perform s).1).toList⟩ := by
  unfold SinkStep.artifact?
  cases step with
  | add name text =>
    rcases s.add_cases name text with ⟨artifacts, -, ha, h⟩ | ⟨-, h⟩
    · obtain ⟨-, -, rfl⟩ := ArtifactStore.add_eq_ok_iff.mp ha
      simp [SinkStep.perform, h]
    · simp [SinkStep.perform, h]
  | report text => simp [SinkStep.perform, report_eq]
  | fail typeName message location backtrace => simp [SinkStep.perform, fail_eq]
  | takeFailure => simp [SinkStep.perform, takeFailure]
  | close => simp [SinkStep.perform, close]

theorem artifacts_after : (s.after steps).artifacts = ⟨s.artifacts.artifacts ++ s.taken steps⟩ := by
  induction steps generalizing s with
  | nil => simp [after, taken]
  | cons step rest ih =>
    change ((step.perform s).2.after rest).artifacts = _
    rw [ih, taken_cons, artifacts_perform, List.append_assoc]

end InvocationSink

/-! ### The books -/

theorem SinkStep.any_closes_iff {steps : List SinkStep} : steps.any (·.closes) ↔ .close ∈ steps := by
  rw [List.any_eq_true]
  constructor
  · rintro ⟨step, hm, hc⟩
    cases step with
    | close => exact hm
    | _ => cases hc
  · intro hm
    exact ⟨.close, hm, rfl⟩

namespace Dispatcher

/-- The books of a new sink over a store, after some steps. -/
structure History (d : Dispatcher) (store : ArtifactStore) (steps : List SinkStep) : Prop where
  /-- A source is taken where the sink is open, the name is not reserved and the store takes it; otherwise it changes
  nothing. -/
  add (name text : RawText) (more : List SinkStep) : ∃ accepted,
    ((d.sink store).answers (steps ++ .add name text :: more))[steps.length]? = some (.taken accepted) ∧
    (accepted = true ↔ .close ∉ steps ∧ name.toText ∉ d.reserved ∧
      ∃ held, ((d.sink store).after steps).artifacts.add name.toText text.toText = .ok held) ∧
    (accepted = false → (d.sink store).after (steps ++ [.add name text]) = (d.sink store).after steps)
  /-- The store has what was taken behind what it had before. -/
  artifacts : ((d.sink store).after steps).artifacts = ⟨store.artifacts ++ (d.sink store).taken steps⟩
  added : ((d.sink store).after steps).added = ((d.sink store).answers steps).count (.taken true)
  added_eq_length : ((d.sink store).after steps).added = ((d.sink store).taken steps).length
  notes : ((d.sink store).after steps).notes = (steps.takeWhile (!·.closes)).filterMap (·.note?)
  /-- A closed sink takes no source and no note any more. -/
  closed (h : .close ∈ steps) (more : List SinkStep) :
    ((d.sink store).after (steps ++ more)).artifacts = ((d.sink store).after steps).artifacts ∧
    ((d.sink store).after (steps ++ more)).added = ((d.sink store).after steps).added ∧
    ((d.sink store).after (steps ++ more)).notes = ((d.sink store).after steps).notes
  reserved : ∀ a ∈ (d.sink store).taken steps, a.name ∉ d.reserved
  /-- What the store would do with reserved names makes no difference, for it is not asked about them. -/
  unasked (other : ArtifactStore → String → String → Except SinkError ArtifactStore)
    (h : ∀ held name text, name ∉ d.reserved → other held name text = held.add name text) :
    @InvocationSink.after _ ⟨other⟩ (d.sink store) steps = (d.sink store).after steps ∧
    @InvocationSink.answers _ ⟨other⟩ (d.sink store) steps = (d.sink store).answers steps
  /-- The first failure is handed out that was reported since one was asked for. -/
  failure (more : List SinkStep) :
    ((d.sink store).answers (steps ++ .takeFailure :: more))[steps.length]? =
      some (.failure (SinkStep.unclaimed steps).head?)
  once : (((d.sink store).answers steps).filterMap (·.report?)).Sublist (steps.filterMap (·.failure?))

theorem closed_after_sink (d : Dispatcher) (store : ArtifactStore) (steps : List SinkStep) :
    ((d.sink store).after steps).closed ↔ .close ∈ steps := by
  rw [InvocationSink.closed_after, ← SinkStep.any_closes_iff, sink, Bool.false_or]

/-- Whatever is done to a new sink, its books are in order; null reads as no text, and texts as themselves. -/
theorem sink_history (d : Dispatcher) (store : ArtifactStore) (steps : List SinkStep) :
    d.History store steps ∧ RawText.null.toText = "" ∧ ∀ text, (RawText.ofString text).toText = text := by
  refine ⟨?_, RawText.toText_null, RawText.toText_ofString⟩
  constructor
  case add =>
    intro name text more
    refine ⟨_, InvocationSink.getElem?_answers, ?_, ?_⟩
    · rw [InvocationSink.add_fst_iff, InvocationSink.Accepts, InvocationSink.reserved_after, ← Bool.not_eq_true,
        closed_after_sink]
      rfl
    · intro h
      rw [InvocationSink.after_append]
      exact InvocationSink.add_snd_of_false h
  case artifacts => exact InvocationSink.artifacts_after
  case added => rw [InvocationSink.added_after, InvocationSink.length_taken, sink, Nat.zero_add]
  case added_eq_length => rw [InvocationSink.added_after, sink, Nat.zero_add]
  case notes => exact InvocationSink.notes_after
  case closed =>
    intro h more
    have hc : ((d.sink store).after steps).closed := (d.closed_after_sink store steps).mpr h
    rw [InvocationSink.after_append]
    refine ⟨?_, ?_, ?_⟩
    · rw [InvocationSink.artifacts_after, InvocationSink.taken_of_closed hc, List.append_nil]
    · rw [InvocationSink.added_after, InvocationSink.taken_of_closed hc]
      rfl
    · rw [InvocationSink.notes_after, if_pos hc]
  case reserved => exact fun a ha => (InvocationSink.of_mem_taken ha).2
  case unasked => exact fun other h => InvocationSink.after_congr (i := ⟨other⟩) h steps
  case failure =>
    intro more
    rw [InvocationSink.getElem?_answers]
    exact congrArg (fun r => some (SinkAnswer.failure r)) (InvocationSink.failure?_after rfl)
  case once => exact (List.sublist_append_left _ _).trans InvocationSink.reports_sublist

end Dispatcher
end GeneratorHost
