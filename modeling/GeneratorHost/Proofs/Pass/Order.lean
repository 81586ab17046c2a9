import Mathlib.Data.List.Perm.Basic
import GeneratorHost.Proofs.Pass.Emitted

/-! Candidates are isolated from each other: where no two of them ask for the same name, what comes
of each is what comes of it alone, whatever the order in which a pass meets them. -/
namespace GeneratorHost

open List (Disjoint Perm)

/-- What compiles candidates and the units it makes, given by their dialogues. -/
structure DialogueTools where
  compiler : Compiler
  units : Image → Except String DialogueUnit

def DialogueTools.tools (t : DialogueTools) : PassTools ArtifactStore where
  compiler := t.compiler
  load i := (t.units i).map (·.loaded)

/-- What a candidate does: it does not compile, or its generator has a life, or not even that. -/
inductive Behaviour where
  | notCompiled (error : CompileError)
  | compiled (unit : CompiledUnit) (life : Except InvocationError (Dialogue LifeEnd))

def Visit.Outcome.ofResult (unit : CompiledUnit) : InvocationResult InvocationReport → Outcome
  | .error e => .notInvoked unit e
  | .ok report => .succeeded unit report

namespace Behaviour

/-- The visit to a candidate of some behaviour. -/
def visit? (d : Dispatcher) (c : Candidate) (a : ArtifactStore) : Behaviour → Option (Visit ArtifactStore)
  | notCompiled e => some ⟨c, .notCompiled e, a, a⟩
  | compiled unit life => (d.follow c.name life a).map fun (result, b) => ⟨c, .ofResult unit result, a, b⟩

/-- The names that a candidate asks for. -/
def attempts (d : Dispatcher) (a : ArtifactStore) : Behaviour → List String
  | notCompiled _ => []
  | compiled _ life => d.attempts a life

end Behaviour

namespace Visit

/-- The visit with artifacts of others behind those it began with. -/
def behind (others : List Artifact) (v : Visit ArtifactStore) : Visit ArtifactStore :=
  { v with before := ⟨v.before.artifacts ++ others⟩, after := ⟨v.before.artifacts ++ others ++ v.added⟩ }

/-- What a visit brought about, whatever it began with. -/
def own (v : Visit ArtifactStore) : Candidate × Outcome × List Artifact := (v.candidate, v.outcome, v.added)

theorem behind_added (others : List Artifact) (v : Visit ArtifactStore) : (v.behind others).added = v.added := by
  rw [added, behind, ArtifactStore.size, List.drop_left]

@[simp] theorem behind_own (others : List Artifact) (v : Visit ArtifactStore) : (v.behind others).own = v.own := by
  rw [own, behind_added]
  rfl

end Visit

namespace Behaviour

variable {d : Dispatcher} {c : Candidate} {a : ArtifactStore} {v : Visit ArtifactStore}

theorem visit?_candidate {b : Behaviour} (h : b.visit? d c a = some v) : v.candidate = c ∧ v.before = a := by
  cases b with
  | notCompiled e =>
    cases h
    exact ⟨rfl, rfl⟩
  | compiled unit life =>
    obtain ⟨result, -, rfl⟩ := Option.map_eq_some_iff.mp h
    exact ⟨rfl, rfl⟩

/-- A visit adds to what is there, and only under names that its candidate asks for. -/
theorem visit?_added {b : Behaviour} (h : b.visit? d c a = some v) :
    v.after.artifacts = a.artifacts ++ v.added ∧ ∀ x ∈ v.added, x.name ∈ b.attempts d a := by
  cases b with
  | notCompiled e =>
    cases h
    have hn : (⟨c, .notCompiled e, a, a⟩ : Visit ArtifactStore).added = [] := List.drop_length
    rw [hn]
    exact ⟨(List.append_nil _).symm, List.forall_mem_nil _⟩
  | compiled unit life =>
    obtain ⟨⟨result, b⟩, hf, rfl⟩ := Option.map_eq_some_iff.mp h
    obtain ⟨added, ha, hn⟩ := Dispatcher.exists_artifacts_follow hf
    have hd : (⟨c, .ofResult unit result, a, b⟩ : Visit ArtifactStore).added = added := by
      rw [Visit.added, ha, ArtifactStore.size, List.drop_left]
    rw [hd]
    exact ⟨ha, hn⟩

/-- What others added under names that a candidate does not ask for changes nothing for it. -/
theorem visit?_append {b : Behaviour} {others : List Artifact}
    (ho : Disjoint (b.attempts d a) (others.map (·.name))) :
    b.visit? d c ⟨a.artifacts ++ others⟩ = (b.visit? d c a).map (·.behind others) := by
  cases b with
  | notCompiled e =>
    have hn : (⟨c, .notCompiled e, a, a⟩ : Visit ArtifactStore).added = [] := List.drop_length
    rw [visit?, visit?, Option.map_some, Visit.behind, hn, List.append_nil]
  | compiled unit life =>
    rw [visit?, Dispatcher.follow_append ho, visit?, Option.map_map, Option.map_map]
    refine Option.map_congr fun (result, b) hf => ?_
    obtain ⟨added, ha, -⟩ := Dispatcher.exists_artifacts_follow hf
    simp only [Function.comp_apply, Visit.behind, Visit.added, ArtifactStore.insertAt, ha, ArtifactStore.size,
      List.take_left, List.drop_left]

end Behaviour

namespace Pass

variable (p : Pass) (t : DialogueTools) (ds : List RawDeclaration)

/-- What a candidate does in a pass, unless a panic stops the pass before it is compiled. -/
def behaviour? (c : Candidate) : Option Behaviour :=
  (p.compiler.compile t.compiler c).run.map fun
    | .error e => .notCompiled e
    | .ok unit => .compiled unit (unit.life t.units c.name ds)

/-- The visit to a candidate that a pass meets with a sink. -/
def visit? (a : ArtifactStore) (c : Candidate) : Option (Visit ArtifactStore) :=
  (p.behaviour? t ds c).bind (·.visit? p.dispatcher c a)

/-- The names that a candidate asks for when a pass meets it with a sink. -/
def attempts (a : ArtifactStore) (c : Candidate) : List String :=
  ((p.behaviour? t ds c).map (·.attempts p.dispatcher a)).getD []

variable {p t ds} {s : PassState ArtifactStore} {c : Candidate}

/-- Processing a candidate is meeting it with the sink of the pass. -/
theorem process_eq_map (p : Pass) (t : DialogueTools) (ds : List RawDeclaration) (s : PassState ArtifactStore)
    (c : Candidate) : p.process t.tools ds s c = (p.visit? t ds s.artifacts c).map s.meet := by
  unfold process visit? behaviour?
  change ((p.compiler.compile t.compiler c).run.bind _) = _
  cases (p.compiler.compile t.compiler c).run with
  | none => rfl
  | some result =>
    cases result with
    | error e => rfl
    | ok unit =>
      change ((p.dispatcher.invoke _ unit c.name ds s.artifacts).bind _) = _
      rw [DialogueTools.tools, Dispatcher.invoke_eq_follow]
      simp only [Option.map_some, Option.bind_some, Behaviour.visit?]
      cases p.dispatcher.follow c.name (unit.life t.units c.name ds) s.artifacts with
      | none => rfl
      | some found =>
        obtain ⟨result, b⟩ := found
        cases result <;> rfl

theorem visit?_eq_some {a : ArtifactStore} {v : Visit ArtifactStore} (h : p.visit? t ds a c = some v) :
    Visits p t.tools ds v ∧ v.candidate = c ∧ v.before = a := by
  obtain ⟨b, hb, h⟩ := Option.bind_eq_some_iff.mp h
  obtain ⟨result, hc, rfl⟩ := Option.map_eq_some_iff.mp hb
  refine ⟨?_, Behaviour.visit?_candidate h⟩
  cases result with
  | error e =>
    cases h
    exact .notCompiled hc
  | ok unit =>
    obtain ⟨⟨result, b⟩, hf, rfl⟩ := Option.map_eq_some_iff.mp h
    rw [← Dispatcher.invoke_eq_follow] at hf
    cases result with
    | error e => exact .notInvoked hc hf
    | ok report => exact .succeeded hc hf

/-- A visit adds to what is there, and only under names that its candidate asks for. -/
theorem visit?_added {a : ArtifactStore} {v : Visit ArtifactStore} (h : p.visit? t ds a c = some v) :
    v.after.artifacts = a.artifacts ++ v.added ∧ ∀ x ∈ v.added, x.name ∈ p.attempts t ds a c := by
  obtain ⟨b, hb, h⟩ := Option.bind_eq_some_iff.mp h
  rw [attempts, hb]
  exact Behaviour.visit?_added h

/-- A candidate is met alone, whatever others added under names that it does not ask for. -/
theorem visit?_append {a : ArtifactStore} {others : List Artifact}
    (ho : Disjoint (p.attempts t ds a c) (others.map (·.name))) :
    p.visit? t ds ⟨a.artifacts ++ others⟩ c = (p.visit? t ds a c).map (·.behind others) := by
  unfold visit?
  cases hb : p.behaviour? t ds c with
  | none => rfl
  | some b =>
    rw [attempts, hb] at ho
    exact Behaviour.visit?_append ho

/-! ### Candidates one after the other -/

/-- No two of the candidates ask for the same name. -/
def Apart (p : Pass) (t : DialogueTools) (ds : List RawDeclaration) (a : ArtifactStore) (cs : List Candidate) : Prop :=
  cs.Pairwise fun c c' => Disjoint (p.attempts t ds a c) (p.attempts t ds a c')

/-- Visits, each made alone, as they follow each other behind artifacts of others. -/
def inTurn : List Artifact → List (Visit ArtifactStore) → List (Visit ArtifactStore)
  | _, [] => []
  | others, v :: vs => v.behind others :: inTurn (others ++ v.added) vs

theorem inTurn_own (others : List Artifact) (vs : List (Visit ArtifactStore)) :
    (inTurn others vs).map Visit.own = vs.map Visit.own := by
  induction vs generalizing others with
  | nil => rfl
  | cons v vs ih => rw [inTurn, List.map_cons, List.map_cons, Visit.behind_own, ih]

/-- A state has artifacts of others in its sink that none of the candidates to come asks for. -/
structure Beside (p : Pass) (t : DialogueTools) (ds : List RawDeclaration) (a : ArtifactStore) (others : List Artifact)
    (cs : List Candidate) (s : PassState ArtifactStore) : Prop where
  artifacts : s.artifacts = ⟨a.artifacts ++ others⟩
  apart : p.Apart t ds a cs
  disjoint : ∀ c ∈ cs, Disjoint (p.attempts t ds a c) (others.map (·.name))

variable {a : ArtifactStore} {others : List Artifact} {cs : List Candidate} {vs : List (Visit ArtifactStore)}

theorem Beside.visit? (h : Beside p t ds a others (c :: cs) s) :
    p.visit? t ds s.artifacts c = (p.visit? t ds a c).map (·.behind others) := by
  rw [h.artifacts]
  exact visit?_append (h.disjoint c List.mem_cons_self)

/-- What a candidate adds is what the next ones do not ask for. -/
theorem Beside.meet {v : Visit ArtifactStore} (h : Beside p t ds a others (c :: cs) s)
    (hv : p.visit? t ds a c = some v) : Beside p t ds a (others ++ v.added) cs (s.meet (v.behind others)) := by
  obtain ⟨hc, hapart⟩ := List.pairwise_cons.mp h.apart
  obtain ⟨-, ho⟩ := List.forall_mem_cons.mp h.disjoint
  have hvisit : p.visit? t ds s.artifacts c = some (v.behind others) := by
    rw [h.visit?, hv]
    rfl
  obtain ⟨hvisits, -, hb⟩ := visit?_eq_some hvisit
  obtain ⟨-, -, hbefore⟩ := visit?_eq_some hv
  obtain ⟨-, hadded⟩ := visit?_added hv
  refine ⟨?_, hapart, fun c' hc' => ?_⟩
  · rw [hvisits.meet_artifacts hb, Visit.behind, hbefore, List.append_assoc]
  · rw [List.map_append, List.disjoint_append_right]
    refine ⟨ho c' hc', fun name hn hm => ?_⟩
    obtain ⟨x, hx, rfl⟩ := List.mem_map.mp hm
    exact hc c' hc' (hadded x hx) hn

/-- Candidates that are apart come one after the other to what each of them comes to alone. -/
theorem foldlM_process_eq_some_iff {last : PassState ArtifactStore} (h : Beside p t ds a others cs s) :
    cs.foldlM (p.process t.tools ds) s = some last ↔
      ∃ vs, List.Forall₂ (fun c v => p.visit? t ds a c = some v) cs vs ∧
        last = (inTurn others vs).foldl PassState.meet s := by
  induction cs generalizing s others with
  | nil => simp [inTurn, eq_comm]
  | cons c cs ih =>
    rw [List.foldlM_cons, process_eq_map, h.visit?]
    cases hv : p.visit? t ds a c with
    | none =>
      refine iff_of_false (fun hn => by cases hn) ?_
      rintro ⟨vs, hvs, -⟩
      obtain ⟨v, vs, hn, -, -⟩ := List.forall₂_cons_left_iff.mp hvs
      rw [hv] at hn
      cases hn
    | some v =>
      refine (ih (h.meet hv)).trans ⟨?_, ?_⟩
      · rintro ⟨vs, hvs, rfl⟩
        exact ⟨v :: vs, .cons hv hvs, rfl⟩
      · rintro ⟨vs, hvs, rfl⟩
        obtain ⟨v', vs, hv', hrest, rfl⟩ := List.forall₂_cons_left_iff.mp hvs
        cases hv.symm.trans hv'
        exact ⟨vs, hrest, rfl⟩

/-- The visits that are made alone follow each other once they are put behind each other. -/
theorem follow_inTurn (h : Beside p t ds a others cs s)
    (hv : List.Forall₂ (fun c v => p.visit? t ds a c = some v) cs vs) :
    Follow p t.tools ds s.artifacts (inTurn others vs) ∧ (inTurn others vs).map (·.candidate) = cs := by
  induction hv generalizing s others with
  | nil => exact ⟨trivial, rfl⟩
  | cons hv _ ih =>
    have hvisit := h.visit?
    rw [hv] at hvisit
    obtain ⟨hvisits, hc, hb⟩ := visit?_eq_some hvisit
    obtain ⟨hf, hcs⟩ := ih (h.meet hv)
    rw [hvisits.meet_artifacts hb] at hf
    refine ⟨⟨hb, hvisits, hf⟩, ?_⟩
    rw [inTurn, List.map_cons, hc, hcs]

theorem tools_callbacks (t : DialogueTools) : LoadedUnit.ForLoaded t.tools.load (Call.Leads Callbacks) := by
  intro image unit h
  change (t.units image).map (·.loaded) = .ok unit at h
  cases hu : t.units image with
  | error reason =>
    rw [hu] at h
    cases h
  | ok u =>
    rw [hu] at h
    cases h
    exact u.loaded_callbacks

end Pass

/-! ### Runs in different orders -/

namespace Visit

variable {vs vs' : List (Visit ArtifactStore)}

/-- Visits that brought about the same added the same artifacts. -/
theorem flatMap_added_perm (h : (vs'.map own).Perm (vs.map own)) : (vs'.flatMap added).Perm (vs.flatMap added) := by
  have hf (ws : List (Visit ArtifactStore)) : ws.flatMap added = (ws.map own).flatMap (·.2.2) := by
    rw [List.flatMap_map]
    rfl
  rw [hf, hf]
  exact h.flatMap_right _

/-- Visits that brought about the same have the same entries. -/
theorem map_entry_perm (h : (vs'.map own).Perm (vs.map own)) :
    ((failed vs').map entry).Perm ((failed vs).map entry) := by
  have hf (ws : List (Visit ArtifactStore)) : (failed ws).map entry =
      ((ws.map own).filter (·.2.1.stage? ≠ none)).map fun o => DiagnosticLog.entry o.1.name o.2.1.diagnostics := by
    rw [List.filter_map, List.map_map]
    rfl
  rw [hf, hf]
  exact (h.filter _).map _

end Visit

/-- Statistics count outcomes in any order. -/
theorem PassState.foldl_meet_unnamed (vs : List (Visit ArtifactStore)) (s : PassState ArtifactStore) :
    (vs.foldl meet s).statistics.unnamed = (vs.map (·.outcome)).foldl Visit.Outcome.tally s.statistics.unnamed := by
  induction vs generalizing s with
  | nil => rfl
  | cons v vs ih => rw [List.foldl_cons, ih, meet_unnamed, List.map_cons, List.foldl_cons]

instance : RightCommutative Visit.Outcome.tally := ⟨Visit.Outcome.tally_right_comm⟩

theorem PassState.unnamed_perm {vs vs' : List (Visit ArtifactStore)} (h : (vs'.map Visit.own).Perm (vs.map Visit.own))
    (s : PassState ArtifactStore) :
    (vs'.foldl meet s).statistics.unnamed = (vs.foldl meet s).statistics.unnamed := by
  have ho : (vs'.map (·.outcome)).Perm (vs.map (·.outcome)) := by
    have hf (ws : List (Visit ArtifactStore)) : ws.map (·.outcome) = (ws.map Visit.own).map (·.2.1) := by
      rw [List.map_map]
      rfl
    rw [hf, hf]
    exact h.map _
  rw [foldl_meet_unnamed, foldl_meet_unnamed]
  exact ho.foldl_eq _

namespace Pass

/-- A pass met candidates in an order and ended in a state: the visits it made, what they added
to the sink, and their entries one after the other. -/
structure Meets (p : Pass) (t : DialogueTools) (ds : List RawDeclaration) (first : PassState ArtifactStore)
    (cs : List Candidate) (last : PassState ArtifactStore) (vs : List (Visit ArtifactStore)) : Prop where
  run : cs.foldlM (p.process t.tools ds) first = some last
  follow : Follow p t.tools ds first.artifacts vs
  candidates : vs.map (·.candidate) = cs
  artifacts : last.artifacts.artifacts = first.artifacts.artifacts ++ vs.flatMap Visit.added
  covers : last.log.Covers vs

variable {p : Pass} {t t' : DialogueTools} {ds : List RawDeclaration} {index : DeclarationIndex}
  {store : ArtifactStore} {cs cs' : List Candidate} {vs : List (Visit ArtifactStore)}

theorem meets_of_alone (hapart : p.Apart t ds (p.begin index store).artifacts cs)
    (hv : List.Forall₂ (fun c v => p.visit? t ds (p.begin index store).artifacts c = some v) cs vs) :
    Meets p t ds (p.begin index store) cs ((inTurn [] vs).foldl PassState.meet (p.begin index store))
      (inTurn [] vs) := by
  have hb : Beside p t ds (p.begin index store).artifacts [] cs (p.begin index store) :=
    ⟨by rw [List.append_nil], hapart, fun c _ => List.disjoint_nil_right _⟩
  obtain ⟨hf, hc⟩ := follow_inTurn hb hv
  obtain ⟨ha, -⟩ := hf.artifacts (tools_callbacks t)
  have hbooks : (p.begin index store).Books index.candidates.length [] := begin_books index
  have hbooks := hf.keeps (fun _ _ _ hv _ h => PassState.Books.meet h hv.diagnostics_ne_nil) hbooks
  exact ⟨(foldlM_process_eq_some_iff hb).mpr ⟨vs, hv, rfl⟩, hf, hc, ha, hbooks.covers⟩

/-- Visits that are made alone are found at the places of their candidates. -/
theorem getElem?_of_alone {a : ArtifactStore}
    (hv : List.Forall₂ (fun c v => p.visit? t ds a c = some v) cs vs) (i : Nat) :
    vs[i]? = cs[i]?.bind (p.visit? t ds a) := by
  induction hv generalizing i with
  | nil => rfl
  | cons hv _ ih =>
    cases i with
    | zero => exact hv.symm
    | succ i => exact ih i

theorem exists_alone_iff {a : ArtifactStore} :
    (∃ vs, List.Forall₂ (fun c v => p.visit? t ds a c = some v) cs vs) ↔ ∀ c ∈ cs, p.visit? t ds a c ≠ none := by
  induction cs with
  | nil => exact iff_of_true ⟨[], .nil⟩ (List.forall_mem_nil _)
  | cons c cs ih =>
    rw [List.forall_mem_cons, ← ih]
    constructor
    · rintro ⟨vs, hvs⟩
      obtain ⟨v, vs, hv, hrest, rfl⟩ := List.forall₂_cons_left_iff.mp hvs
      exact ⟨Option.ne_none_iff_exists'.mpr ⟨v, hv⟩, vs, hrest⟩
    · rintro ⟨hc, vs, hvs⟩
      obtain ⟨v, hv⟩ := Option.ne_none_iff_exists'.mp hc
      exact ⟨v :: vs, .cons hv hvs⟩

/-- Where no two candidates ask for the same name, any order of them comes to the same, but for the
order of artifacts and entries; and whatever one of them does instead, what the others bring about
stays as it is. -/
theorem isolates_candidates (hapart : p.Apart t ds (p.begin index store).artifacts cs) {last : PassState ArtifactStore}
    (h : cs.foldlM (p.process t.tools ds) (p.begin index store) = some last) :
    ∃ vs, Meets p t ds (p.begin index store) cs last vs ∧
      (∀ cs' : List Candidate, cs'.Perm cs → ∃ last' vs', Meets p t ds (p.begin index store) cs' last' vs' ∧
        last'.artifacts.artifacts.Perm last.artifacts.artifacts ∧
        last'.statistics.unnamed = last.statistics.unnamed ∧
        ((Visit.failed vs').map Visit.entry).Perm ((Visit.failed vs).map Visit.entry)) ∧
      ∀ (t' : DialogueTools) (i : Nat), p.Apart t' ds (p.begin index store).artifacts cs →
        (∀ c, cs[i]? = some c → p.process t'.tools ds (p.begin index store) c ≠ none) →
        (∀ j ≠ i, ∀ c, cs[j]? = some c → p.behaviour? t' ds c = p.behaviour? t ds c) →
        ∃ last' vs', Meets p t' ds (p.begin index store) cs last' vs' ∧
          ∀ j ≠ i, vs'[j]?.map Visit.own = vs[j]?.map Visit.own := by
  have hb : Beside p t ds (p.begin index store).artifacts [] cs (p.begin index store) :=
    ⟨by rw [List.append_nil], hapart, fun c _ => List.disjoint_nil_right _⟩
  obtain ⟨vs, hv, rfl⟩ := (foldlM_process_eq_some_iff hb).mp h
  refine ⟨inTurn [] vs, meets_of_alone hapart hv, fun cs' hcs => ?_, fun t' i hapart' hends hsame => ?_⟩
  · obtain ⟨vs', hv', hvs⟩ := List.perm_comp_forall₂ hcs hv
    have hown : ((inTurn [] vs').map Visit.own).Perm ((inTurn [] vs).map Visit.own) := by
      rw [inTurn_own, inTurn_own]
      exact hvs.map _
    have hm := meets_of_alone hapart hv
    have hm' := meets_of_alone (hapart.perm hcs.symm List.disjoint_symm) hv'
    refine ⟨_, _, hm', ?_, PassState.unnamed_perm hown _, Visit.map_entry_perm hown⟩
    rw [hm.artifacts, hm'.artifacts]
    exact (Visit.flatMap_added_perm hown).append_left _
  · have hvisits : ∀ c ∈ cs, p.visit? t' ds (p.begin index store).artifacts c ≠ none := by
      intro c hc
      obtain ⟨j, hj⟩ := List.getElem?_of_mem hc
      by_cases hji : j = i
      · subst hji
        have hp := hends c hj
        rw [process_eq_map] at hp
        exact fun hn => hp (by rw [hn]; rfl)
      · rw [visit?, hsame j hji c hj]
        exact exists_alone_iff.mp ⟨vs, hv⟩ c hc
    obtain ⟨vs', hv'⟩ := exists_alone_iff.mpr hvisits
    refine ⟨_, _, meets_of_alone hapart' hv', fun j hj => ?_⟩
    rw [← List.getElem?_map, ← List.getElem?_map, inTurn_own, inTurn_own, List.getElem?_map, List.getElem?_map,
      getElem?_of_alone hv, getElem?_of_alone hv']
    cases hc : cs[j]? with
    | none => rfl
    | some c =>
      simp only [Option.bind_some, visit?, hsame j hj c hc]

/-! ### Two candidates -/

/-- The sample host with a second candidate. -/
def pairHost : HostCompilation :=
  ⟨sampleHost.trees ++ [⟨"gen.rs", "crate::gen",
    "#[crate::selfgen_rt::generator] struct Alpha; impl crate::selfgen_rt::SourceGenerator for Alpha \x7b\x7d",
    .e2021, _, rfl⟩], .e2021⟩

set_option maxRecDepth 4000 in
open Index.ParsedTree in
theorem exists_pair_candidates : ∃ root alpha, (samplePass.index pairHost).candidates = [root, alpha] ∧
    root.name = "crate::Root" ∧ alpha.name = "crate::gen::Alpha" ∧
    ∀ c ∈ [root, alpha], ∃ call, (samplePass.compiler.call c).run = some (.ok call) := by
  have hroot := ofTree_eq_ofChars pairHost.trees[0] String.toList_ofList
  have halpha := ofTree_eq_ofChars pairHost.trees[2] String.toList_ofList
  have hlist : (pairHost.withSupport samplePass.support).trees.map ofTree =
      [ofTree pairHost.trees[0], ofTree pairHost.trees[1], ofTree pairHost.trees[2]] := rfl
  have h : (samplePass.index pairHost).candidates.map (fun c => (c.name, c.node.tree.path)) =
      [("crate::Root", "lib.rs"), ("crate::gen::Alpha", "gen.rs")] := by
    rw [index, DeclarationIndex.build, hlist, hroot, halpha]
    decide +kernel
  obtain ⟨root, rest, hi, hr, h⟩ := List.map_eq_cons_iff.mp h
  obtain ⟨alpha, rfl, ha⟩ := List.map_eq_singleton_iff.mp h
  simp only [Prod.mk.injEq] at hr ha
  have hd : (pairHost.trees.map (·.path)).Nodup := by decide
  have ht {c : Candidate} (hc : c ∈ [root, alpha]) : c.node.tree ∈ pairHost.trees :=
    DeclarationIndex.tree_mem_of_mem_candidates (c := pairHost.withSupport samplePass.support) (hi ▸ hc)
  have hrt : root.node.tree = sampleHost.trees[0] :=
    List.inj_on_of_nodup_map hd (ht List.mem_cons_self) (List.getElem_mem (n := 0) (by decide)) hr.2
  have hat : alpha.node.tree = pairHost.trees[2] :=
    List.inj_on_of_nodup_map hd (ht (List.mem_cons_of_mem _ (List.mem_singleton_self _)))
      (List.getElem_mem (n := 2) (by decide)) ha.2
  have hp : (samplePass.compiler.prepare "crate::gen::Alpha" pairHost.trees[2]).run.map (·.toOption.isSome) =
      some true := by decide +kernel
  rw [← hat, ← ha.1] at hp
  obtain ⟨disk, hp⟩ := exists_ok_of_isSome hp
  exact ⟨root, alpha, hi, hr.1, ha.1, List.forall_mem_cons.mpr ⟨(exists_call_of_sample hr.1 hrt).2,
    List.forall_mem_singleton.mpr ⟨_, UnitCompiler.call_run_of_prepare hp⟩⟩⟩

/-- What the units of both candidates export. -/
def pairExports : List String :=
  ["selfgen_construct__crate__Root", "selfgen_construct__crate__gen__Alpha",
    "selfgen_on_execute__crate__Root", "selfgen_on_execute__crate__gen__Alpha"]

theorem pairExports_exports : (Image.exporting pairExports).exports = .ok pairExports :=
  Image.exports_exporting (by decide +kernel) (by decide +kernel) (by decide +kernel) (by decide +kernel)

/-- It adds a source under its own name and returns an error. -/
def namesakeGenerator (name : String) : Generator where
  execute _ := .add name "" fun _ => .failed { text? := some "no" }

def pairTools : DialogueTools where
  compiler _ _ := .ok ⟨0, "", ⟨0⟩, .ok (.exporting pairExports)⟩
  units _ := .ok (SampleUnit.dialogues namesakeGenerator)

private theorem namesake_life {name : String} (ds : List RawDeclaration)
    (hf : ∀ e ∈ [EntryPoint.construct, .execute, .release], SampleUnit.find? e (e.symbol name) = some (name, .complete)) :
    (SampleUnit.dialogues namesakeGenerator).life name ds =
      .add (.ofString name) (.ofString "") fun _ => .fail (ReturnedError.report "no") (.done (.ended 1)) := by
  simp only [List.forall_mem_cons] at hf
  obtain ⟨hfc, hfe, hfr, -⟩ := hf
  simp only [DialogueUnit.life, SampleUnit.dialogues, hfc, hfe, hfr, Option.map_some]
  rfl

private theorem pair_behaviour {c : Candidate} {call : CompilerCall} (ds : List RawDeclaration)
    (hc : (samplePass.compiler.call c).run = some (.ok call)) (hn : c.name ∈ ["crate::Root", "crate::gen::Alpha"]) :
    samplePass.behaviour? pairTools ds c =
      some (.compiled ⟨c.name, .exporting pairExports, pairExports, ⟨0⟩⟩
        (.ok (.add (.ofString c.name) (.ofString "") fun _ =>
          .fail (ReturnedError.report "no") (.done (.ended 1))))) := by
  have hfound : ∀ name ∈ ["crate::Root", "crate::gen::Alpha"],
      (∀ e ∈ [EntryPoint.construct, .execute], pairExports.contains (e.symbol name)) ∧
      ∀ e ∈ [EntryPoint.construct, .execute, .release],
        SampleUnit.find? e (e.symbol name) = some (name, .complete) := by
    decide +kernel
  obtain ⟨hexports, hf⟩ := hfound c.name hn
  have hcompile : (samplePass.compiler.compile pairTools.compiler c).run =
      some (.ok ⟨c.name, .exporting pairExports, pairExports, ⟨0⟩⟩) :=
    UnitCompiler.compile_run_of_quiet hc rfl rfl pairExports_exports
  rw [behaviour?, hcompile]
  simp only [Option.map_some, CompiledUnit.life, CompiledUnit.hasExport, hexports .construct (by decide),
    hexports .execute (by decide), pairTools, namesake_life ds hf]
  rfl

/-- Two candidates that add a source and fail come to the same in either order. -/
theorem isolates_candidates_of_pair : ∃ root alpha last last' vs', (samplePass.index pairHost).candidates = [root, alpha] ∧
    samplePass.Apart pairTools (marshal (samplePass.index pairHost).records)
      (samplePass.begin (samplePass.index pairHost) ({} : ArtifactStore)).artifacts [root, alpha] ∧
    [root, alpha].foldlM (samplePass.process pairTools.tools (marshal (samplePass.index pairHost).records))
      (samplePass.begin (samplePass.index pairHost) {}) = some last ∧
    samplePass.Meets pairTools (marshal (samplePass.index pairHost).records)
      (samplePass.begin (samplePass.index pairHost) {}) [alpha, root] last' vs' ∧
    last'.artifacts.artifacts.Perm last.artifacts.artifacts := by
  obtain ⟨root, alpha, hi, hrn, han, hcalls⟩ := exists_pair_candidates
  simp only [List.forall_mem_cons] at hcalls
  obtain ⟨⟨callr, hrc⟩, ⟨calla, hac⟩, -⟩ := hcalls
  let ds := marshal (samplePass.index pairHost).records
  have hr := pair_behaviour ds hrc (by rw [hrn]; decide)
  have ha := pair_behaviour ds hac (by rw [han]; decide)
  have hapart : samplePass.Apart pairTools ds (samplePass.begin (samplePass.index pairHost) {}).artifacts
      [root, alpha] := by
    refine List.pairwise_pair.mpr ?_
    rw [attempts, attempts, hr, ha, hrn, han]
    change Disjoint [(RawText.ofString "crate::Root").toText] [(RawText.ofString "crate::gen::Alpha").toText]
    refine List.singleton_disjoint.mpr ?_
    decide +kernel
  have hends : ∀ c ∈ [root, alpha], samplePass.visit? pairTools ds
      (samplePass.begin (samplePass.index pairHost) {}).artifacts c ≠ none := by
    rw [List.forall_mem_cons, List.forall_mem_singleton, visit?, visit?, hr, ha]
    exact ⟨Option.some_ne_none _, Option.some_ne_none _⟩
  obtain ⟨vs, hvs⟩ := exists_alone_iff.mpr hends
  have hrun := (meets_of_alone hapart hvs).run
  obtain ⟨vs, -, horder, -⟩ := isolates_candidates hapart hrun
  obtain ⟨last', vs', hm, hp, -, -⟩ := horder [alpha, root] (.swap ..)
  exact ⟨root, alpha, _, last', vs', hi, hapart, hrun, hm, hp⟩

end Pass
end GeneratorHost
