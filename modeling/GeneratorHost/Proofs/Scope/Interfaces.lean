import GeneratorHost.Proofs.Scope.Traits

/-! The traits of types and the supertraits of traits in a finished table: whatever circles the bounds of
the traits make, the search for them comes to an end, and it finds all that can be reached and nothing else. -/
namespace GeneratorHost.ScopeTable

namespace Search
variable {next : String → List String} {starts : List String}

/-- Searches come to an end, in whatever order they look at things, and what they have seen then is the
answer. -/
structure Answers (next : String → List String) (starts answer : List String) : Prop where
  ends : WellFounded fun s' s => Round next s s'
  goes_on : ∀ s, s.pending ≠ 0 → ∃ s', Round next s s'
  seen : ∀ s, Relation.ReflTransGen (Round next) (ofStarts starts) s → s.pending = 0 → answer.Perm s.seen

theorem Answers.of_sound {cost : List String → Nat} (hc : Bounds next cost) {seen answer : List String}
    (hs : Sound next starts ⟨0, seen⟩) (hp : answer.Perm seen) : Answers next starts answer where
  ends := wellFounded_round hc
  goes_on _ := exists_round
  seen s h he := by
    have hend : s.Sound next starts := sound_ofStarts.rounds h
    refine hp.trans ((List.perm_ext_iff_of_nodup hs.nodup hend.nodup).mpr fun x => ?_)
    exact (hs.mem_seen_iff rfl).trans (hend.mem_seen_iff he).symm

end Search

/-- Searches for supertraits see in the end what is in the closure. -/
theorem answers_traitClosure (t : ScopeTable) (direct : List String) :
    Search.Answers t.directSupertraits direct (t.traitClosure direct) := by
  obtain ⟨seen, hs, hp⟩ := exists_perm_traitClosure t direct
  exact .of_sound (bounds_directSupertraits t) hs hp

/-- A trait was declared, last of its path, with a bound that leads to another one. -/
def DirectSupertrait (t : ScopeTable) (trait bound : String) : Prop :=
  ∃ fact, t.trait? trait = some fact ∧ ∃ path ∈ fact.supertraits, t.resolve fact.scope path = some bound

/-- An implementation of a trait for a type was collected. -/
def DirectTrait (t : ScopeTable) (type trait : String) : Prop :=
  ∃ fact ∈ t.impls, t.resolve fact.scope fact.subject = some type ∧ t.resolve fact.scope fact.trait = some trait

/-- The traits that implementations give a type. -/
def directTraits (t : ScopeTable) (type : String) : List String :=
  t.implemented.filterMap fun (subject, trait) => if subject = type then some trait else none

variable {t : ScopeTable} {trait type x : String}

theorem mem_directSupertraits_iff : x ∈ t.directSupertraits trait ↔ t.DirectSupertrait trait x := by
  unfold directSupertraits DirectSupertrait
  cases t.trait? trait with
  | none => simp
  | some fact => simp [List.mem_filterMap]

theorem mem_directTraits_finish : x ∈ t.finish.directTraits type ↔ t.DirectTrait type x := by
  rw [DirectTrait, ← mem_implemented_finish, directTraits, List.mem_filterMap]
  simp

@[simp] theorem directSupertrait_finish (t : ScopeTable) : t.finish.DirectSupertrait = t.DirectSupertrait := by
  unfold DirectSupertrait
  rw [resolve_finish]
  rfl

theorem reachedFrom_directSupertraits_iff {direct : List String} :
    ReachedFrom t.directSupertraits direct x ↔
      ∃ start ∈ direct, Relation.ReflTransGen t.DirectSupertrait start x := by
  have hd : (fun a b => b ∈ t.directSupertraits a) = t.DirectSupertrait := by
    funext a b
    exact propext mem_directSupertraits_iff
  rw [ReachedFrom, hd]

theorem mem_interfacesOf_finish : x ∈ t.finish.interfacesOf type ↔
    ∃ direct, t.DirectTrait type direct ∧ Relation.ReflTransGen t.DirectSupertrait direct x := by
  change x ∈ t.finish.traitClosure (t.finish.directTraits type) ↔ _
  rw [mem_traitClosure, reachedFrom_directSupertraits_iff, directSupertrait_finish]
  exact exists_congr fun direct => and_congr_left fun _ => mem_directTraits_finish

theorem mem_supertraitsOf_finish : x ∈ t.finish.supertraitsOf trait ↔
    x ≠ trait ∧ Relation.TransGen t.DirectSupertrait trait x := by
  rw [supertraitsOf, List.mem_filter, mem_traitClosure, reachedFrom_directSupertraits_iff, directSupertrait_finish,
    and_comm, decide_eq_true_iff, Relation.TransGen.head'_iff]
  refine and_congr_right fun _ => exists_congr fun direct => and_congr_left fun _ => ?_
  rw [mem_directSupertraits_iff, directSupertrait_finish]

/-- In a finished table, a type has the traits that can be reached by bounds from those that are implemented for
it, a trait has the supertraits that can be reached from it in at least one step, itself left out, and
both are told once each and in order. So a type that has a trait has its supertraits. -/
theorem interfacesOf_and_supertraitsOf_finish (t : ScopeTable) :
    let u := t.finish
    (∀ type,
      (∃ direct, (∀ x, x ∈ direct ↔ t.DirectTrait type x) ∧
        Search.Answers u.directSupertraits direct (u.interfacesOf type)) ∧
      (u.interfacesOf type).Pairwise (· < ·) ∧
      ∀ x, x ∈ u.interfacesOf type ↔
        ∃ direct, t.DirectTrait type direct ∧ Relation.ReflTransGen t.DirectSupertrait direct x) ∧
    (∀ trait,
      (∃ direct closure, (∀ x, x ∈ direct ↔ t.DirectSupertrait trait x) ∧
        Search.Answers u.directSupertraits direct closure ∧ u.supertraitsOf trait = closure.filter (· ≠ trait)) ∧
      (u.supertraitsOf trait).Pairwise (· < ·) ∧
      ∀ x, x ∈ u.supertraitsOf trait ↔ x ≠ trait ∧ Relation.TransGen t.DirectSupertrait trait x) ∧
    ∀ type trait, trait ∈ u.interfacesOf type → ∀ x ∈ u.supertraitsOf trait, x ∈ u.interfacesOf type := by
  intro u
  refine ⟨fun type => ⟨?_, pairwise_traitClosure _ _, fun x => mem_interfacesOf_finish⟩,
    fun trait => ⟨?_, (pairwise_traitClosure _ _).filter _, fun x => mem_supertraitsOf_finish⟩, ?_⟩
  · exact ⟨u.directTraits type, fun x => mem_directTraits_finish, answers_traitClosure u _⟩
  · refine ⟨u.directSupertraits trait, _, fun x => ?_, answers_traitClosure u _, rfl⟩
    rw [mem_directSupertraits_iff, directSupertrait_finish]
  · intro type trait ht x hx
    obtain ⟨direct, hd, hr⟩ := mem_interfacesOf_finish.mp ht
    obtain ⟨-, hx⟩ := mem_supertraitsOf_finish.mp hx
    exact mem_interfacesOf_finish.mpr ⟨direct, hd, hr.trans hx.to_reflTransGen⟩

end GeneratorHost.ScopeTable
