import Mathlib.Data.List.Perm.Basic
import Mathlib.Data.Multiset.AddSub
import Mathlib.Logic.Relation
import Mathlib.Tactic.Common
import GeneratorHost.Scope.Traits

/-! The closure of traits over their supertraits holds exactly what can be reached. -/
namespace GeneratorHost.ScopeTable

/-! ### The search -/

/-- Something is reached by zero or more steps from one of the starts. -/
def ReachedFrom (next : String → List String) (starts : List String) (x : String) : Prop :=
  ∃ start ∈ starts, Relation.ReflTransGen (fun a b => b ∈ next a) start x

/-- How far a search has come: what it still has to look at, in whatever order, and what it has seen. -/
structure Search where
  pending : Multiset String
  seen : List String

/-- A search before its first round. -/
def Search.ofStarts (starts : List String) : Search := ⟨starts, []⟩

/-- A round of a search takes something that is pending. If it is new, it has been seen from then on,
and what comes next to it is pending too. -/
inductive Search.Round (next : String → List String) : Search → Search → Prop
  | known {x : String} {pending : Multiset String} {seen : List String} (h : x ∈ seen) :
    Round next ⟨x ::ₘ pending, seen⟩ ⟨pending, seen⟩
  | fresh {x : String} {pending : Multiset String} {seen : List String} (h : x ∉ seen) :
    Round next ⟨x ::ₘ pending, seen⟩ ⟨(next x : Multiset String) + pending, x :: seen⟩

/-- A bound on the rounds to come: everything new lowers it by what it makes pending. -/
def Bounds (next : String → List String) (cost : List String → Nat) : Prop :=
  ∀ x seen, x ∉ seen → (next x).length + cost (x :: seen) ≤ cost seen

/-- What a search keeps: it has seen nothing twice, it looks at what it began with and at all that comes
next to what it has seen, and at nothing else. -/
structure Search.Sound (next : String → List String) (starts : List String) (s : Search) : Prop where
  nodup : s.seen.Nodup
  begun : ∀ x ∈ starts, x ∈ s.seen ∨ x ∈ s.pending
  closed : ∀ a ∈ s.seen, ∀ b ∈ next a, b ∈ s.seen ∨ b ∈ s.pending
  reached : ∀ x, x ∈ s.seen ∨ x ∈ s.pending → ReachedFrom next starts x

namespace Search
variable {next : String → List String} {starts : List String} {s s' : Search}

theorem sound_ofStarts : Sound next starts (ofStarts starts) where
  nodup := List.nodup_nil
  begun _ hx := .inr hx
  closed _ ha := absurd ha List.not_mem_nil
  reached x hx := ⟨x, hx.resolve_left List.not_mem_nil, .refl⟩

theorem Sound.round (hs : s.Sound next starts) (h : Round next s s') : s'.Sound next starts := by
  obtain ⟨hn, hst, hc, hr⟩ := hs
  cases h with
  | known h =>
    simp only [Multiset.mem_cons] at hst hc hr
    exact ⟨hn, by grind, by grind, by grind⟩
  | @fresh x pending seen h =>
    simp only [Multiset.mem_cons] at hst hc hr
    refine ⟨List.nodup_cons.mpr ⟨h, hn⟩, ?_, ?_, ?_⟩
    · simp only [List.mem_cons, Multiset.mem_add, Multiset.mem_coe]
      grind
    · simp only [List.mem_cons, Multiset.mem_add, Multiset.mem_coe]
      grind
    · simp only [List.mem_cons, Multiset.mem_add, Multiset.mem_coe]
      rintro y ((rfl | hy) | hy | hy)
      · exact hr y (.inr (.inl rfl))
      · exact hr y (.inl hy)
      · obtain ⟨start, hm, hx⟩ := hr x (.inr (.inl rfl))
        exact ⟨start, hm, hx.tail hy⟩
      · exact hr y (.inr (.inr hy))

theorem Sound.rounds (hs : s.Sound next starts) (h : Relation.ReflTransGen (Round next) s s') :
    s'.Sound next starts := by
  induction h with
  | refl => exact hs
  | tail _ hr ih => exact ih.round hr

/-- A search that has nothing left to look at has seen exactly what can be reached. -/
theorem Sound.mem_seen_iff (hs : s.Sound next starts) (hp : s.pending = 0) {x : String} :
    x ∈ s.seen ↔ ReachedFrom next starts x := by
  have hn (y : String) : y ∉ s.pending := hp ▸ Multiset.notMem_zero y
  constructor
  · exact fun hx => hs.reached x (.inl hx)
  · rintro ⟨start, hm, hx⟩
    induction hx with
    | refl => exact (hs.begun start hm).resolve_right (hn start)
    | tail _ hb ih => exact (hs.closed _ ih _ hb).resolve_right (hn _)

/-- Every round lowers the bound. -/
theorem Round.lt {cost : List String → Nat} (hc : Bounds next cost) (h : Round next s s') :
    s'.pending.card + cost s'.seen < s.pending.card + cost s.seen := by
  cases h with
  | known h =>
    dsimp only
    rw [Multiset.card_cons]
    omega
  | @fresh x pending seen h =>
    have hb := hc x seen h
    dsimp only
    rw [Multiset.card_cons, Multiset.card_add, Multiset.coe_card]
    omega

/-- No search goes on for ever. -/
theorem wellFounded_round {cost : List String → Nat} (hc : Bounds next cost) :
    WellFounded fun s' s => Round next s s' :=
  Subrelation.wf (fun h => h.lt hc) (measure fun s : Search => s.pending.card + cost s.seen).wf

/-- A search goes on as long as something is pending. -/
theorem exists_round (hp : s.pending ≠ 0) : ∃ s', Round next s s' := by
  obtain ⟨pending, seen⟩ := s
  obtain ⟨x, hx⟩ := Multiset.exists_mem_of_ne_zero hp
  obtain ⟨rest, rfl⟩ := Multiset.exists_cons_of_mem hx
  by_cases h : x ∈ seen
  · exact ⟨_, .known h⟩
  · exact ⟨_, .fresh h⟩

end Search

section
variable {next : String → List String} {cost : List String → Nat}

/-- Enough steps take a search to its end. -/
theorem rounds_reach (hc : Bounds next cost) {fuel : Nat} {pending seen : List String}
    (hf : pending.length + cost seen < fuel) :
    Relation.ReflTransGen (Search.Round next) ⟨pending, seen⟩ ⟨0, reach next fuel pending seen⟩ := by
  fun_induction reach next fuel pending seen with
  | case1 => omega
  | case2 => exact .refl
  | case3 fuel x pending seen hs ih =>
    rw [List.contains_iff_mem] at hs
    rw [List.length_cons] at hf
    rw [← Multiset.cons_coe]
    exact .head (.known hs) (ih (by omega))
  | case4 fuel x pending seen hs ih =>
    rw [List.contains_iff_mem] at hs
    have hb := hc x seen hs
    rw [List.length_cons] at hf
    rw [List.length_append, ← Multiset.coe_add] at ih
    rw [← Multiset.cons_coe]
    exact .head (.fresh hs) (ih (by omega))

theorem sound_reach (hc : Bounds next cost) {fuel : Nat} {starts : List String}
    (hf : starts.length + cost [] < fuel) : Search.Sound next starts ⟨0, reach next fuel starts []⟩ :=
  Search.sound_ofStarts.rounds (rounds_reach hc hf)

end

/-! ### Traits -/

/-- The number of bounds of traits that were not seen yet. -/
def unseenBounds (seen : List String) : List (String × TraitFact) → Nat
  | [] => 0
  | (name, fact) :: traits => (if name ∈ seen then 0 else fact.supertraits.length) + unseenBounds seen traits

theorem unseenBounds_cons_le (trait : String) (seen : List String) (traits : List (String × TraitFact)) :
    unseenBounds (trait :: seen) traits ≤ unseenBounds seen traits := by
  induction traits with
  | nil => exact Nat.le_refl _
  | cons entry traits ih =>
    simp only [unseenBounds, List.mem_cons]
    grind

/-- A trait has at most the bounds of its first entry, which count no more once it is seen. -/
theorem lookup_add_unseenBounds_le {trait : String} {seen : List String} (hs : trait ∉ seen)
    (traits : List (String × TraitFact)) :
    ((traits.lookup trait).elim 0 (·.supertraits.length)) + unseenBounds (trait :: seen) traits ≤
      unseenBounds seen traits := by
  induction traits with
  | nil => exact Nat.le_refl _
  | cons entry traits ih =>
    obtain ⟨name, fact⟩ := entry
    have hm := unseenBounds_cons_le trait seen traits
    by_cases hn : trait = name
    · subst hn
      simp only [unseenBounds, List.lookup_cons_self, List.mem_cons, true_or, if_true, hs, if_false,
        Option.elim_some]
      omega
    · have hb : (trait == name) = false := beq_false_of_ne hn
      have hc : name ∈ trait :: seen ↔ name ∈ seen := by grind
      simp only [unseenBounds, List.lookup_cons, hb, hc]
      omega

theorem bounds_directSupertraits (t : ScopeTable) :
    Bounds t.directSupertraits (unseenBounds · t.traits) := by
  intro trait seen hs
  refine Nat.le_trans (Nat.add_le_add_right ?_ _) (lookup_add_unseenBounds_le hs t.traits)
  unfold directSupertraits trait?
  cases t.traits.lookup trait with
  | none => exact Nat.le_refl _
  | some fact => exact List.length_filterMap_le _ _

theorem unseenBounds_nil (traits : List (String × TraitFact)) :
    unseenBounds [] traits = (traits.flatMap fun (_, fact) => fact.supertraits).length := by
  induction traits with
  | nil => rfl
  | cons entry traits ih => simp [unseenBounds, ih]

/-- A closure is what a search for supertraits has seen at its end, in order. -/
theorem exists_perm_traitClosure (t : ScopeTable) (direct : List String) :
    ∃ seen, Search.Sound t.directSupertraits direct ⟨0, seen⟩ ∧ (t.traitClosure direct).Perm seen := by
  refine ⟨_, sound_reach (bounds_directSupertraits t) ?_, List.mergeSort_perm _ _⟩
  rw [unseenBounds_nil]
  exact Nat.lt_succ_self _

theorem mem_traitClosure {t : ScopeTable} {direct : List String} {x : String} :
    x ∈ t.traitClosure direct ↔ ReachedFrom t.directSupertraits direct x := by
  obtain ⟨seen, hs, hp⟩ := exists_perm_traitClosure t direct
  rw [hp.mem_iff]
  exact hs.mem_seen_iff rfl

/-- A closure ascends. -/
theorem pairwise_traitClosure (t : ScopeTable) (direct : List String) :
    (t.traitClosure direct).Pairwise (· < ·) := by
  obtain ⟨seen, hs, hp⟩ := exists_perm_traitClosure t direct
  have hn : (t.traitClosure direct).Nodup := hp.nodup_iff.mpr hs.nodup
  have hle : (t.traitClosure direct).Pairwise (· ≤ ·) := by
    have h := @List.pairwise_mergeSort String (fun a b => decide (a ≤ b))
      (fun a b c hab hbc => decide_eq_true (String.le_trans (of_decide_eq_true hab) (of_decide_eq_true hbc)))
      (fun a b => by simpa using String.le_total a b)
    exact (h _).imp of_decide_eq_true
  exact (hle.and hn).imp fun ⟨hab, hne⟩ => String.not_le.mp fun hba => hne (String.le_antisymm hab hba)

/-- A closure is a list in ascending order, so its members are all there is to it. -/
theorem traitClosure_eq {t u : ScopeTable} {direct direct' : List String}
    (h : ∀ x, x ∈ u.traitClosure direct' ↔ x ∈ t.traitClosure direct) :
    u.traitClosure direct' = t.traitClosure direct := by
  have hu := pairwise_traitClosure u direct'
  have ht := pairwise_traitClosure t direct
  have hn {l : List String} (hl : l.Pairwise (· < ·)) : l.Nodup := hl.imp String.ne_of_lt
  refine List.Perm.eq_of_pairwise (fun a b _ _ hab hba => absurd hba (String.lt_asymm hab)) hu ht ?_
  exact (List.perm_ext_iff_of_nodup (hn hu) (hn ht)).mpr h

end GeneratorHost.ScopeTable
