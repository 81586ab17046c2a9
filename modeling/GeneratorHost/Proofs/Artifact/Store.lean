import Mathlib.Data.List.Nodup
import GeneratorHost.Artifact.Sink

/-! Stores of artifacts only grow, by artifacts of plain names that they do not hold yet. -/
namespace GeneratorHost.ArtifactStore

variable {s s' s'' : ArtifactStore} {name text : String} {reserved : List String}

@[simp] theorem names_mk (artifacts : List Artifact) : names ⟨artifacts⟩ = artifacts.map (·.name) := rfl

/-- A store takes exactly the plain names that it does not hold, at its end. -/
theorem add_eq_ok_iff : s.add name text = .ok s' ↔
    isArtifactName name ∧ name ∉ s.names ∧ s' = ⟨s.artifacts ++ [⟨name, text⟩]⟩ := by
  unfold add
  by_cases hp : isArtifactName name
  · by_cases hn : name ∈ s.names
    · simp [hp, hn]
    · simp [hp, hn, eq_comm]
  · simp [hp]

/-! ### Names -/

/-- The names in a store are plain and pairwise different. -/
structure Sound (s : ArtifactStore) : Prop where
  plain : ∀ name ∈ s.names, isArtifactName name
  nodup : s.names.Nodup

theorem sound_empty : Sound {} := ⟨List.forall_mem_nil _, List.nodup_nil⟩

theorem Sound.add (h : s.Sound) (ha : s.add name text = .ok s') : s'.Sound := by
  obtain ⟨hp, hn, rfl⟩ := add_eq_ok_iff.mp ha
  obtain ⟨hplain, hnodup⟩ := h
  constructor
  · rw [names_mk, List.map_append, List.map_singleton, List.forall_mem_append]
    exact ⟨hplain, List.forall_mem_singleton.mpr hp⟩
  · rw [names_mk, List.map_append, List.map_singleton, ← List.concat_eq_append]
    exact hnodup.concat hn

/-! ### Growth -/

/-- A store took artifacts of names that are not reserved, and stays sound. -/
def Takes (reserved : List String) (s s' : ArtifactStore) : Prop :=
  ∃ added, s'.artifacts = s.artifacts ++ added ∧ (∀ a ∈ added, a.name ∉ reserved) ∧ (s.Sound → s'.Sound)

theorem Takes.refl (reserved : List String) (s : ArtifactStore) : Takes reserved s s :=
  ⟨[], (List.append_nil _).symm, List.forall_mem_nil _, id⟩

theorem Takes.trans (h : Takes reserved s s') (h' : Takes reserved s' s'') : Takes reserved s s'' := by
  obtain ⟨added, he, hr, hs⟩ := h
  obtain ⟨added', he', hr', hs'⟩ := h'
  refine ⟨added ++ added', ?_, List.forall_mem_append.mpr ⟨hr, hr'⟩, hs' ∘ hs⟩
  rw [he', he, List.append_assoc]

theorem Takes.of_add (hn : name ∉ reserved) (h : s.add name text = .ok s') : Takes reserved s s' := by
  obtain ⟨-, -, rfl⟩ := add_eq_ok_iff.mp h
  exact ⟨[⟨name, text⟩], rfl, List.forall_mem_singleton.mpr hn, fun hs => hs.add h⟩

end GeneratorHost.ArtifactStore
