import GeneratorHost.Index.Listing
import GeneratorHost.Proofs.Index.Candidates

/-! The candidates that a listing shows: those of the index, and what else has the name of one. -/
namespace GeneratorHost
open Index ParsedTree

namespace DeclarationIndex

/-- A record that a candidate was made from. -/
def IsCandidate (i : DeclarationIndex) (r : Record) : Prop := ∃ k ∈ i.candidates, k.node = r.node

/-- A record with the qualified name of a candidate. -/
def IsNamesake (i : DeclarationIndex) (r : Record) : Prop :=
  ∃ symbol, r.symbol? = some symbol ∧ ∃ k ∈ i.candidates, k.name = symbol.qualifiedName

theorem node_of_candidate? {marker interface : String} {r : Record} {k : Candidate}
    (h : candidate? marker interface r = some k) : k.node = r.node ∧ r.symbol? = some k.symbol := by
  unfold candidate? at h
  cases hs : r.symbol? with
  | none =>
    rw [hs] at h
    cases h
  | some symbol =>
    rw [hs] at h
    dsimp only at h
    split at h
    · cases h
      exact ⟨rfl, rfl⟩
    · cases h

variable {c : HostCompilation} {support : SupportModule} {r : Record}

theorem eq_of_index_eq {r' : Record} (hr : r ∈ (build c support).records) (hr' : r' ∈ (build c support).records)
    (h : r.node = r'.node) : r = r' :=
  (numbered_allRecords 0 _).eq_of_index_eq hr hr' (congrArg Node.index h)

theorem candidates_build (c : HostCompilation) (support : SupportModule) :
    (build c support).candidates = (build c support).records.filterMap
      (candidate? (build c support).marker (build c support).interface) := by
  simp only [build, ofParsed]

theorem mem_candidates_iff {k : Candidate} : k ∈ (build c support).candidates ↔
    ∃ r ∈ (build c support).records, candidate? (build c support).marker (build c support).interface r = some k := by
  rw [candidates_build, List.mem_filterMap]

theorem isCandidate_build_iff (hr : r ∈ (build c support).records) :
    (build c support).IsCandidate r ↔
      (candidate? (build c support).marker (build c support).interface r).isSome := by
  constructor
  · rintro ⟨k, hk, he⟩
    obtain ⟨r', hr', hk⟩ := mem_candidates_iff.mp hk
    have hn := (node_of_candidate? hk).1
    rw [← eq_of_index_eq hr' hr (hn.symm.trans he)]
    exact Option.isSome_of_mem hk
  · intro h
    obtain ⟨k, hk⟩ := Option.isSome_iff_exists.mp h
    exact ⟨k, mem_candidates_iff.mpr ⟨r, hr, hk⟩, (node_of_candidate? hk).1⟩

theorem IsCandidate.isNamesake (hr : r ∈ (build c support).records) (h : (build c support).IsCandidate r) :
    (build c support).IsNamesake r := by
  obtain ⟨k, hk⟩ := Option.isSome_iff_exists.mp ((isCandidate_build_iff hr).mp h)
  exact ⟨k.symbol, (node_of_candidate? hk).2, k, mem_candidates_iff.mpr ⟨r, hr, hk⟩, rfl⟩

open Classical in
/-- The candidates are, one for one and in order, the records that they were made from. -/
theorem map_node_candidates (c : HostCompilation) (support : SupportModule) :
    (build c support).candidates.map (·.node) =
      ((build c support).records.filter ((build c support).IsCandidate ·)).map (·.node) := by
  rw [candidates_build]
  refine map_filterMap_eq_map_filter fun r hr => ?_
  rw [isCandidate_build_iff hr]
  cases hk : candidate? (build c support).marker (build c support).interface r with
  | none => simp
  | some k => simp [(node_of_candidate? hk).1]

end DeclarationIndex

namespace IndexListing
variable {i : DeclarationIndex}

theorem isCandidate_iff {l : ListedRecord} (hl : l ∈ ofIndex i) : l.isCandidate ↔ i.IsNamesake l.record := by
  obtain ⟨r, hr, rfl⟩ := List.mem_map.mp hl
  unfold DeclarationIndex.IsNamesake
  cases r.symbol? with
  | none => simp
  | some symbol => simp

theorem map_record_ofIndex (i : DeclarationIndex) : (ofIndex i).map (·.record) = i.records := by
  rw [ofIndex, List.map_map]
  exact List.map_id' _

open Classical in
theorem map_record_candidates (i : DeclarationIndex) :
    (ofIndex i).candidates.map (·.record) = i.records.filter (i.IsNamesake ·) := by
  have hf : (ofIndex i).candidates = (ofIndex i).filter (i.IsNamesake ·.record) :=
    List.filter_congr fun l hl => by simp only [← isCandidate_iff hl, Bool.decide_eq_true]
  rw [hf, ← map_record_ofIndex i, List.filter_map]
  rfl

end IndexListing

/-- What a listing shows as candidates are the records of the candidates, and there are as many. -/
def ListsCandidates (c : HostCompilation) (support : SupportModule) : Prop :=
  let i := DeclarationIndex.build c support
  let listing := IndexListing.ofIndex i
  (∀ l ∈ listing, l.isCandidate ↔ i.IsCandidate l.record) ∧ listing.candidates.length = i.candidates.length

theorem listsCandidates_iff_isNamesake (c : HostCompilation) (support : SupportModule) :
    ListsCandidates c support ↔ ∀ r ∈ (DeclarationIndex.build c support).records,
      ((DeclarationIndex.build c support).IsNamesake r ↔ (DeclarationIndex.build c support).IsCandidate r) := by
  classical
  constructor
  · rintro ⟨h, -⟩ r hr
    rw [← IndexListing.map_record_ofIndex] at hr
    obtain ⟨l, hl, rfl⟩ := List.mem_map.mp hr
    exact (IndexListing.isCandidate_iff hl).symm.trans (h l hl)
  · intro h
    refine ⟨fun l hl => (IndexListing.isCandidate_iff hl).trans (h _ ?_), ?_⟩
    · rw [← IndexListing.map_record_ofIndex]
      exact List.mem_map_of_mem hl
    have hc := congrArg List.length (DeclarationIndex.map_node_candidates c support)
    have hs := congrArg List.length (IndexListing.map_record_candidates (.build c support))
    rw [List.length_map] at hc hs
    rw [hc, hs, List.length_map]
    exact congrArg List.length (List.filter_congr fun r hr => decide_eq_decide.mpr (h r hr))

/-- A listing shows the namesakes of candidates, so every candidate is among them and in its order. It shows the
candidates and nothing else exactly if only candidates have the name of one. -/
theorem listsCandidates_iff (c : HostCompilation) (support : SupportModule) :
    let i := DeclarationIndex.build c support
    let shown := (IndexListing.ofIndex i).candidates
    (∀ r ∈ i.records, i.IsNamesake r ↔ ∃ l ∈ shown, l.record = r) ∧
    (i.candidates.map (·.node)).Sublist (shown.map (·.record.node)) ∧
    (ListsCandidates c support ↔ ∀ r ∈ i.records, i.IsNamesake r → i.IsCandidate r) ∧
    (ListsCandidates c support ↔ shown.map (·.record.node) = i.candidates.map (·.node)) := by
  classical
  intro i shown
  have hs : shown.map (·.record) = i.records.filter (i.IsNamesake ·) := IndexListing.map_record_candidates i
  have hn : shown.map (·.record.node) = (i.records.filter (i.IsNamesake ·)).map (·.node) := by
    rw [← hs, List.map_map]
    rfl
  have hc : i.candidates.map (·.node) = (i.records.filter (i.IsCandidate ·)).map (·.node) :=
    DeclarationIndex.map_node_candidates c support
  have hsub : ∀ r ∈ i.records, i.IsCandidate r → i.IsNamesake r := fun r hr h => h.isNamesake hr
  refine ⟨fun r hr => ?_, ?_, ?_, ?_⟩
  · rw [← List.mem_map (f := ListedRecord.record), hs]
    simp [hr]
  · rw [hn, hc]
    refine List.Sublist.map _ ?_
    have hf : i.records.filter (i.IsCandidate ·) =
        (i.records.filter (i.IsNamesake ·)).filter (i.IsCandidate ·) := by
      rw [List.filter_filter]
      refine List.filter_congr fun r hr => ?_
      simpa using hsub r hr
    rw [hf]
    exact List.filter_sublist
  · rw [listsCandidates_iff_isNamesake]
    exact forall₂_congr fun r hr => ⟨Iff.mp, fun h => ⟨h, hsub r hr⟩⟩
  · rw [listsCandidates_iff_isNamesake, hn, hc, map_filter_eq_map_filter_iff]
    exact fun r hr r' hr' => DeclarationIndex.eq_of_index_eq hr hr'

set_option maxRecDepth 4000 in
/-- A function with the name of a candidate is shown as one. -/
theorem not_listsCandidates : ¬ ∀ c support, ListsCandidates c support := by
  let tree : SourceTree := ⟨"src/lib.rs", "crate",
    "use crate::selfgen_rt::\x7bgenerator, SourceGenerator\x7d;
      #[generator] pub struct S \x7b\x7d impl SourceGenerator for S \x7b\x7d fn S() \x7b\x7d", .e2021, _, rfl⟩
  have hp := ParsedTree.ofTree_eq_ofChars tree String.toList_ofList
  have hn : (DeclarationIndex.build ⟨[tree], .e2021⟩ default).candidates.length = 1 ∧
      (IndexListing.ofIndex (.build ⟨[tree], .e2021⟩ default)).candidates.map (·.record.node.kind) =
        [.struct, .fn] := by
    simp only [DeclarationIndex.build, List.map_cons, List.map_nil, hp]
    decide +kernel
  intro h
  have hl := (h ⟨[tree], .e2021⟩ default).2
  rw [hn.1, ← List.length_map (f := (·.record.node.kind)), hn.2] at hl
  cases hl

end GeneratorHost
