import Mathlib.Data.Nat.Find
import GeneratorHost.Proofs.Index.Placement

/-! An index is a pre-order listing: the records of a tree stand together behind that of its file, and what is inside
a node stands right behind it. -/
namespace GeneratorHost.Index

variable {t : ScopeTable} {tree : SourceTree} {base? : Option Nat} {index : Nat} {rs rs' : List Record} {r x y : Record}

/-! ### Numbers -/

namespace Numbered

theorem index_mem (h : Numbered index rs) (hr : r ∈ rs) :
    index ≤ r.node.index ∧ r.node.index < index + rs.length := by
  rw [← List.mem_range'_1, ← h]
  exact List.mem_map_of_mem hr

theorem exists_index_eq (h : Numbered index rs) {k : Nat} (hk : index ≤ k) (hl : k < index + rs.length) :
    ∃ r ∈ rs, r.node.index = k := by
  have hm : k ∈ rs.map (·.node.index) := by
    rw [h]
    exact List.mem_range'_1.mpr ⟨hk, hl⟩
  exact List.mem_map.mp hm

end Numbered

/-! ### Stack discipline -/

/-- Records numbered from an index on, each below the base or below an earlier one of them. Between a node and the
node around it, nothing hangs from further out. -/
structure Hangs (base? : Option Nat) (index : Nat) (rs : List Record) : Prop where
  numbered : Numbered index rs
  parent : ∀ x ∈ rs, x.node.parent? = base? ∨ ∃ p, x.node.parent? = some p ∧ index ≤ p ∧ p < x.node.index
  within : ∀ x ∈ rs, ∀ y ∈ rs, ∀ p, x.node.parent? = some p → p < y.node.index → y.node.index < x.node.index →
    ∃ q, y.node.parent? = some q ∧ p ≤ q

namespace Hangs

theorem nil (base? : Option Nat) (index : Nat) : Hangs base? index [] where
  numbered := .nil index
  parent := by simp
  within := by simp

/-- A node and what hangs from it. -/
theorem cons (hi : r.node.index = index) (hp : r.node.parent? = base?)
    (h : Hangs (some index) (index + 1) rs) : Hangs base? index (r :: rs) where
  numbered := .cons hi h.numbered
  parent := by
    rw [List.forall_mem_cons]
    refine ⟨.inl hp, fun x hx => .inr ?_⟩
    have hx' := h.numbered.index_mem hx
    obtain hx | ⟨p, hx, hl, hlt⟩ := h.parent x hx
    · exact ⟨index, hx, Nat.le_refl _, by omega⟩
    · exact ⟨p, hx, by omega, hlt⟩
  within := by
    intro x hx y hy p hxp hpy hyx
    rw [List.mem_cons] at hx hy
    rcases hx with rfl | hx
    · -- nothing stands before the node itself
      rcases hy with rfl | hy
      · omega
      · have := h.numbered.index_mem hy
        omega
    · rcases hy with rfl | hy
      · obtain hx | ⟨q, hx, hl, -⟩ := h.parent x hx <;> rw [hx, Option.some.injEq] at hxp <;> omega
      · exact h.within x hx y hy p hxp hpy hyx

/-- What hangs from the same base, one after the other. -/
theorem append (hb : ∀ b ∈ base?, b < index) (h : Hangs base? index rs)
    (h' : Hangs base? (index + rs.length) rs') : Hangs base? index (rs ++ rs') where
  numbered := h.numbered.append h'.numbered
  parent := by
    simp only [List.mem_append]
    rintro x (hx | hx)
    · exact h.parent x hx
    · obtain hx | ⟨p, hx, hl, hlt⟩ := h'.parent x hx
      · exact .inl hx
      · exact .inr ⟨p, hx, by omega, hlt⟩
  within := by
    simp only [List.mem_append]
    rintro x (hx | hx) y (hy | hy) p hxp hpy hyx
    · exact h.within x hx y hy p hxp hpy hyx
    · have := h.numbered.index_mem hx
      have := h'.numbered.index_mem hy
      omega
    · -- a later node can only hang from the base, as then does the earlier one, or from further in
      have hy' := h.numbered.index_mem hy
      obtain hx | ⟨q, hx, hl, -⟩ := h'.parent x hx
      · have hp : p < index := hb p (by rw [← hx, hxp]; rfl)
        obtain hq | ⟨q, hq, hl, -⟩ := h.parent y hy
        · exact ⟨p, by rw [hq, ← hx, hxp], Nat.le_refl p⟩
        · exact ⟨q, hq, by omega⟩
      · rw [hx, Option.some.injEq] at hxp
        omega
    · exact h'.within x hx y hy p hxp hpy hyx

end Hangs

mutual

/-- A walk hangs from the node it stands below. -/
theorem hangs_walk {s : Surroundings} {index : Nat} (d : Declaration) :
    Hangs (some s.parent) index (walk t tree s index d) := by
  obtain ⟨head, extent, attributes, header, body⟩ := d
  rw [walk_eq]
  have hb : Hangs (some (s.inside t index head).parent) (index + 1)
      (walkAll t tree (s.inside t index head) (index + 1) body) := hangs_walkAll body (by simp)
  rw [Surroundings.inside_parent] at hb
  exact .cons rfl rfl hb

theorem hangs_walkAll {s : Surroundings} {index : Nat} (ds : List Declaration) (hi : s.parent < index) :
    Hangs (some s.parent) index (walkAll t tree s index ds) := by
  cases ds with
  | nil =>
    rw [walkAll]
    exact .nil _ _
  | cons d ds =>
    rw [walkAll]
    exact .append (by simpa using hi) (hangs_walk d) (hangs_walkAll ds (by omega))

end

namespace ParsedTree

theorem hangs_records (t : ScopeTable) (index : Nat) (p : ParsedTree) : Hangs none index (p.records t index) := by
  rw [records]
  refine .cons rfl rfl ?_
  cases p.file? with
  | none => exact .nil _ _
  | some file => exact hangs_walkAll (s := ⟨p.tree.module, none, index⟩) file.items (Nat.lt_succ_self index)

theorem hangs_allRecords (t : ScopeTable) (index : Nat) (ps : List ParsedTree) :
    Hangs none index (allRecords t index ps) := by
  induction ps generalizing index with
  | nil => exact .nil _ _
  | cons p ps ih =>
    rw [allRecords]
    exact .append (by simp) (hangs_records t index p) (ih _)

end ParsedTree

/-! ### What is inside a node -/

namespace Hangs

/-- The node around a node comes before it. -/
theorem parent_lt (h : Hangs none index rs) (hx : x ∈ rs) {p : Nat} (hp : x.node.parent? = some p) :
    p < x.node.index := by
  obtain hn | ⟨q, hq, -, hl⟩ := h.parent x hx
  · rw [hn] at hp
    cases hp
  · rw [hq, Option.some.injEq] at hp
    omega

theorem index_lt_of_encloses (h : Hangs none index rs) (hx : x ∈ rs) (he : Encloses rs r x) :
    r.node.index < x.node.index := by
  induction he using Relation.TransGen.head_induction_on with
  | single hs => exact h.parent_lt hx hs.2
  | head hs he ih => exact Nat.lt_trans (h.parent_lt (mem_of_encloses he) hs.2) ih

/-- Up to the last node inside another, every node hangs from that one or from further in. -/
private theorem parent_of_encloses (h : Hangs none index rs) (hx : x ∈ rs) (he : Encloses rs r x) (hy : y ∈ rs)
    (hl : r.node.index < y.node.index) (hu : y.node.index ≤ x.node.index) :
    ∃ q, y.node.parent? = some q ∧ r.node.index ≤ q := by
  -- `y` is `x`, or stands below a link of the chain down to `x` and before the next
  induction he with
  | single hs =>
    rcases Nat.lt_or_eq_of_le hu with hu | hu
    · exact h.within _ hx y hy _ hs.2 hl hu
    · rw [h.numbered.eq_of_index_eq hy hx hu]
      exact ⟨_, hs.2, Nat.le_refl _⟩
  | @tail m x he hs ih =>
    have hm := h.index_lt_of_encloses hs.1 he
    rcases Nat.lt_or_ge m.node.index y.node.index with hmy | hmy
    · rcases Nat.lt_or_eq_of_le hu with hu | hu
      · obtain ⟨q, hq, hle⟩ := h.within x hx y hy _ hs.2 hmy hu
        exact ⟨q, hq, by omega⟩
      · rw [h.numbered.eq_of_index_eq hy hx hu]
        exact ⟨_, hs.2, by omega⟩
    · exact ih hs.1 hmy

/-- All nodes up to the last one inside a node are inside it. -/
theorem encloses_of_le (h : Hangs none index rs) (hr : r ∈ rs) (hx : x ∈ rs) (he : Encloses rs r x) (hy : y ∈ rs)
    (hl : r.node.index < y.node.index) (hu : y.node.index ≤ x.node.index) : Encloses rs r y := by
  induction hn : y.node.index using Nat.strong_induction_on generalizing y with
  | _ n ih =>
    subst hn
    obtain ⟨q, hq, hle⟩ := h.parent_of_encloses hx he hy hl hu
    have hqy := h.parent_lt hy hq
    obtain ⟨o, ho, rfl⟩ := h.numbered.exists_index_eq (k := q)
      (Nat.le_trans (h.numbered.index_mem hr).1 hle) (Nat.lt_trans hqy (h.numbered.index_mem hy).2)
    rcases Nat.lt_or_eq_of_le hle with hlt | heq
    · exact (ih _ hqy ho hlt (by omega) rfl).tail ⟨ho, hq⟩
    · rw [h.numbered.eq_of_index_eq hr ho heq]
      exact .single ⟨ho, hq⟩

/-- The nodes inside a node are a run of nodes right behind it. -/
theorem exists_encloses_iff (h : Hangs none 0 rs) (hr : r ∈ rs) :
    ∃ n, ∀ x ∈ rs, Encloses rs r x ↔ r.node.index < x.node.index ∧ x.node.index ≤ r.node.index + n := by
  classical
  let reached (n : Nat) : Prop := ∃ x ∈ rs, Encloses rs r x ∧ x.node.index = r.node.index + n
  refine ⟨Nat.findGreatest reached rs.length, fun x hx => ⟨fun he => ?_, fun ⟨hl, hu⟩ => ?_⟩⟩
  · have hl := h.index_lt_of_encloses hx he
    have hx' := h.numbered.index_mem hx
    have hn : x.node.index - r.node.index ≤ Nat.findGreatest reached rs.length :=
      Nat.le_findGreatest (by omega) ⟨x, hx, he, by omega⟩
    omega
  · obtain ⟨last, hm, he, hlast⟩ : reached (Nat.findGreatest reached rs.length) :=
      Nat.findGreatest_of_ne_zero rfl (by omega)
    exact h.encloses_of_le hr hm he hx hl (by omega)

end Hangs

/-! ### Blocks -/

/-- The records of a tree: first that of the file, which is the only one below none. -/
structure IsBlock (tree : SourceTree) (block : List Record) : Prop where
  tree : ∀ r ∈ block, r.node.tree = tree
  root : ∃ root rest, block = root :: rest ∧ root.node.kind = .file ∧ root.node.parent? = none ∧
    ∀ r ∈ rest, r.node.kind ≠ .file
  parent : ∀ r ∈ block, r.node.kind ≠ .file →
    ∃ p ∈ block, r.node.parent? = some p.node.index ∧ p.node.index < r.node.index

/-- A pre-order listing of the nodes of trees. -/
structure IsListing (trees : List SourceTree) (rs : List Record) : Prop where
  position : ∀ i (r : Record), rs[i]? = some r → r.node.index = i
  blocks : ∃ blocks, rs = blocks.flatten ∧ List.Forall₂ IsBlock trees blocks
  inside : ∀ r ∈ rs, ∃ n, ∀ x ∈ rs,
    Encloses rs r x ↔ r.node.index < x.node.index ∧ x.node.index ≤ r.node.index + n

theorem kind_ne_file (head : Head) : head.kind ≠ .file := by
  cases head <;> exact Kind.noConfusion

theorem IsBlock.cons {root : Record} (hr : root.node.tree = tree ∧ root.node.kind = .file ∧ root.node.parent? = none)
    (hm : ∀ r ∈ rs, r.node.tree = tree ∧ r.node.kind ≠ .file ∧ r.node.parent? ≠ none)
    (h : Hangs none index (root :: rs)) : IsBlock tree (root :: rs) where
  tree := List.forall_mem_cons.mpr ⟨hr.1, fun r hr => (hm r hr).1⟩
  root := ⟨root, rs, rfl, hr.2.1, hr.2.2, fun r hr => (hm r hr).2.1⟩
  parent := by
    rw [List.forall_mem_cons]
    refine ⟨fun hk => absurd hr.2.1 hk, fun r hmem _ => ?_⟩
    have hmem' := List.mem_cons_of_mem root hmem
    obtain hn | ⟨q, hq, hl, hlt⟩ := h.parent r hmem'
    · exact absurd hn (hm r hmem).2.2
    · obtain ⟨o, ho, rfl⟩ := h.numbered.exists_index_eq hl (Nat.lt_trans hlt (h.numbered.index_mem hmem').2)
      exact ⟨o, ho, hq, hlt⟩

namespace ParsedTree

theorem isBlock_records (t : ScopeTable) (index : Nat) (p : ParsedTree) : IsBlock p.tree (p.records t index) := by
  have hh := hangs_records t index p
  unfold records at hh ⊢
  cases hf : p.file? with
  | none =>
    rw [hf] at hh
    exact .cons ⟨rfl, rfl, rfl⟩ (List.forall_mem_nil _) hh
  | some file =>
    rw [hf] at hh
    refine .cons ⟨rfl, rfl, rfl⟩ (fun r hr => ?_) hh
    obtain ⟨s, d, -, he⟩ := exists_madeFrom_walkAll file.items hr
    rw [he]
    exact ⟨rfl, kind_ne_file d.head, Option.some_ne_none _⟩

theorem exists_blocks (t : ScopeTable) (index : Nat) (ps : List ParsedTree) :
    ∃ blocks, allRecords t index ps = blocks.flatten ∧ List.Forall₂ IsBlock (ps.map (·.tree)) blocks := by
  induction ps generalizing index with
  | nil => exact ⟨[], rfl, .nil⟩
  | cons p ps ih =>
    obtain ⟨blocks, hb, hf⟩ := ih (index + (p.records t index).length)
    refine ⟨p.records t index :: blocks, ?_, .cons (isBlock_records t index p) hf⟩
    rw [allRecords, hb, List.flatten_cons]

theorem isListing_allRecords (t : ScopeTable) (ps : List ParsedTree) :
    IsListing (ps.map (·.tree)) (allRecords t 0 ps) where
  position := by
    intro i r hr
    have hi := congrArg (·[i]?) (numbered_allRecords (t := t) 0 ps)
    rw [List.getElem?_map, hr, List.getElem?_range' (List.getElem?_eq_some_iff.mp hr).1] at hi
    simpa using hi
  blocks := exists_blocks t 0 ps
  inside := fun _ hr => (hangs_allRecords t 0 ps).exists_encloses_iff hr

end ParsedTree
end GeneratorHost.Index
