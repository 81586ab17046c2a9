import Mathlib.Data.List.Nodup
import Mathlib.Data.Prod.Lex
import Mathlib.Data.String.Basic
import GeneratorHost.Disk

/-! The order in which the files of a folder are gone through. Each folder is gone through entry by entry in the order
of the names, and a folder in it before the next entry; sorting all paths part by part gives the same order. -/
namespace GeneratorHost

/-! ### The order of paths -/

/-- What decides on the order of two parts. -/
def PathPart.key (part : PathPart) : Nat ×ₗ String := toLex (part.rank, String.ofList part.chars)

theorem PathPart.key_injective : Function.Injective PathPart.key := by
  intro a b h
  obtain ⟨hr, hc⟩ := Prod.mk.inj (toLex.injective h)
  cases a with
  | name cs =>
    cases b with
    | name => exact congrArg _ (String.ofList_injective hc)
    | _ => cases hr
  | _ => cases b <;> first | rfl | cases hr

namespace FilePath

variable {a b c : FilePath}

theorem cons_lessOrEqual_cons {p q : PathPart} :
    lessOrEqual (p :: a) (q :: b) ↔ p.key < q.key ∨ p = q ∧ lessOrEqual a b := by
  rw [lessOrEqual, PathPart.key, PathPart.key, Prod.Lex.toLex_lt_toLex]
  by_cases h : p = q
  · subst h
    simp
  · rw [if_neg h]
    split <;> simp [*]

theorem lessOrEqual_trans (h : lessOrEqual a b) (h' : lessOrEqual b c) : lessOrEqual a c := by
  induction a generalizing b c with
  | nil => rfl
  | cons p as ih =>
    cases b with
    | nil => cases h
    | cons q bs =>
      cases c with
      | nil => cases h'
      | cons r cs =>
        rw [cons_lessOrEqual_cons] at h h' ⊢
        rcases h with h | ⟨rfl, h⟩
        · rcases h' with h' | ⟨rfl, -⟩
          · exact .inl (h.trans h')
          · exact .inl h
        · exact h'.imp_right (And.imp_right (ih h))

theorem lessOrEqual_total (a b : FilePath) : lessOrEqual a b ∨ lessOrEqual b a := by
  induction a generalizing b with
  | nil => exact .inl rfl
  | cons p as ih =>
    cases b with
    | nil => exact .inr rfl
    | cons q bs =>
      rw [cons_lessOrEqual_cons, cons_lessOrEqual_cons]
      rcases lt_trichotomy p.key q.key with h | h | h
      · exact .inl (.inl h)
      · obtain rfl := PathPart.key_injective h
        exact (ih bs).imp (fun h => .inr ⟨rfl, h⟩) (fun h => .inr ⟨rfl, h⟩)
      · exact .inr (.inl h)

theorem lessOrEqual_antisymm (h : lessOrEqual a b) (h' : lessOrEqual b a) : a = b := by
  induction a generalizing b with
  | nil =>
    cases b with
    | nil => rfl
    | cons => cases h'
  | cons p as ih =>
    cases b with
    | nil => cases h
    | cons q bs =>
      rw [cons_lessOrEqual_cons] at h h'
      rcases h with h | ⟨rfl, h⟩
      · rcases h' with h' | ⟨rfl, -⟩
        · exact absurd h' h.asymm
        · exact absurd h (lt_irrefl _)
      · rcases h' with h' | ⟨-, h'⟩
        · exact absurd h' (lt_irrefl _)
        · rw [ih h h']

end FilePath

/-! ### Folders -/

/-- What is in a folder, one entry after the other. -/
inductive FolderTree where
  | nil
  | file (name : List Char) (content : DiskFile) (rest : FolderTree)
  | folder (name : List Char) (inside rest : FolderTree)

namespace FolderTree

def names : FolderTree → List (List Char)
  | nil => []
  | file name _ rest => name :: rest.names
  | folder name _ rest => name :: rest.names

/-- Whether the entries of every folder are in the order of their names, and no two have one name. -/
def Ordered : FolderTree → Prop
  | nil => True
  | file name _ rest => (∀ other ∈ rest.names, String.ofList name < String.ofList other) ∧ rest.Ordered
  | folder name inside rest =>
    (∀ other ∈ rest.names, String.ofList name < String.ofList other) ∧ inside.Ordered ∧ rest.Ordered

/-- The files of a folder by their paths from there, entry by entry, those of a folder in it before the next entry. -/
def walk : FolderTree → List (FilePath × DiskFile)
  | nil => []
  | file name content rest => ([.name name], content) :: rest.walk
  | folder name inside rest => (inside.walk.map fun entry => (.name name :: entry.1, entry.2)) ++ rest.walk

variable {t : FolderTree} {entry : FilePath × DiskFile}

/-- The path of a file begins with the name of an entry. -/
theorem exists_of_mem_walk (h : entry ∈ t.walk) : ∃ name ∈ t.names, ∃ parts, entry.1 = .name name :: parts := by
  induction t with
  | nil => cases h
  | file name content rest ih =>
    rw [walk] at h
    rcases List.mem_cons.mp h with rfl | h
    · exact ⟨name, List.mem_cons_self, [], rfl⟩
    · obtain ⟨other, ho, he⟩ := ih h
      exact ⟨other, List.mem_cons_of_mem _ ho, he⟩
  | folder name inside rest _ ih =>
    rw [walk] at h
    rcases List.mem_append.mp h with h | h
    · obtain ⟨below, -, rfl⟩ := List.mem_map.mp h
      exact ⟨name, List.mem_cons_self, below.1, rfl⟩
    · obtain ⟨other, ho, he⟩ := ih h
      exact ⟨other, List.mem_cons_of_mem _ ho, he⟩

/-- A walk comes to paths in their order, and to each once. -/
def Precedes (a b : FilePath × DiskFile) : Prop := FilePath.lessOrEqual a.1 b.1 ∧ a.1 ≠ b.1

/-- What begins with the name of an entry comes before the files of later entries. -/
theorem precedes_of_mem_walk {name : List Char} {path : FilePath} {content : DiskFile}
    (h : ∀ other ∈ t.names, String.ofList name < String.ofList other) (he : entry ∈ t.walk) :
    Precedes (.name name :: path, content) entry := by
  obtain ⟨other, ho, parts, hp⟩ := exists_of_mem_walk he
  have hlt : (PathPart.name name).key < (PathPart.name other).key := by
    rw [PathPart.key, PathPart.key, Prod.Lex.toLex_lt_toLex]
    exact .inr ⟨rfl, h other ho⟩
  unfold Precedes
  rw [hp]
  refine ⟨FilePath.cons_lessOrEqual_cons.mpr (.inl hlt), fun heq => ?_⟩
  rw [(List.cons.inj heq).1] at hlt
  exact lt_irrefl _ hlt

theorem Ordered.pairwise_walk (h : t.Ordered) : t.walk.Pairwise Precedes := by
  induction t with
  | nil => exact .nil
  | file name content rest ih =>
    exact .cons (fun _ he => precedes_of_mem_walk h.1 he) (ih h.2)
  | folder name inside rest ihi ih =>
    rw [walk, List.pairwise_append, List.pairwise_map]
    refine ⟨(ihi h.2.1).imp fun hab => ?_, ih h.2.2, fun a ha b hb => ?_⟩
    · exact ⟨FilePath.cons_lessOrEqual_cons.mpr (.inr ⟨rfl, hab.1⟩), fun heq => hab.2 (List.cons.inj heq).2⟩
    · obtain ⟨below, -, rfl⟩ := List.mem_map.mp ha
      exact precedes_of_mem_walk h.1 hb

end FolderTree

namespace Disk

variable {d : Disk} {place : FilePath} {t : FolderTree}

/-- A disk has the files of a tree in some place, in any order, and other files elsewhere. -/
def HasTree (d : Disk) (place : FilePath) (t : FolderTree) : Prop :=
  ∃ others, d.files.Perm (t.walk.map (fun entry => (place ++ entry.1, entry.2)) ++ others) ∧
    ∀ entry ∈ others, ¬ place <+: entry.1

theorem pairwise_filesUnder (d : Disk) (place : FilePath) :
    (d.filesUnder place).Pairwise fun a b => FilePath.lessOrEqual a.1 b.1 := by
  unfold filesUnder
  refine List.pairwise_mergeSort (fun a b c => ?_) (fun a b => ?_) _
  · exact FilePath.lessOrEqual_trans
  · exact Bool.or_eq_true_iff.mpr (FilePath.lessOrEqual_total a.1 b.1)

/-- The files that are found in a folder are those that a walk comes to, in that order. -/
theorem HasTree.filesUnder_eq (h : d.HasTree place t) (ht : t.Ordered) : d.filesUnder place = t.walk := by
  obtain ⟨others, hp, ho⟩ := h
  have hwalk := ht.pairwise_walk
  have hperm : (d.filesUnder place).Perm t.walk := by
    refine (List.mergeSort_perm _ _).trans ((hp.filterMap _).trans (.of_eq ?_))
    rw [List.filterMap_append, List.filterMap_map]
    have hn : ∀ entry ∈ t.walk, entry.1 ≠ [] := fun entry he hnil => by
      obtain ⟨name, -, parts, hname⟩ := FolderTree.exists_of_mem_walk he
      exact absurd (hname.symm.trans hnil) (List.cons_ne_nil _ _)
    have ht : t.walk.filterMap some = t.walk := List.filterMap_some
    conv_rhs => rw [← List.append_nil t.walk, ← ht]
    congr 1
    · exact List.filterMap_congr fun entry he => by simp [hn entry he]
    · rw [List.filterMap_eq_nil_iff]
      intro entry he
      simp [ho entry he]
  refine List.Perm.eq_of_pairwise (fun a b ha hb hab hba => ?_) (pairwise_filesUnder d place) (hwalk.imp And.left) hperm
  -- a walk comes to no path twice
  have hpaths : (t.walk.map Prod.fst).Nodup := List.pairwise_map.mpr (hwalk.imp And.right)
  exact List.inj_on_of_nodup_map hpaths (hperm.subset ha) hb (FilePath.lessOrEqual_antisymm hab hba)

end Disk
end GeneratorHost
