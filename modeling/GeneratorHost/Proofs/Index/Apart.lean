import GeneratorHost.Proofs.Grammar.Items
import GeneratorHost.Proofs.Index.Contents

/-! Files that stand apart: none adds a scope for a module or a function body that another adds as well, other
than for the modules around it. What such files say of a scope does not depend on their order. -/
namespace GeneratorHost

theorem flatMap_eq_of_perm {α β : Type} {f : α → List β} {l l' : List α} (h : l.Perm l')
    (hu : l.Pairwise fun a b => f a = [] ∨ f b = []) : l'.flatMap f = l.flatMap f := by
  induction h with
  | nil => rfl
  | cons a h ih =>
    rw [List.pairwise_cons] at hu
    rw [List.flatMap_cons, List.flatMap_cons, ih hu.2]
  | swap a b l =>
    rw [List.pairwise_cons, List.forall_mem_cons] at hu
    rcases hu.1.1 with h | h <;> simp [h]
  | trans h _ ih ih' => rw [ih' ((h.pairwise_iff Or.symm).mp hu), ih hu]

namespace ScopeFact

/-- The module that a fact adds. -/
def module? : ScopeFact → Option String
  | module name => some name
  | _ => none

/-- The scope that a fact adds for the body of a function. -/
def body? : ScopeFact → Option String
  | body scope name => some (qualify scope name)
  | _ => none

end ScopeFact

/-- A trait is kept under its name in its scope. -/
theorem Head.traitFact?_eq_some {head : Head} (hn : head.WellNamed) {scope path : String} {fact : TraitFact}
    (h : head.traitFact? scope = some (path, fact)) :
    ∃ name, IsItemName name ∧ path = qualify fact.scope name := by
  cases head with
  | trait name bounds | traitAlias name bounds =>
    cases h
    exact ⟨name, hn, rfl⟩
  | _ => cases h

namespace Index.ParsedTree
open Declaration

/-- What the collector finds in the declarations of a tree. -/
def declared (p : ParsedTree) : List ScopeFact := p.file?.elim [] (Declaration.facts <| collectedAll p.tree.module ·.items)

/-- The modules that a tree adds: that of its file, those around it, and those inside it. -/
def moduleScopes (p : ParsedTree) : List String :=
  (ScopeTable.fileFacts p.tree.module p.file?).filterMap ScopeFact.module?

/-- The scopes of function bodies that a tree adds. -/
def bodyScopes (p : ParsedTree) : List String := p.declared.filterMap ScopeFact.body?

/-- The scopes that the declarations of a tree add, those of modules and those of function bodies. -/
def innerScopes (p : ParsedTree) : List String := addedScopes p.declared

/-- Trees in modules of their own, where no function body shares the scope of a module, and nothing inside one
tree shares the scope of another file or of anything inside it. -/
structure Apart (ps : List ParsedTree) : Prop where
  modules : ps.Pairwise fun p q => p.tree.module ≠ q.tree.module
  bodies : ∀ p ∈ ps, ∀ q ∈ ps, ∀ scope ∈ p.bodyScopes, scope ∉ q.moduleScopes
  inner : ∀ p ∈ ps, ∀ q ∈ ps, p.tree.module ≠ q.tree.module →
    ∀ scope ∈ p.innerScopes, scope ≠ q.tree.module ∧ scope ∉ q.innerScopes

/-- A scope that is the module of a file, or that its declarations add. -/
def Holds (p : ParsedTree) (scope : String) : Prop := scope = p.tree.module ∨ scope ∈ p.innerScopes

variable {ps qs : List ParsedTree} {p : ParsedTree} {scope : String}

theorem holds_of_around? {f : ScopeFact} (hf : f ∈ p.declared) (ha : f.around? = some scope) : p.Holds scope := by
  unfold declared at hf
  cases hp : p.file? with
  | none => simp [hp] at hf
  | some file =>
    rw [hp] at hf
    have := around?_of_mem_collectedAll hf ha
    rwa [Holds, innerScopes, declared, hp]

theorem holds_of_bodyScopes (h : scope ∈ p.bodyScopes) : p.Holds scope := by
  obtain ⟨f, hf, hs⟩ := List.mem_filterMap.mp h
  refine .inr (List.mem_filterMap.mpr ⟨f, hf, ?_⟩)
  cases f with
  | body => exact hs
  | _ => cases hs

/-- A scope is held by one file. -/
theorem Apart.module_eq (ha : Apart ps) {p q : ParsedTree} (hp : p ∈ ps) (hq : q ∈ ps) (h : p.Holds scope)
    (h' : q.Holds scope) : p.tree.module = q.tree.module := by
  by_contra hm
  obtain rfl | hs := h <;> obtain hq' | hs' := h'
  · exact hm hq'
  · exact (ha.inner q hq p hp (Ne.symm hm) _ hs').1 rfl
  · exact (ha.inner p hp q hq hm _ hs).1 hq'
  · exact (ha.inner p hp q hq hm _ hs).2 hs'

/-- What only the file that holds a scope says stays in place under any order of the files. -/
theorem filterMap_facts_eq {α : Type} {g : ScopeFact → Option α} (hp : ps.Perm qs) (ha : Apart ps) (scope : String)
    (hg : ∀ p ∈ ps, ¬ p.Holds scope → (ScopeTable.fileFacts p.tree.module p.file?).filterMap g = []) :
    (facts qs).filterMap g = (facts ps).filterMap g := by
  rw [facts, facts, List.filterMap_flatMap, List.filterMap_flatMap]
  refine flatMap_eq_of_perm hp (ha.modules.imp_of_mem fun {p q} hp hq hm => ?_)
  by_cases h : p.Holds scope
  · exact .inr (hg q hq fun h' => hm (ha.module_eq hp hq h h'))
  · exact .inl (hg p hp h)

theorem mem_fileFacts {f : ScopeFact} :
    f ∈ ScopeTable.fileFacts p.tree.module p.file? ↔
      f ∈ ScopeTable.moduleFactsUpTo (p.tree.module.length + 1) p.tree.module ∨ f ∈ p.declared :=
  List.mem_append

/-- The modules around a file add modules and items alone. -/
theorem mem_declared {f : ScopeFact} (hf : f ∈ ScopeTable.fileFacts p.tree.module p.file?)
    (hm : ∀ name, f ≠ .module name) (hi : ∀ outer name, f ≠ .item outer name) : f ∈ p.declared := by
  refine (mem_fileFacts.mp hf).resolve_left fun h => ?_
  rcases ScopeTable.mem_moduleFactsUpTo h with ⟨name, rfl⟩ | ⟨outer, name, rfl⟩
  · exact hm name rfl
  · exact hi outer name rfl

/-- The imports of a scope stand in the file that holds it. -/
theorem filterMap_fileFacts_eq_nil {α : Type} {g : ScopeFact → Option α} (hp : ¬ p.Holds scope)
    (hg : ∀ f, g f ≠ none → (∃ name target, f = .binding scope name target) ∨ ∃ target, f = .glob scope target) :
    (ScopeTable.fileFacts p.tree.module p.file?).filterMap g = [] := by
  rw [List.filterMap_eq_nil_iff]
  intro f hf
  by_contra hne
  rcases hg f hne with ⟨name, target, rfl⟩ | ⟨target, rfl⟩
  · exact hp (holds_of_around? (mem_declared hf (by simp) (by simp)) rfl)
  · exact hp (holds_of_around? (mem_declared hf (by simp) (by simp)) rfl)

/-- The scope of a function's body is opened by the file that holds it. -/
theorem opens?_eq_none {f : ScopeFact} (hp : ¬ p.Holds scope) (hm : scope ∉ p.moduleScopes)
    (hf : f ∈ ScopeTable.fileFacts p.tree.module p.file?) : f.opens? scope = none := by
  have hmod (name : String) (h : .module name ∈ ScopeTable.fileFacts p.tree.module p.file?) : name ≠ scope := by
    rintro rfl
    exact hm (List.mem_filterMap.mpr ⟨_, h, rfl⟩)
  cases f with
  | module name => exact if_neg (hmod name hf)
  | body outer name =>
    refine if_neg ?_
    rintro rfl
    have hd := mem_declared hf (by simp) (by simp)
    exact hp (holds_of_bodyScopes (List.mem_filterMap.mpr ⟨_, hd, rfl⟩))
  | item outer name =>
    refine if_neg ?_
    rcases mem_fileFacts.mp hf with h | h
    · exact hmod outer (mem_fileFacts.mpr (.inl (ScopeTable.module_mem_moduleFactsUpTo (Nat.lt_succ_self _) h)))
    · rintro rfl
      exact hp (holds_of_around? h rfl)
  | binding | glob =>
    refine if_neg ?_
    rintro rfl
    exact hp (holds_of_around? (mem_declared hf (by simp) (by simp)) rfl)
  | _ => rfl

/-- A scope that is no body of a function is only ever opened as one that falls back to none. -/
theorem opens?_of_not_mem_bodyScopes {f : ScopeFact} (hb : scope ∉ p.bodyScopes)
    (hf : f ∈ ScopeTable.fileFacts p.tree.module p.file?) {place : Option String}
    (h : f.opens? scope = some place) : place = none := by
  cases f with
  | body outer name =>
    rw [ScopeFact.opens?, ite_eq_iff] at h
    obtain ⟨rfl, -⟩ | ⟨-, h⟩ := h
    · have hd := mem_declared hf (by simp) (by simp)
      exact (hb (List.mem_filterMap.mpr ⟨_, hd, rfl⟩)).elim
    · cases h
  | _ => grind [ScopeFact.opens?]

theorem perm_facts (hp : ps.Perm qs) : (facts ps).Perm (facts qs) := hp.flatMap_right _

/-- The scope of a body is opened by one file alone; any other scope is opened in the same way by all. -/
theorem place?_table_of_perm (hp : ps.Perm qs) (ha : Apart ps) (scope : String) :
    (table qs).place? scope = (table ps).place? scope := by
  rw [place?_table, place?_table]
  -- Only the scope of a body can be opened in two ways, so only there it matters which fact comes first.
  by_cases hb : ∃ p ∈ ps, scope ∈ p.bodyScopes
  · obtain ⟨p, hps, hb⟩ := hb
    rw [filterMap_facts_eq hp ha scope]
    intro q hq hs
    rw [List.filterMap_eq_nil_iff]
    exact fun f hf => opens?_eq_none hs (ha.bodies p hps q hq scope hb) hf
  · have h : (facts ps).filterMap (ScopeFact.opens? scope) =
        List.replicate ((facts ps).filterMap (ScopeFact.opens? scope)).length none := by
      rw [List.eq_replicate_iff]
      refine ⟨rfl, fun place hm => ?_⟩
      obtain ⟨f, hf, ho⟩ := List.mem_filterMap.mp hm
      obtain ⟨p, hps, hf⟩ := List.mem_flatMap.mp hf
      exact opens?_of_not_mem_bodyScopes (fun hs => hb ⟨p, hps, hs⟩) hf ho
    have hq := (perm_facts hp).symm.filterMap (ScopeFact.opens? scope)
    rw [h, List.perm_replicate] at hq
    rw [hq, ← h]

/-- Tables of files that stand apart hold the same at every scope, whatever the order of the files. -/
theorem alikeAt_of_perm (hp : ps.Perm qs) (ha : Apart ps) (scope : String) :
    ScopeTable.AlikeAt (table ps) (table qs) scope := by
  have himports {α : Type} {g : ScopeFact → Option α} (hg : ∀ f, g f ≠ none →
      (∃ name target, f = .binding scope name target) ∨ ∃ target, f = .glob scope target) :
      (facts qs).filterMap g = (facts ps).filterMap g :=
    filterMap_facts_eq hp ha scope fun p _ hs => filterMap_fileFacts_eq_nil hs hg
  refine alikeAt_table ?_ (place?_table_of_perm hp ha scope) (fun name => ?_) (himports ?_) (himports ?_)
  · exact ScopeTable.moduleOf_eq_of_place? (rooted_table ps) (rooted_table qs) (P := fun _ => True)
      (fun _ _ => trivial) (fun _ => place?_table_of_perm hp ha _) trivial
  · exact ((perm_facts hp).filterMap (ScopeFact.item? scope)).symm.mem_iff
  · intro f h
    cases f <;> grind [ScopeFact.binding?]
  · intro f h
    cases f <;> grind [ScopeFact.glob?]

theorem resolve_table_of_perm (hp : ps.Perm qs) (ha : Apart ps) : (table qs).resolve = (table ps).resolve := by
  funext scope path
  exact ScopeTable.resolveWithin_eq_of_alikeAt (shareFuel_table ps qs) fun _ _ => alikeAt_of_perm hp ha _

/-! ### Traits -/

/-- A trait is kept by its path, in the file that holds the scope that the path tells. -/
theorem holds_of_trait {tree : SourceTree} {path : String} {fact : TraitFact}
    (h : .trait path fact ∈ ScopeTable.fileFacts tree.module (ofTree tree).file?) :
    parentModule? path = some fact.scope ∧ (ofTree tree).Holds fact.scope := by
  have hd : .trait path fact ∈ (ofTree tree).declared := mem_declared h (by simp) (by simp)
  refine ⟨?_, holds_of_around? hd rfl⟩
  unfold declared at hd
  cases hf : (ofTree tree).file? with
  | none => simp [hf] at hd
  | some file =>
    rw [hf] at hd
    obtain ⟨⟨scope, d⟩, hx, ht⟩ := List.mem_flatMap.mp hd
    obtain ⟨item, hi, hx⟩ := mem_nestedAll.mp hx
    have hw := ((SourceFile.ofText?_items hf item hi).formed.of_mem_nested hx).named
    have ht : (path, fact) ∈ (d.head.facts scope).filterMap ScopeFact.trait? := List.mem_filterMap.mpr ⟨_, ht, rfl⟩
    rw [filterMap_trait?_headFacts, Option.mem_toList] at ht
    obtain ⟨name, hn, rfl⟩ := Head.traitFact?_eq_some hw ht
    exact parentModule?_qualify fact.scope (colon_not_mem_of_isIdentifier hn.identifier)

theorem trait?_table_of_perm {trees trees' : List SourceTree} (hp : trees.Perm trees')
    (ha : Apart (trees.map ofTree)) : (table (trees'.map ofTree)).trait? = (table (trees.map ofTree)).trait? := by
  funext name
  rw [trait?_table_facts, trait?_table_facts, lastNamed, lastNamed, List.filter_filterMap, List.filter_filterMap]
  congr 2
  -- A path that no trait of the files can have leads to no scope; any one does then.
  refine filterMap_facts_eq (hp.map ofTree) ha ((parentModule? name).getD "") fun p hp hs => ?_
  obtain ⟨tree, -, rfl⟩ := List.mem_map.mp hp
  rw [List.filterMap_eq_nil_iff]
  intro f hf
  cases f with
  | trait path fact =>
    obtain ⟨hp, hs'⟩ := holds_of_trait hf
    have hn : path ≠ name := by
      rintro rfl
      rw [hp] at hs
      exact hs hs'
    simp [ScopeFact.trait?, hn]
  | _ => rfl

end Index.ParsedTree

/-! ### Answers -/

namespace ScopeTable

/-- Tables that answer every question alike. -/
structure SameAnswers (t u : ScopeTable) : Prop where
  resolve : u.resolve = t.resolve
  canonicalize : u.canonicalize = t.canonicalize
  interfacesOf : u.interfacesOf = t.interfacesOf
  supertraitsOf : u.supertraitsOf = t.supertraitsOf
  moduleOf : u.moduleOf = t.moduleOf
  hasScope : u.hasScope = t.hasScope

variable {t u : ScopeTable}

theorem SameAnswers.refl (t : ScopeTable) : t.SameAnswers t := ⟨rfl, rfl, rfl, rfl, rfl, rfl⟩

theorem canonicalize_congr (h : u.resolve = t.resolve) : u.canonicalize = t.canonicalize := by
  funext path
  rw [canonicalize, h, canonicalize]

theorem directSupertraits_congr (hr : u.resolve = t.resolve) (ht : u.trait? = t.trait?) :
    u.directSupertraits = t.directSupertraits := by
  funext trait
  rw [directSupertraits, hr, ht, directSupertraits]

end ScopeTable

namespace Index.ParsedTree
open Declaration

variable {trees trees' : List SourceTree}

theorem perm_collected {ps qs : List ParsedTree} (hp : ps.Perm qs) : (collected ps).Perm (collected qs) :=
  hp.flatMap_right _

theorem implements_of_perm {ps qs : List ParsedTree} (hp : ps.Perm qs) (ha : Apart ps) :
    Implements qs (collected qs) = Implements ps (collected ps) := by
  have hi : (implFacts (collected ps)).Perm (implFacts (collected qs)) := (perm_collected hp).filterMap _
  funext type trait
  simp only [Implements, resolve_table_of_perm hp ha, hi.mem_iff]

/-- Tables of files that stand apart answer alike, whatever the order of the files. -/
theorem sameAnswers_of_perm (hp : trees.Perm trees') (ha : Apart (trees.map ofTree)) :
    (table (trees.map ofTree)).SameAnswers (table (trees'.map ofTree)) := by
  have hm := hp.map ofTree
  have hr := resolve_table_of_perm hm ha
  have hs := ScopeTable.directSupertraits_congr hr (trait?_table_of_perm hp ha)
  refine ⟨hr, ScopeTable.canonicalize_congr hr, ?_, ?_, ?_, ?_⟩
  · funext type
    have hd : Demands (trees'.map ofTree) (collected (trees'.map ofTree)) =
        Demands (trees.map ofTree) (collected (trees.map ofTree)) := by
      funext trait bound
      exact propext (mem_directSupertraits.symm.trans (hs ▸ mem_directSupertraits))
    refine ScopeTable.traitClosure_eq fun x => ?_
    exact mem_interfacesOf.trans (implements_of_perm hm ha ▸ hd ▸ mem_interfacesOf.symm)
  · funext trait
    refine congrArg (List.filter _) (ScopeTable.traitClosure_eq fun x => ?_)
    rw [ScopeTable.mem_traitClosure, ScopeTable.mem_traitClosure, hs]
  · funext scope
    exact (alikeAt_of_perm hm ha scope).module
  · funext scope
    rw [ScopeTable.hasScope_eq, place?_table_of_perm hm ha, ScopeTable.hasScope_eq]

end Index.ParsedTree
end GeneratorHost
