import GeneratorHost.Proofs.Grammar.Items
import GeneratorHost.Proofs.Scope.Tree

/-! Resolution as a derivation, with no bound on the loops. Only the levels of imports are counted, so a loop
without an end derives nothing. In a table whose scopes fall back to shorter names every part of a resolution has
a derivation, and what is derived is what the bounded functions give. -/
namespace GeneratorHost.ScopeTable

/-! ### Parts of a resolution -/

/-- A part of a resolution, with so many levels of imports left. -/
inductive Task where
  /-- A path as written in a scope. -/
  | path (left : Nat) (scope : String) (path : Path) (skip? : Option String)
  /-- Segments behind a resolved module. -/
  | rest (left : Nat) (current : String) (segments : List String)
  /-- A name in a scope and in the scopes that it falls back to. -/
  | chain (left : Nat) (scope name : String) (skip? : Option String)
  /-- A name in a single scope. -/
  | name (left : Nat) (scope name : String) (skip? : Option String)
  /-- A name in what glob imports of a scope lead to, in turn. -/
  | globs (left : Nat) (scope name : String) (paths : List Path)

/-- What the bounded functions give. -/
def Task.value (t : ScopeTable) : Task → Option String
  | path left scope written skip? => resolveUnder t left scope written skip?
  | rest left current segments => descend (lookupLocal t left) current segments
  | chain left scope shown skip? => lookupChain (lookupLocal t left) t shown (t.scopes.length + 1) scope skip?
  | name left scope shown skip? => lookupLocal t left scope shown skip?
  | globs left scope shown paths => paths.findSome? (globbed t left scope shown)

/-- The import of a name that a scope follows. -/
def followed? (t : ScopeTable) (scope name : String) (skip? : Option String) : Option Path :=
  if skip? = some name then none else t.imported? scope name

/-- A part of a resolution comes to an end with an answer, or with none. -/
inductive Evaluates (t : ScopeTable) : Task → Option String → Prop
  | path_cut {scope path skip?} : Evaluates t (.path 0 scope path skip?) none
  | path_empty {left scope isGlobal skip?} : Evaluates t (.path (left + 1) scope ⟨isGlobal, []⟩ skip?) none
  | path_global {left scope first rest skip?} :
      Evaluates t (.path (left + 1) scope ⟨true, first :: rest⟩ skip?) (some (join first rest))
  | path_crate {left scope rest skip? found?} (behind : Evaluates t (.rest (left + 1) "crate" rest) found?) :
      Evaluates t (.path (left + 1) scope ⟨false, "crate" :: rest⟩ skip?) found?
  | path_self {left scope rest skip? found?} (behind : Evaluates t (.rest (left + 1) (t.moduleOf scope) rest) found?) :
      Evaluates t (.path (left + 1) scope ⟨false, "self" :: rest⟩ skip?) found?
  | path_super {left scope rest skip? parent found?} (up : parentModule? (t.moduleOf scope) = some parent)
      (behind : Evaluates t (.rest (left + 1) parent rest) found?) :
      Evaluates t (.path (left + 1) scope ⟨false, "super" :: rest⟩ skip?) found?
  | path_root {left scope rest skip?} (up : parentModule? (t.moduleOf scope) = none) :
      Evaluates t (.path (left + 1) scope ⟨false, "super" :: rest⟩ skip?) none
  | path_name {left scope first rest skip? found found?} (plain : first ∉ ["crate", "self", "super"])
      (here : Evaluates t (.chain (left + 1) scope first skip?) (some found))
      (behind : Evaluates t (.rest (left + 1) found rest) found?) :
      Evaluates t (.path (left + 1) scope ⟨false, first :: rest⟩ skip?) found?
  | path_literal {left scope first rest skip?} (plain : first ∉ ["crate", "self", "super"])
      (here : Evaluates t (.chain (left + 1) scope first skip?) none) :
      Evaluates t (.path (left + 1) scope ⟨false, first :: rest⟩ skip?) (some (join first rest))
  | rest_nil {left current} : Evaluates t (.rest left current []) (some current)
  | rest_super {left current rest parent found?} (up : parentModule? current = some parent)
      (behind : Evaluates t (.rest left parent rest) found?) :
      Evaluates t (.rest left current ("super" :: rest)) found?
  | rest_root {left current rest} (up : parentModule? current = none) :
      Evaluates t (.rest left current ("super" :: rest)) none
  | rest_name {left current segment rest member? found?} (plain : segment ≠ "super")
      (member : Evaluates t (.name left current segment none) member?)
      (behind : Evaluates t (.rest left (member?.getD (qualify current segment)) rest) found?) :
      Evaluates t (.rest left current (segment :: rest)) found?
  | chain_here {left scope name skip? found} (here : Evaluates t (.name left scope name skip?) (some found)) :
      Evaluates t (.chain left scope name skip?) (some found)
  | chain_outwards {left scope name skip? around found?} (here : Evaluates t (.name left scope name skip?) none)
      (falls : t.FallsBack scope around) (outwards : Evaluates t (.chain left around name none) found?) :
      Evaluates t (.chain left scope name skip?) found?
  | chain_end {left scope name skip?} (here : Evaluates t (.name left scope name skip?) none)
      (ends : ∀ around, ¬ t.FallsBack scope around) : Evaluates t (.chain left scope name skip?) none
  | name_cut {scope name skip?} : Evaluates t (.name 0 scope name skip?) none
  | name_item {left scope name skip?} (item : t.Declares scope name) :
      Evaluates t (.name (left + 1) scope name skip?) (some (qualify scope name))
  | name_import {left scope name skip? target found?} (item : ¬ t.Declares scope name)
      (imported : t.followed? scope name skip? = some target)
      (behind : Evaluates t (.path left scope target (some name)) found?) :
      Evaluates t (.name (left + 1) scope name skip?) found?
  | name_globs {left scope name skip? found?} (item : ¬ t.Declares scope name)
      (imported : t.followed? scope name skip? = none)
      (globs : Evaluates t (.globs left scope name (t.scopeOf scope).globs) found?) :
      Evaluates t (.name (left + 1) scope name skip?) found?
  | globs_nil {left scope name} : Evaluates t (.globs left scope name []) none
  /-- A glob import that leads nowhere, or back to its own scope. -/
  | globs_skip {left scope name path paths module? found?}
      (leads : Evaluates t (.path left scope path none) module?) (skipped : ∀ module ∈ module?, module = scope)
      (others : Evaluates t (.globs left scope name paths) found?) :
      Evaluates t (.globs left scope name (path :: paths)) found?
  | globs_found {left scope name path paths module found}
      (leads : Evaluates t (.path left scope path none) (some module)) (other : module ≠ scope)
      (member : Evaluates t (.name left module name none) (some found)) :
      Evaluates t (.globs left scope name (path :: paths)) (some found)
  | globs_missing {left scope name path paths module found?}
      (leads : Evaluates t (.path left scope path none) (some module)) (other : module ≠ scope)
      (member : Evaluates t (.name left module name none) none)
      (others : Evaluates t (.globs left scope name paths) found?) :
      Evaluates t (.globs left scope name (path :: paths)) found?

variable {t : ScopeTable}

/-! ### What is derived is what is computed -/

theorem contains_items_iff {scope name : String} :
    (t.scopeOf scope).items.contains name ↔ t.Declares scope name := by
  rw [List.contains_iff_mem, declares_iff]

/-- By induction on the derivation: each rule is one case of the bounded functions. -/
theorem Evaluates.value_eq (ht : t.Falls) {task : Task} {found? : Option String} (h : t.Evaluates task found?) :
    task.value t = found? := by
  induction h with
  | path_cut | path_global | rest_nil | name_cut | globs_nil => rfl
  | @path_empty _ _ isGlobal => cases isGlobal <;> rfl
  | path_crate _ ih | path_self _ ih => exact ih
  | path_super up _ ih =>
    rw [Task.value, resolveUnder, resolveVia, up]
    exact ih
  | path_root up => rw [Task.value, resolveUnder, resolveVia, up, Option.bind_none]
  | path_name plain _ _ ih_here ih =>
    rw [Task.value] at ih_here
    rw [Task.value, resolveUnder, resolveVia_name plain, ih_here]
    exact ih
  | path_literal plain _ ih_here =>
    rw [Task.value] at ih_here
    rw [Task.value, resolveUnder, resolveVia_name plain, ih_here]
  | rest_super up _ ih =>
    rw [Task.value, descend, up]
    exact ih
  | rest_root up => rw [Task.value, descend, up]
  | rest_name plain _ _ ih_member ih =>
    rw [Task.value] at ih_member
    rw [Task.value, descend, ih_member]
    · exact ih
    · exact plain
  | chain_here _ ih =>
    rw [Task.value] at ih
    rw [Task.value, ht.lookupChain_eq, ih, Option.some_or]
  | chain_outwards _ falls _ ih_here ih =>
    rw [Task.value] at ih_here
    rw [Task.value, ht.lookupChain_eq, ih_here, fallsBack_iff.mp falls, Option.none_or]
    exact ih
  | chain_end _ ends ih =>
    rw [Task.value] at ih
    rw [Task.value, ht.lookupChain_eq, ih, Option.eq_none_iff_forall_ne_some.mpr fun around h => ends around (fallsBack_iff.mpr h)]
    rfl
  | name_item item => rw [Task.value, lookupLocal_succ, if_pos (contains_items_iff.mpr item)]
  | name_import item imported _ ih =>
    rw [followed?] at imported
    rw [Task.value, lookupLocal_succ, if_neg (contains_items_iff.not.mpr item), imported]
    exact ih
  | name_globs item imported _ ih =>
    rw [followed?] at imported
    rw [Task.value, lookupLocal_succ, if_neg (contains_items_iff.not.mpr item), imported]
    exact ih
  | @globs_skip _ _ _ _ _ module? _ _ skipped _ ih_leads ih =>
    rw [Task.value] at ih_leads
    rw [Task.value, List.findSome?_cons, globbed, ih_leads]
    cases module? with
    | none => exact ih
    | some module =>
      simp only [if_pos (skipped module rfl)]
      exact ih
  | globs_found _ other _ ih_leads ih =>
    simp only [Task.value] at ih_leads ih
    rw [Task.value, List.findSome?_cons, globbed, ih_leads]
    simp only [if_neg other, ih]
  | globs_missing _ other _ _ ih_leads ih_member ih =>
    simp only [Task.value] at ih_leads ih_member
    rw [Task.value, List.findSome?_cons, globbed, ih_leads]
    simp only [if_neg other, ih_member]
    exact ih

/-! ### Every part comes to an end -/

section
variable {left : Nat}

/-- Names in single scopes that come to an end with so many levels left. -/
def NamesEnd (t : ScopeTable) (left : Nat) : Prop :=
  ∀ scope name skip?, t.Evaluates (.name left scope name skip?) (lookupLocal t left scope name skip?)

theorem NamesEnd.rest (hn : t.NamesEnd left) (current : String) (segments : List String) :
    t.Evaluates (.rest left current segments) (descend (lookupLocal t left) current segments) := by
  fun_induction descend (lookupLocal t left) current segments with
  | case1 => exact .rest_nil
  | case2 current rest parent up ih => exact .rest_super up ih
  | case3 current rest up => exact .rest_root up
  | case4 current segment rest plain ih => exact .rest_name plain (hn current segment none) ih

/-- By induction on the name of the scope: what a scope falls back to has a shorter one. -/
theorem NamesEnd.chain (ht : t.Falls) (hn : t.NamesEnd left) (scope name : String) (skip? : Option String) :
    t.Evaluates (.chain left scope name skip?)
      (lookupChain (lookupLocal t left) t name (t.scopes.length + 1) scope skip?) := by
  induction hl : scope.length using Nat.strongRecOn generalizing scope skip? with
  | ind n ih =>
    have here := hn scope name skip?
    rw [ht.lookupChain_eq]
    cases hf : lookupLocal t left scope name skip? with
    | some found =>
      rw [hf] at here
      exact .chain_here here
    | none =>
      rw [hf] at here
      cases ha : (t.scopeOf scope).fallback? with
      | none =>
        refine .chain_end here fun around falls => ?_
        rw [fallsBack_iff, ha] at falls
        cases falls
      | some around => exact .chain_outwards here (fallsBack_iff.mpr ha) (ih _ (hl ▸ ht scope around ha) around none rfl)

theorem NamesEnd.path (ht : t.Falls) (hn : t.NamesEnd left) (scope : String) (path : Path) (skip? : Option String) :
    t.Evaluates (.path left scope path skip?) (resolveUnder t left scope path skip?) := by
  cases left with
  | zero => exact .path_cut
  | succ left =>
    have behind := hn.rest
    obtain ⟨_ | _, _ | ⟨first, rest⟩⟩ := path
    · exact .path_empty
    · by_cases plain : first ∈ ["crate", "self", "super"]
      · simp only [List.mem_cons, List.not_mem_nil, or_false] at plain
        rcases plain with rfl | rfl | rfl
        · exact .path_crate (behind ..)
        · exact .path_self (behind ..)
        · rw [resolveUnder, resolveVia]
          cases up : parentModule? (t.moduleOf scope) with
          | none => exact .path_root up
          | some parent => exact .path_super up (behind ..)
      · have here := hn.chain ht scope first skip?
        rw [resolveUnder, resolveVia_name plain]
        cases hc : lookupChain (lookupLocal t (left + 1)) t first (t.scopes.length + 1) scope skip? with
        | none =>
          rw [hc] at here
          exact .path_literal plain here
        | some found =>
          rw [hc] at here
          exact .path_name plain here (behind ..)
    · exact .path_empty
    · exact .path_global

theorem NamesEnd.globs (ht : t.Falls) (hn : t.NamesEnd left) (scope name : String) (paths : List Path) :
    t.Evaluates (.globs left scope name paths) (paths.findSome? (globbed t left scope name)) := by
  induction paths with
  | nil => exact .globs_nil
  | cons path paths ih =>
    have leads := hn.path ht scope path none
    rw [List.findSome?_cons, globbed]
    cases hr : resolveUnder t left scope path none with
    | none =>
      rw [hr] at leads
      exact .globs_skip leads (by simp) ih
    | some module =>
      rw [hr] at leads
      dsimp only
      by_cases other : module = scope
      · rw [if_pos other]
        exact .globs_skip leads (by simpa using other) ih
      · have member := hn module name none
        rw [if_neg other]
        cases hl : lookupLocal t left module name none with
        | none =>
          rw [hl] at member
          exact .globs_missing leads other member ih
        | some found =>
          rw [hl] at member
          exact .globs_found leads other member

/-- By induction on the levels of imports: what an import leads to is looked up with one level less. -/
theorem Falls.namesEnd (ht : t.Falls) (left : Nat) : t.NamesEnd left := by
  induction left with
  | zero => exact fun _ _ _ => .name_cut
  | succ left ih =>
    intro scope name skip?
    rw [lookupLocal_succ]
    by_cases item : t.Declares scope name
    · rw [if_pos (contains_items_iff.mpr item)]
      exact .name_item item
    · rw [if_neg (contains_items_iff.not.mpr item)]
      cases imported : t.followed? scope name skip? with
      | some target =>
        rw [followed?] at imported
        rw [imported]
        exact .name_import item imported (ih.path ht ..)
      | none =>
        rw [followed?] at imported
        rw [imported]
        exact .name_globs item imported (ih.globs ht ..)

end

theorem Falls.evaluates_value (ht : t.Falls) (task : Task) : t.Evaluates task (task.value t) := by
  cases task with
  | path left => exact (ht.namesEnd left).path ht ..
  | rest left => exact (ht.namesEnd left).rest ..
  | chain left => exact (ht.namesEnd left).chain ht ..
  | name left => exact ht.namesEnd left ..
  | globs left => exact (ht.namesEnd left).globs ht ..

/-- Every part of a resolution comes to an end, with the value of the bounded functions and no other. -/
theorem Falls.evaluates_iff (ht : t.Falls) {task : Task} {found? : Option String} :
    t.Evaluates task found? ↔ task.value t = found? :=
  ⟨Evaluates.value_eq ht, fun h => h ▸ ht.evaluates_value task⟩

/-! ### Tables that come about -/

/-- Files that are read from texts can be added. -/
theorem Made.ofText? (h : Made t) (module text : String) : Made (t.addFile module (SourceFile.ofText? text)) :=
  .file h module fun _ hf => SourceFile.ofText?_items hf

/-- Whatever files and modules were added, the scopes are a tree, a name is looked up along the chain from its scope to
the module of it, and every path resolves in finitely many steps, cyclic imports or not. -/
theorem isTree_and_resolves (h : Made t) :
    t.IsTree ∧
    (∀ scope, t.hasScope scope → ∃ chain, t.IsChain scope chain ∧ ∀ look name skip?,
      lookupChain look t name (t.scopes.length + 1) scope skip? = searches look name scope chain skip?) ∧
    ∀ scope path found?, t.Evaluates (.path (maxDepth + 1) scope path none) found? ↔ t.resolve scope path = found? :=
  have ht := h.grown
  ⟨ht.isTree, fun _ hs => ht.exists_chain hs, fun _ _ _ => ht.falls.evaluates_iff⟩

/-- A function and a module of one name, with a module and a function of one name inside, and modules that import all
of each other's names. -/
def tangled : SourceFile where
  items :=
    let module (name : String) (body : List Declaration) : Declaration := ⟨.module name false true, default, [], [], body⟩
    let function (name : String) (body : List Declaration) : Declaration := ⟨.fn name, default, [], [], body⟩
    let globs (name : String) : Declaration := ⟨.use false (.path "super" (.path name .glob)), default, [], [], []⟩
    [function "f" [module "g" []], module "f" [function "g" [], globs "h"], module "h" [globs "f"]]

theorem tangled_items : ∀ d ∈ tangled.items, d.IsItem := by
  have hf : IsItemName "f" := ⟨by decide, by decide⟩
  have hg : IsItemName "g" := ⟨by decide, by decide⟩
  have hh : IsItemName "h" := ⟨by decide, by decide⟩
  have module {name : String} {body : List Declaration} (hn : IsItemName name) (hb : ∀ d ∈ body, d.IsItem) :
      Declaration.IsItem ⟨.module name false true, default, [], [], body⟩ :=
    ⟨rfl, .mk hn nofun nofun (fun d hd => (hb d hd).sort) fun d hd => (hb d hd).formed⟩
  have function {name : String} {body : List Declaration} (hn : IsItemName name) (hb : ∀ d ∈ body, d.IsItem) :
      Declaration.IsItem ⟨.fn name, default, [], [], body⟩ :=
    ⟨rfl, .mk hn nofun nofun (fun d hd => (hb d hd).sort) fun d hd => (hb d hd).formed⟩
  have globs (name : String) :
      Declaration.IsItem ⟨.use false (.path "super" (.path name .glob)), default, [], [], []⟩ :=
    ⟨rfl, .mk trivial nofun nofun nofun nofun⟩
  simp only [tangled, List.forall_mem_cons]
  exact ⟨function hf (List.forall_mem_singleton.mpr (module hg nofun)),
    module hf (List.forall_mem_cons.mpr ⟨function hg nofun, List.forall_mem_singleton.mpr (globs "h")⟩),
    module hh (List.forall_mem_singleton.mpr (globs "f")), nofun⟩

/-- The function's scope takes in the module of its name, and the module inside it the function. -/
theorem isTree_and_resolves_tangled :
    let t := finish (addModule "crate::f::g" (addFile "crate" (some tangled) {}))
    Made t ∧ t.FallsBack "crate::f" "crate" ∧ t.IsModule "crate::f::g" ∧ t.IsTree := by
  intro t
  have h : Made t := ((Made.empty.file "crate" (by simpa using tangled_items)).module "crate::f::g").finish
  exact ⟨h, by decide, by decide, (isTree_and_resolves h).1⟩

end GeneratorHost.ScopeTable
