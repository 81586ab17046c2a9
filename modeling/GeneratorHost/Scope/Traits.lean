import GeneratorHost.Scope.Resolve

/-! Traits that types implement and traits demand, closed over supertraits. -/
namespace GeneratorHost.ScopeTable

/-- Resolves the implementations collected so far. -/
def finish (t : ScopeTable) : ScopeTable :=
  { t with implemented := t.impls.filterMap fun fact =>
      match t.resolve fact.scope fact.subject, t.resolve fact.scope fact.trait with
      | some subject, some trait => some (subject, trait)
      | _, _ => none }

/-- The supertraits a trait is declared with. -/
def directSupertraits (t : ScopeTable) (trait : String) : List String :=
  match t.trait? trait with
  | some fact => fact.supertraits.filterMap (t.resolve fact.scope)
  | none => []

/-- Everything reachable from the pending traits and not seen yet, added to what was seen. -/
def reach (next : String → List String) : Nat → List String → List String → List String
  | 0, _, seen => seen
  | _, [], seen => seen
  | fuel + 1, trait :: pending, seen =>
    if seen.contains trait then reach next fuel pending seen
    else reach next fuel (next trait ++ pending) (trait :: seen)

/-- Traits and their supertraits, sorted. Every trait adds its bounds to the pending ones at most
once, which bounds the number of steps. -/
def traitClosure (t : ScopeTable) (direct : List String) : List String :=
  let steps := direct.length + (t.traits.flatMap fun (_, fact) => fact.supertraits).length + 1
  (reach t.directSupertraits steps direct []).mergeSort (· ≤ ·)

/-- Every trait that a type implements, sorted. -/
def interfacesOf (t : ScopeTable) (type : String) : List String :=
  t.traitClosure (t.implemented.filterMap fun (subject, trait) => if subject = type then some trait else none)

/-- Every trait that a trait demands, itself excluded, sorted. -/
def supertraitsOf (t : ScopeTable) (trait : String) : List String :=
  (t.traitClosure (t.directSupertraits trait)).filter (· ≠ trait)

end GeneratorHost.ScopeTable
