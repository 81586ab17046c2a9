import GeneratorHost.Text.Split

/-! Where the compiler and the libraries that units link against come from. -/
namespace GeneratorHost

/-- An additional crate and the path of its library. -/
structure ExternCrate where
  name : String
  path : String
deriving DecidableEq, Repr

namespace ExternCrate

/-- Reads `NAME=PATH`; both parts must be there. -/
def ofText? (s : String) : Option ExternCrate :=
  let name := s.toList.takeWhile (· ≠ '=')
  match s.toList.drop name.length with
  | _ :: path => if name.isEmpty || path.isEmpty then none else some ⟨.ofList name, .ofList path⟩
  | [] => none

/-- Why a text names no crate. -/
def malformedMessage (s : String) : String := "expected NAME=PATH, got `" ++ s ++ "`"

end ExternCrate

/-- The toolchain as configured; what is not given is looked for. -/
structure ToolchainConfig where
  rustc? : Option String := none
  macrosLibrary? : Option String := none
  externs : List ExternCrate := []
  searchPaths : List String := []
deriving DecidableEq, Repr

end GeneratorHost
