import GeneratorHost.Failure.Config
import GeneratorHost.Grammar.Parse
import GeneratorHost.Host.SupportModule
import GeneratorHost.Report.Duration
import GeneratorHost.Toolchain.Config

/-! Everything a pass needs besides its host. -/
namespace GeneratorHost

structure PassConfig where
  supportName : String := SupportModule.defaultName
  edition : Edition := default
  toolchain : ToolchainConfig := {}
  compileTimeout? : Option Duration := some (.ofSeconds 300)
  invokeTimeout? : Option Duration := some (.ofSeconds 60)
  /-- Number of workers; without one the shared workers are used. -/
  threads? : Option Nat := none
  /-- Whether the support module is emitted before any candidate runs. -/
  emitsSupport : Bool := false
  flags : List String := []
deriving DecidableEq, Repr

/-- Counts that fit into 64 bits. -/
def maxCount : Nat := 18446744073709551615

/-- Reads a whole number in decimal digits, a plus sign before it allowed. -/
def number? (cs : List Char) : Option Nat :=
  let digits := match cs with
    | '+' :: rest => rest
    | _ => cs
  if digits.isEmpty || !digits.all Char.isDigit then none
  else
    let n := Nat.ofDigitChars 10 digits 0
    if n ≤ maxCount then some n else none

/-- Reads a number with blanks around it allowed. -/
def count? (s : String) : Option Nat := number? (Text.trim s).toList

/-- Reads the count that a variable or option holds. -/
def readCount (name value : String) : Except ConfigError Nat :=
  match count? value with
  | some n => .ok n
  | none => .error (.invalid (name ++ "=" ++ value ++ " is not a non-negative integer"))

/-- Reads a number of seconds, where zero means no limit. -/
def readTimeout (name value : String) : Except ConfigError (Option Duration) :=
  (readCount name value).map fun n => if n = 0 then none else some (.ofSeconds n)

namespace PassConfig

/-- The configuration with the values of environment variables on top. -/
def withVariables (c : PassConfig) (lookup : String → Option String) : Except ConfigError PassConfig := do
  let toolchain := { c.toolchain with
    rustc? := (lookup "SELFGEN_RUSTC").orElse fun _ => c.toolchain.rustc?
    macrosLibrary? := (lookup "SELFGEN_MACROS_LIB").orElse fun _ => c.toolchain.macrosLibrary? }
  let compileTimeout? ← match lookup "SELFGEN_COMPILE_TIMEOUT" with
    | some value => readTimeout "SELFGEN_COMPILE_TIMEOUT" value
    | none => pure c.compileTimeout?
  let invokeTimeout? ← match lookup "SELFGEN_INVOKE_TIMEOUT" with
    | some value => readTimeout "SELFGEN_INVOKE_TIMEOUT" value
    | none => pure c.invokeTimeout?
  let threads? ← match lookup "SELFGEN_THREADS" with
    | some value =>
      (readCount "SELFGEN_THREADS" value).map fun n => if n = 0 then none else some n
    | none => pure c.threads?
  return { c with toolchain, compileTimeout?, invokeTimeout?, threads? }

/-- Sets the number of workers; zero means the shared ones. -/
def withThreads (threads? : Option Nat) (c : PassConfig) : PassConfig :=
  { c with threads? := threads?.filter (0 < ·) }

/-- Checks that the names in the configuration are names. -/
def validate (c : PassConfig) : Except ConfigError Unit :=
  if !isNameText c.supportName then
    .error (.invalid ("runtime module name `" ++ c.supportName ++ "` is not an identifier"))
  else
    match c.toolchain.externs.find? fun e => !isNameText e.name with
    | some e => .error (.invalid ("extern crate name `" ++ e.name ++ "` is not an identifier"))
    | none => .ok ()

/-- The support module that the configuration describes. -/
def support (c : PassConfig) : SupportModule := ⟨c.supportName, c.edition⟩

end PassConfig
end GeneratorHost
