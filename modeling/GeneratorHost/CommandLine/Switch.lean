import GeneratorHost.Pass.Config

/-! The commands and options of the command line. -/
namespace GeneratorHost.CommandLine

inductive Switch where
  | edition
  | supportName
  | rustc
  | macrosLibrary
  | externCrate
  | searchPath
  | compileTimeout
  | invokeTimeout
  | threads
  | verbose
  | quiet
  | source
  | output
  | emitsSupport
  | compilerFlag
  | candidates
  | json
  | help
  | version
deriving DecidableEq, Repr

namespace Switch

/-- The name behind two hyphens. -/
def long? : Switch → Option String
  | edition => some "edition"
  | supportName => some "runtime-module"
  | rustc => some "rustc"
  | macrosLibrary => some "macros-lib"
  | externCrate => some "extern"
  | searchPath => none
  | compileTimeout => some "compile-timeout"
  | invokeTimeout => some "invoke-timeout"
  | threads => some "threads"
  | verbose => some "verbose"
  | quiet => some "quiet"
  | source => some "src"
  | output => some "out"
  | emitsSupport => some "emit-runtime"
  | compilerFlag => some "rustc-flag"
  | candidates => some "candidates"
  | json => some "json"
  | help => some "help"
  | version => some "version"

/-- The letter behind one hyphen. -/
def short? : Switch → Option Char
  | searchPath => some 'L'
  | verbose => some 'v'
  | quiet => some 'q'
  | help => some 'h'
  | version => some 'V'
  | _ => none

/-- The environment variable that stands in for the option. -/
def environment? : Switch → Option String
  | rustc => some "SELFGEN_RUSTC"
  | macrosLibrary => some "SELFGEN_MACROS_LIB"
  | compileTimeout => some "SELFGEN_COMPILE_TIMEOUT"
  | invokeTimeout => some "SELFGEN_INVOKE_TIMEOUT"
  | threads => some "SELFGEN_THREADS"
  | _ => none

/-- Whether the option has a value. -/
def takesValue : Switch → Bool
  | verbose | quiet | emitsSupport | candidates | json | help | version => false
  | _ => true

/-- Whether the option may stand more than once. -/
def repeats : Switch → Bool
  | externCrate | searchPath | verbose | compilerFlag => true
  | _ => false

/-- Whether the word behind the option is its value even if it looks like an option. -/
def takesHyphens (s : Switch) : Bool := s = compilerFlag

/-- Whether the option can have a value. -/
def accepts (s : Switch) (value : String) : Bool :=
  match s with
  | edition => (Edition.ofText? value).isSome
  | rustc | macrosLibrary | searchPath | source | output => value ≠ ""
  | externCrate => (ExternCrate.ofText? value).isSome
  | compileTimeout | invokeTimeout | threads => (number? value.toList).isSome
  | _ => true

/-- The options that may stand before the command and behind it. -/
def shared : List Switch :=
  [edition, supportName, rustc, macrosLibrary, externCrate, searchPath, compileTimeout,
    invokeTimeout, threads, verbose, quiet, help]

end Switch

inductive CommandName where
  | generate
  | index
  | runtime
deriving DecidableEq, Repr

namespace CommandName

def all : List CommandName := [generate, index, runtime]

def text : CommandName → String
  | generate => "generate"
  | index => "index"
  | runtime => "runtime"

def ofText? (s : String) : Option CommandName := all.find? (·.text = s)

/-- The options that the command has besides the shared ones. -/
def switches : CommandName → List Switch
  | generate => [.source, .output, .emitsSupport, .compilerFlag]
  | index => [.source, .candidates, .json]
  | runtime => [.output]

end CommandName
end GeneratorHost.CommandLine
