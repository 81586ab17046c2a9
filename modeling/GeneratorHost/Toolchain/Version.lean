import GeneratorHost.Failure.Config
import GeneratorHost.Text.Split

/-! Releases of the compiler. -/
namespace GeneratorHost

structure CompilerVersion where
  major : Nat
  minor : Nat
  patch : Nat
deriving DecidableEq, Repr

namespace CompilerVersion

/-- A number of at most 32 bits. -/
def part? (digits : List Char) : Option Nat :=
  let n := Nat.ofDigitChars 10 digits 0
  if digits.isEmpty || !digits.all Char.isDigit || 4294967295 < n then none else some n

/-- Reads a release up to its first hyphen or plus sign. The patch counts as zero if it is no
number, and what follows it is ignored. -/
def ofText? (release : String) : Option CompilerVersion :=
  let cs := (Text.trim release).toList.takeWhile fun c => c ≠ '-' && c ≠ '+'
  match (Text.splitChar '.' cs).map part? with
  | some major :: some minor :: rest =>
    some ⟨major, minor, (rest.head?.bind id).getD 0⟩
  | _ => none

def text (v : CompilerVersion) : String :=
  toString v.major ++ "." ++ toString v.minor ++ "." ++ toString v.patch

/-- The order of releases. -/
def lessOrEqual (a b : CompilerVersion) : Bool :=
  a.major < b.major || (a.major = b.major &&
    (a.minor < b.minor || (a.minor = b.minor && a.patch ≤ b.patch)))

/-- The value of the first line that begins with a label. -/
def labelled? (label output : String) : Option String :=
  (Text.lines output).findSome? fun line =>
    if label.toList.isPrefixOf line.toList then
      some (Text.trim (String.ofList (line.toList.drop label.length)))
    else none

/-- The release and the host triple in the compiler's description of itself. -/
def ofDescription (output : String) : Except ConfigError (CompilerVersion × String) :=
  match labelled? "release:" output with
  | none => .error (.rustcOutput "no `release:` line in `rustc -vV`")
  | some release =>
    match ofText? release with
    | none => .error (.rustcOutput ("unrecognised release `" ++ release ++ "`"))
    | some version =>
      match labelled? "host:" output with
      | none => .error (.rustcOutput "no `host:` line in `rustc -vV`")
      | some host => .ok (version, host)

end CompilerVersion
end GeneratorHost
