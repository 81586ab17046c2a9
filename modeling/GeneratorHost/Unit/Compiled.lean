import GeneratorHost.Image.Exports
import GeneratorHost.Report.Duration

/-! Units: compiled candidates with what they export. -/
namespace GeneratorHost

structure CompiledUnit where
  /-- Qualified name of the candidate. -/
  candidate : String
  image : Image
  /-- Exported names, sorted. -/
  exports : List String
  compileTime : Duration

namespace CompiledUnit

def size (u : CompiledUnit) : Nat := u.image.size

def hasExport (u : CompiledUnit) (symbol : String) : Bool := u.exports.contains symbol

end CompiledUnit
end GeneratorHost
