import GeneratorHost.Host.SupportModule

/-! The source trees of a host crate, in order. -/
namespace GeneratorHost

structure HostCompilation where
  trees : List SourceTree
  edition : Edition

namespace HostCompilation

/-- The first tree mounted at a module. -/
def treeAt? (c : HostCompilation) (module : String) : Option SourceTree :=
  c.trees.find? (·.module = module)

/-- The compilation with the support module's tree behind the others, unless a tree is mounted
there already. -/
def withSupport (c : HostCompilation) (s : SupportModule) : HostCompilation :=
  if (c.treeAt? s.module).isSome then c else { c with trees := c.trees ++ [s.tree] }

end HostCompilation
end GeneratorHost
