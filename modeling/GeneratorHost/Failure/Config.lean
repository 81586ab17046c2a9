import GeneratorHost.Text.Escaped

/-! Why a configuration or a toolchain cannot be used. -/
namespace GeneratorHost

inductive ConfigError where
  | rustcUnavailable (path source : String)
  | rustcOutput (reason : String)
  | macrosLibraryNotFound (searched : List String)
  | invalid (reason : String)
  | io (source : String)
deriving DecidableEq, Repr

namespace ConfigError

def message : ConfigError → String
  | rustcUnavailable path source => "Failed to run rustc at " ++ path ++ ": " ++ source
  | rustcOutput reason => "Could not understand rustc output: " ++ reason
  | macrosLibraryNotFound searched =>
    "selfgen-macros library not found (searched " ++ Text.quotedPaths searched ++
      "); set SELFGEN_MACROS_LIB or --macros-lib"
  | invalid reason => "Invalid configuration: " ++ reason
  | io source => source

end ConfigError
end GeneratorHost
