import GeneratorHost.Text.Split

/-! Language editions. -/
namespace GeneratorHost

inductive Edition where
  | e2015
  | e2018
  | e2021
  | e2024
deriving DecidableEq, Repr

namespace Edition

instance : Inhabited Edition := ⟨e2021⟩

/-- Editions from the oldest to the newest. -/
def all : List Edition := [e2015, e2018, e2021, e2024]

def year : Edition → Nat
  | e2015 => 2015
  | e2018 => 2018
  | e2021 => 2021
  | e2024 => 2024

def text (e : Edition) : String := toString e.year

/-- The edition with the year, blanks around it allowed. -/
def ofText? (s : String) : Option Edition := all.find? (·.text = Text.trim s)

/-- Why a text names no edition. -/
def unknownMessage (s : String) : String := "unknown edition `" ++ Text.trim s ++ "`"

end Edition
end GeneratorHost
