/-! Lengths of time and their text: the largest unit that leaves a whole part, and a fraction. -/
namespace GeneratorHost

/-- A length of time in nanoseconds. -/
structure Duration where
  nanoseconds : Nat
deriving DecidableEq, Repr, Inhabited

namespace Duration

def ofSeconds (n : Nat) : Duration := ⟨n * 1000000000⟩

def ofMilliseconds (n : Nat) : Duration := ⟨n * 1000000⟩

instance : Add Duration := ⟨fun a b => ⟨a.nanoseconds + b.nanoseconds⟩⟩

instance : LT Duration := ⟨fun a b => a.nanoseconds < b.nanoseconds⟩

instance (a b : Duration) : Decidable (a < b) := inferInstanceAs (Decidable (a.nanoseconds < b.nanoseconds))

/-- A unit of time: the decimal places of its nanoseconds, and its name. -/
structure TimeUnit where
  places : Nat
  name : String

/-- The nanoseconds of a unit. -/
def TimeUnit.size (u : TimeUnit) : Nat := Nat.pow 10 u.places

/-- The unit a length of time is written in. -/
def timeUnit (d : Duration) : TimeUnit :=
  if 1000000000 ≤ d.nanoseconds then ⟨9, "s"⟩
  else if 1000000 ≤ d.nanoseconds then ⟨6, "ms"⟩
  else if 1000 ≤ d.nanoseconds then ⟨3, "µs"⟩
  else ⟨0, "ns"⟩

/-- The quotient rounded to the nearest whole number, a half to the even one. -/
def roundHalfEven (a b : Nat) : Nat :=
  let q := a / b
  let twice := 2 * (a % b)
  if b < twice || (twice = b && q % 2 = 1) then q + 1 else q

/-- Decimal digits, with zeros in front to fill the places. -/
def digits (places n : Nat) : List Char :=
  let ds := Nat.toDigits 10 n
  List.replicate (places - ds.length) '0' ++ ds

/-- A decimal fraction with its point; nothing if it has no places. -/
def fraction (ds : List Char) : String := if ds.isEmpty then "" else String.ofList ('.' :: ds)

/-- The exact text: the fraction has as many places as it needs. -/
def text (d : Duration) : String :=
  let u := d.timeUnit
  let rest := d.nanoseconds % u.size
  let ds := if rest = 0 then [] else ((digits u.places rest).reverse.dropWhile (· = '0')).reverse
  toString (d.nanoseconds / u.size) ++ fraction ds ++ u.name

/-- The text rounded to a number of decimal places. -/
def textTo (places : Nat) (d : Duration) : String :=
  let u := d.timeUnit
  let scale := Nat.pow 10 places
  let scaled := roundHalfEven (d.nanoseconds * scale) u.size
  toString (scaled / scale) ++
    fraction (if places = 0 then [] else digits places (scaled % scale)) ++ u.name

end Duration
end GeneratorHost
