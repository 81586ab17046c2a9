import GeneratorHost.Report.Duration

/-! Statistics of a pass. -/
namespace GeneratorHost

/-- Where a candidate failed. -/
inductive Stage where
  | compile
  | invoke
deriving DecidableEq, Repr

structure Statistics where
  declarations : Nat := 0
  candidates : Nat := 0
  compiled : Nat := 0
  invoked : Nat := 0
  compileFailures : Nat := 0
  invocationFailures : Nat := 0
  artifacts : Nat := 0
  imageBytes : Nat := 0
  compileTime : Duration := ⟨0⟩
  slowest : Duration := ⟨0⟩
  slowestCandidate : String := ""
deriving DecidableEq, Repr

namespace Statistics

def failures (s : Statistics) : Nat := s.compileFailures + s.invocationFailures

/-- Records the size of the index. -/
def withIndex (declarations candidates : Nat) (s : Statistics) : Statistics :=
  { s with declarations, candidates }

/-- Records a compiled unit; of equally slow ones the first counts. -/
def withCompiled (candidate : String) (size : Nat) (time : Duration) (s : Statistics) : Statistics :=
  let s := { s with
    compiled := s.compiled + 1
    imageBytes := s.imageBytes + size
    compileTime := s.compileTime + time }
  if s.slowest < time then { s with slowest := time, slowestCandidate := candidate } else s

/-- Records a unit that ran and the number of artifacts it added. -/
def withInvoked (artifacts : Nat) (s : Statistics) : Statistics :=
  { s with invoked := s.invoked + 1, artifacts := s.artifacts + artifacts }

def withFailure (stage : Stage) (s : Statistics) : Statistics :=
  match stage with
  | .compile => { s with compileFailures := s.compileFailures + 1 }
  | .invoke => { s with invocationFailures := s.invocationFailures + 1 }

/-- Records an artifact of the pass itself. -/
def withArtifact (s : Statistics) : Statistics := { s with artifacts := s.artifacts + 1 }

/-- The statistics as lines of text; the slowest unit is named if there is one. -/
def text (s : Statistics) (elapsed : Duration) : String :=
  let count (name : String) (n : Nat) := "  " ++ name ++ ": " ++ toString n ++ "\n"
  "Generation Pass Statistics:\n" ++
  count "Declarations indexed" s.declarations ++
  count "Candidates found" s.candidates ++
  count "Units compiled" s.compiled ++
  count "Units invoked" s.invoked ++
  count "Compile failures" s.compileFailures ++
  count "Invocation failures" s.invocationFailures ++
  count "Artifacts emitted" s.artifacts ++
  "  Total image size: " ++ toString s.imageBytes ++ " bytes\n" ++
  (if s.slowestCandidate = "" then ""
    else "  Slowest compile: " ++ s.slowestCandidate ++ " (" ++ s.slowest.textTo 2 ++ ")\n") ++
  "  Elapsed: " ++ elapsed.textTo 2 ++ "\n"

end Statistics
end GeneratorHost
