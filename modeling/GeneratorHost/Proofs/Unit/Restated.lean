import GeneratorHost.Unit.Compile
import Mathlib.Data.List.Infix
import Mathlib.Data.List.Forall2

/-! Errors in the part of a root that is not the host's. Each is restated on its own, at its place in the list, and only
its message and its place change. A message is replaced for the word that it contains, whatever the error is. -/
namespace GeneratorHost

namespace Text

/-- A text occurs in another if it is an infix of it. -/
theorem occursIn_iff {part : List Char} : ∀ {cs : List Char}, occursIn part cs = true ↔ part <:+: cs
  | [] => by rw [occursIn, List.isEmpty_iff, List.infix_nil]
  | c :: cs => by rw [occursIn, Bool.or_eq_true, List.isPrefixOf_iff_prefix, occursIn_iff, List.infix_cons_iff]

end Text

namespace Diagnostic

/-- The place of a diagnostic is in a file, on a line or behind it. -/
def IsFrom (file : String) (line : Nat) (d : Diagnostic) : Prop := ∃ l ∈ d.location?, l.file = file ∧ line ≤ l.line

/-- The message of a diagnostic contains the word. -/
def SaysDefault (d : Diagnostic) : Prop := "Default".toList <:+: d.message.toList

variable {file : String} {line : Nat} {d : Diagnostic} {l : Location}

theorem isFrom_iff_of_some (h : d.location? = some l) : d.IsFrom file line ↔ l.file = file ∧ line ≤ l.line := by
  simp [IsFrom, h]

theorem not_isFrom_of_none (h : d.location? = none) : ¬ d.IsFrom file line := by
  rintro ⟨l, hl, -⟩
  rw [h] at hl
  cases hl

end Diagnostic

namespace UnitCompiler

variable {name root : String} {firstLine : Nat} {d : Diagnostic}

/-- What is not in the generated part stays as it is. -/
theorem explain_of_not_isFrom (h : ¬ d.IsFrom root firstLine) : explain name root firstLine d = d := by
  unfold explain
  split
  · rename_i l hl
    rw [Diagnostic.isFrom_iff_of_some hl] at h
    exact if_neg (by simpa using h)
  · rfl

/-- In the generated part the place goes, and the message is replaced if it contains the word. -/
theorem explain_of_isFrom (h : d.IsFrom root firstLine) : explain name root firstLine d =
    { d with
      message := if Text.occursIn "Default".toList d.message.toList then missingDefault name else d.message
      location? := none } := by
  unfold explain
  split
  · rename_i l hl
    rw [Diagnostic.isFrom_iff_of_some hl] at h
    exact if_pos (by simpa using h)
  · rename_i hl
    exact absurd h (Diagnostic.not_isFrom_of_none hl)

/-- A message in the generated part stays exactly if it does not contain the word, or is the replacement. -/
theorem explain_message_eq_iff (h : d.IsFrom root firstLine) :
    (explain name root firstLine d).message = d.message ↔ (d.SaysDefault → d.message = missingDefault name) := by
  rw [explain_of_isFrom h, Diagnostic.SaysDefault, ← Text.occursIn_iff]
  dsimp only
  split
  · rename_i hw
    exact ⟨fun he _ => he.symm, fun he => (he hw).symm⟩
  · rename_i hw
    exact ⟨fun _ ht => absurd ht hw, fun _ => rfl⟩

/-- The code of an unmet bound, which is what a missing default value is. -/
def unmetBound : String := "E0277"

/-- Errors in the generated part that are no unmet bounds keep their messages, each at its place in the list. -/
def KeepsOthers (name root : String) (firstLine : Nat) (ds : List Diagnostic) : Prop :=
  List.Forall₂ (fun d e => d.IsFrom root firstLine → d.code? ≠ some unmetBound → e.message = d.message) ds
    (ds.map (explain name root firstLine))

/-- Among the errors in the generated part those whose messages contain the word are restated, also those that are no
unmet bounds. -/
theorem keepsOthers_iff (name root : String) (firstLine : Nat) (ds : List Diagnostic) :
    KeepsOthers name root firstLine ds ↔ ∀ d ∈ ds, d.IsFrom root firstLine → d.code? ≠ some unmetBound →
      d.SaysDefault → d.message = missingDefault name := by
  rw [KeepsOthers, List.forall₂_map_right_iff, List.forall₂_same]
  refine forall₂_congr fun d _ => forall_congr' fun hd => forall_congr' fun _ => ?_
  exact explain_message_eq_iff hd

/-- A type that cannot be named from the root, in a unit whose root is generated. -/
def privateType : Diagnostic :=
  { candidate := "crate::gen::DefaultMaker", severity := .error, code? := some "E0603"
    message := "struct `DefaultMaker` is private", location? := some ⟨generatedRoot, 1, 40⟩ }

/-- The type is said to lack a default value, for the word is in its name. -/
theorem not_keepsOthers : ¬ ∀ name root firstLine ds, KeepsOthers name root firstLine ds := by
  intro h
  have hkept := (keepsOthers_iff ..).mp (h privateType.candidate generatedRoot 1 [privateType]) privateType
    List.mem_cons_self ⟨_, rfl, rfl, le_refl 1⟩ (by decide) (Text.occursIn_iff.mp (by decide))
  exact absurd hkept (by decide)

end UnitCompiler
end GeneratorHost
