import GeneratorHost.Artifact.Name
import GeneratorHost.Host.SupportModule
import GeneratorHost.Pass.Config
import GeneratorHost.Report.Log
import GeneratorHost.Unit.Root

/-! The names that a pass gives its own artifacts: an identifier makes a plain file name for the
support module, and no name makes that of the record of what failed. -/
namespace GeneratorHost

theorem Text.le_of_inRuns {k point : Nat} {runs : List Nat} (hk : ∀ n ∈ runs, k ≤ n) (h : inRuns point runs) :
    k ≤ point := by
  fun_induction inRuns point runs with
  | case1 first last rest ih =>
    rw [List.forall_mem_cons, List.forall_mem_cons] at hk
    obtain ⟨hfirst, -, hrest⟩ := hk
    rw [Bool.or_eq_true, Bool.and_eq_true, decide_eq_true_iff] at h
    rcases h with ⟨h, -⟩ | h
    · exact Nat.le_trans hfirst h
    · exact ih hrest h
  | case2 => cases h

/-- Beyond ASCII, identifiers use nothing before the letters of the first block. -/
theorem Text.isLetter_of_continuesIdentifier {c : Char} (h : continuesIdentifier c) :
    c = '_' ∨ c.isAlphanum ∨ 0xa0 ≤ c.toNat := by
  have hs : ∀ n ∈ identifierStartRanges, 0xa0 ≤ n := by decide +kernel
  have hc : ∀ n ∈ identifierContinueRanges, 0xa0 ≤ n := by decide +kernel
  simp only [continuesIdentifier, startsIdentifier, Bool.or_eq_true, Bool.and_eq_true, decide_eq_true_iff] at h
  rw [Char.isAlphanum, Bool.or_eq_true]
  rcases h with (((h | h) | ⟨-, h⟩) | h) | ⟨-, h⟩
  · exact .inl h
  · exact .inr (.inl (.inl h))
  · exact .inr (.inr (le_of_inRuns hs h))
  · exact .inr (.inl (.inr h))
  · exact .inr (.inr (le_of_inRuns hc h))

/-- Identifiers are made of characters that file names may have. -/
theorem isPlain_of_continuesIdentifier {c : Char} (h : Text.continuesIdentifier c) :
    c ≠ '/' ∧ c ≠ '\\' ∧ isControl c = false := by
  have hn : c.toNat = 95 ∨ (48 ≤ c.toNat ∧ c.toNat ≤ 57) ∨ (65 ≤ c.toNat ∧ c.toNat ≤ 90) ∨
      (97 ≤ c.toNat ∧ c.toNat ≤ 122) ∨ 0xa0 ≤ c.toNat := by
    rcases Text.isLetter_of_continuesIdentifier h with rfl | h | h
    · exact .inl rfl
    · unfold Char.isAlphanum Char.isAlpha Char.isUpper Char.isLower Char.isDigit at h
      simp only [Bool.or_eq_true, Bool.and_eq_true, decide_eq_true_iff, ge_iff_le,
        UInt32.le_iff_toNat_le] at h
      change ((65 ≤ c.toNat ∧ c.toNat ≤ 90) ∨ (97 ≤ c.toNat ∧ c.toNat ≤ 122)) ∨ (48 ≤ c.toNat ∧ c.toNat ≤ 57) at h
      omega
    · omega
  refine ⟨?_, ?_, ?_⟩
  · rintro rfl
    revert hn
    decide
  · rintro rfl
    revert hn
    decide
  · simp only [isControl, Bool.or_eq_false_iff, Bool.and_eq_false_iff, decide_eq_false_iff_not]
    omega

namespace SupportModule

variable {s : SupportModule}

theorem toList_fileName (s : SupportModule) : s.fileName.toList = s.name.toList ++ ['.', 'r', 's'] :=
  String.toList_append

/-- An identifier names a plain file. -/
theorem isArtifactName_fileName (h : UnitRoot.isIdentifier s.name.toList) : isArtifactName s.fileName := by
  have hl := s.toList_fileName
  have hc : ∀ c ∈ s.fileName.toList, c ≠ '/' ∧ c ≠ '\\' ∧ isControl c = false := by
    rw [hl, List.forall_mem_append]
    constructor
    · intro c hc
      cases hn : s.name.toList with
      | nil =>
        rw [hn] at hc
        cases hc
      | cons first rest =>
        rw [hn] at h hc
        simp only [UnitRoot.isIdentifier, Bool.and_eq_true, List.all_eq_true] at h
        obtain ⟨hf, hr⟩ := h
        rcases List.mem_cons.mp hc with rfl | hc
        · exact isPlain_of_continuesIdentifier (by rw [Text.continuesIdentifier, hf]; rfl)
        · exact isPlain_of_continuesIdentifier (hr c hc)
    · simp only [List.forall_mem_cons, List.not_mem_nil, false_implies, implies_true, and_true]
      decide
  have hne (t : String) (ht : t.toList.length < 3) : s.fileName ≠ t := by
    rintro rfl
    rw [hl, List.length_append] at ht
    exact absurd ht (by simp)
  simp only [isArtifactName, Bool.and_eq_true, decide_eq_true_iff, List.all_eq_true, Bool.not_eq_true']
  refine ⟨⟨⟨hne "" (by decide), hne "." (by decide)⟩, hne ".." (by decide)⟩, fun c h => ?_⟩
  obtain ⟨hslash, hback, hcontrol⟩ := hc c h
  exact ⟨⟨hslash, hback⟩, hcontrol⟩

/-- No name is the record's name without its ending. -/
theorem fileName_ne_artifactName (h : isNameText s.name) : s.fileName ≠ DiagnosticLog.artifactName := by
  intro he
  have he := congrArg String.toList he
  rw [toList_fileName, show DiagnosticLog.artifactName.toList = "Error.selfgen.g".toList ++ ['.', 'r', 's'] by decide]
    at he
  rw [String.toList_inj.mp (List.append_cancel_right he)] at h
  exact absurd h (by decide)

end SupportModule

theorem PassConfig.isNameText_of_validate {c : PassConfig} (h : c.validate = .ok ()) : isNameText c.supportName := by
  cases hn : isNameText c.supportName with
  | true => rfl
  | false => simp [PassConfig.validate, hn] at h

end GeneratorHost
