import Mathlib.Data.List.Induction
import Mathlib.Tactic.Common
import GeneratorHost.Scope.Table
import GeneratorHost.Unit.Root

/-! Paths of names joined by double colons fall apart into the same names. -/
namespace GeneratorHost

/-- The scope that names lead to from the crate root. -/
def scopePath (names : List String) : String := names.foldl qualify "crate"

theorem scopePath_concat (names : List String) (name : String) :
    scopePath (names ++ [name]) = qualify (scopePath names) name := by
  simp only [scopePath, List.foldl_append, List.foldl_cons, List.foldl_nil]

theorem qualify_toList (scope name : String) :
    (qualify scope name).toList = scope.toList ++ ':' :: ':' :: name.toList := by
  simp [qualify]

theorem scopePath_toList (names : List String) :
    (scopePath names).toList = "crate".toList ++ names.flatMap fun n => ':' :: ':' :: n.toList := by
  induction names using List.reverseRecOn with
  | nil => simp [scopePath]
  | append_singleton names name ih => simp [scopePath_concat, qualify_toList, ih]

theorem crate_append (name : String) : "crate::" ++ name = scopePath [name] := by
  apply String.toList_inj.mp
  simp [scopePath_toList]

theorem not_mem_of_isIdentifier {c : Char} {cs : List Char} (hc : Text.continuesIdentifier c = false)
    (h : UnitRoot.isIdentifier cs) : c ∉ cs := by
  have hs : Text.startsIdentifier c = false := by
    rw [Text.continuesIdentifier, Bool.or_eq_false_iff, Bool.or_eq_false_iff] at hc
    exact hc.1.1
  cases cs with
  | nil => exact List.not_mem_nil
  | cons d cs =>
    simp only [UnitRoot.isIdentifier, Bool.and_eq_true, List.all_eq_true] at h
    rw [List.mem_cons]
    rintro (rfl | hm)
    · simp [hs] at h
    · have := h.2 _ hm
      simp [hc] at this

theorem colon_not_mem_of_isIdentifier {cs : List Char} (h : UnitRoot.isIdentifier cs) : ':' ∉ cs :=
  not_mem_of_isIdentifier (by decide) h

namespace Text

theorem splitColons_of_not_mem {cs : List Char} (h : ':' ∉ cs) : splitColons cs = [cs] := by
  induction cs with
  | nil => rfl
  | cons c cs ih =>
    rw [List.mem_cons, not_or] at h
    rw [splitColons, ih h.2]
    rintro cs' rfl
    exact absurd rfl h.1

/-- A piece without colons ends at the first double colon behind it. -/
theorem splitColons_append {piece : List Char} (h : ':' ∉ piece) (cs : List Char) :
    splitColons (piece ++ ':' :: ':' :: cs) = piece :: splitColons cs := by
  induction piece with
  | nil => rw [List.nil_append, splitColons]
  | cons c piece ih =>
    rw [List.mem_cons, not_or] at h
    rw [List.cons_append, splitColons, ih h.2]
    rintro cs' rfl
    exact absurd rfl h.1

/-- A text is a single piece, or its first piece ends at a double colon. -/
theorem splitColons_cases (cs : List Char) : splitColons cs = [cs] ∨
    ∃ piece rest, cs = piece ++ ':' :: ':' :: rest ∧ splitColons cs = piece :: splitColons rest := by
  fun_induction splitColons cs with
  | case1 cs => exact .inr ⟨[], cs, rfl, rfl⟩
  | case2 c cs _ piece pieces h ih =>
    rw [h] at ih
    rcases ih with he | ⟨piece', rest, rfl, he⟩
    · cases he
      exact .inl rfl
    · cases he
      exact .inr ⟨c :: piece, rest, rfl, rfl⟩
  | case3 c cs _ h ih =>
    rw [h] at ih
    rcases ih with he | ⟨_, _, _, he⟩ <;> cases he
  | case4 => exact .inl rfl

theorem splitColons_flatMap {first : List Char} {pieces : List (List Char)} (hf : ':' ∉ first)
    (hp : ∀ p ∈ pieces, ':' ∉ p) :
    splitColons (first ++ pieces.flatMap fun p => ':' :: ':' :: p) = first :: pieces := by
  induction pieces generalizing first with
  | nil => rw [List.flatMap_nil, List.append_nil, splitColons_of_not_mem hf]
  | cons piece pieces ih =>
    rw [List.forall_mem_cons] at hp
    rw [List.flatMap_cons, List.cons_append, List.cons_append, splitColons_append hf, ih hp.1 hp.2]

theorem cutLastColons_of_not_mem {cs : List Char} (h : ':' ∉ cs) : cutLastColons cs = none := by
  induction cs with
  | nil => rfl
  | cons c cs ih =>
    rw [List.mem_cons, not_or] at h
    rw [cutLastColons, ih h.2]
    grind

/-- The last double colon stands where none follows. -/
theorem cutLastColons_append (before : List Char) {behind : List Char} (h : ':' ∉ behind) :
    cutLastColons (before ++ ':' :: ':' :: behind) = some (before, behind) := by
  induction before with
  | nil =>
    have hb : cutLastColons (':' :: behind) = none := by
      rw [cutLastColons, cutLastColons_of_not_mem h]
      grind
    rw [List.nil_append, cutLastColons, hb]
  | cons c before ih =>
    unfold cutLastColons
    simp only [List.cons_append, ih]

theorem eq_append_of_cutLastColons {cs before behind : List Char}
    (h : cutLastColons cs = some (before, behind)) : cs = before ++ ':' :: ':' :: behind := by
  induction cs generalizing before with
  | nil => cases h
  | cons c cs ih =>
    unfold cutLastColons at h
    cases hc : cutLastColons cs with
    | some cut =>
      obtain ⟨front, rest⟩ := cut
      rw [hc] at h
      cases h
      rw [ih hc, List.cons_append]
    | none =>
      rw [hc] at h
      dsimp only at h
      split at h
      · cases h
        rfl
      · cases h

end Text

/-- The scope around a name without colons. -/
theorem parentModule?_qualify (scope : String) {name : String} (h : ':' ∉ name.toList) :
    parentModule? (qualify scope name) = some scope := by
  rw [parentModule?, qualify_toList, Text.cutLastColons_append _ h, Option.map_some]
  exact congrArg some String.ofList_toList

/-- Names without colons come back from their path. -/
theorem splitColons_scopePath {names : List String} (h : ∀ n ∈ names, ':' ∉ n.toList) :
    (Text.splitColons (scopePath names).toList).map String.ofList = "crate" :: names := by
  have hf := Text.splitColons_flatMap (by decide : ':' ∉ "crate".toList)
    (by simpa using h : ∀ p ∈ names.map String.toList, ':' ∉ p)
  rw [List.flatMap_map] at hf
  rw [scopePath_toList, hf]
  simp

end GeneratorHost
