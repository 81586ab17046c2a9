import GeneratorHost.Token.Lexer

/-! The rounds in which tokens are read. Every round reads on from where the last one stopped, and what was read
stays. -/
namespace GeneratorHost.Token

variable {c : Char} {cs : List Char} {fuel : Nat} {frames : List Frame} {done done' ts : List Token}

/-- Whether the mark that a token belongs to goes on behind it. -/
def isJoint : Token → Bool
  | .punct _ joint _ => joint
  | _ => false

theorem Cursor.rest_advance (n : Nat) (c : Cursor) : (c.advance n).rest = c.rest.drop n := by
  fun_induction Cursor.advance n c with
  | case1 => rfl
  | case2 n x xs p ih => exact ih
  | case3 => rfl

@[simp] theorem skipBlanks_of_blankLength_eq_zero {c : Cursor} (h : blankLength c.rest = 0) (fuel : Nat) :
    skipBlanks fuel c = c := by
  cases fuel with
  | zero => rfl
  | succ fuel => rw [skipBlanks, h]

/-- What the outermost row holds, latest first. -/
def outermost : List Frame → List Token → List Token
  | [], done => done
  | frame :: frames, _ => outermost frames frame.before

theorem length_outermost_le (frames : List Frame) (h : done.length ≤ done'.length) :
    (outermost frames done).length ≤ (outermost frames done').length := by
  cases frames with
  | nil => exact h
  | cons => exact Nat.le_refl _

/-- What was read stays. -/
theorem length_le_of_readAll {cursor : Cursor} (h : readAll fuel frames done cursor = some ts) :
    (outermost frames done).length ≤ ts.length := by
  induction fuel generalizing frames done cursor with
  | zero => cases h
  | succ fuel ih =>
    rw [readAll] at h
    split at h
    · split at h
      · refine Nat.le_trans (length_outermost_le frames ?_) (ih h)
        rw [List.length_append]
        exact Nat.le_add_left _ _
      · cases h
    split at h
    · cases frames with
      | nil =>
        cases h
        exact Nat.le_of_eq List.length_reverse.symm
      | cons => cases h
    split at h
    · have hl := ih h
      exact hl
    · cases frames with
      | nil => cases h
      | cons frame outer =>
        dsimp only at h
        split at h
        · exact Nat.le_trans (length_outermost_le outer (Nat.le_succ _)) (ih h)
        · cases h
    · split at h
      · exact Nat.le_trans (length_outermost_le frames (Nat.le_succ _)) (ih h)
      · cases h

/-- A text that begins with neither blanks nor comments, documentation included, nor a delimiter. -/
structure Plain (cs : List Char) : Prop where
  ne_nil : cs ≠ []
  blank : blankLength cs = 0
  documentation : docComment? cs = none
  opening : opens cs = none
  closing : closes cs = none

theorem readAll_leaf {cursor : Cursor} {n : Nat} {make : Extent → Token} (hp : Plain cursor.rest)
    (hl : leaf? cursor.rest = some (n, make)) : readAll (fuel + 1) frames done cursor =
      readAll fuel frames (make ⟨cursor.place, (cursor.advance n).place⟩ :: done) (cursor.advance n) := by
  rw [readAll, skipBlanks_of_blankLength_eq_zero hp.blank, hp.documentation, hp.opening, hp.closing, hl]
  simp only [List.isEmpty_iff, hp.ne_nil, if_false]

theorem plain_of_ne (hs : separates c = false) (hc : c ∉ ['/', '(', ')', '[', ']', '\x7b', '\x7d']) : Plain (c :: cs) := by
  simp only [List.mem_cons, List.not_mem_nil, or_false, not_or] at hc
  obtain ⟨hsl, h1, h2, h3, h4, h5, h6⟩ := hc
  constructor
  · exact List.cons_ne_nil c cs
  · unfold blankLength
    split <;> simp_all
  · unfold docComment?
    split <;> simp_all
  · unfold opens
    split <;> simp_all
  · unfold closes
    split <;> simp_all

end GeneratorHost.Token
