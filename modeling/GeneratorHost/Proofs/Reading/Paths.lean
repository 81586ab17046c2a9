import GeneratorHost.Proofs.Reading.Basic
import GeneratorHost.Grammar.Type

/-! Paths where all names on them are known. -/
namespace GeneratorHost.Grammar
open Token Reader

variable {ts mid rest : List Token} {g : Grammar} {expression isGlobal : Bool} {name : Bool × String}
  {names : List (Bool × String)} {segments : List String}

/-! ### Names -/

/-- A name as it is written, raw or plain. -/
abbrev nameToken (name : Bool × String) : Token := .ident name.1 name.2 default

/-- A name is raw or no reserved word. -/
def IsName (name : Bool × String) : Prop := name.1 = true ∨ name.2 ∉ reserved

instance (name : Bool × String) : Decidable (IsName name) := inferInstanceAs (Decidable (_ ∨ _))

theorem IsName.ahead (h : IsName name) (ts : List Token) : Reader.isName (nameToken name :: ts) := by
  rw [Reader.isName, Bool.or_eq_true, Bool.not_eq_true', ← Bool.not_eq_true, List.contains_iff_mem]
  exact h

theorem IsName.isWord (h : IsName name) {word : String} (hw : word ∈ reserved) (ts : List Token) :
    isWord word (nameToken name :: ts) = false := by
  obtain ⟨raw, name⟩ := name
  cases raw with
  | true => rfl
  | false =>
    refine decide_eq_false ?_
    rintro rfl
    exact h.elim Bool.false_ne_true (absurd hw)

theorem isMark_name (mark : String) (name : Bool × String) (ts : List Token) :
    isMark mark (nameToken name :: ts) = false := by
  unfold isMark
  cases mark.toList with
  | nil => rfl
  | cons c cs => cases cs <;> rfl

theorem IsName.reads_name (h : IsName name) (ts : List Token) : Reads Reader.name (nameToken name :: ts) (· = name.2) ts :=
  reads_nameIf (h.ahead ts)

/-! ### Segments -/

/-- A double colon. -/
def colons : List Token := [.punct ':' true default, .punct ':' false default]

/-- Names with a double colon in front of each. -/
def tail (names : List (Bool × String)) : List Token := names.flatMap fun name => colons ++ [nameToken name]

theorem tail_cons (name : Bool × String) (names : List (Bool × String)) :
    tail (name :: names) = colons ++ nameToken name :: tail names := rfl

theorem length_tail (names : List (Bool × String)) : (tail names).length = 3 * names.length := by
  induction names with
  | nil => rfl
  | cons name names ih =>
    rw [tail_cons, List.length_append, List.length_cons, ih, List.length_cons, colons]
    exact (Nat.add_comm _ _).trans (Nat.mul_succ 3 names.length).symm

/-- No generic arguments begin here. -/
structure Unargued (expression : Bool) (ts : List Token) : Prop where
  bracket : expression = false → isMark "<" ts = false
  colons : isMark "::" ts → isMark "<" (skip (skip ts)) = false

theorem unargued_colons (expression : Bool) (name : Bool × String) (ts : List Token) :
    Unargued expression (colons ++ nameToken name :: ts) where
  bracket _ := rfl
  colons _ := isMark_name "<" name ts

theorem unargued_of_not (hb : isMark "<" ts = false) (hc : isMark "::" ts = false) (expression : Bool) :
    Unargued expression ts where
  bracket _ := hb
  colons h := absurd h (by rw [hc]; exact Bool.false_ne_true)

theorem unargued_tail (h : Unargued expression mid) (names : List (Bool × String)) :
    Unargued expression (tail names ++ mid) := by
  cases names with
  | nil => exact h
  | cons name names => exact unargued_colons expression name _

theorem reads_pathSegment_crate (ts : List Token) :
    Reads (pathSegment g expression) (.ident false "crate" default :: ts) (· = ("crate", false)) ts := by
  unfold pathSegment
  refine Reads.when rfl ?_
  exact reads_anyName.seq (Reads.pure rfl)

theorem IsName.reads_pathSegment (h : IsName name) (hu : Unargued expression ts) :
    Reads (pathSegment g expression) (nameToken name :: ts) (· = (name.2, false)) ts := by
  unfold pathSegment
  refine Reads.unless ?_ ?_
  · rw [h.isWord (by decide), h.isWord (by decide), h.isWord (by decide), h.isWord (by decide)]
    rfl
  refine (reads_ahead (h.isWord (by decide) ts)).seq ((h.reads_name ts).seq ?_)
  have hangle : (!expression && isMark "<" ts && !isMark "<=" ts && !isMark "<<=" ts) = false := by
    cases expression with
    | true => rfl
    | false => rw [hu.bracket rfl, Bool.and_false, Bool.false_and, Bool.false_and]
  have hcolons : (false || isMark "::" ts && isMark "<" (skip (skip ts))) = false := by
    cases hm : isMark "::" ts with
    | false => rfl
    | true => exact hu.colons hm
  refine (reads_ahead hangle).seq ((reads_ahead rfl).seq ((reads_ahead rfl).seq ?_))
  rw [if_neg (by rw [hcolons]; exact Bool.false_ne_true)]
  exact Reads.pure rfl

/-! ### Paths -/

/-- Whether one more segment follows. -/
def continuing : Reader Bool := return (← ahead (isMark "::")) && !(← ahead3 (isGroup .parenthesis))

/-- A path without generic arguments. -/
def plainShape (isGlobal : Bool) (segments : List String) : PathShape := ⟨⟨isGlobal, segments⟩, true, true, false⟩

/-- One more step of a path. -/
def segmentStep (g : Grammar) (expression : Bool) (continues : Reader Bool) (shape : PathShape) : Reader (Bool × PathShape) := do
  if ← continues then
    mark "::"
    let (segment, hasArguments) ← pathSegment g expression
    return (true, ⟨⟨shape.path.isGlobal, shape.path.segments ++ [segment]⟩,
      shape.plain && !hasArguments, !hasArguments, false⟩)
  return (false, shape)

theorem moreSegments_eq (continues : Reader Bool) (shape : PathShape) :
    moreSegments g expression continues shape = iterate (segmentStep g expression continues) shape := rfl

theorem reads_continuing_of_not (h : isMark "::" ts = false) : Reads continuing ts (· = false) ts :=
  (reads_ahead h).seq ((reads_ahead rfl).seq (Reads.pure rfl))

theorem reads_continuing (name : Bool × String) (ts : List Token) :
    Reads continuing (colons ++ nameToken name :: ts) (· = true) (colons ++ nameToken name :: ts) := by
  have hm : Reads (ahead (isMark "::")) (colons ++ nameToken name :: ts) (· = true) _ := reads_ahead rfl
  have hg : Reads (ahead3 (isGroup .parenthesis)) (colons ++ nameToken name :: ts) (· = false) _ := reads_ahead rfl
  exact hm.seq (hg.seq (Reads.pure rfl))

theorem reads_mark_colons (ts : List Token) : Reads (mark "::") (colons ++ ts) (fun _ => True) ts :=
  (reads_mark (by decide) : Reads (mark "::") (Token.mark "::".toList ++ ts) _ ts)

theorem IsName.reads_segmentStep (h : IsName name) (hu : Unargued expression ts) :
    Reads (segmentStep g expression continuing (plainShape isGlobal segments)) (colons ++ nameToken name :: ts)
      (· = (true, plainShape isGlobal (segments ++ [name.2]))) ts := by
  refine (reads_continuing name ts).seq ((reads_mark_colons _).bind fun _ _ => ?_)
  exact (h.reads_pathSegment hu).seq (Reads.pure rfl)

variable {n : Nat} {P : PathShape → Prop}

/-- Names on a path are read before what follows. -/
theorem repeats_tail (hn : ∀ name ∈ names, IsName name) (hu : Unargued expression mid)
    (h : Repeats (segmentStep g expression continuing) n (plainShape isGlobal (segments ++ names.map Prod.snd)) mid P rest) :
    Repeats (segmentStep g expression continuing) (n + names.length) (plainShape isGlobal segments) (tail names ++ mid) P rest := by
  induction names generalizing segments with
  | nil => rwa [List.map_nil, List.append_nil] at h
  | cons name names ih =>
    obtain ⟨hname, hnames⟩ := List.forall_mem_cons.mp hn
    rw [List.map_cons, List.append_cons] at h
    exact .next (hname.reads_segmentStep (unargued_tail hu names)) (ih hnames h)

theorem repeats_end (h : isMark "::" ts = false) (shape : PathShape) :
    Repeats (segmentStep g expression continuing) 1 shape ts (· = shape) ts :=
  .stop ((reads_continuing_of_not h).seq (Reads.pure ⟨rfl, rfl⟩))

/-- Further segments up to something that is not one. -/
theorem reads_moreSegments (hn : ∀ name ∈ names, IsName name) (hu : Unargued expression rest) (hc : isMark "::" rest = false) :
    Reads (moreSegments g expression continuing (plainShape isGlobal segments)) (tail names ++ rest)
      (· = plainShape isGlobal (segments ++ names.map Prod.snd)) rest := by
  rw [moreSegments_eq]
  refine (repeats_tail hn hu (repeats_end hc _)).iterate ?_
  rw [List.length_append, length_tail]
  omega

/-- A path from the crate. -/
theorem reads_path_crate (hn : ∀ name ∈ names, IsName name) (hu : Unargued expression rest) (hc : isMark "::" rest = false) :
    Reads (path g expression) (.ident false "crate" default :: tail names ++ rest)
      (· = plainShape false ("crate" :: names.map Prod.snd)) rest := by
  refine (reads_mark?_of_not rfl).seq ((reads_pathSegment_crate _).seq ?_)
  exact reads_moreSegments hn hu hc

/-- A path from outside. -/
theorem reads_path_global (hname : IsName name) (hn : ∀ name ∈ names, IsName name) (hu : Unargued expression rest)
    (hc : isMark "::" rest = false) :
    Reads (path g expression) (tail (name :: names) ++ rest) (· = plainShape true (name.2 :: names.map Prod.snd)) rest := by
  have hm : Reads (mark? "::") (colons ++ nameToken name :: (tail names ++ rest)) (· = true) _ :=
    (reads_mark? (by decide) : Reads (mark? "::") (Token.mark "::".toList ++ _) _ _)
  refine hm.seq ((hname.reads_pathSegment (unargued_tail hu names)).seq ?_)
  exact reads_moreSegments hn hu hc

/-- A path that is a name. -/
theorem reads_path_name (hname : IsName name) (hu : Unargued expression rest) (hc : isMark "::" rest = false) :
    Reads (path g expression) (nameToken name :: rest) (· = plainShape false [name.2]) rest := by
  refine (reads_mark?_of_not (isMark_name _ name _)).seq ((hname.reads_pathSegment hu).seq ?_)
  have hn : ∀ name ∈ ([] : List (Bool × String)), IsName name := List.forall_mem_nil _
  exact reads_moreSegments hn hu hc

end GeneratorHost.Grammar
