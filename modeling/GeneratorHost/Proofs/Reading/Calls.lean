import GeneratorHost.Proofs.Reading.Types
import GeneratorHost.Grammar.Parse

/-! Expressions that are names, and a call of a function with a type argument. -/
namespace GeneratorHost.Grammar
open Token Reader

variable {α : Type} {ts rest : List Token} {g : Grammar} {structs : Bool} {name : Bool × String} {word : String}
  {names : List (Bool × String)} {d : Nat}

/-! ### What is not there -/

theorem reads_outerAttributes_none (h : isMark "#" ts = false) : Reads (outerAttributes g) ts (· = []) ts := by
  unfold outerAttributes
  exact Reads.seq (Reads.iterate (Reads.unless h (Reads.pure ⟨rfl, rfl⟩))) (Reads.pure rfl)

/-- One more attribute at the front, if there is one. -/
def innerStep (g : Grammar) (attributes : List Attribute) : Reader (Bool × List Attribute) := do
  if (← ahead (isMark "#")) && (← ahead2 (isMark "!")) then
    return (true, (← readAttribute g true) :: attributes)
  return (false, attributes)

theorem innerAttributes_eq (g : Grammar) :
    innerAttributes g = iterate (innerStep g) [] >>= fun attributes => pure attributes.reverse := rfl

theorem innerAttributes_of_not {s : ReaderState} (h : (isMark "#" s.rest && isMark "!" (skip s.rest)) = false) :
    innerAttributes g s = some ([], s) := by
  have hstep : innerStep g [] s = some ((false, []), s) := by
    change (if isMark "#" s.rest && isMark "!" (skip s.rest) then _ else pure (false, []) : Reader _) s = _
    rw [h]
    rfl
  have hsteps : iterate (innerStep g) [] s = some ([], s) :=
    (bind_of_eq_some hstep : iterateUpTo (s.rest.length + 1) (innerStep g) [] s = _)
  rw [innerAttributes_eq, bind_of_eq_some hsteps]
  rfl

theorem reads_innerAttributes_none (h : (isMark "#" ts && isMark "!" (skip ts)) = false) :
    Reads (innerAttributes g) ts (· = []) ts := by
  have hu : Unplaced fun ts => isMark "#" ts && isMark "!" (skip ts) := inferInstance
  intro s hs
  exact ⟨[], s, innerAttributes_of_not ((hu.of_bareAll hs).trans h), rfl, hs, rfl⟩

/-- An expression ends here: the tokens do, or a comma comes. -/
def EndsExpression (ts : List Token) : Prop := ts = [] ∨ ∃ behind, ts = .punct ',' false default :: behind

theorem EndsExpression.of_bareAll (h : EndsExpression ts) {ts' : List Token} (hb : bareAll ts' = ts) :
    ts' = [] ∨ ∃ extent behind, ts' = .punct ',' false extent :: behind := by
  rcases h with rfl | ⟨behind, rfl⟩
  · exact .inl (eq_nil_of_bareAll hb)
  · obtain ⟨extent, behind, rfl, -⟩ := exists_of_bareAll_punct hb
    exact .inr ⟨extent, behind, rfl⟩

/-- A reader that leaves the end of an expression alone. -/
theorem reads_of_endsExpression {p : Reader α} {a : α} (hn : ∀ written found, p ⟨[], written, found⟩ = some (a, ⟨[], written, found⟩))
    (hc : ∀ extent behind written found, p ⟨.punct ',' false extent :: behind, written, found⟩ =
      some (a, ⟨.punct ',' false extent :: behind, written, found⟩)) (h : EndsExpression ts) : Reads p ts (· = a) ts := by
  rintro ⟨r, written, found⟩ hs
  refine ⟨a, ⟨r, written, found⟩, ?_, rfl, hs, rfl⟩
  obtain rfl | ⟨extent, behind, rfl⟩ := h.of_bareAll hs
  · exact hn written found
  · exact hc extent behind written found

theorem reads_operators_none (h : EndsExpression ts) : Reads (operators g structs .other .jump) ts (· = .other) ts :=
  reads_of_endsExpression (fun _ _ => rfl) (fun _ _ _ _ => rfl) h

theorem reads_trailers_none (h : EndsExpression ts) : Reads (trailers g .other) ts (· = .other) ts :=
  reads_of_endsExpression (fun _ _ => rfl) (fun _ _ _ _ => rfl) h

/-! ### Names -/

instance : Unplaced startsGenerics := by
  unfold startsGenerics
  infer_instance

instance : Unplaced startsClosure := by
  unfold startsClosure
  infer_instance

/-- A path that nothing else is done with. -/
theorem reads_pathExpression {shape : PathShape} (ha : isMark "<" ts = false) (h : Reads (path g true) ts (· = shape) rest)
    (hm : isMark "!" rest = false) (hb : isGroup .brace rest = false) :
    Reads (pathExpression g structs) ts (· = .other) rest := by
  have hq : Reads (qualifiedPath g true) ts (· = (false, shape)) rest := Reads.unless ha (h.seq (Reads.pure rfl))
  have hbang : Reads (ahead fun ts => isMark "!" ts && !isMark "!=" ts) rest (· = false) rest :=
    reads_ahead (by rw [hm, Bool.false_and])
  refine hq.seq (hbang.seq ?_)
  rw [Bool.and_false]
  refine (reads_ahead hb).seq ?_
  rw [Bool.and_false]
  exact Reads.pure rfl

/-- Tokens that begin a path in an expression. -/
structure LeadsPath (ts : List Token) : Prop where
  path : startsPath ts
  literal : isLiteral ts = false
  async : isWord "async" ts = false
  try_ : isWord "try" ts = false
  closure : startsClosure ts = false
  builtin : isMark "#" (skip ts) = false

theorem reads_atom_path (hl : LeadsPath ts) (h : Reads (pathExpression g structs) ts (· = .other) rest) :
    Reads (atom g structs) ts (· = .other) rest := by
  unfold atom
  refine reads_get fun r written found hr => ?_
  dsimp only
  refine Reads.unless_rest hr hl.literal ?_
  apply Reads.unless_rest hr
  · rw [hl.async, Bool.false_and]
  apply Reads.unless_rest hr
  · rw [hl.try_, Bool.false_and]
  refine Reads.unless_rest hr hl.closure ?_
  apply Reads.unless_rest hr
  · rw [hl.builtin, Bool.and_false]
  apply Reads.when_rest hr
  · rw [hl.path, Bool.true_or]
  exact h

theorem leadsPath_name (hname : IsName name) (h : EndsExpression rest) : LeadsPath (nameToken name :: rest) := by
  have hw {word : String} (hw : word ∈ reserved) : isWord word (nameToken name :: rest) = false := hname.isWord hw rest
  refine ⟨?_, ?_, hw (by decide), hw (by decide), ?_, ?_⟩
  · rw [startsPath, hname.ahead]
    rfl
  · change (isWord "true" _ || isWord "false" _) = false
    rw [hw (by decide), hw (by decide)]
    rfl
  · rw [startsClosure, isMark_name, hw (by decide), hw (by decide), hw (by decide), hw (by decide), hw (by decide)]
    rfl
  · rcases h with rfl | ⟨behind, rfl⟩ <;> rfl

theorem leadsPath_crate (ts : List Token) : LeadsPath (.ident false "crate" default :: colons ++ ts) :=
  ⟨rfl, rfl, rfl, rfl, rfl, rfl⟩

/-- A path begins no operator. -/
theorem reads_unary_path {mid : List Token} (hl : LeadsPath ts) (hh : isMark "#" ts = false) (ha : isMark "&" ts = false)
    (ho : (isMark "*" ts || isMark "!" ts || isMark "-" ts) = false)
    (h : Reads (pathExpression g structs) ts (· = .other) mid) (ht : Reads (trailers g .other) mid (· = .other) rest) :
    Reads (unary g structs) ts (· = .other) rest := by
  refine (reads_outerAttributes_none hh).seq (Reads.unless_mark ha (Reads.unless ho ?_))
  refine (reads_atom_path hl h).seq (ht.seq ((reads_require rfl).bind fun _ _ => Reads.pure rfl))

theorem reads_unary_name (hname : IsName name) (h : EndsExpression rest) :
    Reads (unary g structs) (nameToken name :: rest) (· = .other) rest := by
  refine reads_unary_path (leadsPath_name hname h) (isMark_name _ name _) (isMark_name _ name _) ?_ ?_ (reads_trailers_none h)
  · rw [isMark_name, isMark_name, isMark_name]
    rfl
  · have hn {mark : String} (hn : isMark mark [] = false) (hc : ∀ behind, isMark mark (.punct ',' false default :: behind) = false) :
        isMark mark rest = false := by
      rcases h with rfl | ⟨behind, rfl⟩
      · exact hn
      · exact hc behind
    have hu : Unargued true rest := unargued_of_not (hn rfl fun _ => rfl) (hn rfl fun _ => rfl) true
    refine reads_pathExpression (isMark_name _ name _) (reads_path_name hname hu (hn rfl fun _ => rfl)) (hn rfl fun _ => rfl) ?_
    rcases h with rfl | ⟨behind, rfl⟩ <;> rfl

theorem reads_expression_name (hname : IsName name) (h : EndsExpression rest) :
    Reads (expression (grammar (d + 1)) true) (nameToken name :: rest) (· = .other) rest := by
  refine Reads.seq (reads_unary_name hname h) ?_
  exact reads_operators_none h

/-! ### Arguments -/

/-- Names with commas between them. -/
def listed : List (Bool × String) → List Token
  | [] => []
  | [name] => [nameToken name]
  | name :: names => nameToken name :: .punct ',' false default :: listed names

theorem length_le_listed (names : List (Bool × String)) : names.length ≤ (listed names).length := by
  induction names with
  | nil => exact Nat.le_refl 0
  | cons name names ih =>
    cases names with
    | nil => exact Nat.le_refl 1
    | cons => exact Nat.le_succ_of_le (Nat.succ_le_succ ih)

/-- One more element and the separator behind it. -/
def separatedStep (separator : String) (p : Reader Unit) : Reader Bool := do
  if ← atEnd then return false
  p
  if ← atEnd then return false
  mark separator
  return true

theorem reads_comma (ts : List Token) : Reads (mark ",") (.punct ',' false default :: ts) (fun _ => True) ts :=
  (reads_mark (by decide) : Reads (mark ",") (Token.mark ",".toList ++ ts) _ ts)

theorem reads_separated {p : Reader Unit} (hn : ∀ name ∈ names, IsName name)
    (hp : ∀ name rest, IsName name → EndsExpression rest → Reads p (nameToken name :: rest) (fun _ => True) rest) :
    Reads (separated "," p) (listed names) (fun _ => True) [] := by
  have hs : Repeats (fun _ => do return (← separatedStep "," p, ())) (names.length + 1) () (listed names) (fun _ => True) [] := by
    induction names with
    | nil => exact .stop (Reads.seq (Reads.when rfl (Reads.pure rfl)) (Reads.pure ⟨rfl, trivial⟩))
    | cons name names ih =>
      obtain ⟨hname, hnames⟩ := List.forall_mem_cons.mp hn
      cases names with
      | nil =>
        refine .stop (Reads.seq (Reads.unless rfl ((hp name [] hname (.inl rfl)).bind fun _ _ => ?_)) (Reads.pure ⟨rfl, trivial⟩))
        exact Reads.when rfl (Reads.pure rfl)
      | cons name' names =>
        refine .next (Reads.seq (Reads.unless rfl ((hp name _ hname (.inr ⟨_, rfl⟩)).bind fun _ _ => ?_)) (Reads.pure rfl))
          (ih hnames)
        exact Reads.unless rfl ((reads_comma _).bind fun _ _ => Reads.pure rfl)
  exact hs.iterate (Nat.succ_le_succ (length_le_listed names))

theorem reads_arguments (hn : ∀ name ∈ names, IsName name) (ts : List Token) :
    Reads (arguments (grammar (d + 2))) (.group .parenthesis (listed names) default :: ts) (fun _ => True) ts := by
  refine reads_inGroup (reads_separated hn fun name rest hname h => ?_)
  exact (reads_expression_name hname h).bind fun _ _ => Reads.pure trivial

/-! ### Type arguments -/

/-- A path of more than one name is read as the argument that it is. -/
theorem reads_genericArgument (hn : ∀ name ∈ names, IsName name) (hne : names ≠ []) (he : EndsType rest) :
    Reads (genericArgument (grammar (d + 1))) (.ident false "crate" default :: tail names ++ rest) (· = false) rest := by
  have hl : Reads (ahead isLifetime) (.ident false "crate" default :: tail names ++ rest) (· = false) _ := reads_ahead rfl
  have hp : Reads (ahead2 (isMark "+")) (.ident false "crate" default :: tail names ++ rest) (fun _ => True) _ :=
    (reads_ahead rfl).imp fun _ _ => trivial
  obtain ⟨name, names, rfl⟩ := List.exists_cons_of_ne_nil hne
  refine hl.seq (hp.bind fun _ _ => Reads.unless rfl ?_)
  have ht : Reads (grammar (d + 1) (.type true)) (.ident false "crate" default :: tail (name :: names) ++ rest)
      (· = .path false (plainShape false ("crate" :: (name :: names).map Prod.snd))) rest := reads_type_crate hn he
  exact ht.seq (Reads.pure rfl)

theorem reads_angleList {element : Reader Bool} (h : Reads element ts (· = false) (.punct '>' false default :: rest))
    (hm : isMark ">" ts = false) : Reads (angleList element) ts (fun _ => True) (.punct '>' false default :: rest) := by
  unfold angleList
  refine Reads.bind (Reads.iterate (Reads.unless hm ?_)) (fun _ _ => reads_write _) (P := fun _ => True)
  exact h.capturing.bind fun _ _ => Reads.when rfl (Reads.pure ⟨rfl, trivial⟩)

/-- A path between angle brackets. -/
def angled (names : List (Bool × String)) : List Token :=
  .punct '<' false default :: .ident false "crate" default :: tail names ++ [.punct '>' false default]

theorem endsType_bracket (ts : List Token) : EndsType (.punct '>' false default :: ts) := ⟨rfl, rfl, rfl, rfl, rfl⟩

theorem reads_angleArguments (hn : ∀ name ∈ names, IsName name) (hne : names ≠ []) (ts : List Token) :
    Reads (angleArguments (grammar (d + 1))) (colons ++ angled names ++ ts) (fun _ => True) ts := by
  have hcolons : Reads (mark? "::") (Token.mark "::".toList ++ (angled names ++ ts)) (· = true) (angled names ++ ts) :=
    reads_mark? (by decide)
  have hopen : Reads (mark "<") (Token.mark "<".toList ++ (.ident false "crate" default :: tail names ++ .punct '>' false default :: ts))
      (fun _ => True) _ := reads_mark (by decide)
  have hclose : Reads (mark ">") (Token.mark ">".toList ++ ts) (fun _ => True) ts := reads_mark (by decide)
  have hlist : angled names ++ ts =
      Token.mark "<".toList ++ (.ident false "crate" default :: tail names ++ .punct '>' false default :: ts) := by
    simp [angled, Token.mark]
  rw [List.append_assoc]
  refine hcolons.bind fun _ _ => ?_
  rw [hlist]
  refine hopen.bind fun _ _ => ?_
  exact (reads_angleList (reads_genericArgument hn hne (endsType_bracket ts)) rfl).bind fun _ _ => hclose

/-- A segment with a type argument. -/
theorem IsName.reads_pathSegment_angled (hname : IsName name) (hn : ∀ name ∈ names, IsName name) (hne : names ≠ [])
    (ts : List Token) : Reads (pathSegment (grammar (d + 1)) true) (nameToken name :: (colons ++ angled names ++ ts))
      (· = (name.2, true)) ts := by
  unfold pathSegment
  refine Reads.unless ?_ ?_
  · rw [hname.isWord (by decide), hname.isWord (by decide), hname.isWord (by decide), hname.isWord (by decide)]
    rfl
  refine (reads_ahead (hname.isWord (by decide) _)).seq ((hname.reads_name _).seq ?_)
  refine (reads_ahead rfl).seq ((reads_ahead rfl).seq ((reads_ahead rfl).seq ?_))
  exact (reads_angleArguments hn hne ts).bind fun _ _ => Reads.pure rfl

/-! ### Calls -/

variable {support callee : Bool × String} {arguments : List (Bool × String)}

/-- A call of a function in a module of the crate, with a type argument. -/
def call (support callee : Bool × String) (names arguments : List (Bool × String)) : List Token :=
  .ident false "crate" default :: tail [support] ++ (colons ++ nameToken callee :: (colons ++ angled names ++
    [.group .parenthesis (listed arguments) default]))

/-- All names in a call can be read, and its type argument is a path. -/
structure IsCall (support callee : Bool × String) (names arguments : List (Bool × String)) : Prop where
  module : IsName support
  function : IsName callee
  path : ∀ name ∈ names, IsName name
  path_ne_nil : names ≠ []
  passed : ∀ name ∈ arguments, IsName name

theorem reads_path_angled (h : IsCall support callee names arguments) (hm : isMark "::" ts = false) :
    Reads (path (grammar (d + 1)) true)
      (.ident false "crate" default :: tail [support] ++ (colons ++ nameToken callee :: (colons ++ angled names ++ ts)))
      (· = ⟨⟨false, ["crate", support.2, callee.2]⟩, false, false, false⟩) ts := by
  refine (reads_mark?_of_not rfl).seq ((reads_pathSegment_crate _).seq ?_)
  have hcallee : Repeats (segmentStep (grammar (d + 1)) true continuing) 2 (plainShape false ["crate", support.2])
      (colons ++ nameToken callee :: (colons ++ angled names ++ ts))
      (· = ⟨⟨false, ["crate", support.2, callee.2]⟩, false, false, false⟩) ts := by
    refine .next ?_ (repeats_end hm _)
    refine (reads_continuing callee _).seq ((reads_mark_colons _).bind fun _ _ => ?_)
    exact (h.function.reads_pathSegment_angled h.path h.path_ne_nil ts).seq (Reads.pure rfl)
  refine (repeats_tail (List.forall_mem_singleton.mpr h.module) (unargued_colons true callee _) hcallee).iterate ?_
  simp [tail, colons]

/-- Arguments behind an operand. -/
theorem reads_trailers_arguments (ha : ∀ name ∈ arguments, IsName name) :
    Reads (trailers (grammar (d + 2)) .other) [.group .parenthesis (listed arguments) default] (· = .other) [] := by
  refine Repeats.iterate (n := 2) ?_ (Nat.le_refl 2)
  apply Repeats.next
  · exact Reads.when rfl ((reads_arguments ha []).bind fun _ _ => Reads.pure rfl)
  · refine .stop (Reads.unless rfl ((reads_ahead rfl).seq (Reads.unless rfl ((reads_mark?_of_not rfl).seq ?_))))
    exact Reads.pure ⟨rfl, rfl⟩

end GeneratorHost.Grammar
