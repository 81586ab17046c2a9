import GeneratorHost.Proofs.Reading.Blocks
import GeneratorHost.Grammar.Item

/-! Functions without generics whose parameters are names with types. -/
namespace GeneratorHost.Grammar
open Token Reader

variable {ts mid rest : List Token} {g : Grammar} {name : Bool × String} {type : List Token}
  {first : Bool} {d : Nat}

/-! ### Parameters -/

/-- A type that is read in front of whatever ends one. -/
structure IsType (g : Grammar) (ts : List Token) : Prop where
  reads (rest : List Token) (h : EndsType rest) : Reads (g (.type true)) (ts ++ rest) (fun _ => True) rest
  dots (rest : List Token) : isMark "..." (ts ++ rest) = false

/-- A parameter with its type. -/
def parameter (name : Bool × String) (type : List Token) : List Token := nameToken name :: .punct ':' false default :: type

/-- A name as a pattern. -/
theorem reads_pattern_name (hname : IsName name) (ts : List Token) :
    Reads (pattern g) (nameToken name :: .punct ':' false default :: ts) (fun _ => True) (.punct ':' false default :: ts) := by
  have hw {word : String} (hw : word ∈ reserved) : isWord word (nameToken name :: .punct ':' false default :: ts) = false :=
    hname.isWord hw _
  unfold pattern
  dsimp only
  refine Reads.unless ?_ ?_
  · rw [hname.ahead, isMark_name, isMark_name, hw (by decide), hw (by decide), hw (by decide), hw (by decide)]
    rfl
  refine Reads.unless_word (hw (by decide)) (Reads.unless (hw (by decide)) (Reads.unless ?_ (Reads.when ?_ ?_)))
  · change (false || (isWord "true" _ || isWord "false" _) || _) = false
    rw [hw (by decide), hw (by decide), hw (by decide)]
    rfl
  · rw [hname.ahead, Bool.or_true]
  have hb : Reads (bindingPattern g) (nameToken name :: .punct ':' false default :: ts) (fun _ => True)
      (.punct ':' false default :: ts) := by
    refine (reads_word?_of_not (hw (by decide))).seq ((reads_word?_of_not (hw (by decide))).seq ?_)
    refine Reads.unless (hw (by decide)) ((hname.reads_name _).bind fun _ _ => ?_)
    exact Reads.unless_mark rfl (Reads.pure trivial)
  exact hb.bind fun _ _ => Reads.pure trivial

/-- One more parameter. -/
def parameterStep (g : Grammar) (first : Bool) : Reader (Bool × Bool) := do
  if ← atEnd then return (false, first)
  let _ ← outerAttributes g
  if ← ahead (isMark "...") then
    finalDots
    return (false, first)
  if (← attempt (receiver g)).isSome then require first
  else if (← ahead isName) && (← ahead2 (isMark "<")) then
    write (Token.word "_" :: Token.mark [':'])
    let _ ← g (.type true)
  else
    let _ ← g .pattern
    mark ":"
    if ← ahead (isMark "...") then
      finalDots
      return (false, first)
    let _ ← g (.type true)
  if ← atEnd then return (false, first)
  mark ","
  return (true, false)

theorem fails_receiver (hname : IsName name) (ts : List Token) : Fails (receiver g) (nameToken name :: ts) := by
  unfold receiver
  refine (reads_mark?_of_not (isMark_name _ name _)).fails ?_
  refine (reads_word?_of_not (hname.isWord (by decide) _)).fails ?_
  exact (fails_word (hname.isWord (by decide) _)).bind

/-- A parameter is read up to what is behind its type. -/
theorem reads_parameterStep {P : Bool × Bool → Prop} (hname : IsName name) (ht : IsType (grammar (d + 1)) type) (he : EndsType mid)
    (h : Reads (do
      if ← atEnd then return (false, first)
      mark ","
      return (true, false)) mid P rest) :
    Reads (parameterStep (grammar (d + 1)) first) (parameter name type ++ mid) P rest := by
  have hp : Reads (grammar (d + 1) .pattern) (parameter name type ++ mid) (fun _ => True) (.punct ':' false default :: (type ++ mid)) :=
    reads_pattern_name hname _
  have hn : Reads (ahead isName) (parameter name type ++ mid) (· = true) _ := reads_ahead (hname.ahead _)
  have hl : Reads (ahead2 (isMark "<")) (parameter name type ++ mid) (· = false) _ := reads_ahead rfl
  have hcolon : Reads (mark ":") (Token.mark ":".toList ++ (type ++ mid)) (fun _ => True) (type ++ mid) := reads_mark (by decide)
  unfold parameterStep
  refine Reads.unless rfl ((reads_outerAttributes_none (isMark_name _ name _)).seq (Reads.unless (isMark_name _ name _) ?_))
  refine (fails_receiver hname _).attempt.seq (hn.seq (hl.seq (hp.bind fun _ _ => ?_)))
  exact hcolon.bind fun _ _ => Reads.unless (ht.dots mid) ((ht.reads mid he).bind fun _ _ => h)

theorem endsType_nil : EndsType [] := ⟨rfl, rfl, rfl, rfl, rfl⟩

theorem endsType_comma (ts : List Token) : EndsType (.punct ',' false default :: ts) := ⟨rfl, rfl, rfl, rfl, rfl⟩

theorem endsType_brace (content ts : List Token) : EndsType (.group .brace content default :: ts) := ⟨rfl, rfl, rfl, rfl, rfl⟩

theorem reads_parameters_single (hname : IsName name) (ht : IsType (grammar (d + 1)) type) :
    Reads (parameters (grammar (d + 1))) (parameter name type) (fun _ => True) [] := by
  have hs : Reads (parameterStep (grammar (d + 1)) true) (parameter name type ++ []) (fun r => r.1 = false ∧ True) [] :=
    reads_parameterStep hname ht endsType_nil (Reads.when rfl (Reads.pure ⟨rfl, trivial⟩))
  rw [List.append_nil] at hs
  have hi : Reads (iterate (parameterStep (grammar (d + 1))) true) (parameter name type) (fun _ => True) [] := hs.iterate
  exact hi.bind fun _ _ => Reads.pure trivial

/-- Parameters with a comma behind each. -/
def parameterList (parameters : List ((Bool × String) × List Token)) : List Token :=
  parameters.flatMap fun p => parameter p.1 p.2 ++ [.punct ',' false default]

theorem length_le_parameterList (parameters : List ((Bool × String) × List Token)) :
    parameters.length ≤ (parameterList parameters).length := by
  induction parameters with
  | nil => exact Nat.le_refl 0
  | cons p parameters ih =>
    rw [parameterList, List.flatMap_cons, List.length_append, List.length_append, List.length_cons]
    exact Nat.le_trans (Nat.add_le_add_right ih 1) (by rw [Nat.add_comm]; exact Nat.add_le_add_right (Nat.le_add_left 1 _) _)

theorem reads_parameters {parameters : List ((Bool × String) × List Token)}
    (h : ∀ p ∈ parameters, IsName p.1 ∧ IsType (grammar (d + 1)) p.2) :
    Reads (Grammar.parameters (grammar (d + 1))) (parameterList parameters) (fun _ => True) [] := by
  have hs (first : Bool) : Repeats (parameterStep (grammar (d + 1))) (parameters.length + 1) first (parameterList parameters)
      (fun _ => True) [] := by
    induction parameters generalizing first with
    | nil => exact .stop (Reads.when rfl (Reads.pure ⟨rfl, trivial⟩))
    | cons p parameters ih =>
      obtain ⟨⟨hname, ht⟩, hs⟩ := List.forall_mem_cons.mp h
      refine .next ?_ (ih hs false)
      rw [parameterList, List.flatMap_cons, List.append_assoc]
      refine reads_parameterStep hname ht (endsType_comma _) (Reads.unless rfl ?_)
      exact (reads_comma _).bind fun _ _ => Reads.pure rfl
  exact ((hs true).iterate (Nat.succ_le_succ (length_le_parameterList parameters))).bind fun _ _ => Reads.pure trivial

/-! ### Signatures -/

variable {params result : List Token}

/-- The front of an unsafe function with a calling convention, up to its parameters. -/
def exportFront (name : Bool × String) : List Token :=
  [.ident false "unsafe" default, .ident false "extern" default, .literal "\"C\"" default, .ident false "fn" default,
    nameToken name]

theorem reads_convention? (ts : List Token) :
    Reads convention? (.ident false "extern" default :: .literal "\"C\"" default :: ts) (fun _ => True) ts := by
  refine Reads.when rfl ((reads_word "extern").bind fun _ _ => Reads.when rfl ?_)
  exact reads_anyToken.bind fun _ _ => Reads.pure trivial

theorem reads_generics_none (h : isMark "<" ts = false) : Reads (generics g) ts (fun _ => True) ts := by
  refine (reads_mark?_of_not h).seq ?_
  exact Reads.pure trivial

theorem reads_whereClause?_none (h : isWord "where" ts = false) : Reads (whereClause? g) ts (fun _ => True) ts :=
  Reads.unless h (Reads.pure trivial)

theorem reads_signature (hname : IsName name)
    (hp : Reads (parameters g) params (fun _ => True) []) (hr : Reads (returnType g true) (result ++ rest) (fun _ => True) rest)
    (hw : isWord "where" rest = false) :
    Reads (signature g false) (exportFront name ++ .group .parenthesis params default :: (result ++ rest))
      (fun s => s.name = name.2 ∧ s.found = []) rest := by
  have hsafe : Reads (ahead (isWord "safe")) (.ident false "extern" default :: .literal "\"C\"" default ::
      .ident false "fn" default :: nameToken name :: .group .parenthesis params default :: (result ++ rest)) (· = false) _ :=
    reads_ahead rfl
  unfold signature
  refine (reads_word?_of_not rfl).seq ((reads_word?_of_not rfl).seq ((reads_word? "unsafe").seq ?_))
  refine hsafe.seq ?_
  refine Reads.bind (p := convention?) (reads_convention? _) fun _ _ => ?_
  refine (reads_word "fn").bind fun _ _ => (hname.reads_name _).seq ?_
  refine (reads_generics_none rfl).collecting.bind fun parameter hparameter => ?_
  refine (reads_inGroup hp).collecting.bind fun input hinput => hr.collecting.bind fun output houtput => ?_
  refine (reads_whereClause?_none hw).collecting.bind fun clause hclause => Reads.pure ⟨rfl, ?_⟩
  rw [hparameter.2, hclause.2, hinput.2, houtput.2]
  rfl

/-! ### Items -/

variable {support callee : Bool × String} {names arguments : List (Bool × String)}

theorem reads_visibility (raw : Bool) (text : String) (ts : List Token) : Reads visibility
    (.ident false "pub" default :: .ident raw text default :: ts) (· = true) (.ident raw text default :: ts) := by
  rintro ⟨r, written, found⟩ hr
  obtain ⟨extent, _, rfl, hm⟩ := exists_of_bareAll_ident hr
  obtain ⟨extent', behind, rfl, hb⟩ := exists_of_bareAll_ident hm
  exact ⟨true, _, rfl, rfl, congrArg (List.cons _) hb, rfl⟩

theorem reads_functionItem (hname : IsName name)
    (hp : Reads (parameters (grammar (d + 7))) params (fun _ => True) [])
    (hr : ∀ body, Reads (returnType (grammar (d + 7)) true) (result ++ .group .brace body default :: rest) (fun _ => True)
      (.group .brace body default :: rest))
    (hc : IsCall support callee names arguments) :
    Reads (functionItem (grammar (d + 7))) (.ident false "pub" default :: exportFront name ++ .group .parenthesis params default ::
      (result ++ .group .brace (guarded (call support callee names arguments)) default :: rest))
      (· = some { head := .fn name.2 }) rest := by
  refine (reads_visibility false "unsafe" _).seq ((reads_signature hname hp (hr _) rfl).bind ?_)
  rintro ⟨_, safe, _⟩ ⟨rfl, rfl⟩
  refine Reads.unless_mark rfl ((reads_functionBody hc).seq (Reads.pure rfl))

end GeneratorHost.Grammar
