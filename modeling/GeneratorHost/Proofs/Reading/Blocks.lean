import GeneratorHost.Proofs.Reading.Calls
import GeneratorHost.Grammar.Signature

/-! A block with a call in an unsafe block, as a function's body. -/
namespace GeneratorHost.Grammar
open Token Reader

variable {ts : List Token} {g : Grammar} {name : Bool × String} {support callee : Bool × String}
  {names arguments : List (Bool × String)} {d : Nat}

/-! ### Statements -/

theorem reads_statements (hs : isMark ";" ts = false) (hn : ts.isEmpty = false) (h : Reads (statement g) ts (fun _ => True) []) :
    Reads (statements g) ts (fun _ => True) [] := by
  unfold statements repeating
  refine Reads.iterate (Reads.seq (a := false) ?_ (Reads.pure ⟨rfl, trivial⟩))
  refine (reads_mark?_of_not hs).seq (Reads.unless hn (h.bind fun _ _ => Reads.when rfl (Reads.pure rfl)))

/-- No macro call begins here, as no plain path is in front of anything. -/
theorem behindPath_of_fails (h : Fails modPath ts) {r : List Token} (hr : bareAll r = ts) : behindPath r = none := by
  rw [behindPath, h ⟨r, #[], #[]⟩ hr]
  rfl

/-- An expression as the last statement. -/
theorem reads_statement (hp : Fails modPath ts) (hh : isMark "#" ts = false) (hl : isWord "let" ts = false)
    (hi : ∀ r, bareAll r = ts → startsItem r = startsMacroItem r) (h : Reads (g .early) ts (fun _ => True) []) :
    Reads (statement g) ts (fun _ => True) [] := by
  unfold statement
  refine reads_get fun _ _ _ _ => (reads_outerAttributes_none hh).seq (reads_get fun r written found hr => ?_)
  have hm : startsMacroStatement r = false := by rw [startsMacroStatement, behindPath_of_fails hp hr]
  have hi : startsItem r = false := by rw [hi r hr, startsMacroItem, behindPath_of_fails hp hr]
  have hl : isWord "let" r = false := (Unplaced.of_bareAll hr).trans hl
  dsimp only
  rw [hm, hi, hl]
  exact h.bind fun shape _ => (reads_mark?_of_not rfl).seq (Reads.pure trivial)

theorem reads_blockBody (hh : isMark "#" ts = false) (h : Reads (g .statements) ts (fun _ => True) []) :
    Reads (blockBody g) ts (fun _ => True) [] :=
  (reads_innerAttributes_none (by rw [hh, Bool.false_and])).seq (h.bind fun _ _ => Reads.pure trivial)

/-! ### The call -/

instance : Unplaced isPathWord := by
  unfold isPathWord
  infer_instance

/-- One more segment of a plain path. -/
def modPathStep (segments : List String) : Reader (Bool × List String) := do
  if ← mark? "::" then return (true, (← pathWord) :: segments) else return (false, segments)

theorem reads_mark?_colons (ts : List Token) : Reads (mark? "::") (colons ++ ts) (· = true) ts :=
  (reads_mark? (by decide) : Reads (mark? "::") (Token.mark "::".toList ++ ts) _ ts)

theorem reads_pathWord_crate : Reads pathWord (.ident false "crate" default :: ts) (· = "crate") ts := reads_nameIf rfl

theorem IsName.reads_pathWord (h : IsName name) (ts : List Token) : Reads pathWord (nameToken name :: ts) (· = name.2) ts := by
  refine reads_nameIf ?_
  rw [isPathWord, h.ahead]
  rfl

/-- The path of the call goes on with what is no name. -/
theorem fails_modPath_call (hs : IsName support) (hc : IsName callee) : Fails modPath (call support callee names arguments) := by
  have hmore (segments : List String) (name : Bool × String) (hname : IsName name) (ts : List Token) :
      Reads (modPathStep segments) (colons ++ nameToken name :: ts) (· = (true, name.2 :: segments)) ts :=
    (reads_mark?_colons _).seq ((hname.reads_pathWord ts).seq (Reads.pure rfl))
  have hend (segments : List String) (ts : List Token) :
      Fails (modPathStep segments) (colons ++ .punct '<' false default :: ts) :=
    (reads_mark?_colons _).fails ((reads_ahead rfl).fails (fails_require rfl).bind).bind
  refine (reads_mark?_of_not rfl).fails (reads_pathWord_crate.fails ?_)
  refine (fails_iterate ?_).bind
  exact (hmore _ support hs _).fails_iterateUpTo ((hmore _ callee hc _).fails_iterateUpTo (hend _ _).iterateUpTo)

theorem reads_controlFlow_crate (ts : List Token) :
    Reads (controlFlow g) (.ident false "crate" default :: ts) (· = false) (.ident false "crate" default :: ts) := by
  unfold controlFlow
  refine reads_get fun r written found hr => ?_
  obtain ⟨extent, behind, rfl, -⟩ := exists_of_bareAll_ident hr
  exact Reads.pure rfl

theorem reads_early_call (h : IsCall support callee names arguments) :
    Reads (early (grammar (d + 3))) (call support callee names arguments) (fun _ => True) [] := by
  have hpath : Reads (pathExpression (grammar (d + 2)) true) (call support callee names arguments) (· = .other)
      [.group .parenthesis (listed arguments) default] :=
    reads_pathExpression rfl (reads_path_angled h rfl) rfl rfl
  have hunary : Reads (grammar (d + 3) (.unary true)) (call support callee names arguments) (· = .other) [] :=
    reads_unary_path (leadsPath_crate _) rfl rfl rfl hpath (reads_trailers_arguments h.passed)
  have hoperators : Reads (grammar (d + 3) (.operators true .other .jump)) [] (· = .other) [] :=
    reads_operators_none (.inl rfl)
  refine (reads_outerAttributes_none rfl).seq ((reads_controlFlow_crate _).seq (hunary.seq ?_))
  exact hoperators.imp fun _ _ => trivial

theorem startsItem_crate {r : List Token} (h : bareAll r = .ident false "crate" default :: colons ++ ts) :
    startsItem r = startsMacroItem r := by
  obtain ⟨extent, _, rfl, hm⟩ := exists_of_bareAll_ident h
  obtain ⟨extent', _, rfl, hc⟩ := exists_of_bareAll_punct hm
  obtain ⟨extent'', behind, rfl, -⟩ := exists_of_bareAll_punct hc
  rfl

theorem reads_statements_call (h : IsCall support callee names arguments) :
    Reads (statements (grammar (d + 4))) (call support callee names arguments) (fun _ => True) [] := by
  refine reads_statements rfl rfl (reads_statement (fails_modPath_call h.module h.function) rfl rfl (fun r hr => startsItem_crate hr) ?_)
  exact reads_early_call h

/-! ### The block around it -/

/-- An unsafe block. -/
def guarded (ts : List Token) : List Token := [.ident false "unsafe" default, .group .brace ts default]

theorem exists_of_bareAll_guarded {r : List Token} (h : bareAll r = guarded ts) : ∃ extent content extent',
    r = [.ident false "unsafe" extent, .group .brace content extent'] ∧ bareAll content = ts := by
  obtain ⟨extent, _, rfl, hg⟩ := exists_of_bareAll_ident h
  obtain ⟨content, extent', _, rfl, hc, hb⟩ := exists_of_bareAll_group hg
  obtain rfl := eq_nil_of_bareAll hb
  exact ⟨extent, content, extent', rfl, hc⟩

theorem reads_controlFlow_guarded (hh : isMark "#" ts = false) (h : Reads (g .statements) ts (fun _ => True) []) :
    Reads (controlFlow g) (guarded ts) (· = true) [] := by
  unfold controlFlow
  refine reads_get fun r written found hr => ?_
  have hblock : Reads (wordBlock g "unsafe") (guarded ts) (fun _ => True) [] := by
    refine (reads_word "unsafe").bind fun _ _ => ?_
    exact (reads_inGroup (reads_blockBody hh h)).bind fun _ _ => Reads.pure trivial
  have hu : Reads (do wordBlock g "unsafe"; return true) (guarded ts) (· = true) [] := hblock.bind fun _ _ => Reads.pure rfl
  obtain ⟨extent, content, extent', rfl, hc⟩ := exists_of_bareAll_guarded hr
  exact hu

theorem reads_early_guarded (hh : isMark "#" ts = false) (h : Reads (g .statements) ts (fun _ => True) []) :
    Reads (early g) (guarded ts) (fun _ => True) [] := by
  refine (reads_outerAttributes_none rfl).seq ((reads_controlFlow_guarded hh h).seq ?_)
  exact Reads.unless rfl (Reads.pure trivial)

theorem reads_statements_guarded (hh : isMark "#" ts = false) (h : Reads (grammar (d + 1) .statements) ts (fun _ => True) []) :
    Reads (statements (grammar (d + 2))) (guarded ts) (fun _ => True) [] := by
  have hpath : Fails modPath (guarded ts) := by
    refine (reads_mark?_of_not rfl).fails (Fails.bind ?_)
    exact (reads_ahead rfl).fails (fails_require rfl).bind
  refine reads_statements rfl rfl (reads_statement hpath rfl rfl (fun r hr => ?_) (reads_early_guarded hh h))
  obtain ⟨extent, content, extent', rfl, -⟩ := exists_of_bareAll_guarded hr
  rfl

/-- A body that is an unsafe block with a call in it. -/
theorem reads_functionBody (h : IsCall support callee names arguments) : Reads (functionBody (grammar (d + 7)))
      (.group .brace (guarded (call support callee names arguments)) default :: ts) (· = ([], [], [])) ts := by
  have hcall : Reads (grammar (d + 5) .statements) (call support callee names arguments) (fun _ => True) [] :=
    reads_statements_call h
  have hbody : Reads (grammar (d + 7) .statements) (guarded (call support callee names arguments)) (fun _ => True) [] :=
    reads_statements_guarded rfl hcall
  refine reads_inGroup ((reads_innerAttributes_none rfl).collecting.bind ?_)
  rintro ⟨inner, innerFound⟩ ⟨rfl, rfl⟩
  refine hbody.collecting.bind ?_
  rintro ⟨_, body⟩ ⟨-, rfl⟩
  exact Reads.pure rfl

end GeneratorHost.Grammar
