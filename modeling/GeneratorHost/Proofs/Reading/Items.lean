import GeneratorHost.Proofs.Grammar.Declarations
import GeneratorHost.Proofs.Reading.Functions

/-! Items behind an attribute: functions, modules in files of their own, and modules with an item in them. -/
namespace GeneratorHost.Grammar
open Token Reader

variable {ts mid rest content : List Token} {g : Grammar} {name : Bool × String} {P : Declaration → Prop} {d : Nat}
  {p : Reader Unit} {s s' : ReaderState} {e : Declaration} {es : List Declaration}

/-! ### Declarations -/

/-- A reader reads a declaration of some kind. -/
def Declares (p : Reader Unit) (ts : List Token) (P : Declaration → Prop) (rest : List Token) : Prop :=
  ∀ s : ReaderState, bareAll s.rest = ts →
    ∃ e s', p s = some ((), s') ∧ P e ∧ bareAll s'.rest = rest ∧ s'.found = s.found.push e

/-- Attributes and what is behind them make a declaration. -/
theorem Reads.declares {A : List Attribute → Prop} {p : Reader (Option Parts)} (ha : Reads (outerAttributes g) ts A mid)
    (hp : ∀ outer, A outer → Reads p mid (fun r => ∃ parts, r = some parts ∧ ∀ extent,
      P ⟨parts.head, extent, outer ++ parts.inner, parts.innerFound ++ parts.header, parts.body⟩) rest) :
    Declares (declaring g p) ts P rest := by
  intro s hs
  obtain ⟨⟨outer, outerFound⟩, t, ho, ⟨hA, hnone⟩, ht, hf⟩ := ha.collecting s hs
  obtain ⟨_, u, hu, ⟨parts, rfl, hP⟩, hur, huf⟩ := hp outer hA t ht
  obtain rfl : outerFound = [] := hnone
  exact ⟨_, _, declaring_eq_some_iff.mpr ⟨_, t, _, u, ho, hu, rfl⟩, hP _, hur, rfl⟩

/-- Declarations one behind another up to the end of the tokens. -/
inductive Row (p : Reader Unit) : ReaderState → List Declaration → ReaderState → Prop
  | nothing {s : ReaderState} (h : s.rest = []) : Row p s [] s
  | next {s t s' : ReaderState} {e : Declaration} {es : List Declaration} (hn : s.rest ≠ []) (run : p s = some ((), t))
      (found : t.found = s.found.push e) (h : Row p t es s') : Row p s (e :: es) s'

theorem Row.found (h : Row p s es s') : s'.rest = [] ∧ s'.found = s.found ++ es := by
  induction h with
  | nothing h => exact ⟨h, by simp⟩
  | next hn run found h ih =>
    refine ⟨ih.1, ?_⟩
    rw [ih.2, found]
    simp

/-- One more declaration if there is one. -/
def untilEndStep (p : Reader Unit) : Reader Bool := do
  if ← atEnd then return false
  p
  return true

theorem Row.iterateUpTo (h : Row p s es s') {fuel : Nat} (hf : es.length < fuel) :
    iterateUpTo fuel (fun _ => do return (← untilEndStep p, ())) () s = some ((), s') := by
  induction h generalizing fuel with
  | @nothing s h =>
    obtain ⟨fuel, rfl⟩ : ∃ k, fuel = k + 1 := ⟨fuel - 1, by omega⟩
    have hstep : untilEndStep p s = some (false, s) := ahead_bind_of (by rw [h]; rfl)
    rw [Reader.iterateUpTo, bind_assoc, bind_of_eq_some hstep]
    rfl
  | @next s t s' e es hn run found h ih =>
    obtain ⟨fuel, rfl⟩ : ∃ k, fuel = k + 1 := ⟨fuel - 1, by omega⟩
    have hstep : untilEndStep p s = some (true, t) :=
      (ahead_bind_of_not (List.isEmpty_eq_false_iff.mpr hn)).trans (bind_of_eq_some run)
    rw [Reader.iterateUpTo, bind_assoc, bind_of_eq_some hstep]
    exact ih (Nat.lt_of_succ_lt_succ hf)

theorem Row.untilEnd (h : Row p s es s') (hl : es.length ≤ s.rest.length) : untilEnd p s = some ((), s') :=
  h.iterateUpTo (Nat.lt_succ_of_le hl)

/-- A row of one declaration. -/
theorem Declares.collecting_untilEnd (h : Declares p ts P []) (hn : ts ≠ []) :
    Reads (collecting (untilEnd p)) ts (fun r => ∃ e, r.2 = [e] ∧ P e) [] := by
  intro s hs
  obtain ⟨e, t, hp, hP, ht, hf⟩ := h { s with found := #[] } hs
  have hne : s.rest ≠ [] := by
    intro hr
    rw [hr] at hs
    exact hn hs.symm
  have hrow : Row p { s with found := #[] } [e] t := .next hne hp hf (.nothing (eq_nil_of_bareAll ht))
  have hu := hrow.untilEnd (List.length_pos_iff.mpr hne)
  refine ⟨((), [e]), _, collecting_eq_some_iff.mpr ⟨t, hu, ?_, rfl⟩, ⟨e, rfl, hP⟩, ht, rfl⟩
  rw [hf]
  rfl

/-! ### Attributes -/

/-- One more attribute. -/
def attributeStep (g : Grammar) (attributes : List Attribute) : Reader (Bool × List Attribute) := do
  if ← ahead (isMark "#") then return (true, (← readAttribute g false) :: attributes)
  return (false, attributes)

theorem outerAttributes_eq (g : Grammar) :
    outerAttributes g = iterate (attributeStep g) [] >>= fun attributes => pure attributes.reverse := rfl

theorem reads_outerAttributes {Q : Attribute → Prop} (hm : isMark "#" ts) (h : Reads (readAttribute g false) ts Q mid)
    (hl : ts ≠ []) (hr : isMark "#" mid = false) : Reads (outerAttributes g) ts (fun as => ∃ a, as = [a] ∧ Q a) mid := by
  have hsteps : Repeats (attributeStep g) 2 [] ts (fun as => ∃ a, as = [a] ∧ Q a) mid := by
    refine .more (Reads.when hm (h.bind fun a ha => Reads.pure ⟨rfl, a, rfl, ha⟩)) (Q := fun as => ∃ a, as = [a] ∧ Q a) ?_
    rintro _ ⟨a, rfl, ha⟩
    exact .stop (Reads.unless hr (Reads.pure ⟨rfl, a, rfl, ha⟩))
  rw [outerAttributes_eq]
  refine (hsteps.iterate (Nat.succ_le_succ (List.length_pos_iff.mpr hl))).bind ?_
  rintro _ ⟨a, rfl, ha⟩
  exact Reads.pure ⟨a, rfl, ha⟩

/-- The tokens of an attribute. -/
def attributed (content : List Token) : List Token := [.punct '#' false default, .group .bracket content default]

theorem exists_of_bareAll_attributed {r : List Token} (h : bareAll r = attributed content ++ ts) :
    ∃ extent content' extent' behind, r = .punct '#' false extent :: .group .bracket content' extent' :: behind ∧
      bareAll content' = content ∧ bareAll behind = ts := by
  obtain ⟨extent, _, rfl, hg⟩ := exists_of_bareAll_punct h
  obtain ⟨content', extent', behind, rfl, hc, hb⟩ := exists_of_bareAll_group hg
  exact ⟨extent, content', extent', behind, rfl, hc, hb⟩

theorem reads_readAttribute_word : Reads (readAttribute g false) (attributed [.ident false "no_mangle" default] ++ ts)
    (fun _ => True) ts := by
  rintro ⟨r, written, found⟩ hr
  obtain ⟨extent, _, extent', behind, rfl, hc, hb⟩ := exists_of_bareAll_attributed hr
  obtain ⟨extent'', _, rfl, hn⟩ := exists_of_bareAll_ident hc
  obtain rfl := eq_nil_of_bareAll hn
  exact ⟨_, _, rfl, trivial, hb, rfl⟩

theorem reads_readAttribute_unsafe (content : List Token) : Reads (readAttribute g false)
    (attributed [.ident false "unsafe" default, .group .parenthesis content default] ++ ts) (fun _ => True) ts := by
  rintro ⟨r, written, found⟩ hr
  obtain ⟨extent, _, extent', behind, rfl, hc, hb⟩ := exists_of_bareAll_attributed hr
  obtain ⟨extent'', _, rfl, hg⟩ := exists_of_bareAll_ident hc
  obtain ⟨content', extent''', _, rfl, -, hn⟩ := exists_of_bareAll_group hg
  obtain rfl := eq_nil_of_bareAll hn
  exact ⟨_, _, rfl, trivial, hb, rfl⟩

theorem reads_readAttribute_path (spelling : String) : Reads (readAttribute g false)
    (attributed [.ident false "path" default, .punct '=' false default, .literal spelling default] ++ ts)
    (· = ⟨⟨false, ["path"]⟩, "path", spelling⟩) ts := by
  rintro ⟨r, written, found⟩ hr
  obtain ⟨extent, _, extent', behind, rfl, hc, hb⟩ := exists_of_bareAll_attributed hr
  obtain ⟨first, _, rfl, hm⟩ := exists_of_bareAll_ident hc
  obtain ⟨second, _, rfl, hl⟩ := exists_of_bareAll_punct hm
  obtain ⟨third, _, rfl, hn⟩ := exists_of_bareAll_literal hl
  obtain rfl := eq_nil_of_bareAll hn
  exact ⟨_, _, rfl, rfl, hb, rfl⟩

/-! ### Behind the attribute -/

theorem reads_behindVisibility (raw : Bool) (text : String) (ts : List Token) :
    Reads behindVisibility (.ident false "pub" default :: .ident raw text default :: ts)
      (fun r => bareAll r.2 = .ident raw text default :: ts) (.ident false "pub" default :: .ident raw text default :: ts) := by
  intro s hs
  obtain ⟨visible, t, hv, -, ht, -⟩ := reads_visibility raw text ts s hs
  refine ⟨(visible, t.rest), s, ?_, ht, hs, rfl⟩
  refine (get_bind s).trans ?_
  rw [hv]
  rfl

variable {Q : Option Parts → Prop}

theorem reads_itemRest_function
    (h : Reads (functionItem g) (.ident false "pub" default :: exportFront name ++ ts) Q rest) :
    Reads (itemRest g) (.ident false "pub" default :: exportFront name ++ ts) Q rest := by
  refine (reads_behindVisibility false "unsafe" _).bind ?_
  rintro ⟨visible, r⟩ hr
  obtain ⟨first, _, rfl, hextern⟩ := exists_of_bareAll_ident hr
  obtain ⟨second, _, rfl, hliteral⟩ := exists_of_bareAll_ident hextern
  obtain ⟨third, _, rfl, hfn⟩ := exists_of_bareAll_literal hliteral
  obtain ⟨fourth, _, rfl, -⟩ := exists_of_bareAll_ident hfn
  exact h

theorem reads_itemRest_module {R : Parts → Prop}
    (h : Reads (moduleItem g) (.ident false "pub" default :: .ident false "mod" default :: ts) R rest) :
    Reads (itemRest g) (.ident false "pub" default :: .ident false "mod" default :: ts)
      (fun r => ∃ parts, r = some parts ∧ R parts) rest := by
  refine (reads_behindVisibility false "mod" _).bind ?_
  rintro ⟨visible, r⟩ hr
  obtain ⟨extent, behind, rfl, -⟩ := exists_of_bareAll_ident hr
  have hm : Reads (moduleItem g >>= fun parts => pure (some parts)) (.ident false "pub" default :: .ident false "mod" default :: ts)
      (fun r => ∃ parts, r = some parts ∧ R parts) rest := h.bind fun parts hR => Reads.pure ⟨parts, rfl, hR⟩
  exact hm

/-! ### Modules -/

/-- The front of a module up to its name. -/
def moduleFront (name : Bool × String) : List Token := [.ident false "pub" default, .ident false "mod" default, nameToken name]

theorem reads_moduleName (hname : IsName name) (ts : List Token) :
    Reads (nameIf fun ts => Reader.isName ts || isWord "try" ts) (nameToken name :: ts) (· = name.2) ts := by
  refine reads_nameIf ?_
  rw [hname.ahead, Bool.true_or]

/-- A module in a file of its own. -/
theorem reads_moduleItem_file (hname : IsName name) (ts : List Token) :
    Reads (moduleItem g) (moduleFront name ++ .punct ';' false default :: ts)
      (· = { head := .module name.2 name.1 false }) ts := by
  have hraw : Reads (ahead isRaw) (nameToken name :: .punct ';' false default :: ts) (· = name.1) _ := reads_ahead rfl
  have hend : Reads (mark? ";") (Token.mark ";".toList ++ ts) (· = true) ts := reads_mark? (by decide)
  refine (reads_visibility false "mod" _).seq ((reads_word?_of_not rfl).seq ((reads_word "mod").bind fun _ _ => ?_))
  exact hraw.seq ((reads_moduleName hname _).seq (hend.seq (Reads.pure rfl)))

/-- A module with one item in it. -/
theorem reads_moduleItem_inline (hname : IsName name) (hi : (isMark "#" content && isMark "!" (skip content)) = false)
    (hn : content ≠ []) (h : Declares (g .item) content P []) (ts : List Token) :
    Reads (moduleItem g) (moduleFront name ++ .group .brace content default :: ts)
      (fun parts => ∃ e, P e ∧ parts = { head := .module name.2 name.1 true, body := [e] }) ts := by
  have hraw : Reads (ahead isRaw) (nameToken name :: .group .brace content default :: ts) (· = name.1) _ := reads_ahead rfl
  have hbody : Reads (members g (g .item)) (.group .brace content default :: ts) (fun r => ∃ e, P e ∧ r = ([], [], [e])) ts := by
    refine reads_inGroup ((reads_innerAttributes_none hi).collecting.bind ?_)
    rintro ⟨inner, innerFound⟩ ⟨rfl, rfl⟩
    refine (h.collecting_untilEnd hn).bind ?_
    rintro ⟨_, body⟩ ⟨e, rfl, he⟩
    exact Reads.pure ⟨e, he, rfl⟩
  refine (reads_visibility false "mod" _).seq ((reads_word?_of_not rfl).seq ((reads_word "mod").bind fun _ _ => ?_))
  refine hraw.seq ((reads_moduleName hname _).seq ((reads_mark?_of_not rfl).seq (hbody.bind ?_)))
  rintro _ ⟨e, he, rfl⟩
  exact Reads.pure ⟨e, he, rfl⟩

/-- A module in a file that an attribute names. -/
theorem declares_file (hname : IsName name) (spelling : String)
    (hP : ∀ extent, P ⟨.module name.2 name.1 false, extent, [⟨⟨false, ["path"]⟩, "path", spelling⟩], [], []⟩) (ts : List Token) :
    Declares (item g) (attributed [.ident false "path" default, .punct '=' false default, .literal spelling default] ++
      (moduleFront name ++ .punct ';' false default :: ts)) P ts := by
  refine Reads.declares (reads_outerAttributes rfl (reads_readAttribute_path spelling) (List.cons_ne_nil _ _) rfl) ?_
  rintro _ ⟨_, rfl, rfl⟩
  refine (reads_itemRest_module (reads_moduleItem_file hname ts)).imp ?_
  rintro _ ⟨_, rfl, rfl⟩
  exact ⟨_, rfl, hP⟩

theorem declares_inline {R : Declaration → Prop} (hname : IsName name) (hi : (isMark "#" content && isMark "!" (skip content)) = false)
    (hn : content ≠ []) (h : Declares (g .item) content P [])
    (hR : ∀ extent e, P e → R ⟨.module name.2 name.1 true, extent, [], [], [e]⟩) (ts : List Token) :
    Declares (item g) (moduleFront name ++ .group .brace content default :: ts) R ts := by
  refine Reads.declares (reads_outerAttributes_none rfl) ?_
  rintro _ rfl
  refine (reads_itemRest_module (reads_moduleItem_inline hname hi hn h ts)).imp ?_
  rintro _ ⟨_, rfl, e, he, rfl⟩
  exact ⟨_, rfl, fun extent => hR extent e he⟩

/-! ### Functions -/

variable {params result : List Token} {support callee : Bool × String} {names arguments : List (Bool × String)}

/-- An exported function with a call of a support function in its body. -/
theorem declares_function {content : List Token} (hname : IsName name)
    (hattribute : ∀ ts, Reads (readAttribute (grammar (d + 7)) false) (attributed content ++ ts) (fun _ => True) ts)
    (hp : Reads (parameters (grammar (d + 7))) params (fun _ => True) [])
    (hr : ∀ body, Reads (returnType (grammar (d + 7)) true) (result ++ .group .brace body default :: rest) (fun _ => True)
      (.group .brace body default :: rest))
    (hc : IsCall support callee names arguments) :
    Declares (item (grammar (d + 7))) (attributed content ++ (.ident false "pub" default :: exportFront name ++
      .group .parenthesis params default :: (result ++ .group .brace (guarded (call support callee names arguments)) default :: rest)))
      (fun e => e.head = .fn name.2) rest := by
  refine Reads.declares (reads_outerAttributes rfl (hattribute _) (List.cons_ne_nil _ _) rfl) fun outer _ => ?_
  refine (reads_itemRest_function (reads_functionItem hname hp hr hc)).imp ?_
  rintro _ rfl
  exact ⟨_, rfl, fun _ => rfl⟩

end GeneratorHost.Grammar
