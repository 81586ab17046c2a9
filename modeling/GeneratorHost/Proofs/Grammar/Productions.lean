import Mathlib.Data.List.Basic
import GeneratorHost.Grammar.Parse
import GeneratorHost.Proofs.Grammar.Reader
import GeneratorHost.Proofs.Text.Offsets

/-! Productions keep states proper where the productions one level deeper do. -/
namespace GeneratorHost.Grammar
open Std.Do Reader

set_option mvcgen.warning false

variable {source : TokenSource} {P : Declaration → Prop} {b : Reading source}

/-- Productions that keep states proper, with the property of declarations that they keep. Only the
production of fields may find others. -/
structure KeepingGrammar (source : TokenSource) where
  Found : Declaration → Prop
  grammar : Grammar
  keeps (b : Reading source) (c : Category) (h : c ≠ .namedFields) : Keeps Found b (grammar c)

variable (k : KeepingGrammar source)

@[spec] theorem KeepingGrammar.expression (structs : Bool) :
    Keeps k.Found b (k.grammar (.expression structs)) :=
  k.keeps _ _ (by simp)

@[spec] theorem KeepingGrammar.unary (structs : Bool) : Keeps k.Found b (k.grammar (.unary structs)) :=
  k.keeps _ _ (by simp)

@[spec] theorem KeepingGrammar.early : Keeps k.Found b (k.grammar .early) :=
  k.keeps _ _ (by simp)

@[spec] theorem KeepingGrammar.operators (structs : Bool) (left : ExpressionShape) (base : Precedence) :
    Keeps k.Found b (k.grammar (.operators structs left base)) :=
  k.keeps _ _ (by simp)

@[spec] theorem KeepingGrammar.type (plus : Bool) : Keeps k.Found b (k.grammar (.type plus)) :=
  k.keeps _ _ (by simp)

@[spec] theorem KeepingGrammar.pattern : Keeps k.Found b (k.grammar .pattern) :=
  k.keeps _ _ (by simp)

@[spec] theorem KeepingGrammar.bound (capture const : Bool) :
    Keeps k.Found b (k.grammar (.bound capture const)) :=
  k.keeps _ _ (by simp)

@[spec] theorem KeepingGrammar.statements : Keeps k.Found b (k.grammar .statements) :=
  k.keeps _ _ (by simp)

@[spec] theorem KeepingGrammar.item : Keeps k.Found b (k.grammar .item) :=
  k.keeps _ _ (by simp)

/-! ### Paths and attributes -/

@[spec] theorem pathWord_keeps : Keeps P b pathWord := by
  mvcgen [pathWord]

@[spec] theorem modPath_keeps : Keeps P b modPath := by
  mvcgen [modPath]

@[spec] theorem angleList_keeps {element : Reader Bool} (hb : b.exact = false)
    (h : ∀ b : Reading source, Keeps P b element) : Keeps P b (angleList element) := by
  mvcgen [angleList, h]
  · exact id
  · exact fun _ _ => hb

@[spec] theorem attributeValue_keeps : Keeps k.Found b (attributeValue k.grammar) := by
  mvcgen [attributeValue]

@[spec] theorem readAttribute_keeps (inner : Bool) : Keeps k.Found b (readAttribute k.grammar inner) := by
  mvcgen [readAttribute]
  all_goals exact id

@[spec] theorem outerAttributes_keeps : Keeps k.Found b (outerAttributes k.grammar) := by
  mvcgen [outerAttributes]

@[spec] theorem innerAttributes_keeps : Keeps k.Found b (innerAttributes k.grammar) := by
  mvcgen [innerAttributes]

@[spec] theorem blockBody_keeps : Keeps k.Found b (blockBody k.grammar) := by
  mvcgen [blockBody]

@[spec] theorem block_keeps : Keeps k.Found b (block k.grammar) := by
  mvcgen [block]

@[spec] theorem attributedBlock_keeps : Keeps k.Found b (attributedBlock k.grammar) := by
  mvcgen [attributedBlock]

@[spec] theorem constArgument_keeps : Keeps k.Found b (constArgument k.grammar) := by
  mvcgen [constArgument]

@[spec] theorem boundsUntil_keeps (ends : List Token → Bool) :
    Keeps k.Found b (boundsUntil k.grammar ends) := by
  mvcgen [boundsUntil]

@[spec] theorem genericArgument_keeps : Keeps k.Found b (genericArgument k.grammar) := by
  mvcgen [genericArgument]

/-- Between the brackets the arguments may be written in another order. -/
@[spec] theorem angleArguments_keeps : Keeps k.Found b (angleArguments k.grammar) := by
  have ho := (moves_mark "<").begins (b := b) (P := k.Found) fun _ => mark_keeps _
  have hi := begun_of_keeps (b := b) fun b hb => angleList_keeps hb fun _ => genericArgument_keeps k
  have hc := (moves_mark ">").ends (b := b) (P := k.Found) fun _ => mark_keeps _
  mvcgen [angleArguments, ho, hi, hc, -mark_keeps, -angleList_keeps]

@[spec] theorem pathSegment_keeps (expression : Bool) : Keeps k.Found b (pathSegment k.grammar expression) := by
  mvcgen [pathSegment]

@[spec] theorem moreSegments_keeps (expression : Bool) {continues : Reader Bool} (shape : PathShape)
    (h : Keeps k.Found b continues) : Keeps k.Found b (moreSegments k.grammar expression continues shape) := by
  mvcgen [moreSegments, h]

@[spec] theorem path_keeps (expression : Bool) : Keeps k.Found b (path k.grammar expression) := by
  mvcgen [path]

@[spec] theorem qualifiedPath_keeps (expression : Bool) :
    Keeps k.Found b (qualifiedPath k.grammar expression) := by
  mvcgen [qualifiedPath]

private theorem moves_pathSegment (expression : Bool) :
    Moves source k.Found (pathSegment k.grammar expression) :=
  .behind (fun _ => ahead_keeps _) fun _ =>
    .ite (.bind moves_anyName (fun _ => anyName_keeps) fun _ _ => by mvcgen) <|
      .behind (fun _ => ahead_keeps _) fun _ =>
        .ite (.bind moves_anyName (fun _ => anyName_keeps) fun _ _ => by mvcgen)
          (.bind (moves_nameIf _) (fun _ => name_keeps) fun _ _ => by mvcgen)

private theorem moves_path (expression : Bool) : Moves source k.Found (path k.grammar expression) :=
  .behind (fun _ => mark?_keeps _) fun _ =>
    .bind (moves_pathSegment k expression) (fun _ => pathSegment_keeps k expression) fun _ _ => by mvcgen

private theorem moves_qualifiedPath (expression : Bool) :
    Moves source k.Found (qualifiedPath k.grammar expression) :=
  .behind (fun _ => ahead_keeps _) fun _ =>
    .ite (.bind (moves_mark _) (fun _ => mark_keeps _) fun _ _ => by mvcgen)
      (.bind (moves_path k expression) (fun _ => path_keeps k expression) fun _ _ => by mvcgen)

@[spec] theorem macroArguments_keeps : Keeps P b macroArguments := by
  mvcgen [macroArguments]

@[spec] theorem macroCall_keeps : Keeps P b macroCall := by
  mvcgen [macroCall]

/-! ### Generics and where clauses -/

@[spec] theorem lifetimesUntil_keeps (ends : List Token → Bool) : Keeps P b (lifetimesUntil ends) := by
  mvcgen [lifetimesUntil]

@[spec] theorem lifetimeParameter_keeps : Keeps P b lifetimeParameter := by
  mvcgen [lifetimeParameter]

@[spec] theorem typeParameter_keeps : Keeps k.Found b (typeParameter k.grammar) := by
  mvcgen [typeParameter]

@[spec] theorem constParameter_keeps : Keeps k.Found b (constParameter k.grammar) := by
  mvcgen [constParameter]

@[spec] theorem genericParameter_keeps (blank : Bool) : Keeps k.Found b (genericParameter k.grammar blank) := by
  mvcgen [genericParameter]

@[spec] theorem boundLifetimes_keeps : Keeps k.Found b (boundLifetimes k.grammar) := by
  mvcgen [boundLifetimes]

@[spec] theorem generics_keeps : Keeps k.Found b (generics k.grammar) := by
  have ho := (moves_mark "<").begins (b := b) (P := k.Found) fun _ => mark_keeps _
  have hw (ts : List Token) := begun_of_keeps (b := b) (P := k.Found) fun b hb => write_keeps hb ts
  have hc := (moves_mark ">").ends (b := b) (P := k.Found) fun _ => mark_keeps _
  have hm (b : Reading source) : Keeps k.Found b (mark ",") := mark_keeps _
  mvcgen [generics, mark?, ho, hm, iterate_begun, hw, hc, -mark_keeps, -mark?_keeps, -iterate_keeps, -write_keeps]
  all_goals exact id

@[spec] theorem predicate_keeps : Keeps k.Found b (predicate k.grammar) := by
  mvcgen [predicate]

@[spec] theorem whereClause_keeps : Keeps k.Found b (whereClause k.grammar) := by
  mvcgen [whereClause]

@[spec] theorem whereClause?_keeps : Keeps k.Found b (whereClause? k.grammar) := by
  mvcgen [whereClause?]

/-! ### Types -/

@[spec] theorem returnType_keeps (plus : Bool) : Keeps k.Found b (returnType k.grammar plus) := by
  mvcgen [returnType]

private theorem applied_keeps (hb : b.exact = false) (shape : PathShape) :
    Keeps k.Found b (applied k.grammar shape) := by
  mvcgen [applied]

/-- A double colon that is not written may stand between a path and its arguments. -/
private theorem applied_ends (shape : PathShape) :
    ⦃fun s => ⌜s.Proper k.Found b ∧ s.Begun k.Found b⌝⦄ applied k.grammar shape
      ⦃⇓? _ s => ⌜s.Proper k.Found b⌝⦄ := by
  have hc : ⦃fun s => ⌜s.Begun k.Found b⌝⦄ capturing (mark? "::") ⦃⇓? _ s => ⌜s.Begun k.Found b⌝⦄ :=
    begun_of_keeps fun b hb => capturing_keeps hb fun _ => mark?_keeps _
  have ht (b : Reading source) (_ : b.exact = false) :
      Keeps k.Found b (separated "," do let _ ← k.grammar (.type true)) := by
    mvcgen
  have hp := (moves_inGroup .parenthesis _).ends (b := b) fun _ => inGroup_keeps ht
  mvcgen [applied, ahead, ahead3, hc, parenthesized, hp, -ahead_keeps, -ahead3_keeps, -capturing_keeps,
    -parenthesized_keeps, -inGroup_keeps]
  · rename_i hs _ _
    exact hs.2
  · rename_i hs _ _
    exact hs.1

@[spec] theorem traitBound_keeps (const : Bool) : Keeps k.Found b (traitBound k.grammar const) := by
  have hp := (moves_path k false).proper_begun (b := b) fun _ => path_keeps k false
  have ha := applied_ends (b := b) k
  mvcgen [traitBound, hp, ha, -path_keeps]

@[spec] theorem capturedArguments_keeps : Keeps P b capturedArguments := by
  mvcgen [capturedArguments]

@[spec] theorem bound_keeps (capture const : Bool) : Keeps k.Found b (bound k.grammar capture const) := by
  mvcgen [bound]
  all_goals exact id

@[spec] theorem boundList_keeps (plus capture const : Bool) :
    Keeps k.Found b (boundList k.grammar plus capture const) := by
  mvcgen [boundList]

@[spec] theorem furtherBounds_keeps : Keeps k.Found b (furtherBounds k.grammar) := by
  mvcgen [furtherBounds]

@[spec] theorem objectType_keeps (plus : Bool) : Keeps k.Found b (objectType k.grammar plus) := by
  mvcgen [objectType]

@[spec] theorem convention_keeps : Keeps P b convention := by
  mvcgen [convention]

@[spec] theorem convention?_keeps : Keeps P b convention? := by
  mvcgen [convention?]

@[spec] theorem pointerDots_keeps : Keeps P b pointerDots := by
  mvcgen [pointerDots]

@[spec] theorem pointerParameter_keeps (first : Bool) : Keeps k.Found b (pointerParameter k.grammar first) := by
  mvcgen [pointerParameter]

@[spec] theorem functionPointer_keeps : Keeps k.Found b (functionPointer k.grammar) := by
  mvcgen [functionPointer]

@[spec] theorem parenthesizedType_keeps : Keeps k.Found b (parenthesizedType k.grammar) := by
  mvcgen [parenthesizedType]

@[spec] theorem pathType_keeps (plus lifetimes : Bool) :
    Keeps k.Found b (pathType k.grammar plus lifetimes) := by
  have hp := (moves_qualifiedPath k false).proper_begun (b := b) fun _ => qualifiedPath_keeps k false
  have ha := applied_ends (b := b) k
  mvcgen [pathType, hp, ha, -qualifiedPath_keeps]

@[spec] theorem dynType_keeps (plus : Bool) : Keeps k.Found b (dynType k.grammar plus) := by
  mvcgen [dynType]

@[spec] theorem type_keeps (plus : Bool) : Keeps k.Found b (type k.grammar plus) := by
  mvcgen [type]

/-! ### Progress of types -/

variable {k}

private theorem moves_traitBound (const : Bool) : Moves source k.Found (traitBound k.grammar const) := by
  unfold traitBound
  refine .behind (fun _ => ahead_keeps _) fun lifetimes => ?_
  extract_lets bound behind
  have hbound (isConst : Bool) : Moves source k.Found (bound isConst) := by
    refine .behind (fun _ => require_keeps _) fun _ => .behind (fun _ => mark?_keeps _) fun _ =>
      .behind (fun _ => require_keeps _) fun _ => .bind_loosely (moves_path k false) (fun _ => path_keeps k false)
        fun shape b hb => ?_
    have ha := applied_keeps k hb
    mvcgen [ha]
  have hbehind (u : Unit) : Moves source k.Found (behind u) :=
    .behind (fun _ => ahead_keeps _) fun _ => .ite
      (.behind (fun _ => by mvcgen) fun _ => .behind (fun _ => by mvcgen) fun isConst => hbound isConst)
      (.behind (fun _ => word?_keeps _) fun isConst => hbound isConst)
  exact .ite (.behind (fun _ => boundLifetimes_keeps k) fun u => hbehind u) (hbehind ())

theorem moves_bound (capture const : Bool) : Moves source k.Found (bound k.grammar capture const) := by
  unfold bound
  refine .optional moves_lifetime (fun _ => lifetime_keeps) (fun _ => by mvcgen) ?_
  refine .behind (fun _ => ahead_keeps _) fun _ => .ite ?_ ?_
  · refine .behind (fun _ => require_keeps _) fun _ => .bind ?_ (fun _ => capturedArguments_keeps) fun _ _ => by mvcgen
    exact .bind (moves_word _) (fun _ => word_keeps _) fun _ _ => by mvcgen
  intro b s a s' he hs
  obtain ⟨_, _, hget, he⟩ := bind_eq_some_iff.mp he
  cases hget
  have hm : Moves source k.Found (if isGroup .parenthesis s.rest then parenthesized (traitBound k.grammar const)
      else traitBound k.grammar const) :=
    .ite (moves_inGroup _ _) (moves_traitBound const)
  obtain ⟨path?, t, hi, he⟩ := bind_eq_some_iff.mp he
  cases path? with
  | some path =>
    cases he
    exact hm b s _ _ hi hs
  | none =>
    obtain ⟨_, _, hset, he⟩ := bind_eq_some_iff.mp he
    cases hset
    obtain ⟨_, t, hv, he⟩ := bind_eq_some_iff.mp he
    cases he
    exact hm.verbatim b s _ _ hv hs

theorem moves_functionPointer : Moves source k.Found (functionPointer k.grammar) :=
  .behind (fun _ => word?_keeps _) fun _ => .behind (fun _ => convention?_keeps) fun _ =>
    .bind (moves_word _) (fun _ => word_keeps _) fun _ _ => by mvcgen

theorem moves_pathType (plus lifetimes : Bool) : Moves source k.Found (pathType k.grammar plus lifetimes) := by
  unfold pathType
  refine .bind_loosely (moves_qualifiedPath k false) (fun _ => qualifiedPath_keeps k false) fun _ b hb => ?_
  have ha := applied_keeps (b := b) k
  mvcgen [ha]

theorem moves_boundList (hb : ∀ capture const, Moves source k.Found (k.grammar (.bound capture const)))
    (plus capture const : Bool) : Moves source k.Found (boundList k.grammar plus capture const) := by
  refine .bind (moves_iterate ?_ ?_ _) ?_ ?_
  · rintro ⟨bounds, trailing⟩
    exact .bind (hb capture const) (fun _ => k.bound capture const) fun _ _ => by mvcgen
  · rintro ⟨bounds, trailing⟩ b
    mvcgen
  · intro b
    mvcgen
  · rintro ⟨bounds, trailing⟩ b
    mvcgen

theorem moves_objectType (hb : ∀ capture const, Moves source k.Found (k.grammar (.bound capture const)))
    (plus : Bool) : Moves source k.Found (objectType k.grammar plus) :=
  .behind (fun _ => word?_keeps _) fun _ => .bind (moves_boundList hb plus false false)
    (fun _ => boundList_keeps k plus false false) fun _ _ => by mvcgen

theorem moves_dynType (plus : Bool) : Moves source k.Found (dynType k.grammar plus) := by
  unfold dynType
  refine .behind (fun _ => ahead2_keeps _) fun star => ?_
  extract_lets read behind
  have hm : Moves source k.Found read := .bind (moves_word _) (fun _ => word_keeps _) fun _ _ => by mvcgen
  have hk (b : Reading source) : Keeps k.Found b read := by mvcgen [read]
  have hb (u : Unit) (b : Reading source) : Keeps k.Found b (behind u) := by mvcgen [behind]
  exact .ite (hm.verbatim.bind (fun _ => verbatim_keeps hk) hb) (hm.bind hk hb)

/-- Types are not empty. -/
theorem moves_type (hb : ∀ capture const, Moves source k.Found (k.grammar (.bound capture const)))
    (plus : Bool) : Moves source k.Found (type k.grammar plus) := by
  unfold type
  refine .behind (fun _ => ahead_keeps _) fun lifetimes => ?_
  extract_lets pointer behind
  have hbehind (u : Unit) : Moves source k.Found (behind u) := by
    refine .behind (fun _ => ahead_keeps _) fun _ => .ite ?_ ?_
    · refine .bind (moves_inGroup _ _) (fun _ => parenthesizedType_keeps k) ?_
      rintro (shape | _ | shape) b <;> mvcgen
    refine .behind (fun _ => ahead_keeps _) fun _ => .ite ?_ ?_
    · exact .bind moves_functionPointer (fun _ => functionPointer_keeps k) fun _ _ => by mvcgen
    refine .behind (fun _ => ahead_keeps _) fun _ => .ite (moves_pathType plus lifetimes) ?_
    refine .behind (fun _ => ahead_keeps _) fun _ => .ite (moves_dynType plus) ?_
    refine .behind (fun _ => ahead_keeps _) fun _ => .ite ?_ ?_
    · exact .bind (moves_inGroup _ _) (fun _ => by mvcgen) fun _ _ => by mvcgen
    refine .optional (moves_mark _) (fun _ => mark_keeps _) (fun _ => by mvcgen [pointer]) ?_
    refine .optional (moves_mark _) (fun _ => mark_keeps _) (fun _ => by mvcgen) ?_
    refine .optional (moves_mark _) (fun _ => mark_keeps _) (fun _ => by mvcgen) ?_
    refine .optional (moves_word _) (fun _ => word_keeps _) (fun _ => by mvcgen) ?_
    refine .optional (moves_word _) (fun _ => word_keeps _) (fun _ => by mvcgen) ?_
    exact .behind (fun _ => ahead_keeps _) fun _ => .behind (fun _ => require_keeps _) fun _ => moves_objectType hb true
  refine .ite ?_ (hbehind ())
  exact .behind (fun _ => boundLifetimes_keeps k) fun _ => .behind (fun _ => ahead_keeps _) fun _ =>
    .behind (fun _ => require_keeps _) fun u => hbehind u

variable (k)

/-! ### Patterns -/

@[spec] theorem patterns_keeps : Keeps k.Found b (patterns k.grammar) := by
  mvcgen [patterns]

/-- The position of a field is written as a plain number in place of the literal. -/
@[spec] theorem member_keeps : Keeps P b member := by
  mvcgen [member, anyToken, require, -anyToken_keeps, -require_keeps]
  rename_i s hs t ts hr spelling extent ht value _ _ next
  subst ht
  refine hs.step [_] [.literal (toString value) extent] ⟨hr, ?_⟩ (fun _ => .singleton rfl) hs.found
  simp [next]

private theorem moves_member : Moves source P member := by
  refine .behind (fun _ => ahead_keeps _) fun _ => .ite ?_ (moves_of_length fun n => ?_)
  · exact .bind (moves_nameIf _) (fun _ => name_keeps) fun _ _ => by mvcgen
  · mvcgen [anyToken, require, -anyToken_keeps, -require_keeps]
    rename_i s hn t ts hr _ _ _ _ _ _ next
    rw [← hn, hr]
    exact Nat.lt_succ_self _

@[spec] theorem rangeBound_keeps : Keeps k.Found b (rangeBound k.grammar) := by
  mvcgen [rangeBound]

private theorem capturing_mark (text : String) :
    ⦃fun s => ⌜s.Proper P b⌝⦄ capturing (mark text)
      ⦃⇓? r s => ⌜r.2.length = text.toList.length ∧ ∀ ts : List Token, ts.map (·.extent) = r.2.map (·.extent) →
        ({ s with written := s.written ++ ts } : ReaderState).Proper P b⌝⦄ := by
  rw [triple_iff]
  intro s r s' he hs
  obtain ⟨t, hm, hr, rfl⟩ := exists_of_capturing he
  obtain ⟨read, wrote, hp, hx, hl, -, hf⟩ := exists_read_of_mark hm
  obtain rfl : r.2 = wrote := hr.trans (by simpa using hp.written)
  refine ⟨hl, fun (ts : List Token) ht => hs.step read ts ⟨hp.rest, by simp⟩ (fun _ => .of_map_extent (ht.trans hx)) ?_⟩
  simpa [hf] using hs.found

/-- Three dots are written as others in the same places. -/
@[spec] theorem rangeDots_keeps : Keeps P b rangeDots := by
  mvcgen [rangeDots, capturing_mark, write_captured, -capturing_keeps, -write_keeps]
  rename_i r s h
  obtain ⟨⟨⟩, dots⟩ := r
  obtain ⟨x, y, z, rfl⟩ := List.length_eq_three.mp h.1
  exact h.2 _ rfl

@[spec] theorem rangeEnd_keeps : Keeps k.Found b (rangeEnd k.grammar) := by
  mvcgen [rangeEnd]

@[spec] theorem dotsPattern_keeps : Keeps k.Found b (dotsPattern k.grammar) := by
  mvcgen [dotsPattern]

/-- A boxed field is kept as it stands. -/
@[spec] theorem fieldPattern_keeps : Keeps k.Found b (fieldPattern k.grammar) := by
  apply keeps_of_start
  intro b
  mvcgen [fieldPattern]
  · exact And.left ‹_›
  rename_i start hstart _ _ _ _ _ _ _ _ _ _ _ _ stop hstop source
  obtain ⟨-, rfl⟩ := hstart
  obtain ⟨read, wrote, hp, -⟩ := hstop.passed
  refine ⟨hstop.found, read, read, ⟨hp.rest, ?_⟩, fun _ => .refl read⟩
  simp [source, take_length_sub hp]

@[spec] theorem structPattern_keeps : Keeps k.Found b (structPattern k.grammar) := by
  mvcgen [structPattern]

@[spec] theorem pathPattern_keeps : Keeps k.Found b (pathPattern k.grammar) := by
  mvcgen [pathPattern]

@[spec] theorem bindingPattern_keeps : Keeps k.Found b (bindingPattern k.grammar) := by
  mvcgen [bindingPattern]

@[spec] theorem slicePattern_keeps : Keeps k.Found b (slicePattern k.grammar) := by
  mvcgen [slicePattern]

@[spec] theorem pattern_keeps : Keeps k.Found b (pattern k.grammar) := by
  mvcgen [pattern]

/-! ### Expressions -/

@[spec] theorem rightOperand_keeps (structs : Bool) (precedence : Precedence) :
    Keeps k.Found b (rightOperand k.grammar structs precedence) := by
  mvcgen [rightOperand]

@[spec] theorem rangeTail_keeps (structs : Bool) : Keeps k.Found b (rangeTail k.grammar structs) := by
  mvcgen [rangeTail]

@[spec] theorem operators_keeps (structs : Bool) (left : ExpressionShape) (base : Precedence) :
    Keeps k.Found b (operators k.grammar structs left base) := by
  mvcgen [operators]

@[spec] theorem arguments_keeps : Keeps k.Found b (arguments k.grammar) := by
  mvcgen [arguments]

private theorem nestedFields_keeps (hb : b.exact = false) : Keeps P b nestedFields := by
  mvcgen [nestedFields]

private theorem capturing_anyToken :
    ⦃fun s => ⌜s.Proper P b⌝⦄ capturing anyToken
      ⦃⇓? r s => ⌜∀ ts : List Token, Token.Covers [r.1] ts →
        ({ s with written := s.written ++ ts } : ReaderState).Proper P b⌝⦄ := by
  rw [triple_iff]
  rintro ⟨rest, written, found⟩ r s' he hs
  cases rest with
  | nil => cases he
  | cons t rest =>
    cases he
    exact fun ts hc => hs.step [t] ts ⟨rfl, by simp⟩ (fun _ => hc) hs.found

private theorem positions_ne_nil {spelling : String} {positions : List Nat}
    (h : fieldPositions spelling = some (positions, false)) : positions ≠ [] := by
  rintro rfl
  unfold fieldPositions at h
  obtain ⟨piece, pieces, hp⟩ := Text.exists_splitChar '.' spelling.toList
  rw [hp] at h
  dsimp only at h
  split at h
  · obtain ⟨positions, -, h⟩ := Option.bind_eq_some_iff.mp h
    cases h
  · obtain ⟨positions, hm, h⟩ := Option.bind_eq_some_iff.mp h
    cases h
    rw [List.mapM_cons] at hm
    obtain ⟨_, -, hm⟩ := Option.bind_eq_some_iff.mp hm
    obtain ⟨_, -, hm⟩ := Option.bind_eq_some_iff.mp hm
    cases hm

/-- Numbers with points between them begin and end where the literal does that they are read from. -/
private theorem covers_fields {t : Token} {extent : Extent} (ht : t.extent = extent) (point : List Token)
    {positions : List Nat} (h : positions ≠ []) :
    Token.Covers [t] (point.intercalate (positions.map fun n => [.literal (toString n) extent])) := by
  induction positions with
  | nil => exact absurd rfl h
  | cons n positions ih =>
    cases positions with
    | nil => exact .singleton ht.symm
    | cons m positions =>
      have hc := ih (List.cons_ne_nil _ _)
      have hs : point.intercalate ((n :: m :: positions).map fun n => [.literal (toString n) extent]) =
          Token.literal (toString n) extent ::
            (point ++ point.intercalate ((m :: positions).map fun n => [.literal (toString n) extent])) := by
        simp [List.intercalate]
      rw [hs]
      refine ⟨congrArg (fun e : Extent => some e.start) ht.symm, ?_⟩
      obtain ⟨last, hlast, _⟩ := Option.map_eq_some_iff.mp hc.stop
      simpa [List.getLast?_cons, List.getLast?_append, hlast] using hc.stop

/-- Unless the point of another member is read with them, the fields end where the literal does that they are in. -/
private theorem nestedFields_ends :
    ⦃fun s => ⌜s.Begun P b⌝⦄ nestedFields
      ⦃⇓? trailing s => ⌜s.Begun P b ∧ (trailing = false → s.Proper P b)⌝⦄ := by
  have hp (b : Reading source) :
      ⦃fun s => ⌜s.Proper P b⌝⦄ nestedFields ⦃⇓? trailing s => ⌜trailing = false → s.Proper P b⌝⦄ := by
    mvcgen [nestedFields, capturing_anyToken, write, -capturing_keeps, -write_keeps]
    rename_i r spelling extent hr positions trailing hp fields s hs next
    rintro rfl
    have ht : r.1.extent = extent := hr ▸ rfl
    have hc := hs _ (covers_fields ht (Token.mark ['.']) (positions_ne_nil hp))
    simpa [next, fields] using hc
  have hm : Moves source P nestedFields := by
    apply moves_of_length
    intro n
    mvcgen [nestedFields, capturing, anyToken, write, -capturing_keeps, -anyToken_keeps, -write_keeps]
    rename_i s hn _ _ t ts hr _ _ _ _ _ _ _ _ _ _
    have hr : s.rest = t :: ts := hr
    rw [← hn, hr]
    exact Nat.lt_succ_self _
  rw [triple_iff]
  intro s trailing s' he hs
  have hw := Reading.proper_start ⟨s, true, hs.within⟩ hs.found
  have hl := Reading.proper_start ⟨s, false, hs.within⟩ hs.found
  refine ⟨hs.loosely (keeps_iff.mp (nestedFields_keeps rfl) s _ s' he hl), fun ht => ?_⟩
  exact hs.proper (triple_iff.mp (hp _) s _ s' he hw ht) (hm _ s _ s' he hw)

@[spec] theorem memberAccess_keeps : Keeps k.Found b (memberAccess k.grammar) := by
  have hd := (moves_mark ".").begins (b := b) (P := k.Found) fun _ => mark_keeps _
  have hn := nestedFields_ends (b := b) (P := k.Found)
  have hw := (moves_word "await").ends (b := b) (P := k.Found) fun _ => word_keeps _
  have hm := moves_member.ends (b := b) (P := k.Found) fun _ => member_keeps
  mvcgen [memberAccess, ahead, word?, hd, hn, hw, hm, -mark_keeps, -ahead_keeps, -word?_keeps, -word_keeps,
    -member_keeps]
  all_goals simp_all

@[spec] theorem trailers_keeps (shape : ExpressionShape) : Keeps k.Found b (trailers k.grammar shape) := by
  mvcgen [trailers]

@[spec] theorem fieldValue_keeps : Keeps k.Found b (fieldValue k.grammar) := by
  mvcgen [fieldValue]

@[spec] theorem structFields_keeps : Keeps k.Found b (structFields k.grammar) := by
  mvcgen [structFields]

@[spec] theorem pathExpression_keeps (structs : Bool) : Keeps k.Found b (pathExpression k.grammar structs) := by
  mvcgen [pathExpression]

@[spec] theorem closureParameter_keeps : Keeps k.Found b (closureParameter k.grammar) := by
  mvcgen [closureParameter]

@[spec] theorem closure_keeps (structs : Bool) : Keeps k.Found b (closure k.grammar structs) := by
  mvcgen [closure]

@[spec] theorem conditional_keeps : Keeps k.Found b (conditional k.grammar) := by
  mvcgen [conditional]

@[spec] theorem whileLoop_keeps : Keeps k.Found b (whileLoop k.grammar) := by
  mvcgen [whileLoop]

@[spec] theorem forLoop_keeps : Keeps k.Found b (forLoop k.grammar) := by
  mvcgen [forLoop]

@[spec] theorem loop_keeps : Keeps k.Found b (loop k.grammar) := by
  mvcgen [loop]

@[spec] theorem wordBlock_keeps (text : String) : Keeps k.Found b (wordBlock k.grammar text) := by
  mvcgen [wordBlock]

@[spec] theorem tryBlock_keeps : Keeps k.Found b (tryBlock k.grammar) := by
  mvcgen [tryBlock]

@[spec] theorem asyncBlock_keeps : Keeps k.Found b (asyncBlock k.grammar) := by
  mvcgen [asyncBlock]

@[spec] theorem labeled_keeps : Keeps k.Found b (labeled k.grammar) := by
  mvcgen [labeled]

@[spec] theorem matchArms_keeps : Keeps k.Found b (matchArms k.grammar) := by
  mvcgen [matchArms]

@[spec] theorem controlFlow_keeps : Keeps k.Found b (controlFlow k.grammar) := by
  mvcgen [controlFlow]

@[spec] theorem breakOut_keeps (structs : Bool) : Keeps k.Found b (breakOut k.grammar structs) := by
  mvcgen [breakOut]

@[spec] theorem wordValue_keeps (text : String) : Keeps k.Found b (wordValue k.grammar text) := by
  mvcgen [wordValue]

@[spec] theorem arrayElements_keeps : Keeps k.Found b (arrayElements k.grammar) := by
  mvcgen [arrayElements]

@[spec] theorem atom_keeps (structs : Bool) : Keeps k.Found b (atom k.grammar structs) := by
  mvcgen [atom]

@[spec] theorem unary_keeps (structs : Bool) : Keeps k.Found b (unary k.grammar structs) := by
  mvcgen [unary]

@[spec] theorem expression_keeps (structs : Bool) : Keeps k.Found b (expression k.grammar structs) := by
  mvcgen [expression]

@[spec] theorem early_keeps : Keeps k.Found b (early k.grammar) := by
  mvcgen [early]

/-! ### Statements -/

@[spec] theorem endsWithBrace_keeps : Keeps P b endsWithBrace := by
  mvcgen [endsWithBrace]

@[spec] theorem localBinding_keeps : Keeps k.Found b (localBinding k.grammar) := by
  mvcgen [localBinding]

@[spec] theorem statement_keeps : Keeps k.Found b (statement k.grammar) := by
  mvcgen [statement]

@[spec] theorem statements_keeps : Keeps k.Found b (statements k.grammar) := by
  mvcgen [statements]

/-! ### Signature -/

@[spec] theorem visibility_keeps : Keeps P b visibility := by
  mvcgen [visibility]

@[spec] theorem receiver_keeps : Keeps k.Found b (receiver k.grammar) := by
  mvcgen [receiver]

@[spec] theorem finalDots_keeps : Keeps P b finalDots := by
  mvcgen [finalDots]

/-- A parameter without a name is written with one. -/
@[spec] theorem parameters_keeps (hb : b.exact = false) : Keeps k.Found b (parameters k.grammar) := by
  mvcgen [parameters]
  all_goals exact id

@[spec] theorem functionBody_keeps : Keeps k.Found b (functionBody k.grammar) := by
  have hi (b : Reading source) := collecting_keeps (innerAttributes_keeps (b := b) k)
  have hs (b : Reading source) := collecting_keeps (k.statements (b := b))
  mvcgen [functionBody, hi, hs]

end GeneratorHost.Grammar
