import GeneratorHost.Grammar.Parse
import GeneratorHost.Proofs.Grammar.TypeWords

/-! Outside brackets only the productions of structs and enums read the words that these begin with. So an item declares
a type and has its word, or has such a word as the name of a lifetime at most. -/
namespace GeneratorHost

/-- Categories that are read outside brackets in an item. -/
def Category.isInline : Category → Bool
  | .early | .statements | .item | .namedFields => false
  | _ => true

namespace Grammar
open Std.Do Reader

set_option mvcgen.warning false

/-- Productions of these categories that read no such word. -/
structure SkippingGrammar (b : Beginning) where
  grammar : Grammar
  skips (c : Category) (h : c.isInline) : Skips b (grammar c)

variable {b : Beginning} (k : SkippingGrammar b)

@[spec high] theorem SkippingGrammar.expression (structs : Bool) : Skips b (k.grammar (.expression structs)) :=
  k.skips _ rfl

@[spec high] theorem SkippingGrammar.unary (structs : Bool) : Skips b (k.grammar (.unary structs)) :=
  k.skips _ rfl

@[spec high] theorem SkippingGrammar.operators (structs : Bool) (left : ExpressionShape) (base : Precedence) :
    Skips b (k.grammar (.operators structs left base)) :=
  k.skips _ rfl

@[spec high] theorem SkippingGrammar.type (plus : Bool) : Skips b (k.grammar (.type plus)) :=
  k.skips _ rfl

@[spec high] theorem SkippingGrammar.pattern : Skips b (k.grammar .pattern) :=
  k.skips _ rfl

@[spec high] theorem SkippingGrammar.bound (capture const : Bool) : Skips b (k.grammar (.bound capture const)) :=
  k.skips _ rfl

@[spec high] theorem SkippingGrammar.useTree (root : Bool) : Skips b (k.grammar (.useTree root)) :=
  k.skips _ rfl

/-! ### Paths and attributes -/

theorem not_startsType_of_isPathWord {us : List Token} (h : isPathWord us) : ¬ startsType us := by
  simp only [isPathWord, Bool.or_eq_true] at h
  rcases h with (((h | h) | h) | h) | h
  · exact not_startsType_of_isName h
  all_goals exact not_startsType_of_isWord h

@[spec high] theorem pathWord_skips : Skips b pathWord :=
  nameIf_skips fun _ => not_startsType_of_isPathWord

@[spec high] theorem modPath_skips : Skips b modPath := by
  unfold modPath
  mvcgen

@[spec high] theorem angleList_skips {element : Reader Bool} (h : Skips b element) : Skips b (angleList element) := by
  unfold angleList
  mvcgen

@[spec high] theorem readAttribute_skips (inner : Bool) : Skips b (readAttribute k.grammar inner) := by
  unfold readAttribute
  mvcgen

@[spec high] theorem outerAttributes_skips : Skips b (outerAttributes k.grammar) := by
  unfold outerAttributes
  mvcgen

@[spec high] theorem block_skips : Skips b (block k.grammar) := by
  unfold block
  mvcgen

@[spec high] theorem attributedBlock_skips : Skips b (attributedBlock k.grammar) := by
  unfold attributedBlock
  mvcgen

@[spec high] theorem constArgument_skips : Skips b (constArgument k.grammar) := by
  unfold constArgument
  mvcgen

@[spec high] theorem boundsUntil_skips (ends : List Token → Bool) : Skips b (boundsUntil k.grammar ends) := by
  unfold boundsUntil
  mvcgen

@[spec high] theorem genericArgument_skips : Skips b (genericArgument k.grammar) := by
  unfold genericArgument
  mvcgen

@[spec high] theorem angleArguments_skips : Skips b (angleArguments k.grammar) := by
  unfold angleArguments
  mvcgen
  exact id

@[spec high] theorem pathSegment_skips (expression : Bool) : Skips b (pathSegment k.grammar expression) := by
  unfold pathSegment ahead
  mvcgen
  · rename_i hs hw
    simp only [Bool.or_eq_true] at hw
    refine ⟨hs, ?_⟩
    rcases hw with ((hw | hw) | hw) | hw <;> exact not_startsType_of_isWord hw
  · rename_i hs _ _ hw
    exact ⟨hs, not_startsType_of_isWord hw⟩

@[spec high] theorem moreSegments_skips (expression : Bool) {continues : Reader Bool} (shape : PathShape)
    (h : Skips b continues) : Skips b (moreSegments k.grammar expression continues shape) := by
  unfold moreSegments
  mvcgen [h]

@[spec high] theorem path_skips (expression : Bool) : Skips b (path k.grammar expression) := by
  unfold path
  mvcgen

@[spec high] theorem qualifiedPath_skips (expression : Bool) : Skips b (qualifiedPath k.grammar expression) := by
  unfold qualifiedPath
  mvcgen

@[spec high] theorem macroArguments_skips : Skips b macroArguments := by
  unfold macroArguments
  mvcgen

/-! ### Generics and where clauses -/

@[spec high] theorem lifetimesUntil_skips (ends : List Token → Bool) : Skips b (lifetimesUntil ends) := by
  unfold lifetimesUntil
  mvcgen

@[spec high] theorem lifetimeParameter_skips : Skips b lifetimeParameter := by
  unfold lifetimeParameter
  mvcgen

@[spec high] theorem typeParameter_skips : Skips b (typeParameter k.grammar) := by
  unfold typeParameter
  mvcgen

@[spec high] theorem constParameter_skips : Skips b (constParameter k.grammar) := by
  unfold constParameter
  mvcgen

@[spec high] theorem genericParameter_skips (blank : Bool) : Skips b (genericParameter k.grammar blank) := by
  unfold genericParameter ahead require
  mvcgen
  rename_i hs _ _ _ hw
  rw [Bool.and_eq_true] at hw
  exact ⟨hs, not_startsType_of_isWord hw.2⟩

@[spec high] theorem boundLifetimes_skips : Skips b (boundLifetimes k.grammar) := by
  unfold boundLifetimes
  mvcgen

@[spec high] theorem generics_skips : Skips b (generics k.grammar) := by
  unfold generics
  mvcgen
  exact id

@[spec high] theorem predicate_skips : Skips b (predicate k.grammar) := by
  unfold predicate
  mvcgen

@[spec high] theorem whereClause_skips : Skips b (whereClause k.grammar) := by
  unfold whereClause
  mvcgen

@[spec high] theorem whereClause?_skips : Skips b (whereClause? k.grammar) := by
  unfold whereClause?
  mvcgen

/-! ### Types -/

@[spec high] theorem returnType_skips (plus : Bool) : Skips b (returnType k.grammar plus) := by
  unfold returnType
  mvcgen

@[spec high] theorem applied_skips (shape : PathShape) : Skips b (applied k.grammar shape) := by
  unfold applied
  mvcgen

@[spec high] theorem traitBound_skips (const : Bool) : Skips b (traitBound k.grammar const) := by
  unfold traitBound
  mvcgen

@[spec high] theorem capturedArguments_skips : Skips b capturedArguments := by
  unfold capturedArguments ahead require
  mvcgen
  rename_i hs _ _ hw
  exact ⟨hs, not_startsType_of_isNameOr hw⟩

@[spec high] theorem bound_skips (capture const : Bool) : Skips b (bound k.grammar capture const) := by
  unfold bound
  mvcgen

@[spec high] theorem boundList_skips (plus capture const : Bool) :
    Skips b (boundList k.grammar plus capture const) := by
  unfold boundList
  mvcgen

@[spec high] theorem furtherBounds_skips : Skips b (furtherBounds k.grammar) := by
  unfold furtherBounds
  mvcgen

@[spec high] theorem objectType_skips (plus : Bool) : Skips b (objectType k.grammar plus) := by
  unfold objectType
  mvcgen

@[spec high] theorem convention_skips : Skips b convention := by
  unfold convention ahead
  mvcgen
  rename_i hs ht
  exact ⟨hs, not_startsType_of_isTextLiteral ht⟩

@[spec high] theorem convention?_skips : Skips b convention? := by
  unfold convention?
  mvcgen

@[spec high] theorem functionPointer_skips : Skips b (functionPointer k.grammar) := by
  unfold functionPointer
  mvcgen

@[spec high] theorem parenthesizedType_skips : Skips b (parenthesizedType k.grammar) := by
  unfold parenthesizedType
  mvcgen

@[spec high] theorem pathType_skips (plus lifetimes : Bool) : Skips b (pathType k.grammar plus lifetimes) := by
  unfold pathType
  mvcgen

@[spec high] theorem dynType_skips (plus : Bool) : Skips b (dynType k.grammar plus) := by
  unfold dynType
  mvcgen

@[spec high] theorem type_skips (plus : Bool) : Skips b (type k.grammar plus) := by
  unfold type
  mvcgen

/-! ### Patterns -/

@[spec high] theorem patterns_skips : Skips b (patterns k.grammar) := by
  unfold patterns
  mvcgen

@[spec high] theorem member_skips : Skips b member := by
  unfold member anyToken
  mvcgen
  rename_i hs _ _ hr _ _ ht _ _
  subst ht
  exact hs.one hr Bool.false_ne_true

@[spec high] theorem rangeBound_skips : Skips b (rangeBound k.grammar) := by
  unfold rangeBound
  mvcgen

@[spec high] theorem rangeDots_skips : Skips b rangeDots := by
  unfold rangeDots
  mvcgen

@[spec high] theorem rangeEnd_skips : Skips b (rangeEnd k.grammar) := by
  unfold rangeEnd
  mvcgen

@[spec high] theorem dotsPattern_skips : Skips b (dotsPattern k.grammar) := by
  unfold dotsPattern
  mvcgen

@[spec high] theorem structPattern_skips : Skips b (structPattern k.grammar) := by
  unfold structPattern
  mvcgen

@[spec high] theorem pathPattern_skips : Skips b (pathPattern k.grammar) := by
  unfold pathPattern
  mvcgen

@[spec high] theorem bindingPattern_skips : Skips b (bindingPattern k.grammar) := by
  unfold bindingPattern ahead
  mvcgen
  rename_i hs _ hw
  exact ⟨hs, not_startsType_of_isWord hw⟩

@[spec high] theorem slicePattern_skips : Skips b (slicePattern k.grammar) := by
  unfold slicePattern
  mvcgen

@[spec high] theorem pattern_skips : Skips b (pattern k.grammar) := by
  unfold pattern
  mvcgen

/-! ### Expressions -/

@[spec high] theorem rightOperand_skips (structs : Bool) (precedence : Precedence) :
    Skips b (rightOperand k.grammar structs precedence) := by
  unfold rightOperand
  mvcgen

@[spec high] theorem rangeTail_skips (structs : Bool) : Skips b (rangeTail k.grammar structs) := by
  unfold rangeTail
  mvcgen

@[spec high] theorem operators_skips (structs : Bool) (left : ExpressionShape) (base : Precedence) :
    Skips b (operators k.grammar structs left base) := by
  unfold operators
  mvcgen

@[spec high] theorem arguments_skips : Skips b (arguments k.grammar) := by
  unfold arguments
  mvcgen

@[spec high] theorem nestedFields_skips : Skips b nestedFields := by
  unfold nestedFields capturing anyToken
  mvcgen
  rename_i hs t _ ts hr _ _ _ ht _ _ _
  subst ht
  exact hs.one hr Bool.false_ne_true

@[spec high] theorem memberAccess_skips : Skips b (memberAccess k.grammar) := by
  unfold memberAccess
  mvcgen

@[spec high] theorem trailers_skips (shape : ExpressionShape) : Skips b (trailers k.grammar shape) := by
  unfold trailers
  mvcgen

@[spec high] theorem structFields_skips : Skips b (structFields k.grammar) := by
  unfold structFields
  mvcgen

@[spec high] theorem pathExpression_skips (structs : Bool) : Skips b (pathExpression k.grammar structs) := by
  unfold pathExpression
  mvcgen

@[spec high] theorem closureParameter_skips : Skips b (closureParameter k.grammar) := by
  unfold closureParameter
  mvcgen

@[spec high] theorem closure_skips (structs : Bool) : Skips b (closure k.grammar structs) := by
  unfold closure
  mvcgen

@[spec high] theorem conditional_skips : Skips b (conditional k.grammar) := by
  unfold conditional
  mvcgen

@[spec high] theorem whileLoop_skips : Skips b (whileLoop k.grammar) := by
  unfold whileLoop
  mvcgen

@[spec high] theorem forLoop_skips : Skips b (forLoop k.grammar) := by
  unfold forLoop
  mvcgen

@[spec high] theorem loop_skips : Skips b (loop k.grammar) := by
  unfold loop
  mvcgen

@[spec high] theorem wordBlock_skips {text : String} (h : text ∉ ["struct", "enum"]) :
    Skips b (wordBlock k.grammar text) := by
  unfold wordBlock
  mvcgen

@[spec high] theorem tryBlock_skips : Skips b (tryBlock k.grammar) := by
  unfold tryBlock
  mvcgen

@[spec high] theorem asyncBlock_skips : Skips b (asyncBlock k.grammar) := by
  unfold asyncBlock
  mvcgen

@[spec high] theorem labeled_skips : Skips b (labeled k.grammar) := by
  unfold labeled
  mvcgen

@[spec high] theorem matchArms_skips : Skips b (matchArms k.grammar) := by
  unfold matchArms
  mvcgen

@[spec high] theorem controlFlow_skips : Skips b (controlFlow k.grammar) := by
  unfold controlFlow
  mvcgen

@[spec high] theorem breakOut_skips (structs : Bool) : Skips b (breakOut k.grammar structs) := by
  unfold breakOut
  mvcgen

@[spec high] theorem wordValue_skips {text : String} (h : text ∉ ["struct", "enum"]) :
    Skips b (wordValue k.grammar text) := by
  unfold wordValue
  mvcgen

@[spec high] theorem arrayElements_skips : Skips b (arrayElements k.grammar) := by
  unfold arrayElements
  mvcgen

@[spec high] theorem atom_skips (structs : Bool) : Skips b (atom k.grammar structs) := by
  unfold atom
  mvcgen

@[spec high] theorem unary_skips (structs : Bool) : Skips b (unary k.grammar structs) := by
  unfold unary
  mvcgen

@[spec high] theorem expression_skips (structs : Bool) : Skips b (expression k.grammar structs) := by
  unfold expression
  mvcgen

/-! ### Signature -/

@[spec high] theorem visibility_skips : Skips b visibility := by
  unfold visibility
  mvcgen
  rename_i hs _ _ _ _ hr _ _
  rw [hr]
  exact ⟨hs, Bool.false_ne_true⟩

@[spec high] theorem signature_skips (safe : Bool) : Skips b (signature k.grammar safe) := by
  unfold signature
  mvcgen
  all_goals exact id

@[spec high] theorem functionBody_skips : Skips b (functionBody k.grammar) := by
  unfold functionBody
  mvcgen

/-! ### Items -/

@[spec high] theorem typeDeclaration_skips (mayDefault whereFirst whereLast : Bool) :
    Skips b (typeDeclaration k.grammar mayDefault whereFirst whereLast) := by
  unfold typeDeclaration
  mvcgen
  all_goals exact id

@[spec high] theorem constDeclaration_skips : Skips b (constDeclaration k.grammar) := by
  unfold constDeclaration
  mvcgen
  · exact fun _ h => not_startsType_of_isNameOr h
  all_goals exact id

@[spec high] theorem useTree_skips (root : Bool) : Skips b (useTree k.grammar root) := by
  unfold useTree ahead
  mvcgen
  · rename_i hs hw
    simp only [Bool.or_eq_true] at hw
    refine ⟨hs, ?_⟩
    rcases hw with (((hw | hw) | hw) | hw) | hw
    · exact not_startsType_of_isName hw
    all_goals exact not_startsType_of_isWord hw
  · exact fun _ h => not_startsType_of_isNameOr h

@[spec high] theorem endMacro_skips (delimiter : Delimiter) : Skips b (endMacro delimiter) := by
  unfold endMacro
  mvcgen

@[spec high] theorem members_skips (member : Reader Unit) : Skips b (members k.grammar member) := by
  unfold members
  mvcgen

@[spec high] theorem aliasBounds_skips : Skips b (aliasBounds k.grammar) := by
  unfold aliasBounds
  mvcgen

/-! ### Items that declare no type -/

/-- A reader reads no such word, and its value has a property. -/
abbrev SkipsTo {α : Type} (b : Beginning) (p : Reader α) (Q : α → Prop) : Prop :=
  ⦃fun s => ⌜s.Behind b⌝⦄ p ⦃⇓? a s => ⌜s.Behind b ∧ Q a⌝⦄

/-- The declaration of a struct, an enum or a union. -/
def Parts.declaresType (parts : Parts) : Bool := parts.head.kind.isClassLike

/-- What was read declares no type. -/
def Typefree (parts? : Option Parts) : Prop := ∀ parts ∈ parts?, ¬ parts.declaresType

@[simp] theorem typefree_none : Typefree none := nofun

@[simp] theorem typefree_some {parts : Parts} : Typefree (some parts) ↔ ¬ parts.declaresType := by
  simp [Typefree]

theorem typefree_map {α : Type} {f : α → Parts} (h : ∀ a, ¬ (f a).declaresType) (a? : Option α) :
    Typefree (a?.map f) := by
  cases a? with
  | none => exact typefree_none
  | some a => exact typefree_some.mpr (h a)

@[simp] theorem typefree_unless {c : Prop} [Decidable c] {parts? : Option Parts} :
    Typefree (if c then none else parts?) ↔ ¬ c → Typefree parts? := by
  by_cases hc : c <;> simp [hc]

@[spec high] theorem useItem_skips : SkipsTo b (useItem k.grammar) Typefree := by
  unfold useItem
  mvcgen
  rename_i hs
  refine ⟨hs, typefree_map (fun _ => ?_) _⟩
  exact Bool.false_ne_true

@[spec high] theorem externCrate_skips : SkipsTo b externCrate fun parts => ¬ parts.declaresType := by
  unfold externCrate ahead
  mvcgen
  all_goals refine ⟨by assumption, ?_⟩
  all_goals first | exact Bool.false_ne_true | exact not_startsType_of_isWord (by assumption)

@[spec high] theorem macroItem_skips : SkipsTo b macroItem fun parts => ¬ parts.declaresType := by
  unfold macroItem
  mvcgen
  · exact fun _ _ _ h => not_startsType_of_isNameOr h
  · rename_i hs
    exact ⟨hs, Bool.false_ne_true⟩

@[spec high] theorem macroDefinition_skips : Skips b macroDefinition := by
  unfold macroDefinition
  mvcgen

@[spec high] theorem traitBody_skips (name : String) (parameterFound : List Declaration) :
    SkipsTo b (traitBody k.grammar name parameterFound) fun parts => ¬ parts.declaresType := by
  unfold traitBody
  mvcgen
  all_goals simp_all [Parts.declaresType, Head.kind, Kind.isClassLike]

@[spec high] theorem traitAliasBody_skips (name : String) (parameterFound : List Declaration) :
    SkipsTo b (traitAliasBody k.grammar name parameterFound) fun parts => ¬ parts.declaresType := by
  unfold traitAliasBody
  mvcgen
  all_goals simp_all [Parts.declaresType, Head.kind, Kind.isClassLike]

@[spec high] theorem traitItem_skips : SkipsTo b (traitItem k.grammar) fun parts => ¬ parts.declaresType := by
  unfold traitItem
  mvcgen
  all_goals exact id

@[spec high] theorem implItem_skips : SkipsTo b (implItem k.grammar) Typefree := by
  unfold implItem
  mvcgen
  all_goals simp_all [Parts.declaresType, Head.kind, Kind.isClassLike]

@[spec high] theorem moduleItem_skips : SkipsTo b (moduleItem k.grammar) fun parts => ¬ parts.declaresType := by
  unfold moduleItem
  mvcgen
  · exact fun _ h => not_startsType_of_isNameOr h
  all_goals exact ⟨by assumption, Bool.false_ne_true⟩

@[spec high] theorem foreignModule_skips : SkipsTo b (foreignModule k.grammar) fun parts => ¬ parts.declaresType := by
  unfold foreignModule
  mvcgen
  all_goals simp_all [Parts.declaresType, Head.kind, Kind.isClassLike]

@[spec high] theorem functionItem_skips : SkipsTo b (functionItem k.grammar) Typefree := by
  unfold functionItem
  mvcgen
  all_goals simp_all [Parts.declaresType, Head.kind, Kind.isClassLike]

@[spec high] theorem staticItem_skips : SkipsTo b (staticItem k.grammar) Typefree := by
  unfold staticItem
  mvcgen
  all_goals simp_all [Parts.declaresType, Head.kind, Kind.isClassLike]

@[spec high] theorem constItem_skips : SkipsTo b (constItem k.grammar) Typefree := by
  unfold constItem
  mvcgen
  all_goals simp_all [Parts.declaresType, Head.kind, Kind.isClassLike]

@[spec high] theorem typeItem_skips : SkipsTo b (typeItem k.grammar) Typefree := by
  unfold typeItem
  mvcgen
  all_goals simp_all [Parts.declaresType, Head.kind, Kind.isClassLike]

@[spec high] theorem unsafeItem_skips (second : List Token) : SkipsTo b (unsafeItem k.grammar second) Typefree := by
  unfold unsafeItem
  mvcgen
  all_goals exact fun hs ht => ⟨hs, typefree_some.mpr ht⟩

/-! ### The grammar -/

/-- Productions down to any depth; what an item has in brackets is not among its own tokens. -/
theorem grammar_skips (depth : Nat) (c : Category) (h : c.isInline) : Skips b (grammar depth c) := by
  induction depth generalizing c with
  | zero =>
    unfold grammar
    mvcgen
  | succ depth ih =>
    let k : SkippingGrammar b := ⟨grammar depth, ih⟩
    cases c with
    | expression structs => exact expression_skips k structs
    | unary structs => exact unary_skips k structs
    | operators structs left base => exact operators_skips k structs left base
    | type plus => exact type_skips k plus
    | pattern => exact pattern_skips k
    | bound capture const => exact bound_skips k capture const
    | useTree root => exact useTree_skips k root
    | early | statements | item | namedFields => cases h

/-- The grammar of some depth, as one whose productions read no such word. -/
def skippingGrammar (b : Beginning) (depth : Nat) : SkippingGrammar b := ⟨grammar depth, grammar_skips depth⟩

/-! ### Items -/

/-- A reader's value is of a type declaration. -/
abbrev DeclaresType (p : Reader Parts) : Prop :=
  ⦃fun _ => ⌜True⌝⦄ p ⦃⇓? parts _ => ⌜parts.declaresType⌝⦄

theorem DeclaresType.bind {α : Type} {p : Reader α} {f : α → Reader Parts} (h : ∀ a, DeclaresType (f a)) :
    DeclaresType (p >>= f) := by
  rw [DeclaresType, triple_iff]
  intro s parts s' he _
  obtain ⟨a, t, -, ha⟩ := bind_eq_some_iff.mp he
  exact triple_iff.mp (h a) t parts s' ha trivial

theorem declaresType_pure {parts : Parts} (h : parts.declaresType) : DeclaresType (pure parts) := by
  mvcgen

variable (g : Grammar)

@[spec high] theorem structItem_declaresType : DeclaresType (structItem g) := by
  unfold structItem
  exact .bind fun _ => .bind fun _ => .bind fun _ => .bind fun _ => .bind fun _ => declaresType_pure rfl

@[spec high] theorem enumItem_declaresType : DeclaresType (enumItem g) := by
  unfold enumItem
  exact .bind fun _ => .bind fun _ => .bind fun _ => .bind fun _ => .bind fun _ => .bind fun _ =>
    declaresType_pure rfl

@[spec high] theorem unionItem_declaresType : DeclaresType (unionItem g) := by
  unfold unionItem
  exact .bind fun _ => .bind fun _ => .bind fun _ => .bind fun _ => .bind fun _ => .bind fun _ =>
    declaresType_pure rfl

@[spec high] theorem behindVisibility_skips :
    SkipsTo b behindVisibility fun r => ∃ read, b.tokens = read ++ r.2 := by
  rw [SkipsTo, triple_iff]
  intro s r s' h hs
  obtain ⟨_, _, hg, h⟩ := bind_eq_some_iff.mp h
  cases hg
  cases hv : visibility s with
  | none =>
    rw [hv] at h
    cases h
  | some behind =>
    rw [hv] at h
    cases h
    obtain ⟨read, hb, -⟩ := skips_iff.mp visibility_skips s behind.1 behind.2 hv hs
    exact ⟨hs, read, hb⟩

/-- What stands behind an item's attributes: a type is declared and its word is among the tokens, or no type is declared
and no word that begins one was read. -/
inductive ItemRead (b : Beginning) (s : ReaderState) : Option Parts → Prop
  | type {parts : Parts} (declares : parts.declaresType) (word : b.HasTypeWord) : ItemRead b s (some parts)
  | other {parts? : Option Parts} (behind : s.Behind b) (typefree : Typefree parts?) : ItemRead b s parts?

theorem itemRest_reads :
    ⦃fun s => ⌜s.Behind b⌝⦄ itemRest k.grammar ⦃⇓? parts? s => ⌜ItemRead b s parts?⌝⦄ := by
  unfold itemRest require keeping
  mvcgen
  all_goals try first
    | exact And.left (by assumption)
    | exact .other
    | exact fun hs ht => .other hs (typefree_some.mpr ht)
    | exact .other (by assumption) typefree_none
  -- Structs, enums and unions are left; their word is the one that was looked at.
  all_goals
    rename_i hw s hs parts t
    obtain ⟨-, read, hr⟩ := hs
    refine fun declares => .type declares ⟨read, _, hr, ?_⟩
    simp_all [startsType]

/-- An item is found as one declaration. If it declares a type, the word of that is among the tokens; otherwise no word
that begins one was read. -/
theorem exists_found_of_item {depth : Nat} {s s' : ReaderState} {u : Unit}
    (h : item (grammar depth) s = some (u, s')) :
    ∃ d, s'.found = s.found.push d ∧
      (d.head.kind.isClassLike ∧ Beginning.HasTypeWord ⟨s.rest⟩ ∨ ¬ d.head.kind.isClassLike ∧ s'.Behind ⟨s.rest⟩) := by
  let k := skippingGrammar ⟨s.rest⟩ depth
  obtain ⟨outer, s₁, parts?, s₂, ho, hr, rfl⟩ := declaring_eq_some_iff.mp h
  have hs₁ : s₁.Behind ⟨s.rest⟩ := skips_iff.mp (collecting_skips (outerAttributes_skips k)) s outer s₁ ho (.start s)
  cases triple_iff.mp (itemRest_reads k) s₁ parts? s₂ hr hs₁ with
  | type declares word => exact ⟨_, rfl, .inl ⟨declares, word⟩⟩
  | other behind typefree =>
    obtain ⟨read, hb, ht⟩ := behind
    cases parts? with
    | none => exact ⟨_, rfl, .inr ⟨Bool.false_ne_true, read, hb, ht⟩⟩
    | some parts => exact ⟨_, rfl, .inr ⟨typefree parts rfl, read, hb, ht⟩⟩

end Grammar
end GeneratorHost
