import GeneratorHost.Proofs.Grammar.Extension
import GeneratorHost.Proofs.Grammar.Skips

/-! Productions in front of a sequel. Each reads what it reads of some tokens of the same tokens with the sequel behind. -/
namespace GeneratorHost.Grammar
open Reader Reader.Sequel

set_option synthInstance.maxSize 100000

/-- A grammar reads with another one what that reads alone: in front of a sequel where its productions look no further. -/
class Grows (g g' : Grammar) : Prop where
  inline (c : Category) (h : c.isInline) (q : Sequel) [Quiet q] : Extends q (g c) (g' c)
  nested (c : Category) : Extends nothing (g c) (g' c)
  pattern : ∀ {s r}, g .pattern s = some r → ∃ g₀, pattern g₀ s = some r
  type : ∀ {s r}, g' (.type true) s = some r → ∃ g₀, type g₀ true s = some r

variable {q : Sequel} {g g' : Grammar} [h : Grows g g']

section
variable [Quiet q]

instance (structs : Bool) : Extends q (g (.expression structs)) (g' (.expression structs)) := h.inline (.expression structs) rfl q

instance (structs : Bool) : Extends q (g (.unary structs)) (g' (.unary structs)) := h.inline (.unary structs) rfl q

instance (structs : Bool) (left : ExpressionShape) (base : Precedence) :
    Extends q (g (.operators structs left base)) (g' (.operators structs left base)) :=
  h.inline (.operators structs left base) rfl q

instance (plus : Bool) : Extends q (g (.type plus)) (g' (.type plus)) := h.inline (.type plus) rfl q

instance : Extends q (g .pattern) (g' .pattern) := h.inline .pattern rfl q

instance (capture const : Bool) : Extends q (g (.bound capture const)) (g' (.bound capture const)) :=
  h.inline (.bound capture const) rfl q

instance (root : Bool) : Extends q (g (.useTree root)) (g' (.useTree root)) := h.inline (.useTree root) rfl q

end

instance : Extends nothing (g .early) (g' .early) := h.nested .early

instance : Extends nothing (g .statements) (g' .statements) := h.nested .statements

instance : Extends nothing (g .item) (g' .item) := h.nested .item

instance : Extends nothing (g .namedFields) (g' .namedFields) := h.nested .namedFields

/-! ### Paths and attributes -/

instance : Extends nothing (attributeValue g) (attributeValue g') := by
  unfold attributeValue
  infer_instance

section
variable [Quiet q]

instance : Blind q isPathWord := by
  unfold isPathWord
  infer_instance

instance : Extends q pathWord pathWord := by
  unfold pathWord
  infer_instance

instance : Extends q modPath modPath := by
  unfold modPath
  infer_instance

end

instance (inner : Bool) : Extends q (readAttribute g inner) (readAttribute g' inner) := by
  unfold readAttribute
  infer_instance

section
variable [Quiet q]

instance {element element' : Reader Bool} [Extends q element element'] : Extends q (angleList element) (angleList element') := by
  unfold angleList
  infer_instance

instance : Extends q (outerAttributes g) (outerAttributes g') := by
  unfold outerAttributes
  infer_instance

instance : Extends q (innerAttributes g) (innerAttributes g') := by
  unfold innerAttributes
  infer_instance

instance : Extends nothing (blockBody g) (blockBody g') := by
  unfold blockBody
  infer_instance

instance : Extends q (block g) (block g') := by
  unfold block
  infer_instance

instance : Extends q (attributedBlock g) (attributedBlock g') := by
  unfold attributedBlock
  infer_instance

instance : Extends q (constArgument g) (constArgument g') := by
  unfold constArgument
  infer_instance

instance (ends : List Token → Bool) [Steady q ends] : Extends q (boundsUntil g ends) (boundsUntil g' ends) := by
  unfold boundsUntil
  infer_instance

instance : Extends q (genericArgument g) (genericArgument g') := by
  unfold genericArgument
  refine .bind inferInstance fun _ => .bind inferInstance fun _ => .ite inferInstance
    (.bind inferInstance fun _ => .ite inferInstance (.bind inferInstance fun shape => ?_))
  split <;> infer_instance

instance : Extends q (angleArguments g) (angleArguments g') := by
  unfold angleArguments
  infer_instance

instance (expression : Bool) : Extends q (pathSegment g expression) (pathSegment g' expression) := by
  unfold pathSegment
  infer_instance

instance (expression : Bool) (continues : Reader Bool) [Extends q continues continues] (shape : PathShape) :
    Extends q (moreSegments g expression continues shape) (moreSegments g' expression continues shape) := by
  unfold moreSegments
  infer_instance

instance (expression : Bool) : Extends q (path g expression) (path g' expression) := by
  unfold path
  infer_instance

instance (expression : Bool) : Extends q (qualifiedPath g expression) (qualifiedPath g' expression) := by
  unfold qualifiedPath
  infer_instance

instance : Extends q macroArguments macroArguments := by
  unfold macroArguments
  infer_instance

instance : Extends q macroCall macroCall := by
  unfold macroCall
  infer_instance

/-! ### Generics -/

instance (ends : List Token → Bool) [Steady q ends] : Extends q (lifetimesUntil ends) (lifetimesUntil ends) := by
  unfold lifetimesUntil
  infer_instance

instance : Extends q lifetimeParameter lifetimeParameter := by
  unfold lifetimeParameter
  infer_instance

instance : Extends q (typeParameter g) (typeParameter g') := by
  unfold typeParameter
  infer_instance

instance : Extends q (constParameter g) (constParameter g') := by
  unfold constParameter
  infer_instance

instance (blank : Bool) : Extends q (genericParameter g blank) (genericParameter g' blank) := by
  unfold genericParameter
  infer_instance

instance : Extends q (boundLifetimes g) (boundLifetimes g') := by
  unfold boundLifetimes
  infer_instance

instance : Extends q (generics g) (generics g') := by
  unfold generics
  infer_instance

instance : Steady q endsPredicate := by
  unfold endsPredicate
  infer_instance

/-- A bracket ends no item, so what is looked for behind it is there. -/
instance : Steady q startsGenerics := by
  have hangle (t : Token) (ht : t.endsItem) : isMark "<" [t] = false := by
    cases t with
    | punct c =>
      obtain rfl : c = ';' := of_decide_eq_true ht
      rfl
    | _ => rfl
  exact .guarded (isMark "<") (fun second => isMark ">" second || isMark "#" second ||
    ((isLifetime second || isName second) && (isMark ">" (skip second) || isMark "," (skip second) ||
      (isMark ":" (skip second) && !isMark "::" (skip second)) || isMark "=" (skip second))) || isWord "const" second) hangle

instance : Extends q (predicate g) (predicate g') := by
  unfold predicate
  infer_instance

instance : Extends q (whereClause g) (whereClause g') := by
  unfold whereClause
  infer_instance

instance : Extends q (whereClause? g) (whereClause? g') := by
  unfold whereClause?
  infer_instance

/-! ### Types -/

instance (plus : Bool) : Extends q (returnType g plus) (returnType g' plus) := by
  unfold returnType
  infer_instance

instance (shape : PathShape) : Extends q (applied g shape) (applied g' shape) := by
  unfold applied
  infer_instance

instance (const : Bool) : Extends q (traitBound g const) (traitBound g' const) := by
  unfold traitBound
  infer_instance

instance : Extends q capturedArguments capturedArguments := by
  unfold capturedArguments
  infer_instance

instance (plus capture const : Bool) : Extends q (boundList g plus capture const) (boundList g' plus capture const) := by
  unfold boundList
  infer_instance

instance : Extends q (furtherBounds g) (furtherBounds g') := by
  unfold furtherBounds
  infer_instance

instance (plus : Bool) : Extends q (objectType g plus) (objectType g' plus) := by
  unfold objectType
  infer_instance

instance : Extends q convention convention := by
  unfold convention
  infer_instance

instance : Extends q convention? convention? := by
  unfold convention?
  infer_instance

instance : Extends nothing pointerDots pointerDots := by
  unfold pointerDots
  infer_instance

instance (first : Bool) : Extends nothing (pointerParameter g first) (pointerParameter g' first) := by
  unfold pointerParameter
  infer_instance

instance : Extends q (functionPointer g) (functionPointer g') := by
  unfold functionPointer
  infer_instance

instance : Extends q (parenthesizedType g) (parenthesizedType g') := by
  unfold parenthesizedType
  infer_instance

instance (plus lifetimes : Bool) : Extends q (pathType g plus lifetimes) (pathType g' plus lifetimes) := by
  unfold pathType
  infer_instance

instance : Blind q startsPath := by
  unfold startsPath
  infer_instance

instance : Blind q startsPointer := by
  unfold startsPointer
  infer_instance

instance (plus : Bool) : Extends q (dynType g plus) (dynType g' plus) := by
  unfold dynType
  infer_instance

instance (plus : Bool) : Extends q (type g plus) (type g' plus) := by
  unfold type
  refine .bind inferInstance fun lifetimes =>
    .ite (.bind inferInstance fun _ => .bind inferInstance fun _ => .bind inferInstance fun _ => ?_) ?_
  all_goals
    refine .bind inferInstance fun _ => .ite (.bind inferInstance fun inside => ?_) inferInstance
    cases inside <;> infer_instance

/-! ### Patterns -/

instance : Steady q isAlternative := by
  unfold isAlternative
  infer_instance

instance : Extends q (patterns g) (patterns g') := by
  unfold patterns
  infer_instance

instance : Extends q member member := by
  unfold member
  refine .bind inferInstance fun _ => .ite inferInstance (.bind inferInstance fun token => ?_)
  split
  · split
    · exact .bind inferInstance fun _ => .bind (extends_modify (fun _ => rfl) fun _ => rfl) inferInstance
    · infer_instance
  · infer_instance

instance : Extends q (rangeBound g) (rangeBound g') := by
  unfold rangeBound
  infer_instance

instance : Extends q rangeDots rangeDots := by
  unfold rangeDots
  infer_instance

instance : Extends q (rangeEnd g) (rangeEnd g') := by
  unfold rangeEnd
  infer_instance

instance : Extends q (dotsPattern g) (dotsPattern g') := by
  unfold dotsPattern
  infer_instance

instance : Extends nothing (fieldPattern g) (fieldPattern g') := by
  unfold fieldPattern
  infer_instance

instance : Extends q (structPattern g) (structPattern g') := by
  unfold structPattern
  infer_instance

instance : Extends q (pathPattern g) (pathPattern g') := by
  unfold pathPattern
  infer_instance

instance : Extends q (bindingPattern g) (bindingPattern g') := by
  unfold bindingPattern
  infer_instance

instance : Extends q (slicePattern g) (slicePattern g') := by
  unfold slicePattern
  infer_instance

instance : Extends q (pattern g) (pattern g') := by
  unfold pattern
  infer_instance

/-! ### Operators -/

theorem binaryOperator?_append {ts : List Token} (h : q.Fits ts) : binaryOperator? (ts ++ q.tokens) = binaryOperator? ts := by
  unfold binaryOperator?
  congr 1
  funext operator
  exact (inferInstance : Steady q (isMark operator.1)).eq ts h

instance : Steady q isAssignment := by
  unfold isAssignment
  infer_instance

theorem operatorPrecedence_append {ts : List Token} (h : q.Fits ts) :
    operatorPrecedence (ts ++ q.tokens) = operatorPrecedence ts := by
  unfold operatorPrecedence
  rw [binaryOperator?_append h, (inferInstance : Steady q isAssignment).eq ts h, (inferInstance : Steady q (isMark "..")).eq ts h,
    (inferInstance : Steady q (isWord "as")).eq ts h]

instance (structs : Bool) (precedence : Precedence) :
    Extends q (rightOperand g structs precedence) (rightOperand g' structs precedence) := by
  unfold rightOperand
  refine .bind inferInstance fun first => .iterate (fun shape => ?_) first
  refine .get_bind (fun s => inferInstance) fun s hs => ?_
  have hp : operatorPrecedence (s.before q).rest = operatorPrecedence s.rest := operatorPrecedence_append hs
  have hl (t : ReaderState) : (t.before q).rest.length ≠ (s.before q).rest.length ↔ t.rest.length ≠ s.rest.length := by
    simp [ReaderState.before]
  dsimp only
  rw [hp]
  refine .ite (.bind inferInstance fun shape => .get_bind_of (fun t _ t' ht => ?_) fun t _ => ?_) inferInstance
  · cases ht
    exact List.suffix_rfl
  · simp only [hl]
    infer_instance

instance (structs : Bool) : Steady q (endsRange structs) := by
  unfold endsRange
  infer_instance

instance (structs : Bool) : Extends q (rangeTail g structs) (rangeTail g' structs) := by
  unfold rangeTail
  infer_instance

instance : Steady q bindsToType := by
  unfold bindsToType
  infer_instance

instance (structs : Bool) (left : ExpressionShape) (base : Precedence) :
    Extends q (operators g structs left base) (operators g' structs left base) := by
  unfold operators
  refine .iterate (fun shape => .ite inferInstance (.get_bind (fun s => ?_) fun s hs => ?_)) left
  · split <;> infer_instance
  · have hb : binaryOperator? (s.before q).rest = binaryOperator? s.rest := binaryOperator?_append hs
    rw [hb]
    split <;> infer_instance

/-! ### Operands -/

instance : Extends q (arguments g) (arguments g') := by
  unfold arguments
  infer_instance

instance : Extends q nestedFields nestedFields := by
  unfold nestedFields
  refine .bind inferInstance fun (token, _) => ?_
  cases token with
  | literal => dsimp only; split <;> infer_instance
  | _ => infer_instance

instance : Extends q (memberAccess g) (memberAccess g') := by
  unfold memberAccess
  infer_instance

instance (shape : ExpressionShape) : Extends q (trailers g shape) (trailers g' shape) := by
  unfold trailers
  infer_instance

instance : Steady q startsExpression := by
  unfold startsExpression
  infer_instance

instance : Extends nothing (fieldValue g) (fieldValue g') := by
  unfold fieldValue
  infer_instance

instance : Extends q (structFields g) (structFields g') := by
  unfold structFields
  infer_instance

instance (structs : Bool) : Extends q (pathExpression g structs) (pathExpression g' structs) := by
  unfold pathExpression
  infer_instance

instance : Extends q (closureParameter g) (closureParameter g') := by
  unfold closureParameter
  infer_instance

instance (structs : Bool) : Extends q (closure g structs) (closure g' structs) := by
  unfold closure
  infer_instance

instance : Steady q startsClosure := by
  unfold startsClosure
  have := Steady.behind_word (q := q) "for" startsGenerics
  infer_instance

instance : Extends q (conditional g) (conditional g') := by
  unfold conditional
  infer_instance

instance : Extends q (whileLoop g) (whileLoop g') := by
  unfold whileLoop
  infer_instance

instance : Extends q (forLoop g) (forLoop g') := by
  unfold forLoop
  infer_instance

instance : Extends q (loop g) (loop g') := by
  unfold loop
  infer_instance

instance (text : String) : Extends q (wordBlock g text) (wordBlock g' text) := by
  unfold wordBlock
  infer_instance

instance : Extends q (tryBlock g) (tryBlock g') := by
  unfold tryBlock
  infer_instance

instance : Extends q (asyncBlock g) (asyncBlock g') := by
  unfold asyncBlock
  infer_instance

instance : Extends q (labeled g) (labeled g') := by
  unfold labeled
  infer_instance

instance : Steady q startsFor := by
  exact .behind_word "for" fun ts => !startsGenerics ts

instance : Extends q (matchArms g) (matchArms g') := by
  unfold matchArms
  infer_instance

instance : Extends q (controlFlow g) (controlFlow g') := by
  unfold controlFlow
  infer_instance

instance (structs : Bool) : Extends q (breakOut g structs) (breakOut g' structs) := by
  unfold breakOut
  infer_instance

instance (text : String) : Extends q (wordValue g text) (wordValue g' text) := by
  unfold wordValue
  infer_instance

instance : Extends q (arrayElements g) (arrayElements g') := by
  unfold arrayElements
  infer_instance

instance (structs : Bool) : Extends q (atom g structs) (atom g' structs) := by
  unfold atom
  have hbuiltin : Tells q fun s => isWord "builtin" s.rest && isMark "#" (skip s.rest) :=
    ⟨fun s hs => (Steady.behind_word "builtin" (isMark "#")).eq s.rest hs⟩
  infer_instance

instance (structs : Bool) : Extends q (unary g structs) (unary g' structs) := by
  unfold unary
  infer_instance

instance (structs : Bool) : Extends q (expression g structs) (expression g' structs) := by
  unfold expression
  infer_instance

end

end GeneratorHost.Grammar
