import GeneratorHost.Proofs.Reading.Paths

/-! Types that are paths, and pointers to them. -/
namespace GeneratorHost.Grammar
open Token Reader

variable {ts rest : List Token} {g : Grammar} {plus isGlobal : Bool} {name : Bool × String}
  {names : List (Bool × String)} {segments : List String} {P : TypeShape → Prop}

instance : Unplaced startsPointer := by
  unfold startsPointer
  infer_instance

instance : Unplaced startsPath := by
  unfold startsPath
  infer_instance

/-- A type that is a path ends here. -/
structure EndsType (ts : List Token) : Prop where
  angle : isMark "<" ts = false
  colons : isMark "::" ts = false
  bang : isMark "!" ts = false
  plus : isMark "+" ts = false
  parenthesis : isGroup .parenthesis ts = false

theorem EndsType.unargued (h : EndsType ts) (expression : Bool) : Unargued expression ts :=
  unargued_of_not h.angle h.colons expression

theorem reads_applied (h : EndsType ts) (shape : PathShape) : Reads (applied g shape) ts (· = shape) ts := by
  have hm : Reads (ahead (isMark "::")) ts (· = false) ts := reads_ahead h.colons
  have hg : Reads (ahead3 (isGroup .parenthesis)) ts (fun _ => True) ts := (reads_ahead rfl).imp fun _ _ => trivial
  refine hm.seq (hg.bind fun _ _ => ?_)
  refine (reads_ahead h.parenthesis).seq ?_
  rw [Bool.false_and, Bool.or_false, Bool.and_false, if_neg Bool.false_ne_true]
  exact Reads.pure rfl

/-- A path is the type that it names. -/
theorem reads_type_of_path (hs : startsPath ts) (hfor : isWord "for" ts = false) (hg : isGroup .parenthesis ts = false)
    (hp : startsPointer ts = false) (ha : isMark "<" ts = false)
    (h : Reads (path g false) ts (· = plainShape isGlobal segments) rest) (he : EndsType rest) :
    Reads (type g plus) ts (· = .path false (plainShape isGlobal segments)) rest := by
  unfold type
  refine (reads_ahead hfor).seq (Reads.unless hg (Reads.unless hp (Reads.when hs ?_)))
  have hq : Reads (qualifiedPath g false) ts (· = (false, plainShape isGlobal segments)) rest :=
    Reads.unless ha (h.seq (Reads.pure rfl))
  refine hq.seq ((reads_applied he _).seq ?_)
  have hbang : Reads (ahead fun ts => isMark "!" ts && !isMark "!=" ts) rest (· = false) rest :=
    reads_ahead (by rw [he.bang, Bool.false_and])
  have hplus : Reads (ahead (isMark "+")) rest (· = false) rest := reads_ahead he.plus
  refine hbang.seq (hplus.seq ?_)
  rw [Bool.and_false]
  exact Reads.pure rfl

theorem reads_type_crate (hn : ∀ name ∈ names, IsName name) (he : EndsType rest) :
    Reads (type g plus) (.ident false "crate" default :: tail names ++ rest)
      (· = .path false (plainShape false ("crate" :: names.map Prod.snd))) rest :=
  reads_type_of_path rfl rfl rfl rfl rfl (reads_path_crate hn (he.unargued false) he.colons) he

theorem reads_type_global (hname : IsName name) (hn : ∀ name ∈ names, IsName name) (he : EndsType rest) :
    Reads (type g plus) (tail (name :: names) ++ rest)
      (· = .path false (plainShape true (name.2 :: names.map Prod.snd))) rest :=
  reads_type_of_path rfl rfl rfl rfl rfl (reads_path_global hname hn (he.unargued false) he.colons) he

theorem reads_type_name (hname : IsName name) (he : EndsType rest) :
    Reads (type g plus) (nameToken name :: rest) (· = .path false (plainShape false [name.2])) rest := by
  have hw {word : String} (hw : word ∈ reserved) : isWord word (nameToken name :: rest) = false := hname.isWord hw rest
  have hs : startsPath (nameToken name :: rest) := by
    rw [startsPath, hname.ahead]
    rfl
  have hp : startsPointer (nameToken name :: rest) = false := by
    rw [startsPointer, hw (by decide), hw (by decide), hw (by decide)]
    rfl
  exact reads_type_of_path hs (hw (by decide)) rfl hp rfl (reads_path_name hname (he.unargued false) he.colons) he

/-- A pointer to something that can be read or written. -/
theorem reads_type_pointer {word : String} (hw : word = "const" ∨ word = "mut") (h : Reads (g (.type false)) ts P rest) :
    Reads (type g plus) (.punct '*' false default :: .ident false word default :: ts) (fun _ => True) rest := by
  have hstar : Reads (mark? "*") (Token.mark "*".toList ++ .ident false word default :: ts) (· = true) _ :=
    reads_mark? (by decide)
  unfold type
  refine (reads_ahead rfl).seq (Reads.unless rfl (Reads.unless rfl (Reads.unless rfl (Reads.unless rfl (Reads.unless rfl ?_)))))
  refine hstar.seq ?_
  rcases hw with rfl | rfl
  · exact (reads_word? "const").seq (h.bind fun _ _ => Reads.pure trivial)
  · exact (reads_word?_of_not rfl).seq ((reads_word "mut").bind fun _ _ => h.bind fun _ _ => Reads.pure trivial)

end GeneratorHost.Grammar
