import GeneratorHost.Proofs.Unit.Mounts

/-! The functions that a unit's root exports, and that they name what the root mounts. -/
namespace GeneratorHost.UnitRoot
open Token Reader Grammar

variable {name support symbol callee : String} {names : List String} {depth : Nat} {ts rest : List Token}
  {edition : Edition}

/-! ### Tokens -/

/-- The tokens of the attribute that exports a function. -/
def exportedContent : Edition → List Token
  | .e2024 => [.ident false "unsafe" default, .group .parenthesis [.ident false "no_mangle" default] default]
  | _ => [.ident false "no_mangle" default]

theorem exported_eq (edition : Edition) : exported edition = attributed (exportedContent edition) := by
  cases edition <;> rfl

theorem reads_exported (edition : Edition) {g : Grammar} (ts : List Token) :
    Reads (readAttribute g false) (attributed (exportedContent edition) ++ ts) (fun _ => True) ts := by
  cases edition with
  | e2024 => exact reads_readAttribute_unsafe _
  | _ => exact reads_readAttribute_word

/-- A name that is written plain. -/
def plain (name : String) : Bool × String := (false, name)

theorem literal_C : literal "C" = [.literal "\"C\"" default] := by
  have hquoted : Text.quotedLiteral "C".toList = "\"C\"" := by decide +kernel
  rw [literal, hquoted]

theorem function_eq {parameters result : List Token} {arguments : String} {passed : List (Bool × String)}
    (ha : phrase arguments = listed passed) (hs : Writable support) (h : ∀ n ∈ names, Writable n) :
    function edition symbol parameters result (pathTokens [support]) callee (pathTokens names) arguments =
      attributed (exportedContent edition) ++ (.ident false "pub" default :: exportFront (plain symbol) ++
        .group .parenthesis parameters default :: result) ++
          [.group .brace (guarded (call (spelled support) (plain callee) (names.map spelled) passed)) default] := by
  have hpub : phrase "pub unsafe extern" = [.word "pub", .word "unsafe", .word "extern"] := rfl
  have hfn : phrase "fn" = [.word "fn"] := rfl
  have hunsafe : phrase "unsafe" = [.word "unsafe"] := rfl
  have hcolons : phrase "::" = colons := rfl
  have hopen : phrase ":: <" = colons ++ [.punct '<' false default] := rfl
  have hclose : phrase ">" = [.punct '>' false default] := rfl
  rw [function, exported_eq, literal_C, ha, pathTokens_eq (List.forall_mem_singleton.mpr hs), pathTokens_eq h, hpub, hfn, hunsafe,
    hcolons, hopen, hclose]
  simp only [group, exportFront, guarded, call, angled, nameToken, plain, Token.word, List.append_assoc, List.cons_append,
    List.nil_append, List.map_singleton]

/-! ### Parameters -/

/-- The type of an address. -/
def addressType : List Token :=
  .punct '*' false default :: .ident false "mut" default :: tail [plain "core", plain "ffi", plain "c_void"]

/-- The type of a pointer to a record of the support module. -/
def recordType (support record : String) : List Token :=
  .punct '*' false default :: .ident false "const" default :: .ident false "crate" default :: tail [spelled support, plain record]

theorem isType_address : IsType (grammar (depth + 2)) addressType where
  reads rest h := by
    have hn : ∀ name ∈ [plain "ffi", plain "c_void"], IsName name := by decide
    have hp : Reads (grammar (depth + 1) (.type false)) (tail [plain "core", plain "ffi", plain "c_void"] ++ rest) _ rest :=
      reads_type_global (by decide) hn h
    exact reads_type_pointer (.inr rfl) hp
  dots _ := rfl

theorem isType_record {record : String} (hr : IsName (plain record)) : IsType (grammar (depth + 2)) (recordType support record) where
  reads _ h := by
    have hn : ∀ name ∈ [spelled support, plain record], IsName name :=
      List.forall_mem_cons.mpr ⟨isName_spelled support, List.forall_mem_singleton.mpr hr⟩
    have hp : Reads (grammar (depth + 1) (.type false)) (.ident false "crate" default :: tail [spelled support, plain record] ++ _) _
        _ := reads_type_crate hn h
    exact reads_type_pointer (.inl rfl) hp
  dots _ := rfl

theorem isType_name {word : String} (h : IsName (plain word)) : IsType (grammar (depth + 1)) [nameToken (plain word)] where
  reads _ he := (reads_type_name h he).imp fun _ _ => trivial
  dots _ := rfl

theorem reads_returnType {g : Grammar} {type : List Token} (h : IsType g type) (body : List Token) :
    Reads (returnType g true) (.punct '-' true default :: .punct '>' false default :: type ++ .group .brace body default :: rest)
      (fun _ => True) (.group .brace body default :: rest) := by
  have hm : Reads (mark? "->") (Token.mark "->".toList ++ (type ++ .group .brace body default :: rest)) (· = true) _ :=
    reads_mark? (by decide)
  exact hm.seq ((h.reads _ (endsType_brace body rest)).bind fun _ _ => Reads.pure trivial)

theorem reads_returnType_none {g : Grammar} (body : List Token) :
    Reads (returnType g true) (.group .brace body default :: rest) (fun _ => True) (.group .brace body default :: rest) :=
  (reads_mark?_of_not rfl).seq (Reads.pure trivial)

/-! ### Functions -/

/-- The parameters of an entry point. -/
def parametersOf (support : String) : EntryPoint → List Token
  | .construct => parameter (plain "sink") (recordType support "RawSink")
  | .execute => parameterList [(plain "instance", addressType), (plain "sink", recordType support "RawSink"),
      (plain "nodes", recordType support "RawDeclaration"), (plain "count", [nameToken (plain "usize")])]
  | .release => parameter (plain "instance") addressType

/-- The arrow and the result of an entry point. -/
def resultOf : EntryPoint → List Token
  | .construct => .punct '-' true default :: .punct '>' false default :: addressType
  | .execute => [.punct '-' true default, .punct '>' false default, nameToken (plain "i32")]
  | .release => []

/-- The support function that an entry point calls. -/
def calleeOf : EntryPoint → Bool × String
  | .construct => plain "construct_entry"
  | .execute => plain "execute_entry"
  | .release => plain "release_entry"

/-- What an entry point hands on. -/
def argumentsOf : EntryPoint → List (Bool × String)
  | .construct => [plain "sink"]
  | .execute => [plain "instance", plain "sink", plain "nodes", plain "count"]
  | .release => [plain "instance"]

/-- The tokens of an entry point's body. -/
def bodyOf (support : String) (names : List String) (e : EntryPoint) : List Token :=
  guarded (call (spelled support) (calleeOf e) (names.map spelled) (argumentsOf e))

/-- The tokens of an entry point up to its body. -/
def frontOf (edition : Edition) (name support : String) (e : EntryPoint) : List Token :=
  attributed (exportedContent edition) ++ (.ident false "pub" default :: exportFront (plain (e.symbol name)) ++
    .group .parenthesis (parametersOf support e) default :: resultOf e)

/-- The tokens of an entry point. -/
def exportTokens (edition : Edition) (name support : String) (names : List String) (e : EntryPoint) : List Token :=
  frontOf edition name support e ++ [.group .brace (bodyOf support names e) default]

theorem exportTokens_append (e : EntryPoint) (rest : List Token) : exportTokens edition name support names e ++ rest =
    attributed (exportedContent edition) ++ (.ident false "pub" default :: exportFront (plain (e.symbol name)) ++
      .group .parenthesis (parametersOf support e) default ::
        (resultOf e ++ .group .brace (bodyOf support names e) default :: rest)) := by
  simp only [exportTokens, frontOf, List.append_assoc, List.cons_append, List.nil_append]

theorem entryPoints_eq (hs : Writable support) (h : ∀ n ∈ names, Writable n) :
    entryPoints name edition (pathTokens names) (pathTokens [support]) =
      EntryPoint.all.flatMap (exportTokens edition name support names) := by
  have hsupport : pathTokens [support] = .ident false "crate" default :: tail [spelled support] :=
    pathTokens_eq (List.forall_mem_singleton.mpr hs)
  have hsink : phrase "sink : * const" ++ pathTokens [support] ++ phrase ":: RawSink" =
      parameter (plain "sink") (recordType support "RawSink") := by
    rw [hsupport]
    rfl
  have hnodes : phrase "nodes : * const" ++ pathTokens [support] ++ phrase ":: RawDeclaration" =
      parameter (plain "nodes") (recordType support "RawDeclaration") := by
    rw [hsupport]
    rfl
  have hinstance : phrase "instance :" ++ phrase "* mut :: core :: ffi :: c_void" = parameter (plain "instance") addressType := rfl
  have hall : parameter (plain "instance") addressType ++ phrase "," ++ parameter (plain "sink") (recordType support "RawSink") ++
      phrase "," ++ parameter (plain "nodes") (recordType support "RawDeclaration") ++ phrase "," ++ phrase "count : usize" ++
      phrase "," = parametersOf support .execute := rfl
  have hconstruct : phrase "sink" = listed (argumentsOf .construct) := rfl
  have hexecute : phrase "instance , sink , nodes , count" = listed (argumentsOf .execute) := rfl
  have hrelease : phrase "instance" = listed (argumentsOf .release) := rfl
  rw [entryPoints, hsink, hnodes, hinstance, hall, function_eq hconstruct hs h, function_eq hexecute hs h, function_eq hrelease hs h,
    EntryPoint.all, List.flatMap_cons, List.flatMap_cons, List.flatMap_singleton, List.append_assoc]
  rfl

theorem isName_symbol (e : EntryPoint) (name : String) : IsName (plain (e.symbol name)) := by
  have hshort : ∀ word ∈ reserved, word.length < 9 := by decide
  refine .inr fun hm => ?_
  have hl := hshort _ hm
  have hsymbol : (plain (e.symbol name)).2.length = e.start.length + (EntryPoint.mangle name).length := String.length_append _ _
  rw [hsymbol] at hl
  cases e with
  | construct =>
    have hstart : EntryPoint.construct.start.length = 19 := rfl
    omega
  | execute =>
    have hstart : EntryPoint.execute.start.length = 20 := rfl
    omega
  | release =>
    have hstart : EntryPoint.release.start.length = 17 := rfl
    omega

theorem reads_parametersOf (support : String) (e : EntryPoint) :
    Reads (parameters (grammar (depth + 7))) (parametersOf support e) (fun _ => True) [] := by
  have haddress : IsType (grammar (depth + 7)) addressType := isType_address
  have hsink : IsType (grammar (depth + 7)) (recordType support "RawSink") := isType_record (by decide)
  cases e with
  | construct => exact reads_parameters_single (by decide) hsink
  | execute =>
    have hnodes : IsType (grammar (depth + 7)) (recordType support "RawDeclaration") := isType_record (by decide)
    have hcount : IsType (grammar (depth + 7)) [nameToken (plain "usize")] := isType_name (by decide)
    refine reads_parameters ?_
    simp only [List.forall_mem_cons]
    exact ⟨⟨by decide, haddress⟩, ⟨by decide, hsink⟩, ⟨by decide, hnodes⟩, ⟨by decide, hcount⟩, List.forall_mem_nil _⟩
  | release => exact reads_parameters_single (by decide) haddress

theorem reads_resultOf (e : EntryPoint) (body : List Token) :
    Reads (returnType (grammar (depth + 7)) true) (resultOf e ++ .group .brace body default :: rest) (fun _ => True)
      (.group .brace body default :: rest) := by
  cases e with
  | construct => exact reads_returnType isType_address body
  | execute =>
    have hresult : IsType (grammar (depth + 7)) [nameToken (plain "i32")] := isType_name (by decide)
    exact reads_returnType hresult body
  | release => exact reads_returnType_none body

theorem isCall_body (support : String) (hn : names ≠ []) (e : EntryPoint) :
    IsCall (spelled support) (calleeOf e) (names.map spelled) (argumentsOf e) where
  module := isName_spelled support
  function := by cases e <;> decide
  path := forall_isName_spelled names
  path_ne_nil := by simpa using hn
  passed := by cases e <;> decide

/-- An entry point is read as a function of its symbol. -/
theorem declares_export (hn : names ≠ []) (e : EntryPoint) (rest : List Token) : Declares (item (grammar (depth + 7)))
    (exportTokens edition name support names e ++ rest) (fun d => d.head = .fn (e.symbol name)) rest := by
  rw [exportTokens_append]
  exact declares_function (isName_symbol e name) (reads_exported edition) (reads_parametersOf support e) (reads_resultOf e)
    (isCall_body support hn e)

end GeneratorHost.UnitRoot
