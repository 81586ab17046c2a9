import GeneratorHost.Proofs.Reading.Behind
import GeneratorHost.Proofs.Token.Endings
import GeneratorHost.Proofs.Token.Footing
import GeneratorHost.Proofs.Unit.Border
import GeneratorHost.Proofs.Unit.Linked

/-! The root that is joined to a text: the text's own items, the support module unless it is there, and the functions that the
root exports. The text is read as it is alone, since lines are written behind it and the items behind it begin with an
attribute. -/
namespace GeneratorHost
open Token Reader Grammar

namespace UnitRoot

variable {name text support supportFile root : String} {path : List String} {edition : Edition} {file : SourceFile}

/-! ### What is mounted -/

theorem not_raw_of_writable (hs : Writable support) (declared : String) : support ≠ "r#" ++ declared := by
  rintro rfl
  have hi := hs.1
  rw [String.toList_append, show "r#".toList = ['r', '#'] from rfl] at hi
  simp only [List.cons_append, List.nil_append, isIdentifier, List.all_cons, Bool.and_eq_true] at hi
  exact absurd hi.2.1 (by decide)

theorem declares_iff (hs : Writable support) (d : Declaration) :
    declares support d ↔ d.head = .module support false false := by
  unfold declares
  split
  · rename_i declared raw hd
    rw [hd]
    cases raw
    · simp [eq_comm]
    · simpa using not_raw_of_writable hs declared
  · rename_i hd
    simp only [Bool.false_eq_true, false_iff]
    exact fun h => hd _ _ h

/-- Behind a text that reads as a file the support module is mounted, unless the file has it as a module in a file of
its own whose name is not written raw. -/
theorem mounts_support_iff (hs : Writable support) (hn : ∀ n ∈ segments name, Writable n)
    (ht : SourceFile.ofText? text = some file) (supportFile : String) (edition : Edition) :
    ∃ root mounted exports, joined? name text support supportFile edition = some root ∧
      entryPoints? name support edition = some exports ∧
      root = text ++ (if text.endsWith "\n" then "" else "\n") ++ "\n// Generated by selfgen.\n" ++ mounted ++
        Token.textAll exports ++ "\n" ∧
      ((∃ d ∈ file.items, d.head = .module support false false) → mounted = "") ∧
      ((∀ d ∈ file.items, d.head ≠ .module support false false) →
        mounted = Token.textAll (mounting supportFile [support]) ++ "\n") := by
  have hw : ∀ n ∈ [support], Writable n := List.forall_mem_singleton.mpr hs
  have hsegments := segments_of_writable hw
  have hj : (joined? name text support supportFile edition).isSome :=
    isSome_joined?_iff.mpr ⟨by rwa [hsegments], hn⟩
  obtain ⟨root, hroot⟩ := Option.isSome_iff_exists.mp hj
  obtain ⟨mounted, exports, hm, he, hr⟩ := joined?_eq_some_iff.mp hroot
  refine ⟨root, mounted, exports, hroot, he, hr, ?_⟩
  have hd : declaresSupport text support ↔ ∃ d ∈ file.items, d.head = .module support false false := by
    simp only [declaresSupport, ht, List.any_eq_true, declares_iff hs]
  rw [mounting?] at hm
  by_cases hx : declaresSupport text support
  · rw [if_pos hx, Option.some.injEq] at hm
    refine ⟨fun _ => hm.symm, fun hf => ?_⟩
    obtain ⟨d, hm, he⟩ := hd.mp hx
    exact absurd he (hf d hm)
  · have hmount : mount? ("crate::" ++ support) supportFile = some (mounting supportFile [support]) := by
      rw [crate_append, mount?_eq_some_iff, hsegments]
      exact ⟨hw, rfl⟩
    rw [if_neg hx, hmount, Option.map_some, Option.some.injEq] at hm
    exact ⟨fun hf => absurd (hd.mpr hf) hx, fun _ => hm.symm⟩

/-! ### What is written ends no comment -/

theorem Writable.slash_not_mem (h : Writable name) : '/' ∉ name.toList := not_mem_of_isIdentifier (by decide) h.1

theorem openTexts_tail {names : List (Bool × String)} (h : ∀ name ∈ names, '/' ∉ name.2.toList) : OpenTexts (tail names) := by
  induction names with
  | nil => trivial
  | cons name names ih =>
    obtain ⟨hname, hnames⟩ := List.forall_mem_cons.mp h
    have hcolon : ':' ≠ '/' := by decide
    rw [tail_cons]
    exact ⟨hcolon, hcolon, hname, ih hnames⟩

theorem openTexts_mounting (hs : Writable support) (hf : ¬ "*/".toList <:+: supportFile.toList) :
    OpenTexts (mounting supportFile [support]) := by
  have hm : mounting supportFile [support] = _ := (List.append_nil _).symm.trans (mounting_single hs supportFile)
  rw [hm]
  have hl := leavesOpen_quotedLiteral hf
  have hw := hs.slash_not_mem
  simp [attributed, moduleFront, nameToken, spelled, OpenTexts, OpenText, hl, hw]

theorem openTexts_front (edition : Edition) (hs : Writable support) (e : EntryPoint) :
    OpenTexts (frontOf edition name support e) := by
  have hsymbol : '/' ∉ (e.symbol name).toList := not_mem_of_isIdentifier (by decide) (isIdentifier_symbol e name)
  have hsupport := hs.slash_not_mem
  have hexport : OpenTexts (attributed (exportedContent edition)) := by
    cases edition <;> simp [exportedContent, attributed, OpenTexts, OpenText]
  have hliteral : LeavesOpen ['\x22', 'C', '\x22'] := .of_not_mem (by decide)
  have hparameters : OpenTexts (parametersOf support e) := by
    cases e <;> simp [parametersOf, parameterList, parameter, recordType, addressType, tail, colons, nameToken, plain, spelled,
      OpenTexts, OpenText, hsupport]
  have hresult : OpenTexts (resultOf e) := by
    cases e <;> simp [resultOf, addressType, tail, colons, nameToken, plain, OpenTexts, OpenText]
  rw [frontOf, openTexts_append]
  refine ⟨hexport, ?_⟩
  simp [exportFront, nameToken, plain, OpenTexts, OpenText, hsymbol, hliteral, hparameters, hresult]

theorem openTexts_body (hs : Writable support) (h : ∀ n ∈ path, Writable n) (e : EntryPoint) :
    OpenTexts (bodyOf support path e) := by
  have hsupport := hs.slash_not_mem
  have hpath : OpenTexts (tail (path.map spelled)) :=
    openTexts_tail (List.forall_mem_map.mpr fun n hn => (h n hn).slash_not_mem)
  cases e <;> simp [bodyOf, guarded, call, angled, colons, listed, calleeOf, argumentsOf, nameToken, plain, spelled,
    openTexts_append, OpenTexts, OpenText, openTexts_tail, hsupport, hpath]

theorem openTexts_exports (edition : Edition) (hs : Writable support) (h : ∀ n ∈ path, Writable n) (es : List EntryPoint) :
    OpenTexts (es.flatMap (exportTokens edition name support path)) := by
  induction es with
  | nil => trivial
  | cons e es ih =>
    rw [List.flatMap_cons, openTexts_append, exportTokens, openTexts_append]
    exact ⟨⟨openTexts_front edition hs e, openTexts_body hs h e, trivial⟩, ih⟩

/-! ### The lines behind the text -/

/-- The comment in front of what is written behind a text. -/
def remark : List Char := '/' :: '/' :: ' ' :: "Generated by selfgen.".toList

/-- Lines of tokens, each with its end. -/
def linesText (lines : List (List Token)) : List Char := lines.flatMap fun ts => (textAll ts).toList ++ ['\n']

theorem blankLength_remark (body : List Char) : blankLength (remark ++ '\n' :: body) = remark.length :=
  blankLength_line (by decide) body

theorem blanks_remark (body : List Char) (k : Nat) (p : Position) :
    ∃ p', Blanks ⟨List.replicate k '\n' ++ (remark ++ '\n' :: body), p⟩ ⟨body, p'⟩ := by
  have hbreak (rest : List Char) (p : Position) : Blanks ⟨'\n' :: rest, p⟩ ⟨rest, p.after '\n'⟩ := .single ⟨0, rfl, rfl⟩
  induction k generalizing p with
  | zero =>
    obtain ⟨p', hp⟩ := advance_left remark ('\n' :: body) p
    have hremark : Blanks ⟨remark ++ '\n' :: body, p⟩ ⟨'\n' :: body, p'⟩ :=
      .single ⟨_, blankLength_remark body, hp.symm⟩
    exact ⟨_, hremark.trans (hbreak body p')⟩
  | succ k ih =>
    obtain ⟨p', hp⟩ := ih (p.after '\n')
    exact ⟨p', (hbreak _ p).trans hp⟩

theorem scans_lines {lines : List (List Token)} (h : ∀ ts ∈ lines, Printable ts) (done : List Token) (p : Position) :
    ∃ ts' p', bareAll ts' = lines.flatten ∧ Scans ⟨[], done, ⟨linesText lines, p⟩⟩ ⟨[], ts'.reverse ++ done, ⟨[], p'⟩⟩ := by
  induction lines generalizing done p with
  | nil => exact ⟨[], p, rfl, .refl⟩
  | cons ts lines ih =>
    obtain ⟨hts, hlines⟩ := List.forall_mem_cons.mp h
    have hborder : Border ('\n' :: linesText lines) := border_cons rfl _
    obtain ⟨own, p₁, hown, h₁⟩ := hts.scans hborder [] done p
    have hbreak : Round ⟨[], own.reverse ++ done, ⟨'\n' :: linesText lines, p₁⟩⟩ _ := .blank rfl
    obtain ⟨behind, p₂, hbehind, h₂⟩ := ih hlines (own.reverse ++ done) (p₁.after '\n')
    refine ⟨own ++ behind, p₂, by rw [bareAll_append, hown, hbehind, List.flatten_cons], ?_⟩
    have htext : linesText (ts :: lines) = (textAll ts).toList ++ '\n' :: linesText lines := by
      rw [linesText, List.flatMap_cons, List.append_assoc]
      rfl
    rw [htext, List.reverse_append, List.append_assoc]
    exact h₁.trans (.head hbreak h₂)

theorem leavesOpen_lines {lines : List (List Token)} (h : ∀ ts ∈ lines, OpenTexts ts) : LeavesOpen (linesText lines) := by
  induction lines with
  | nil => exact .of_not_mem (by decide)
  | cons ts lines ih =>
    obtain ⟨hts, hlines⟩ := List.forall_mem_cons.mp h
    have hbreak : LeavesOpen ['\n'] := .of_not_mem (by decide)
    exact ((leavesOpen_textAll ts hts).append hbreak).append (ih hlines)

theorem leavesOpen_remark {body : List Char} (h : LeavesOpen body) (k : Nat) :
    LeavesOpen ('\n' :: (List.replicate k '\n' ++ (remark ++ '\n' :: body))) := by
  have hbreak : LeavesOpen ['\n'] := .of_not_mem (by decide)
  have hremark : LeavesOpen ('\n' :: remark) := ⟨by decide, by decide⟩
  induction k with
  | zero => exact hremark.append (hbreak.append h)
  | succ k ih => exact hbreak.append ih

/-- Tokens that begin with an attribute. -/
def IsAttributed (ts : List Token) : Prop := ∃ content behind, ts = attributed content ++ behind

variable {first : List Token} {lines : List (List Token)} {k : Nat}

/-- Behind a text that reads as tokens, lines that begin with an attribute read as theirs. -/
theorem ofChars?_lines {cs : List Char} {ts : List Token} (h : ofChars? (SourceFile.content cs) = some ts)
    (hfirst : IsAttributed first) (hp : ∀ ts ∈ first :: lines, Printable ts) (ho : ∀ ts ∈ first :: lines, OpenTexts ts) (k : Nat) :
    ∃ more, bareAll more = (first :: lines).flatten ∧ ofChars? (SourceFile.content (cs ++ '\n' :: (List.replicate k '\n' ++
      (remark ++ '\n' :: linesText (first :: lines))))) = some (ts ++ more) := by
  have hbody : ∃ rest, linesText (first :: lines) = '#' :: rest := by
    obtain ⟨content, behind, rfl⟩ := hfirst
    obtain ⟨rest, hr⟩ := textAll_punct '#' false default (.group .bracket content default :: behind) ('\n' :: linesText lines)
    refine ⟨rest, ?_⟩
    rw [← hr, linesText, List.flatMap_cons, List.append_assoc]
    rfl
  have hopen := leavesOpen_remark (leavesOpen_lines ho) k
  have hlines := scans_lines hp
  generalize linesText (first :: lines) = body at hbody hopen hlines ⊢
  have hblanks (p : Position) := blanks_remark body (k + 1) p
  rw [content_append hopen.inside]
  · refine ofChars?_append h fun done p => ?_
    obtain ⟨p₁, h₁⟩ := hblanks p
    obtain ⟨more, p₂, hbare, h₂⟩ := hlines done p₁
    exact ⟨more, p₂, hbare, (h₁.scans [] done).trans h₂⟩
  · intro p
    obtain ⟨rest, rfl⟩ := hbody
    obtain ⟨p', hp'⟩ := hblanks p
    exact ⟨rest, p', hp'⟩

/-! ### Roots -/

/-- Behind a text that reads as a file, lines that begin with an attribute and hold rows of items read as items of these
kinds. -/
theorem exists_file_of_lines (ht : SourceFile.ofText? text = some file) {rows : List ItemRow} (hfirst : IsAttributed first)
    (hp : ∀ ts ∈ first :: lines, Printable ts) (ho : ∀ ts ∈ first :: lines, OpenTexts ts)
    (hrows : (first :: lines).flatten = rows.flatMap ItemRow.tokens)
    (hr : ∀ depth, ∀ row ∈ rows, row.tokens ≠ [] ∧ ∀ rest, Declares (item (grammar (depth + 7))) (row.tokens ++ rest) row.kind rest)
    (hroot : root.toList = text.toList ++ '\n' :: (List.replicate k '\n' ++ (remark ++ '\n' :: linesText (first :: lines)))) :
    ∃ tokens es, ofChars? (SourceFile.content root.toList) = some tokens ∧
      SourceFile.ofText? root = some ⟨file.items ++ es⟩ ∧ List.Forall₂ (fun row => row.ReadAs tokens) rows es := by
  obtain ⟨ts, hts, hfile⟩ := Option.bind_eq_some_iff.mp ht
  obtain ⟨more, hbare, hall⟩ := ofChars?_lines hts hfirst hp ho k
  rw [← hroot] at hall
  have hquiet : Sequel.Quiet (Sequel.items more) := by
    obtain ⟨content, behind, rfl⟩ := hfirst
    rw [List.flatten_cons, List.append_assoc] at hbare
    obtain ⟨extent, content', extent', behind', rfl, -⟩ := exists_of_bareAll_attributed hbare
    exact ⟨.inr ⟨false, extent, content', extent', behind', rfl⟩⟩
  obtain ⟨es, hes, hforall⟩ := SourceFile.exists_ofTokens?_append hfile (not_isJoint_of_ofChars? hts) hquiet
    (ofChars?_proper hall) (hbare.trans hrows) (hr (8 * sizeAll (ts ++ more) + 8))
  refine ⟨ts ++ more, es, hall, ?_, hforall⟩
  rw [SourceFile.ofText?, hall]
  exact hes

/-- The functions that a root exports, each with its tokens. -/
def exportRows (edition : Edition) (name support : String) (path : List String) : List ItemRow :=
  EntryPoint.all.map fun e => ⟨exportTokens edition name support path e, fun d => d.head = .fn (e.symbol name)⟩

theorem declares_exportRows (hp : path ≠ []) (depth : Nat) : ∀ row ∈ exportRows edition name support path,
    row.tokens ≠ [] ∧ ∀ rest, Declares (item (grammar (depth + 7))) (row.tokens ++ rest) row.kind rest :=
  List.forall_mem_map.mpr fun e _ =>
    ⟨List.append_ne_nil_of_right_ne_nil _ (List.cons_ne_nil _ _), declares_export hp e⟩

theorem declares_mountRow (hs : Writable support) (supportFile : String) (depth : Nat) :
    mounting supportFile [support] ≠ [] ∧ ∀ rest, Declares (item (grammar (depth + 7)))
      (mounting supportFile [support] ++ rest) (Mounts supportFile [support]) rest :=
  ⟨mounting_ne_nil (List.cons_ne_nil _ _) supportFile, declares_mounting (List.cons_ne_nil _ _)
    (List.forall_mem_singleton.mpr hs) (Nat.le_add_left 1 _) supportFile⟩

theorem toList_joined {mounted exports : String} {lines : List (List Token)} {ts : List Token}
    (hr : root = text ++ (if text.endsWith "\n" then "" else "\n") ++ "\n// Generated by selfgen.\n" ++ mounted ++ exports ++ "\n")
    (hm : mounted.toList = linesText lines) (he : exports = textAll ts) :
    ∃ k, root.toList = text.toList ++ '\n' :: (List.replicate k '\n' ++ (remark ++ '\n' :: linesText (lines ++ [ts]))) := by
  have hremark : "\n// Generated by selfgen.\n".toList = '\n' :: (remark ++ ['\n']) := by decide
  have hlines : linesText (lines ++ [ts]) = linesText lines ++ ((textAll ts).toList ++ ['\n']) := by
    rw [linesText, List.flatMap_append, List.flatMap_singleton]
    rfl
  refine ⟨if text.endsWith "\n" then 0 else 1, ?_⟩
  rw [hr, he, hlines]
  simp only [String.toList_append, hremark, hm]
  split <;> simp

theorem isAttributed_exports (edition : Edition) (name support : String) (path : List String) :
    IsAttributed (EntryPoint.all.flatMap (exportTokens edition name support path)) := by
  rw [EntryPoint.all, List.flatMap_cons, exportTokens_append]
  exact ⟨_, _, rfl⟩

theorem isAttributed_mounting (hs : Writable support) (supportFile : String) : IsAttributed (mounting supportFile [support]) :=
  ⟨_, _, (List.append_nil _).symm.trans (mounting_single hs supportFile)⟩

/-- A root that is joined to a text that reads as a file reads as the items of that file, the support module unless the file has
it as a plain module in a file of its own, and the functions that the root exports of the generator. -/
theorem joined_fits (hs : Writable support) (hn : ∀ n ∈ segments name, Writable n) (hne : segments name ≠ [])
    (ht : SourceFile.ofText? text = some file) (hf : ¬ "*/".toList <:+: supportFile.toList) (edition : Edition) :
    ∃ root tokens mounts functions, joined? name text support supportFile edition = some root ∧
      ofChars? (SourceFile.content root.toList) = some tokens ∧
      SourceFile.ofText? root = some ⟨file.items ++ (mounts ++ functions)⟩ ∧
      List.Forall₂ (Exports tokens name (segments name)) EntryPoint.all functions ∧
      ((∃ d ∈ file.items, d.head = .module support false false) ∧ mounts = [] ∨
        (∀ d ∈ file.items, d.head ≠ .module support false false) ∧ ∃ d, mounts = [d] ∧ Mounts supportFile [support] d) := by
  have hsupport : ∀ n ∈ [support], Writable n := List.forall_mem_singleton.mpr hs
  obtain ⟨root, mounted, exports, hroot, hexports, hr, hyes, hno⟩ := mounts_support_iff hs hn ht supportFile edition
  obtain ⟨-, -, rfl⟩ := entryPoints?_eq_some_iff.mp hexports
  have hprintable := printable_entryPoints name edition (printable_pathTokens hn) (printable_pathTokens hsupport)
  rw [entryPoints_eq hs hn] at hprintable
  rw [segments_of_writable hsupport, entryPoints_eq hs hn] at hr
  have hopen : OpenTexts (EntryPoint.all.flatMap (exportTokens edition name support (segments name))) :=
    openTexts_exports edition hs hn _
  have hattributed := isAttributed_exports edition name support (segments name)
  have hrows : EntryPoint.all.flatMap (exportTokens edition name support (segments name)) =
      (exportRows edition name support (segments name)).flatMap ItemRow.tokens := by
    rw [exportRows, List.flatMap_map]
  generalize EntryPoint.all.flatMap (exportTokens edition name support (segments name)) = ts at hr hprintable hopen hrows hattributed
  have hdeclares (depth : Nat) : ∀ row ∈ exportRows edition name support (segments name), _ := declares_exportRows hne depth
  by_cases hd : ∃ d ∈ file.items, d.head = .module support false false
  · have hmounted : mounted.toList = linesText [] := by
      rw [hyes hd]
      rfl
    obtain ⟨k, hlist⟩ := toList_joined hr hmounted rfl
    obtain ⟨tokens, functions, htokens, hitems, hforall⟩ := exists_file_of_lines ht hattributed
      (List.forall_mem_singleton.mpr hprintable) (List.forall_mem_singleton.mpr hopen) (hrows ▸ List.append_nil ts) hdeclares hlist
    refine ⟨root, tokens, [], functions, hroot, htokens, hitems, ?_, .inl ⟨hd, rfl⟩⟩
    exact (List.forall₂_map_left_iff.mp hforall).imp fun e d hd => exports_of_readAs hd
  · have hf' : ∀ d ∈ file.items, d.head ≠ .module support false false := fun d hm he => hd ⟨d, hm, he⟩
    have hmounted : mounted.toList = linesText [mounting supportFile [support]] := by
      rw [hno hf', String.toList_append]
      exact (List.append_nil _).symm
    obtain ⟨k, hlist⟩ := toList_joined hr hmounted rfl
    have hrows' : List.flatten [mounting supportFile [support], ts] = List.flatMap ItemRow.tokens
        (⟨mounting supportFile [support], Mounts supportFile [support]⟩ :: exportRows edition name support (segments name)) := by
      rw [List.flatMap_cons, ← hrows]
      exact congrArg _ (List.append_nil ts)
    obtain ⟨tokens, es, htokens, hitems, hforall⟩ := exists_file_of_lines ht (isAttributed_mounting hs supportFile)
      (List.forall_mem_cons.mpr ⟨printable_mounting hsupport supportFile, List.forall_mem_singleton.mpr hprintable⟩)
      (List.forall_mem_cons.mpr ⟨openTexts_mounting hs hf, List.forall_mem_singleton.mpr hopen⟩) hrows'
      (fun depth => List.forall_mem_cons.mpr ⟨declares_mountRow hs supportFile depth, hdeclares depth⟩) hlist
    obtain ⟨mount, functions, hm, hfunctions, rfl⟩ := List.forall₂_cons_left_iff.mp hforall
    refine ⟨root, tokens, [mount], functions, hroot, htokens, hitems, ?_, .inr ⟨hf', mount, rfl, hm.kind⟩⟩
    exact (List.forall₂_map_left_iff.mp hfunctions).imp fun e d hd => exports_of_readAs hd

/-! ### How often the support module is declared -/

/-- Whether a declaration is a module of a name, in whichever form. -/
def isModule (name : String) (d : Declaration) : Bool :=
  match d.head with
  | .module declared _ _ => declared = name
  | _ => false

theorem isModule_of_mounts {d : Declaration} (h : Mounts supportFile [support] d) : isModule support d := by
  cases h <;> exact decide_eq_true rfl

theorem filter_isModule_exports {tokens : List Token} {es : List EntryPoint} {functions : List Declaration}
    (h : List.Forall₂ (Exports tokens name path) es functions) : functions.filter (isModule support) = [] := by
  induction h with
  | nil => rfl
  | cons he _ ih =>
    rw [List.filter_cons_of_neg, ih]
    rw [isModule, he.head]
    exact Bool.false_ne_true

/-- A root has the modules of the support module's name that the text has, and one more unless the text has one of them as a
plain module in a file of its own. -/
theorem exists_joined_count (hs : Writable support) (hn : ∀ n ∈ segments name, Writable n) (hne : segments name ≠ [])
    (hf : ¬ "*/".toList <:+: supportFile.toList) (ht : SourceFile.ofText? text = some file) (edition : Edition) :
    ∃ root joined, joined? name text support supportFile edition = some root ∧ SourceFile.ofText? root = some joined ∧
      file.items <+: joined.items ∧ (joined.items.filter (isModule support)).length =
        (file.items.filter (isModule support)).length + if file.items.any (declares support) then 0 else 1 := by
  obtain ⟨root, tokens, mounts, functions, hroot, -, hitems, hfunctions, hmounts⟩ := joined_fits hs hn hne ht hf edition
  refine ⟨root, _, hroot, hitems, List.prefix_append _ _, ?_⟩
  rw [List.filter_append, List.filter_append, filter_isModule_exports hfunctions, List.append_nil, List.length_append]
  refine congrArg _ ?_
  obtain ⟨⟨d, hd, hhead⟩, rfl⟩ | ⟨hnone, d, rfl, hd⟩ := hmounts
  · rw [if_pos (List.any_eq_true.mpr ⟨d, hd, (declares_iff hs d).mpr hhead⟩)]
    rfl
  · rw [if_neg, List.filter_cons_of_pos (isModule_of_mounts hd)]
    · rfl
    · intro h
      obtain ⟨e, he, hdeclares⟩ := List.any_eq_true.mp h
      exact hnone e he ((declares_iff hs e).mp hdeclares)

/-- Let a text read as a file with at most one module of the support module's name among its items. The root that is joined to it
reads as a file with these items in front, and it has one module of that name, unless the text has the module with its items or
under a raw name. -/
theorem declares_support_once_iff (hs : Writable support) (hn : ∀ n ∈ segments name, Writable n) (hne : segments name ≠ [])
    (hf : ¬ "*/".toList <:+: supportFile.toList) (ht : SourceFile.ofText? text = some file)
    (hone : (file.items.filter (isModule support)).length ≤ 1) (edition : Edition) :
    ∃ root joined, joined? name text support supportFile edition = some root ∧ SourceFile.ofText? root = some joined ∧
      file.items <+: joined.items ∧ ((joined.items.filter (isModule support)).length = 1 ↔
        ∀ d ∈ file.items, isModule support d → d.head = .module support false false) := by
  obtain ⟨root, joined, hroot, hjoined, hitems, hcount⟩ := exists_joined_count hs hn hne hf ht edition
  refine ⟨root, joined, hroot, hjoined, hitems, ?_⟩
  rw [hcount]
  split
  · -- the plain module that the text has is its only one
    rename_i hany
    obtain ⟨d, hd, hdeclares⟩ := List.any_eq_true.mp hany
    have hhead := (declares_iff hs d).mp hdeclares
    have hmem : d ∈ file.items.filter (isModule support) :=
      List.mem_filter.mpr ⟨hd, by rw [isModule, hhead]; exact decide_eq_true rfl⟩
    obtain ⟨own, hown⟩ := List.length_eq_one_iff.mp (Nat.le_antisymm hone (List.length_pos_of_mem hmem))
    refine ⟨fun _ e he hm => ?_, fun _ => congrArg List.length hown⟩
    have heown : e ∈ file.items.filter (isModule support) := List.mem_filter.mpr ⟨he, hm⟩
    rw [hown, List.mem_singleton] at hmem heown
    rw [heown, ← hmem, hhead]
  · -- the mounted module is the only one if the text has none
    rename_i hany
    rw [Nat.add_eq_right, List.length_eq_zero_iff, List.filter_eq_nil_iff]
    refine forall₂_congr fun e he => ⟨fun hm h => absurd h hm, fun h hm => hany ?_⟩
    exact List.any_eq_true.mpr ⟨e, he, (declares_iff hs e).mpr (h hm)⟩

theorem declares_support_once_sample : Writable "rt" ∧ (∀ n ∈ segments "crate::A", Writable n) ∧ segments "crate::A" ≠ [] ∧
    ¬ "*/".toList <:+: "/w/rt.rs".toList ∧ ∃ file, SourceFile.ofText? "pub mod rt;" = some file ∧
      (file.items.filter (isModule "rt")).length ≤ 1 ∧ ∃ root joined,
        joined? "crate::A" "pub mod rt;" "rt" "/w/rt.rs" .e2021 = some root ∧ SourceFile.ofText? root = some joined ∧
        file.items <+: joined.items ∧ ((joined.items.filter (isModule "rt")).length = 1 ↔
          ∀ d ∈ file.items, isModule "rt" d → d.head = .module "rt" false false) := by
  have hs : Writable "rt" := by decide
  have hn : (∀ n ∈ segments "crate::A", Writable n) ∧ segments "crate::A" ≠ [] := by decide
  have hf : ¬ "*/".toList <:+: "/w/rt.rs".toList := by decide
  have ht : (SourceFile.ofText? "pub mod rt;").any fun f => (f.items.filter (isModule "rt")).length ≤ 1 := by decide +kernel
  obtain ⟨file, hfile, hone⟩ := (Option.any_eq_true _ _).mp ht
  rw [decide_eq_true_iff] at hone
  exact ⟨hs, hn.1, hn.2, hf, file, hfile, hone, declares_support_once_iff hs hn.1 hn.2 hf hfile hone .e2021⟩

/-- A text that has the module once, with its items, is joined to a root that has it twice. -/
theorem declares_support_twice : ¬ ∀ text file, SourceFile.ofText? text = some file →
    (file.items.filter (isModule "rt")).length ≤ 1 → ∃ root joined,
      joined? "crate::A" text "rt" "/w/rt.rs" .e2021 = some root ∧ SourceFile.ofText? root = some joined ∧
      (joined.items.filter (isModule "rt")).length = 1 := by
  have hs : Writable "rt" := by decide
  have hn : (∀ n ∈ segments "crate::A", Writable n) ∧ segments "crate::A" ≠ [] := by decide
  have ht : (SourceFile.ofText? "mod rt {}").any fun f =>
      (f.items.filter (isModule "rt")).length = 1 && !f.items.any (declares "rt") := by decide +kernel
  obtain ⟨file, hfile, hheads⟩ := (Option.any_eq_true _ _).mp ht
  rw [Bool.and_eq_true, decide_eq_true_iff, Bool.not_eq_true'] at hheads
  intro hall
  obtain ⟨root, joined, hroot, hjoined, hlength⟩ := hall _ file hfile (Nat.le_of_eq hheads.1)
  obtain ⟨root', joined', hroot', hjoined', -, hcount⟩ :=
    exists_joined_count hs hn.1 hn.2 (show ¬ "*/".toList <:+: "/w/rt.rs".toList by decide) hfile .e2021
  obtain rfl : root = root' := Option.some.inj (hroot.symm.trans hroot')
  obtain rfl : joined = joined' := Option.some.inj (hjoined.symm.trans hjoined')
  rw [hlength, hheads.1, hheads.2] at hcount
  cases hcount

end UnitRoot
end GeneratorHost
