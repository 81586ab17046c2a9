import GeneratorHost.Proofs.Unit.Exports
import Mathlib.Data.List.Forall2

/-! What a unit's root exports names what it mounts. -/
namespace GeneratorHost
open Token Reader

namespace Token

mutual

/-- What stands between angle brackets inside a token. -/
def angles : Token → List (List Token)
  | .group _ content _ => anglesAll content
  | _ => []

/-- What stands between angle brackets, from each opening bracket to the next closing one. -/
def anglesAll : List Token → List (List Token)
  | [] => []
  | t :: ts => (if isMark "<" [t] then [ts.takeWhile (!isMark ">" [·])] else t.angles) ++ anglesAll ts

end

variable {t : Token} {ts ts' : List Token}

theorem isMark_bare (mark : String) (t : Token) : isMark mark [t.bare] = isMark mark [t] :=
  Unplaced.eq [t]

mutual

theorem angles_bare (t : Token) : t.bare.angles = t.angles.map bareAll := by
  cases t with
  | group delimiter content extent => rw [bare, angles, angles, anglesAll_bareAll content]
  | _ => rfl

theorem anglesAll_bareAll (ts : List Token) : anglesAll (bareAll ts) = (anglesAll ts).map bareAll := by
  cases ts with
  | nil => rfl
  | cons t ts =>
    have htake : (bareAll ts).takeWhile (!isMark ">" [·]) = bareAll (ts.takeWhile (!isMark ">" [·])) := by
      rw [bareAll_eq_map, bareAll_eq_map, List.takeWhile_map]
      refine congrArg _ (congrArg (List.takeWhile · ts) (funext fun t => ?_))
      rw [Function.comp, isMark_bare]
    rw [bareAll, anglesAll, anglesAll, isMark_bare, htake, angles_bare t, anglesAll_bareAll ts, List.map_append]
    split <;> rfl

end

/-- Where no angle brackets are, only what is behind counts. -/
theorem anglesAll_append (h : anglesAll ts = []) (ts' : List Token) : anglesAll (ts ++ ts') = anglesAll ts' := by
  induction ts with
  | nil => rfl
  | cons t ts ih =>
    rw [anglesAll, List.append_eq_nil_iff] at h
    obtain ⟨hfirst, hrest⟩ := h
    split at hfirst
    · cases hfirst
    · rename_i hm
      rw [List.cons_append, anglesAll, if_neg hm, hfirst, ih hrest]
      rfl

end Token

namespace Grammar

theorem anglesAll_tail (names : List (Bool × String)) : anglesAll (tail names) = [] := by
  induction names with
  | nil => rfl
  | cons name names ih =>
    have hfront : anglesAll (colons ++ [nameToken name]) = [] := rfl
    rw [tail_cons, List.append_cons, anglesAll_append hfront, ih]

theorem anglesAll_listed (names : List (Bool × String)) : anglesAll (listed names) = [] := by
  fun_induction listed names with
  | case1 => rfl
  | case2 => rfl
  | case3 name names _ ih =>
    have hfront : anglesAll [nameToken name, .punct ',' false default] = [] := rfl
    exact (anglesAll_append hfront _).trans ih

/-- A path in angle brackets ends with them. -/
theorem takeWhile_path (names : List (Bool × String)) (ts : List Token) :
    (.ident false "crate" default :: tail names ++ .punct '>' false default :: ts).takeWhile (!isMark ">" [·]) =
      .ident false "crate" default :: tail names := by
  have hpath : ∀ t ∈ .ident false "crate" default :: tail names, !isMark ">" [t] := by
    intro t ht
    simp only [tail, colons, List.mem_cons, List.mem_flatMap, List.mem_append, List.not_mem_nil, or_false] at ht
    obtain rfl | ⟨name, -, (rfl | rfl) | rfl⟩ := ht <;> rfl
  rw [List.takeWhile_append_of_pos hpath, List.takeWhile_cons_of_neg (by decide), List.append_nil]

/-- A call has one type argument. -/
theorem anglesAll_call (support callee : Bool × String) (names arguments : List (Bool × String)) :
    anglesAll (call support callee names arguments) = [.ident false "crate" default :: tail names] := by
  have hcall : call support callee names arguments = (.ident false "crate" default :: tail [support] ++ tail [callee] ++ colons) ++
      .punct '<' false default :: ((.ident false "crate" default :: tail names) ++
        [.punct '>' false default, .group .parenthesis (listed arguments) default]) := by
    simp only [call, angled, tail, List.flatMap_cons, List.flatMap_nil, List.append_assoc, List.cons_append, List.nil_append,
      List.append_nil]
  have hfront : anglesAll (.ident false "crate" default :: tail [support] ++ tail [callee] ++ colons) = [] := rfl
  have hpath : anglesAll (.ident false "crate" default :: tail names) = [] := anglesAll_tail names
  have hend : anglesAll [.punct '>' false default, .group .parenthesis (listed arguments) default] = [] := by
    refine Eq.trans ?_ (anglesAll_listed arguments)
    exact List.append_nil _
  rw [hcall, anglesAll_append hfront, anglesAll, anglesAll_append hpath, hend, takeWhile_path]
  rfl

end Grammar

namespace UnitRoot
open Grammar

variable {name support file supportFile : String} {names more path : List String} {edition : Edition} {tokens : List Token}
  {e : EntryPoint} {d : Declaration}

/-- A function is what a root exports of a generator for an entry point: it has the entry point's symbol for the generator's
name, and the only type argument in its body is the path of the generator's names from the crate. -/
structure Exports (tokens : List Token) (name : String) (path : List String) (e : EntryPoint) (d : Declaration) : Prop where
  head : d.head = .fn (e.symbol name)
  argument : ∃ front body extent argument, d.ReadFrom tokens (front ++ [.group .brace body extent]) ∧
    anglesAll body = [argument] ∧ (parseAll (type · true) argument).bind (·.1.path?) = some ⟨false, "crate" :: path⟩

theorem parseAll_type {argument : List Token} (h : bareAll argument = .ident false "crate" default :: tail (path.map spelled)) :
    (parseAll (type · true) argument).bind (·.1.path?) = some ⟨false, "crate" :: path⟩ := by
  have hr : Reads (type (grammar (depthFor argument)) true) (.ident false "crate" default :: tail (path.map spelled) ++ []) _ [] :=
    reads_type_crate (forall_isName_spelled path) endsType_nil
  rw [List.append_nil] at hr
  obtain ⟨_, s, hrun, rfl, hs, -⟩ := hr ⟨argument, #[], #[]⟩ h
  have hnames : (path.map spelled).map Prod.snd = path := by
    rw [List.map_map]
    exact List.map_id path
  rw [parseAll, hrun]
  dsimp only
  rw [eq_nil_of_bareAll hs, hnames]
  rfl

theorem exports_of_readAs (h : ItemRow.ReadAs ⟨exportTokens edition name support path e, fun d => d.head = .fn (e.symbol name)⟩ tokens d) :
    Exports tokens name path e d := by
  obtain ⟨hhead, own, hown, hread⟩ := h
  refine ⟨hhead, ?_⟩
  rw [bareAll_eq_map] at hown
  obtain ⟨front, behind, rfl, -, hbehind⟩ := List.map_eq_append_iff.mp hown
  rw [← bareAll_eq_map] at hbehind
  obtain ⟨body, extent, _, rfl, hbody, hnil⟩ := exists_of_bareAll_group hbehind
  obtain rfl := eq_nil_of_bareAll hnil
  have hangles : (anglesAll body).map bareAll = [.ident false "crate" default :: tail (path.map spelled)] := by
    rw [← anglesAll_bareAll, hbody]
    exact (List.append_nil _).trans (anglesAll_call _ _ _ _)
  obtain ⟨argument, hargument, hbare⟩ := List.map_eq_singleton_iff.mp hangles
  exact ⟨front, body, extent, argument, hread, hargument, parseAll_type hbare⟩

/-- The items of a root, each with its tokens. -/
def rootRows (edition : Edition) (name support supportFile file : String) (names path : List String) : List ItemRow :=
  ⟨mounting supportFile [support], Mounts supportFile [support]⟩ :: ⟨mounting file names, Mounts file names⟩ ::
    EntryPoint.all.map fun e => ⟨exportTokens edition name support path e, fun d => d.head = .fn (e.symbol name)⟩

theorem declares_rootRows (hn : names ≠ []) (hp : path ≠ []) (hs : Writable support) (h : ∀ n ∈ names, Writable n)
    {size : Nat} (hd : names.length ≤ size) : ∀ row ∈ rootRows edition name support supportFile file names path,
      row.tokens ≠ [] ∧ ∀ rest, Declares (item (grammar (8 * size + 15))) (row.tokens ++ rest) row.kind rest := by
  have hsupport : ∀ n ∈ [support], Writable n := List.forall_mem_singleton.mpr hs
  have hone : [support].length ≤ 8 * size + 15 + 1 := Nat.le_add_left 1 _
  simp only [rootRows, List.forall_mem_cons, List.forall_mem_map]
  refine ⟨⟨mounting_ne_nil (List.cons_ne_nil _ _) supportFile, ?_⟩, ⟨mounting_ne_nil hn file, ?_⟩, fun e _ => ⟨?_, ?_⟩⟩
  · exact declares_mounting (List.cons_ne_nil _ _) hsupport hone supportFile
  · exact declares_mounting hn h (by omega) file
  · exact List.append_ne_nil_of_right_ne_nil _ (List.cons_ne_nil _ _)
  · exact declares_export hp e

/-- The text of a root with some tokens. -/
def rootText (name : String) (ts : List Token) : String :=
  "// Generated by selfgen for " ++ name ++ ".\n" ++ textAll ts ++ "\n"

theorem toList_rootText (name : String) (ts : List Token) :
    (rootText name ts).toList = heading name ++ '\n' :: ((textAll ts).toList ++ ['\n']) := by
  have hheading : "// Generated by selfgen for ".toList = '/' :: '/' :: ' ' :: "Generated by selfgen for ".toList := by simp
  have hend : ".\n".toList = ['.', '\n'] := by simp
  have hline : "\n".toList = ['\n'] := by simp
  unfold rootText
  rw [String.toList_append, String.toList_append, String.toList_append, String.toList_append, hheading, hend, hline, heading]
  simp only [List.append_assoc, List.cons_append, List.nil_append]

section
variable (hs : Writable support) (hn : ∀ n ∈ names, Writable n) (hp : ∀ n ∈ path, Writable n)
include hs hp

theorem rootRows_tokens : (rootRows edition name support supportFile file names path).flatMap ItemRow.tokens =
    mounting supportFile [support] ++ mounting file names ++
      entryPoints name edition (pathTokens path) (pathTokens [support]) := by
  rw [entryPoints_eq hs hp, List.append_assoc, rootRows, List.flatMap_cons, List.flatMap_cons, List.flatMap_map]

include hn

theorem printable_rootRows : Printable ((rootRows edition name support supportFile file names path).flatMap ItemRow.tokens) := by
  have hsupport : ∀ n ∈ [support], Writable n := List.forall_mem_singleton.mpr hs
  rw [rootRows_tokens hs hp]
  refine ((printable_mounting hsupport supportFile).append (printable_mounting hn file)).append ?_
  exact printable_entryPoints name edition (printable_pathTokens hp) (printable_pathTokens hsupport)

/-- A root is written with the tokens of its items. -/
theorem separate?_eq : separate? (scopePath path) (scopePath names) file support supportFile edition = some (rootText (scopePath path)
    ((rootRows edition (scopePath path) support supportFile file names path).flatMap ItemRow.tokens)) := by
  have hsupport : ∀ n ∈ [support], Writable n := List.forall_mem_singleton.mpr hs
  have hmount : mount? ("crate::" ++ support) supportFile = some (mounting supportFile [support]) := by
    rw [crate_append, mount?_eq_some_iff, segments_of_writable hsupport]
    exact ⟨hsupport, rfl⟩
  have hcandidate : mount? (scopePath names) file = some (mounting file names) := by
    rw [mount?_eq_some_iff, segments_of_writable hn]
    exact ⟨hn, rfl⟩
  have hexports : entryPoints? (scopePath path) support edition =
      some (entryPoints (scopePath path) edition (pathTokens path) (pathTokens [support])) := by
    rw [entryPoints?_eq_some_iff, segments_of_writable hp, segments_of_writable hsupport]
    exact ⟨hp, hsupport, rfl⟩
  rw [separate?, hmount, hcandidate, hexports, rootRows_tokens hs hp]
  rfl

end

theorem newline_not_mem (h : ∀ n ∈ path, Writable n) : '\n' ∉ (scopePath path).toList := by
  rw [scopePath_toList, List.mem_append, List.mem_flatMap, not_or]
  refine ⟨by decide, ?_⟩
  rintro ⟨n, hn, hm⟩
  rw [List.mem_cons, List.mem_cons] at hm
  rcases hm with hm | hm | hm
  · exact absurd hm (by decide)
  · exact absurd hm (by decide)
  · exact not_mem_of_isIdentifier (by decide) (h n hn).1 hm

/-- The root of a unit reads as five items that fit together: the support module, the chain of modules that leads to the
candidate's file, and three functions for the generator whose type argument begins with that chain. -/
theorem root_fits_names (hn : names ≠ []) (hs : Writable support) (h : ∀ n ∈ names ++ more, Writable n)
    (file supportFile : String) (edition : Edition) : ∃ text tokens support' candidate functions,
      separate? (scopePath (names ++ more)) (scopePath names) file support supportFile edition = some text ∧
      ofChars? (SourceFile.content text.toList) = some tokens ∧
      SourceFile.ofText? text = some ⟨support' :: candidate :: functions⟩ ∧
      Mounts supportFile [support] support' ∧ Mounts file names candidate ∧
      List.Forall₂ (Exports tokens (scopePath (names ++ more)) (names ++ more)) EntryPoint.all functions := by
  have hnames : ∀ n ∈ names, Writable n := fun n hm => h n (List.mem_append_left more hm)
  have hpath : names ++ more ≠ [] := List.append_ne_nil_of_left_ne_nil hn more
  have hprintable : Printable ((rootRows edition (scopePath (names ++ more)) support supportFile file names
    (names ++ more)).flatMap ItemRow.tokens) := printable_rootRows hs hnames h
  obtain ⟨tokens, htokens, hbare⟩ := exists_ofChars?_of_printable hprintable (newline_not_mem h)
  rw [← toList_rootText] at htokens
  have hsize : names.length ≤ sizeAll tokens := by
    refine Nat.le_trans (length_le_sizeAll_mounting file names) ?_
    rw [← sizeAll_bareAll tokens, hbare, rootRows, List.flatMap_cons, List.flatMap_cons, sizeAll_append, sizeAll_append]
    exact Nat.le_trans (Nat.le_add_right _ _) (Nat.le_add_left _ _)
  have houter := mounting_outer (List.cons_ne_nil support []) supportFile
    ((rootRows edition (scopePath (names ++ more)) support supportFile file names (names ++ more)).tail.flatMap ItemRow.tokens)
  obtain ⟨items, hitems, hforall⟩ := SourceFile.exists_ofTokens?_of_rows ⟨tokens, ofChars?_proper htokens⟩ hbare
    houter (declares_rootRows hn hpath hs hnames hsize)
  obtain ⟨support', tail, hmount, htail, rfl⟩ := List.forall₂_cons_left_iff.mp hforall
  obtain ⟨candidate, functions, hcandidate, hfunctions, rfl⟩ := List.forall₂_cons_left_iff.mp htail
  refine ⟨_, tokens, support', candidate, functions, separate?_eq hs hnames h, htokens, ?_, hmount.kind, hcandidate.kind, ?_⟩
  · rw [SourceFile.ofText?, htokens]
    exact hitems
  · exact (List.forall₂_map_left_iff.mp hfunctions).imp fun e d hd => exports_of_readAs hd

theorem root_fits_names_sample : ["gen", "type"] ≠ [] ∧ Writable "selfgen_rt" ∧
    (∀ n ∈ ["gen", "type"] ++ ["Alpha"], Writable n) ∧ ∃ text tokens support candidate functions,
      separate? "crate::gen::type::Alpha" "crate::gen::type" "/w/a \"b\"\\c.rs" "selfgen_rt" "/w/rt.rs" .e2024 = some text ∧
      ofChars? (SourceFile.content text.toList) = some tokens ∧
      SourceFile.ofText? text = some ⟨support :: candidate :: functions⟩ ∧
      Mounts "/w/rt.rs" ["selfgen_rt"] support ∧ Mounts "/w/a \"b\"\\c.rs" ["gen", "type"] candidate ∧
      List.Forall₂ (Exports tokens "crate::gen::type::Alpha" ["gen", "type", "Alpha"]) EntryPoint.all functions := by
  have hnames : ["gen", "type"] ≠ [] := List.cons_ne_nil _ _
  have hsupport : Writable "selfgen_rt" := by decide
  have hall : ∀ n ∈ ["gen", "type"] ++ ["Alpha"], Writable n := by decide
  have hname : scopePath (["gen", "type"] ++ ["Alpha"]) = "crate::gen::type::Alpha" := by decide
  have hmodule : scopePath ["gen", "type"] = "crate::gen::type" := by decide
  have hroot := root_fits_names hnames hsupport hall "/w/a \"b\"\\c.rs" "/w/rt.rs" .e2024
  rw [hname, hmodule] at hroot
  exact ⟨hnames, hsupport, hall, hroot⟩

end UnitRoot
end GeneratorHost
