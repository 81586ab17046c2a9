import GeneratorHost.Proofs.Disk
import GeneratorHost.Proofs.Text.Lossy
import GeneratorHost.Proofs.Unit.Places
import GeneratorHost.Proofs.Unit.Support
import GeneratorHost.Proofs.Unit.Verdict

/-! Which files of a unit are still there when the compiler is called. The root of a unit is written last, under a name
that the support module can have: the module `lib` is lost to it. -/
namespace GeneratorHost
open FilePath

/-! ### The end of a root -/

namespace Token

theorem exists_textAll_cons (t next : Token) (rest : List Token) :
    ∃ own, textAll (t :: next :: rest) = own ++ textAll (next :: rest) := by
  cases t with
  | punct c joint extent =>
    cases joint with
    | true => exact ⟨c.toString, by simp [textAll]⟩
    | false => exact ⟨text (.punct c false extent) ++ " ", by simp [textAll]⟩
  | ident raw name extent => exact ⟨text (.ident raw name extent) ++ " ", by simp [textAll]⟩
  | literal spelling extent => exact ⟨text (.literal spelling extent) ++ " ", by simp [textAll]⟩
  | group d content extent => exact ⟨text (.group d content extent) ++ " ", by simp [textAll]⟩

theorem exists_textAll_append (ts : List Token) {ts' : List Token} (h : ts' ≠ []) :
    ∃ front, textAll (ts ++ ts') = front ++ textAll ts' := by
  induction ts with
  | nil => exact ⟨"", String.empty_append.symm⟩
  | cons t ts ih =>
    obtain ⟨front, hf⟩ := ih
    obtain ⟨next, rest, he⟩ := List.exists_cons_of_ne_nil (List.append_ne_nil_of_right_ne_nil ts h)
    obtain ⟨own, ho⟩ := exists_textAll_cons t next rest
    exact ⟨own ++ front, by rw [List.cons_append, he, ho, ← he, hf, String.append_assoc]⟩

/-- Tokens that end in braces. -/
def EndInBraces (ts : List Token) : Prop :=
  ∃ before content extent, content ≠ [] ∧ ts = before ++ [.group .brace content extent]

theorem EndInBraces.append (before : List Token) {ts : List Token} (h : EndInBraces ts) :
    EndInBraces (before ++ ts) := by
  obtain ⟨before', content, extent, hc, rfl⟩ := h
  exact ⟨before ++ before', content, extent, hc, (List.append_assoc _ _ _).symm⟩

theorem EndInBraces.exists_textAll {ts : List Token} (h : EndInBraces ts) : ∃ front, textAll ts = front ++ " \x7d" := by
  obtain ⟨before, content, extent, hc, rfl⟩ := h
  obtain ⟨t, content, rfl⟩ := List.exists_cons_of_ne_nil hc
  obtain ⟨front, hf⟩ := exists_textAll_append before (List.cons_ne_nil (.group .brace (t :: content) extent) [])
  exact ⟨front ++ ("\x7b " ++ textAll (t :: content)), by rw [hf, String.append_assoc]; rfl⟩

end Token

namespace UnitRoot

theorem endInBraces_function (edition : Edition) (symbol : String) (parameters result support : List Token)
    (callee : String) (type : List Token) (arguments : String) :
    Token.EndInBraces (function edition symbol parameters result support callee type arguments) :=
  ⟨_, _, default, List.append_ne_nil_of_left_ne_nil (List.cons_ne_nil _ _) _, rfl⟩

theorem endInBraces_entryPoints (name : String) (edition : Edition) (type support : List Token) :
    Token.EndInBraces (entryPoints name edition type support) :=
  (endInBraces_function _ _ _ _ _ _ _ _).append _

theorem endInBraces_of_entryPoints? {name support : String} {edition : Edition} {ts : List Token}
    (h : entryPoints? name support edition = some ts) : Token.EndInBraces ts := by
  obtain ⟨-, -, rfl⟩ := entryPoints?_eq_some_iff.mp h
  exact endInBraces_entryPoints _ _ _ _

end UnitRoot

namespace UnitCompiler
variable {c : UnitCompiler} {name root : String} {tree : SourceTree} {disk : Disk}

theorem exists_joined? {text support supportFile : String} {edition : Edition}
    (h : UnitRoot.joined? name text support supportFile edition = some root) :
    ∃ between exports, Token.EndInBraces exports ∧ root = text ++ between ++ Token.textAll exports ++ "\n" := by
  have hx {mounted : String} (h : (UnitRoot.entryPoints? name support edition).bind (fun exports =>
      some (text ++ (if text.endsWith "\n" then "" else "\n") ++ "\n// Generated by selfgen.\n" ++ mounted ++
        Token.textAll exports ++ "\n")) = some root) :
      ∃ between exports, Token.EndInBraces exports ∧ root = text ++ between ++ Token.textAll exports ++ "\n" := by
    obtain ⟨exports, hx, he⟩ := Option.bind_eq_some_iff.mp h
    cases he
    refine ⟨(if text.endsWith "\n" then "" else "\n") ++ "\n// Generated by selfgen.\n" ++ mounted, exports,
      UnitRoot.endInBraces_of_entryPoints? hx, ?_⟩
    simp only [String.append_assoc]
  unfold UnitRoot.joined? at h
  by_cases hd : UnitRoot.declaresSupport text support
  · rw [if_pos hd] at h
    exact hx h
  · rw [if_neg hd] at h
    obtain ⟨mounted, -, h⟩ := Option.bind_eq_some_iff.mp h
    exact hx h

theorem exists_end_of_root? (h : c.root? name tree = some root) : ∃ front, root = front ++ " \x7d\n" := by
  have hend {ts : List Token} (ht : Token.EndInBraces ts) (before : String) :
      ∃ front, before ++ Token.textAll ts ++ "\n" = front ++ " \x7d\n" := by
    obtain ⟨front, hf⟩ := ht.exists_textAll
    refine ⟨before ++ front, ?_⟩
    rw [hf, String.append_assoc, String.append_assoc, String.append_assoc]
    rfl
  unfold root? at h
  split at h
  · obtain ⟨between, exports, hx, rfl⟩ := exists_joined? h
    exact hend hx _
  · simp only [UnitRoot.separate?, Option.bind_eq_bind, Option.bind_eq_some_iff, Option.pure_def,
      Option.some.injEq] at h
    obtain ⟨mounted, -, candidate, -, exports, hx, rfl⟩ := h
    exact hend ((UnitRoot.endInBraces_of_entryPoints? hx).append (mounted ++ candidate)) _

theorem exists_end_of_supportSource : ∃ front, supportSource = front ++ "\n\x7d\n" := by
  have hl : supportLines.getLast? = some "\x7d" := by decide
  have hn : supportLines.dropLast ≠ [] := by decide
  obtain ⟨front, line, hf⟩ := (List.eq_nil_or_concat supportLines.dropLast).resolve_left hn
  have he := List.dropLast_append_getLast? _ hl
  rw [hf, List.concat_eq_append] at he
  refine ⟨String.join (front.map (· ++ "\n")) ++ line, ?_⟩
  apply String.toList_inj.mp
  simp [supportSource, ← he]

/-- The support module ends in a brace on a line of its own, and no root does. -/
theorem root_ne_supportSource (h : c.root? name tree = some root) : root ≠ supportSource := by
  obtain ⟨front, rfl⟩ := exists_end_of_root? h
  obtain ⟨front', hs⟩ := exists_end_of_supportSource
  rw [hs]
  intro he
  have he := congrArg String.toList he
  rw [String.toList_append, String.toList_append] at he
  exact absurd (List.append_inj' he rfl).2 (by decide)

/-! ### The places of the files -/

/-- The files of a unit: the support module's, the candidate's unless that is in the crate root, the root, and the
image that is asked for. -/
def unitFiles (c : UnitCompiler) (tree : SourceTree) : List String :=
  c.supportFile :: ((if tree.isCrateRoot then [] else [c.candidateFile tree]) ++ [c.rootFile, c.imageFile])

/-- No two files of a unit are at one path. -/
def FilesApart (c : UnitCompiler) (tree : SourceTree) : Prop :=
  (c.unitFiles tree).Pairwise fun file other => ofText file ≠ ofText other

/-- A file is in the workspace, behind these names. -/
def Places (c : UnitCompiler) (file : String) (names : List (List Char)) : Prop :=
  ofText file = ofText c.workspace ++ names.map .name

section
variable {file other : String} {names names' : List (List Char)}

theorem Places.ofText_eq_iff (h : c.Places file names) (h' : c.Places other names') :
    ofText file = ofText other ↔ names = names' := by
  rw [h, h', List.append_cancel_left_eq, map_name_injective.eq_iff]

/-- Files behind different names are in different places. -/
theorem Places.follow_eq_iff (h : c.Places file names) (h' : c.Places other names') (here : FilePath) :
    here.follow (ofText file) = here.follow (ofText other) ↔ names = names' := by
  rw [h, h', follow_append, follow_append, follow_names, follow_names, List.append_cancel_left_eq,
    map_name_injective.eq_iff]

end

theorem places_supportFile (h : '/' ∉ c.support.name.toList) : c.Places c.supportFile [c.support.fileName.toList] :=
  (SupportModule.isFileName_fileName h).ofText_join c.workspace

theorem places_candidateFile : c.Places (c.candidateFile tree) ("src".toList :: placeNames tree.path) :=
  ofText_join_placeOf c.workspace tree.path

theorem places_rootFile : c.Places c.rootFile ["lib.rs".toList] := isFileName_root.ofText_join c.workspace

theorem places_imageFile : c.Places c.imageFile ["libselfgen_unit.so".toList] := by
  have h : IsFileName "libselfgen_unit.so".toList := ⟨by decide, by decide, by decide⟩
  exact h.ofText_join c.workspace

/-- The files of a unit are apart from each other unless the support module has the name of the root. -/
theorem filesApart_iff (h : '/' ∉ c.support.name.toList) : c.FilesApart tree ↔ c.support.name ≠ "lib" := by
  have hs := places_supportFile h
  have hr : c.Places c.rootFile _ := places_rootFile
  have hi : c.Places c.imageFile _ := places_imageFile
  have hsr : ofText c.supportFile = ofText c.rootFile ↔ c.support.name = "lib" := by
    rw [hs.ofText_eq_iff hr, List.singleton_inj, SupportModule.fileName_eq_root_iff]
  have hsi : ofText c.supportFile ≠ ofText c.imageFile := by
    rw [Ne, hs.ofText_eq_iff hi, List.singleton_inj, c.support.toList_fileName]
    intro he
    have hl := congrArg List.getLast? he
    simp at hl
  have hri : ofText c.rootFile ≠ ofText c.imageFile := by
    rw [Ne, hr.ofText_eq_iff hi]
    decide
  -- the candidate's file is deeper than the others
  have hc {file : String} {cs : List Char} (hf : c.Places file [cs]) :
      ofText (c.candidateFile tree) ≠ ofText file ∧ ofText file ≠ ofText (c.candidateFile tree) := by
    rw [Ne, Ne, hf.ofText_eq_iff places_candidateFile, places_candidateFile.ofText_eq_iff hf]
    exact ⟨cons_placeNames_ne, cons_placeNames_ne.symm⟩
  unfold FilesApart unitFiles
  split
  · simp [hsr, hsi, hri]
  · simp [hsr, hsi, hri, hc hs, hc hr, hc hi]

/-! ### What is left of the sources -/

/-- The support module is on a disk as it was given, and so is the candidate's text, in the root if that is a crate
root's. -/
structure KeepsSources (c : UnitCompiler) (tree : SourceTree) (disk : Disk) : Prop where
  support : disk.Holds c.supportFile (Text.bytes supportSource)
  candidate : if tree.isCrateRoot then ∃ behind, disk.Holds c.rootFile (Text.bytes (tree.text ++ behind))
    else disk.Holds (c.candidateFile tree) (Text.bytes tree.text)

/-- The sources are written one after the other, the support module's first. -/
theorem exists_of_writeSources {sources : Disk} (h : c.writeSources tree = .ok sources) :
    ∃ start written : Disk, start.write c.supportFile (Text.bytes supportSource) = .ok written ∧
      if tree.isCrateRoot then written = sources
      else ∃ folders, written.createFolders ((FilePath.parent? (c.candidateFile tree)).getD "") = .ok folders ∧
        folders.write (c.candidateFile tree) (Text.bytes tree.text) = .ok sources := by
  unfold writeSources at h
  obtain ⟨start, -, h⟩ := exists_of_bind_eq_ok h
  obtain ⟨written, hw, h⟩ := exists_of_bind_eq_ok h
  refine ⟨start, written, hw, ?_⟩
  split
  · rename_i hr
    rw [if_pos hr] at h
    exact Except.ok.inj h
  · rename_i hr
    rw [if_neg hr] at h
    exact exists_of_bind_eq_ok h

theorem holds_of_writeSources {sources : Disk} (hn : '/' ∉ c.support.name.toList)
    (h : c.writeSources tree = .ok sources) : sources.Holds c.supportFile (Text.bytes supportSource) ∧
      (¬ tree.isCrateRoot → sources.Holds (c.candidateFile tree) (Text.bytes tree.text)) := by
  obtain ⟨start, written, hw, h⟩ := exists_of_writeSources h
  have hs := Disk.holds_of_write hw
  split at h
  · rename_i hr
    subst h
    exact ⟨hs, fun hf => absurd hr hf⟩
  · obtain ⟨folders, hf, hc⟩ := h
    have hs := (Disk.keepsBut_createFolders hf).holds hs not_false
    refine ⟨hs.write hc ?_, fun _ => Disk.holds_of_write hc⟩
    rw [Ne, (places_supportFile hn).follow_eq_iff places_candidateFile]
    exact cons_placeNames_ne.symm

/-- When the compiler is called, the sources are there unless the root was written over one of them. -/
theorem keepsSources_iff (hn : '/' ∉ c.support.name.toList) (h : c.Fills name tree disk) :
    c.KeepsSources tree disk ↔ c.support.name ≠ "lib" := by
  obtain ⟨sources, root, hs, hr, hw⟩ := h
  obtain ⟨hsupport, hcandidate⟩ := holds_of_writeSources hn hs
  have hroot := Disk.holds_of_write hw
  constructor
  · rintro ⟨hk, -⟩ hl
    have hf : c.supportFile = c.rootFile := by
      rw [supportFile, rootFile, String.toList_inj.mp (SupportModule.fileName_eq_root_iff.mpr hl)]
    rw [hf] at hk
    have hb := congrArg Text.lossy (hroot.unique hk)
    rw [Text.lossy_bytes, Text.lossy_bytes] at hb
    exact root_ne_supportSource hr hb
  · intro hl
    refine ⟨hsupport.write hw ?_, ?_⟩
    · rw [Ne, (places_supportFile hn).follow_eq_iff places_rootFile, List.singleton_inj, SupportModule.fileName_eq_root_iff]
      exact hl
    · split
      · rename_i hc
        rw [root?, if_pos hc] at hr
        obtain ⟨between, exports, -, rfl⟩ := exists_joined? hr
        rw [String.append_assoc, String.append_assoc] at hroot
        exact ⟨_, hroot⟩
      · rename_i hc
        refine (hcandidate hc).write hw ?_
        rw [Ne, places_candidateFile.follow_eq_iff places_rootFile]
        exact cons_placeNames_ne

/-- A support module that a root can be generated for is called by an identifier. -/
theorem isIdentifier_of_root? (hn : isNameText c.support.name) (h : c.root? name tree = some root) :
    UnitRoot.isIdentifier c.support.name.toList := by
  have hs := Option.isSome_of_eq_some h
  unfold root? at hs
  split at hs
  · exact SupportModule.isIdentifier_of_segments hn (UnitRoot.isSome_joined?_iff.mp hs).1
  · exact SupportModule.isIdentifier_of_segments hn (UnitRoot.isSome_separate?_iff.mp hs).1

/-- Let the support module be one of a valid configuration. If its name has a slash, which is then in a comment, there
is no root for any candidate; for any other name the files of a unit are apart from each other if and only if the name
is not `lib`. Whenever the compiler is called, in any workspace and for any candidate, the name also decides whether the
source of the support module and the text of the candidate are still there. -/
theorem keeps_sources_unless_lib {config : PassConfig} (hv : config.validate = .ok ()) {c : UnitCompiler}
    (hc : c.support = config.support) (name : String) (tree : SourceTree) :
    ('/' ∈ config.supportName.toList → c.root? name tree = none) ∧
    ('/' ∉ config.supportName.toList → (c.FilesApart tree ↔ config.supportName ≠ "lib")) ∧
    ∀ disk, c.Fills name tree disk →
      (c.FilesApart tree ↔ config.supportName ≠ "lib") ∧ (c.KeepsSources tree disk ↔ config.supportName ≠ "lib") := by
  have hn : c.support.name = config.supportName := congrArg SupportModule.name hc
  have hv := PassConfig.isNameText_of_validate hv
  rw [← hn] at hv ⊢
  have hslash {root : String} (hr : c.root? name tree = some root) : '/' ∉ c.support.name.toList :=
    SupportModule.slash_not_mem_of_isIdentifier (isIdentifier_of_root? hv hr)
  refine ⟨fun hs => ?_, filesApart_iff, fun disk hd => ?_⟩
  · exact Option.eq_none_iff_forall_ne_some.mpr fun root hr => hslash hr hs
  · have hs : '/' ∉ c.support.name.toList := by
      obtain ⟨sources, root, -, hr, -⟩ := hd
      exact hslash hr
    exact ⟨filesApart_iff hs, keepsSources_iff hs hd⟩

/-- A configuration in which the support module has the name of the root. -/
def libConfig : PassConfig := { supportName := "lib" }

def libCompiler : UnitCompiler := ({ Pass.samplePass with config := libConfig } : Pass).compiler

/-- A file with a generator. -/
def sampleTree : SourceTree :=
  ⟨"gen.rs", "crate::gen", "#[crate::lib::generator] pub struct Alpha;", .e2021, _, rfl⟩

theorem fills_of_prepare (h : (c.prepare name tree).run = some (.ok disk)) : c.Fills name tree disk := by
  rw [run_prepare] at h
  split at h
  · cases h
  · cases h
  · cases h
  · rename_i sources root he hs hr
    cases hw : sources.write c.rootFile (Text.bytes root) with
    | error source =>
      rw [hw] at h
      cases h
    | ok written =>
      rw [hw] at h
      cases h
      exact ⟨sources, root, hs, hr, hw⟩

theorem exists_fills_lib :
    libConfig.validate = .ok () ∧ ∃ disk, libCompiler.Fills "crate::gen::Alpha" sampleTree disk := by
  obtain ⟨hv, hp⟩ : libConfig.validate = .ok () ∧
      (libCompiler.prepare "crate::gen::Alpha" sampleTree).run.map (·.toOption.isSome) = some true := by decide +kernel
  obtain ⟨disk, hp⟩ := Pass.exists_ok_of_isSome hp
  exact ⟨hv, disk, fills_of_prepare hp⟩

/-- The sources are kept under the usual name and lost under the root's. -/
theorem keeps_sources_unless_lib_sample :
    (∃ name tree disk, Pass.samplePass.compiler.Fills name tree disk ∧
      Pass.samplePass.compiler.KeepsSources tree disk) ∧
    ∃ disk, libCompiler.Fills "crate::gen::Alpha" sampleTree disk ∧ ¬ libCompiler.KeepsSources sampleTree disk := by
  obtain ⟨candidate, -, -, -, asked, hc⟩ := Pass.exists_sample_candidate
  obtain ⟨-, disk, hd, -⟩ := call_eq_ok_iff.mp hc
  obtain ⟨hl, disk', hd'⟩ := exists_fills_lib
  have hv : Pass.samplePass.config.validate = .ok () := by decide +kernel
  obtain ⟨-, -, hk⟩ := keeps_sources_unless_lib hv (c := Pass.samplePass.compiler) rfl candidate.name candidate.node.tree
  obtain ⟨-, -, hk'⟩ := keeps_sources_unless_lib hl (c := libCompiler) rfl "crate::gen::Alpha" sampleTree
  exact ⟨⟨_, _, disk, hd, (hk disk hd).2.mpr (by decide)⟩, disk', hd', fun h => (hk' disk' hd').2.mp h rfl⟩

/-- The root's name is valid for a support module. -/
theorem not_keeps_sources : ¬ ∀ (config : PassConfig) (c : UnitCompiler) (name : String) (tree : SourceTree)
    (disk : Disk), config.validate = .ok () → c.support = config.support → c.Fills name tree disk →
      c.FilesApart tree ∧ c.KeepsSources tree disk := by
  intro h
  obtain ⟨hv, disk, hd⟩ := exists_fills_lib
  have hs : '/' ∉ libCompiler.support.name.toList := by decide
  exact (filesApart_iff hs).mp (h _ _ _ _ disk hv rfl hd).1 rfl

end UnitCompiler
end GeneratorHost
