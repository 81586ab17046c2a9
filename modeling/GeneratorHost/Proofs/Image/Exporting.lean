import Mathlib.Algebra.Ring.Nat
import GeneratorHost.Image.Exports
import GeneratorHost.Image.Writer
import GeneratorHost.Proofs.Text.Lossy

/-! A small image exports the names that it was written for. Each part is read where it was written, so
the proof goes part by part and no image is taken apart as a whole. -/
namespace GeneratorHost
namespace Image

/-- Bytes stand at an offset of an image. -/
def At (i : Image) (bytes : List UInt8) (offset : Nat) : Prop :=
  ∃ before behind, i = .ofList (before ++ bytes ++ behind) ∧ before.length = offset

namespace At

variable {i : Image} {bytes front back : List UInt8} {offset : Nat}

theorem left (h : i.At (front ++ back) offset) : i.At front offset := by
  obtain ⟨before, behind, rfl, rfl⟩ := h
  exact ⟨before, back ++ behind, by simp only [List.append_assoc], rfl⟩

theorem right (h : i.At (front ++ back) offset) : i.At back (offset + front.length) := by
  obtain ⟨before, behind, rfl, rfl⟩ := h
  exact ⟨before ++ front, behind, by simp only [List.append_assoc], List.length_append⟩

theorem le_size (h : i.At bytes offset) : offset + bytes.length ≤ i.size := by
  obtain ⟨before, behind, rfl, rfl⟩ := h
  simp only [ofList, size, List.size_toArray, List.length_append]
  omega

theorem holds (h : i.At bytes offset) : i.holds offset bytes.length :=
  decide_eq_true h.le_size

theorem slice (h : i.At bytes offset) : i.slice offset bytes.length = bytes := by
  obtain ⟨before, behind, rfl, rfl⟩ := h
  refine List.ext_getElem (by simp [Image.slice]) fun k _ hk => ?_
  have hb : before.length + k < (before ++ bytes ++ behind).length := by
    simp only [List.length_append]
    omega
  simp only [Image.slice, byte, ofList, List.getElem_map, List.getElem_range, List.getElem?_toArray]
  have hl : before.length + k < (before ++ bytes).length := by
    rw [List.length_append]
    exact Nat.add_lt_add_left hk _
  rw [List.getElem?_eq_getElem hb, Option.getD_some, List.getElem_append_left hl,
    List.getElem_append_right (Nat.le_add_right _ _)]
  simp only [Nat.add_sub_cancel_left]

end At

/-! ### Numbers -/

@[simp] theorem length_littleEndian (width n : Nat) : (littleEndian width n).length = width := by
  induction width generalizing n with
  | zero => rfl
  | succ width ih => rw [littleEndian, List.length_cons, ih]

theorem value_littleEndian {width n : Nat} (h : n < 256 ^ width) : value .little (littleEndian width n) = n := by
  induction width generalizing n with
  | zero => exact (Nat.lt_one_iff.mp h).symm
  | succ width ih =>
    have hd : n / 256 < 256 ^ width := Nat.div_lt_of_lt_mul (by rwa [Nat.mul_comm, ← Nat.pow_succ])
    have ih := ih hd
    simp only [value, littleEndian, List.reverse_cons, List.foldl_append, List.foldl_cons, List.foldl_nil] at ih ⊢
    rw [ih, UInt8.toNat_ofNat']
    omega

theorem length_fields (fs : List (Nat × Nat)) : (fields fs).length = (fs.map Prod.fst).sum := by
  simp [fields, List.length_flatMap]

/-- A field is read where the widths of those before it place it. -/
theorem At.field {i : Image} {offset width n : Nat} (fs : List (Nat × Nat)) {gs : List (Nat × Nat)}
    (h : i.At (fields (fs ++ (width, n) :: gs)) offset) (hn : n < 256 ^ width) :
    i.number .little (offset + (fs.map Prod.fst).sum) width = n := by
  rw [fields, List.flatMap_append, List.flatMap_cons] at h
  have hs := h.right.left.slice
  rw [length_littleEndian, ← fields, length_fields] at hs
  rw [number, hs, value_littleEndian hn]

/-! ### Texts -/

/-- A text is read up to the zero behind it. -/
theorem At.text? {i : Image} {front name back : List UInt8} {start : Nat}
    (h : i.At (front ++ (name ++ 0 :: back)) start) (hn : 0 ∉ name) :
    i.text? ⟨start, start + (front ++ (name ++ 0 :: back)).length⟩ front.length = some name := by
  have hl : start + (front ++ (name ++ 0 :: back)).length - (start + front.length) = (name ++ 0 :: back).length := by
    rw [List.length_append]
    omega
  have hb : start + front.length ≤ start + (front ++ (name ++ 0 :: back)).length := by
    rw [List.length_append]
    omega
  have hz : ∀ b ∈ name, decide (b ≠ 0) = true := fun b hb => decide_eq_true fun he => hn (he ▸ hb)
  simp only [Image.text?, hl, h.right.slice, decide_eq_true hb, decide_eq_true h.le_size, Bool.and_self, if_true]
  rw [if_pos (by simp), List.takeWhile_append_of_pos hz, List.takeWhile_cons_of_neg (by simp), List.append_nil]

/-- The bytes of names, each with a zero behind. -/
def textBytes (names : List String) : List UInt8 := names.flatMap fun name => name.toUTF8.toList ++ [0]

/-- Every text is read at its offset, whatever stands in front of them all. -/
theorem mapM_text? {i : Image} {start : Nat} (names : List String) (front : List UInt8)
    (h : i.At (front ++ textBytes names) start) (hn : ∀ name ∈ names, 0 ∉ Text.bytes name) :
    ((nameOffsets front.length names).mapM fun offset =>
        match i.text? ⟨start, start + (front ++ textBytes names).length⟩ offset with
        | some name => .ok name
        | none => .error "Invalid ELF symbol name offset") = Except.ok (names.map Text.bytes) := by
  induction names generalizing front with
  | nil => rfl
  | cons name names ih =>
    rw [List.forall_mem_cons] at hn
    have ht : textBytes (name :: names) = Text.bytes name ++ 0 :: textBytes names := by
      simp only [textBytes, List.flatMap_cons, List.append_assoc, List.singleton_append]
      rfl
    have hf : front ++ (Text.bytes name ++ 0 :: textBytes names) = (front ++ Text.bytes name ++ [0]) ++ textBytes names := by
      simp only [List.append_assoc, List.singleton_append]
    have hl : (front ++ Text.bytes name ++ [0]).length = front.length + name.utf8ByteSize + 1 := by
      rw [List.length_append, List.length_append, Text.length_bytes, List.length_singleton]
    rw [ht] at h ⊢
    have ih := ih (front ++ Text.bytes name ++ [0]) (hf ▸ h) hn.2
    rw [nameOffsets, List.mapM_cons, h.text? hn.1, hf, ← hl, ih]
    rfl

end Image

namespace Elf
open Image

/-! ### Sections and symbols -/

variable {i : Image} {offset : Nat}

/-- The layout that small images have. -/
def Layout.small : Layout := ⟨8, .little⟩

theorem sectionAt_of_at {kind start size link : Nat} (h : i.At (sectionHeader kind start size link) offset)
    (hk : kind < 256 ^ 4) (ht : start < 256 ^ 8) (hs : size < 256 ^ 8) (hl : link < 256 ^ 4) :
    (File.mk i .small).sectionAt offset = ⟨kind, start, size, link, 0⟩ := by
  have hkind : i.number .little (offset + 4) 4 = kind := h.field [(4, 0)] hk
  have hstart : i.number .little (offset + 24) 8 = start := h.field [(4, 0), (4, kind), (8, 0), (8, 0)] ht
  have hsize : i.number .little (offset + 32) 8 = size :=
    h.field [(4, 0), (4, kind), (8, 0), (8, 0), (8, start)] hs
  have hlink : i.number .little (offset + 40) 4 = link :=
    h.field [(4, 0), (4, kind), (8, 0), (8, 0), (8, start), (8, size)] hl
  have hinfo : i.number .little (offset + 44) 4 = 0 :=
    h.field [(4, 0), (4, kind), (8, 0), (8, 0), (8, start), (8, size), (4, link)] (by decide)
  simp only [File.sectionAt, File.number, Layout.small, Nat.reduceMul, Nat.add_assoc, Nat.reduceAdd, hkind, hstart, hsize,
    hlink, hinfo]

theorem symbolAt_of_at {name : Nat} (h : i.At (symbol name) offset) (hn : name < 256 ^ 4) :
    (File.mk i .small).symbolAt offset = ⟨name, 2, 1, 0⟩ := by
  have hname : i.number .little offset 4 = name := h.field [] hn
  have hkind : i.number .little (offset + 4) 1 = 0x12 := h.field [(4, name)] (by decide)
  have hsection : i.number .little (offset + 6) 2 = 1 := h.field [(4, name), (1, 0x12), (1, 0)] (by decide)
  have hsize : i.number .little (offset + 16) 8 = 0 :=
    h.field [(4, name), (1, 0x12), (1, 0), (2, 1), (8, 0)] (by decide)
  simp only [File.symbolAt, File.number, Layout.small, if_true, hname, hkind, hsection, hsize, Nat.reduceMod]

/-- The symbols stand one behind the other. -/
theorem symbolAt_of_at_flatMap (names : List Nat) (h : i.At (names.flatMap symbol) offset)
    (hn : ∀ name ∈ names, name < 256 ^ 4) :
    ((List.range names.length).map fun k => (File.mk i .small).symbolAt (offset + k * 24)) =
      names.map (⟨·, 2, 1, 0⟩) := by
  induction names generalizing offset with
  | nil => rfl
  | cons name names ih =>
    rw [List.forall_mem_cons] at hn
    rw [List.flatMap_cons] at h
    have hs : (symbol name).length = 24 := length_fields _
    have ih := ih (hs ▸ h.right) hn.2
    have hk (k : Nat) : offset + (k + 1) * 24 = offset + 24 + k * 24 := by omega
    rw [List.length_cons, List.range_succ_eq_map, List.map_cons, List.map_cons, List.map_map, Nat.zero_mul,
      Nat.add_zero, symbolAt_of_at h.left hn.1, ← ih]
    simp only [Function.comp_def, hk]

end Elf

/-! ### Images -/

namespace Image

/-- The symbols of an image. -/
def symbolBytes (names : List String) : List UInt8 := (nameOffsets 0 names).flatMap symbol

/-- Where the headers of the sections begin. -/
def sectionsOffset (names : List String) : Nat := 64 + (symbolBytes names).length + (textBytes names).length

/-- The fields of a header behind its magic number. -/
def headerFields (names : List String) : List (Nat × Nat) :=
  [(2, 3), (2, 62), (4, 1), (8, 0), (8, 0), (8, sectionsOffset names), (4, 0), (2, 64), (2, 0), (2, 0), (2, 64),
    (2, 3), (2, 0)]

/-- The parts of an image and where they stand. -/
structure Laid (i : Image) (names : List String) : Prop where
  header : i.At (fields (headerFields names)) 16
  symbols : i.At (symbolBytes names) 64
  texts : i.At (textBytes names) (64 + (symbolBytes names).length)
  noSection : i.At (sectionHeader 0 0 0 0) (sectionsOffset names)
  symbolSection : i.At (sectionHeader 11 64 (symbolBytes names).length 2) (sectionsOffset names + 64)
  textSection : i.At (sectionHeader 3 (64 + (symbolBytes names).length) (textBytes names).length 0)
    (sectionsOffset names + 128)

theorem length_sectionHeader (kind start size link : Nat) : (sectionHeader kind start size link).length = 64 :=
  length_fields _

theorem laid_exporting (names : List String) : (exporting names).Laid names := by
  have h : (exporting names).At (([0x7f, 0x45, 0x4c, 0x46, 2, 1, 1] ++ List.replicate 9 0) ++
      (fields (headerFields names) ++ (symbolBytes names ++ (textBytes names ++ (sectionHeader 0 0 0 0 ++
        (sectionHeader 11 64 (symbolBytes names).length 2 ++
          sectionHeader 3 (64 + (symbolBytes names).length) (textBytes names).length 0)))))) 0 := by
    refine ⟨[], [], ?_, rfl⟩
    simp only [exporting, List.append_assoc, List.nil_append, List.append_nil]
    rfl
  have hh : (exporting names).At _ 16 := h.right
  have hf : (fields (headerFields names)).length = 48 := length_fields _
  have hs : (exporting names).At _ 64 := hf ▸ hh.right
  have h0 : (exporting names).At _ (sectionsOffset names) := hs.right.right
  have h1 : (exporting names).At _ (sectionsOffset names + 64) := length_sectionHeader 0 0 0 0 ▸ h0.right
  have h2 : (exporting names).At _ (sectionsOffset names + 64 + 64) := length_sectionHeader _ _ _ _ ▸ h1.right
  exact ⟨hh.left, hs.left, hs.right.left, h0.left, h1.left, h2⟩

theorem length_symbolBytes (names : List String) : (symbolBytes names).length = 24 * (nameOffsets 0 names).length := by
  have hs (name : Nat) : (symbol name).length = 24 := length_fields _
  simp only [symbolBytes, List.length_flatMap, hs, List.map_const', List.sum_replicate_nat, Nat.mul_comm]

theorem le_of_mem_nameOffsets {names : List String} {start offset : Nat} (h : offset ∈ nameOffsets start names) :
    offset ≤ start + (textBytes names).length := by
  induction names generalizing start with
  | nil => cases h
  | cons name names ih =>
    have hl : (textBytes (name :: names)).length = name.utf8ByteSize + 1 + (textBytes names).length := by
      rw [textBytes, List.flatMap_cons, List.length_append, List.length_append, ← Text.length_bytes]
      rfl
    rw [nameOffsets, List.mem_cons] at h
    rcases h with rfl | h
    · exact Nat.le_add_right _ _
    · have := ih h
      omega

theorem format_exporting (names : List String) : (exporting names).format = .ok (.elf 8) := by
  have hb : ((exporting names).slice 0 8).map (·.toNat) = [0x7f, 0x45, 0x4c, 0x46, 2, 1, 1, 0] := rfl
  have hs := (laid_exporting names).symbols.le_size
  have hm : ¬ (exporting names).size < magicSize := by
    rw [magicSize]
    omega
  rw [format, if_neg hm, hb]
  rfl

/-- The sections of an image. -/
def sectionList (names : List String) : List Elf.Section :=
  [⟨0, 0, 0, 0, 0⟩, ⟨11, 64, (symbolBytes names).length, 2, 0⟩,
    ⟨3, 64 + (symbolBytes names).length, (textBytes names).length, 0, 0⟩]

end Image

namespace Elf.File
open Image

/-- A small image as it is read. -/
def small (names : List String) : File := ⟨.exporting names, .small⟩

variable {names : List String}

theorem ofImage_exporting (names : List String) : ofImage (.exporting names) 8 = .ok (small names) := by
  have h5 : (exporting names).byte 5 = 1 := rfl
  have h6 : (exporting names).byte 6 = 1 := rfl
  have hh : (exporting names).holds 0 64 := by
    have h := (laid_exporting names).header.le_size
    rw [length_fields] at h
    exact decide_eq_true h
  simp only [ofImage, h5, h6, if_true, Layout.headerSize, hh]
  rfl

theorem small_header (hs : sectionsOffset names < 256 ^ 8) :
    (small names).segmentOffset = 0 ∧ (small names).sectionOffset = sectionsOffset names ∧
      (small names).sectionEntrySize = 64 ∧ (small names).sectionCount = 3 ∧ (small names).sectionNames = 0 := by
  have h := (laid_exporting names).header
  exact ⟨h.field ((headerFields names).take 4) (by decide), h.field ((headerFields names).take 5) hs,
    h.field ((headerFields names).take 10) (by decide), h.field ((headerFields names).take 11) (by decide),
    h.field ((headerFields names).take 12) (by decide)⟩

theorem sections_small (hs : sectionsOffset names < 256 ^ 8) : (small names).sections = .ok (sectionList names) := by
  obtain ⟨-, ho, he, hc, -⟩ := small_header hs
  have h := laid_exporting names
  have hlt : sectionsOffset names = 64 + (symbolBytes names).length + (textBytes names).length := rfl
  have hh : (small names).image.holds (sectionsOffset names) 192 := by
    have he := h.textSection.le_size
    rw [length_sectionHeader] at he
    exact decide_eq_true he
  have h0 := sectionAt_of_at h.noSection (by decide) (by decide) (by decide) (by decide)
  have h1 := sectionAt_of_at h.symbolSection (by decide) (by decide) (by omega) (by decide)
  have h2 := sectionAt_of_at h.textSection (by decide) (by omega) (by omega) (by decide)
  have hne : sectionsOffset names ≠ 0 := by omega
  have hr : ((List.range 3).map fun k => (small names).sectionAt (sectionsOffset names + k * 64)) =
      sectionList names := by
    simp only [List.range_succ_eq_map, List.range_zero, List.map_cons, List.map_nil, Nat.zero_mul, Nat.add_zero,
      Nat.reduceAdd, Nat.reduceMul, Nat.succ_eq_add_one, small, h0, h1, h2, sectionList]
  have hl : (small names).layout.sectionSize = 64 := rfl
  simp [File.sections, ho, he, hc, hl, hh, hr, hne]
  rfl

theorem checkSegments_small (hs : sectionsOffset names < 256 ^ 8) : (small names).checkSegments = .ok () := by
  simp [checkSegments, (small_header hs).1]
  rfl

theorem checkSectionNames_small (hs : sectionsOffset names < 256 ^ 8) :
    (small names).checkSectionNames (sectionList names) = .ok () := by
  obtain ⟨-, -, -, -, hn⟩ := small_header hs
  simp [checkSectionNames, sectionList, hn, overflow]
  rfl

theorem symbols_small_symbolTable : (small names).symbols (sectionList names) symbolTable = .ok (0, [], ⟨0, 0⟩) := rfl

theorem symbols_small_dynamicSymbols (hs : sectionsOffset names < 256 ^ 4) :
    (small names).symbols (sectionList names) dynamicSymbols =
      .ok (1, (nameOffsets 0 names).map (⟨·, 2, 1, 0⟩), ⟨64 + (symbolBytes names).length, sectionsOffset names⟩) := by
  have h := (laid_exporting names).symbols
  have hlt : sectionsOffset names = 64 + (symbolBytes names).length + (textBytes names).length := rfl
  have hh : (small names).image.holds 64 (symbolBytes names).length := h.holds
  have hn (name : Nat) (hm : name ∈ nameOffsets 0 names) : name < 256 ^ 4 := by
    have := le_of_mem_nameOffsets hm
    omega
  have hr := symbolAt_of_at_flatMap _ h hn
  have hl : (symbolBytes names).length / 24 = (nameOffsets 0 names).length := by
    rw [length_symbolBytes, Nat.mul_div_cancel_left _ (by decide)]
  have hst : stop? (64 + (symbolBytes names).length) (textBytes names).length = some (sectionsOffset names) := by
    rw [stop?, if_pos]
    · rfl
    · rw [addressLimit]
      omega
  rw [← hl] at hr
  have hi : (sectionList names).findIdx (·.kind = dynamicSymbols) = 1 := rfl
  have hw : (small names).layout.symbolSize = 24 := rfl
  simp only [symbols, hi, hw]
  simp [sectionList, hh, hst, textTable, extendedIndices]
  exact congrArg (fun found => Except.ok (1, found, _)) hr

end Elf.File

namespace Image

variable {names : List String}

/-- The names that an image was written for are read back. -/
theorem exports_elf_exporting (hz : ∀ name ∈ names, 0 ∉ Text.bytes name) (hs : sectionsOffset names < 256 ^ 4) :
    Elf.exports (.exporting names) 8 = .ok (names.map Text.bytes) := by
  have h8 : sectionsOffset names < 256 ^ 8 := Nat.lt_trans hs (by decide)
  have ht := mapM_text? names [] (laid_exporting names).texts hz
  have hr : Elf.File.checkRelocations (sectionList names) 0 = .ok () := rfl
  simp only [Elf.exports, Elf.File.ofImage_exporting, Elf.File.checkSegments_small h8, Elf.File.sections_small h8,
    Elf.File.checkSectionNames_small h8, Elf.File.symbols_small_symbolTable, Elf.File.symbols_small_dynamicSymbols hs, hr,
    bind, Except.bind]
  rw [List.filter_eq_self.mpr (by simp [Elf.DynamicSymbol.isDefinition]), List.mapM_map]
  exact ht

/-- Names in their order, none of them twice, are what an image exports that was written for them. -/
theorem exports_exporting (hz : ∀ name ∈ names, 0 ∉ Text.bytes name) (hs : sectionsOffset names < 256 ^ 4)
    (hp : names.Pairwise fun a b => decide (a ≤ b)) (hd : dedup names = names) :
    (exporting names).exports = .ok names := by
  have hl : (names.map Text.bytes).map Text.lossy = names := by simp [Function.comp_def]
  simp only [exports, format_exporting, exports_elf_exporting hz hs, bind, Except.bind, Except.map, hl,
    List.mergeSort_of_pairwise hp, hd]
  rfl

end Image
end GeneratorHost
