import Mathlib.Data.List.Forall2
import Mathlib.Tactic.Common
import GeneratorHost.Invocation.Dispatch
import GeneratorHost.Proofs.Text.Colons

/-! Symbols of entry points: which names share them, and whose generator an invocation then runs. -/
namespace GeneratorHost
namespace EntryPoint

/-- Characters that are the same in a symbol: all but the letters and digits of ASCII are. -/
def SameMark (c d : Char) : Prop := c = d ∨ (¬ c.isAlphanum ∧ ¬ d.isAlphanum)

/-- Names of one length with the same letters and digits of ASCII in the same places. -/
def LookAlike (a b : String) : Prop := List.Forall₂ SameMark a.toList b.toList

instance (c d : Char) : Decidable (SameMark c d) := inferInstanceAs (Decidable (_ ∨ _))

instance (a b : String) : Decidable (LookAlike a b) := inferInstanceAs (Decidable (List.Forall₂ _ _ _))

/-- A character as it stands in a symbol. -/
def shown (c : Char) : Char := if c.isAlphanum then c else '_'

theorem shown_eq_shown_iff {c d : Char} : shown c = shown d ↔ SameMark c d := by
  have hu {c : Char} (h : c.isAlphanum) : c ≠ '_' := by
    rintro rfl
    cases h
  unfold shown SameMark
  by_cases hc : c.isAlphanum <;> by_cases hd : d.isAlphanum
  · simp [hc, hd]
  · have hne : c ≠ d := fun h => hd (h ▸ hc)
    simp [hc, hd, hu hc, hne]
  · have hne : c ≠ d := fun h => hc (h ▸ hd)
    simp [hc, hd, (hu hd).symm, hne]
  · simp [hc, hd]

/-- Colons are shown as underscores one by one, so a double colon makes no difference. -/
theorem map_joinSegments (cs : List Char) :
    (joinSegments cs).map (fun c => if isPlain c then c else '_') = cs.map shown := by
  have hs (c : Char) : (if isPlain c then c else '_') = shown c := by
    unfold isPlain shown
    by_cases h : c = '_' <;> simp [h]
  simp only [hs]
  fun_induction joinSegments cs with
  | case1 cs ih =>
    have hc : shown '_' = shown ':' := by decide
    simp only [List.map_cons, ih, hc]
  | case2 c cs _ ih => simp only [List.map_cons, ih]
  | case3 => rfl

theorem mangle_toList (name : String) : (mangle name).toList = name.toList.map shown := by
  rw [mangle, String.toList_ofList, map_joinSegments]

/-- Two names have one symbol exactly if they look alike, whatever the symbol is of. -/
theorem symbol_eq_symbol_iff (e : EntryPoint) {a b : String} : e.symbol a = e.symbol b ↔ LookAlike a b := by
  unfold symbol LookAlike
  rw [String.append_right_inj, ← String.toList_inj, mangle_toList, mangle_toList]
  rw [← List.forall₂_eq_eq_eq, List.forall₂_map_left_iff, List.forall₂_map_right_iff]
  simp only [shown_eq_shown_iff]

/-- Symbols of different entry points begin differently. -/
theorem construct_symbol_eq_iff {e : EntryPoint} {a b : String} :
    construct.symbol b = e.symbol a ↔ e = construct ∧ LookAlike a b := by
  constructor
  · intro h
    cases e with
    | construct => exact ⟨rfl, (symbol_eq_symbol_iff construct).mp h.symm⟩
    | execute =>
      have := congrArg (fun s => s.toList[8]?) h
      simp [symbol, start] at this
    | release =>
      have := congrArg (fun s => s.toList[8]?) h
      simp [symbol, start] at this
  · rintro ⟨rfl, h⟩
    exact ((symbol_eq_symbol_iff construct).mpr h).symm

/-- Names whose colons stand in pairs and whose underscores stand before a letter or digit. -/
inductive Clear : List Char → Prop
  | nil : Clear []
  | letter {c : Char} {cs : List Char} (h : c.isAlphanum) (rest : Clear cs) : Clear (c :: cs)
  | underscore {c : Char} {cs : List Char} (h : c.isAlphanum) (rest : Clear (c :: cs)) : Clear ('_' :: c :: cs)
  | colons {cs : List Char} (rest : Clear cs) : Clear (':' :: ':' :: cs)

theorem SameMark.isAlphanum_iff {c d : Char} (h : SameMark c d) : c.isAlphanum ↔ d.isAlphanum := by
  rcases h with rfl | ⟨hc, hd⟩
  · rfl
  · simp [hc, hd]

theorem SameMark.eq_of_isAlphanum {c d : Char} (h : SameMark c d) (hc : c.isAlphanum) : c = d :=
  h.resolve_right fun hn => hn.1 hc

/-- Clear names are read back from what they look like. -/
theorem Clear.eq_of_forall₂ {cs ds : List Char} (hc : Clear cs) (hd : Clear ds)
    (h : List.Forall₂ SameMark cs ds) : cs = ds := by
  have hu : ¬ '_'.isAlphanum := by decide
  have hcolon : ¬ ':'.isAlphanum := by decide
  induction hc generalizing ds with
  | nil =>
    cases h
    rfl
  | letter hl _ ih =>
    obtain ⟨d, ds, hm, ht, rfl⟩ := List.forall₂_cons_left_iff.mp h
    obtain rfl := hm.eq_of_isAlphanum hl
    cases hd with
    | letter _ rest => rw [ih rest ht]
    | underscore => exact absurd hl hu
    | colons => exact absurd hl hcolon
  | underscore hl _ ih =>
    obtain ⟨d, ds, hm, ht, rfl⟩ := List.forall₂_cons_left_iff.mp h
    cases hd with
    | letter hr => exact absurd (hm.isAlphanum_iff.mpr hr) hu
    | underscore _ rest => rw [ih rest ht]
    | colons =>
      obtain ⟨_, _, hm, _, he⟩ := List.forall₂_cons_left_iff.mp ht
      cases he
      exact absurd (hm.isAlphanum_iff.mp hl) hcolon
  | colons _ ih =>
    obtain ⟨_, _, hm, ht, rfl⟩ := List.forall₂_cons_left_iff.mp h
    obtain ⟨_, _, hm', ht', rfl⟩ := List.forall₂_cons_left_iff.mp ht
    cases hd with
    | letter hr => exact absurd (hm.isAlphanum_iff.mpr hr) hcolon
    | underscore hr => exact absurd (hm'.isAlphanum_iff.mpr hr) hcolon
    | colons rest => rw [ih rest ht']

end EntryPoint

variable {σ ω : Type} {u : CompiledUnit} {a b : String}

namespace CompiledUnit

/-- The export table of a unit is that of the generator of one name. -/
def ExportsOnly (u : CompiledUnit) (a : String) : Prop := ∀ s, s ∈ u.exports ↔ ∃ e : EntryPoint, s = e.symbol a

/-- However the unit is invoked for a name, the name is not found in it and nothing else comes of that. -/
def Refuses (u : CompiledUnit) (b : String) : Prop :=
  ∀ {σ : Type} (d : Dispatcher) (load : Image → Except String (LoadedUnit (InvocationSink σ)))
    (ds : List RawDeclaration) (artifacts : σ), d.invoke load u b ds artifacts =
      some (.error (.typeNotFound b (EntryPoint.construct.symbol b)), artifacts)

theorem refuses_iff_not_hasExport : u.Refuses b ↔ ¬ u.hasExport (EntryPoint.construct.symbol b) := by
  constructor
  · intro h hc
    have := h (σ := Unit) {} (fun _ => .error "") [] ()
    by_cases he : u.hasExport (EntryPoint.execute.symbol b) <;> simp [Dispatcher.invoke, hc, he] at this
  · intro hc σ d load ds artifacts
    simp [Dispatcher.invoke, hc]

theorem ExportsOnly.hasExport_iff (h : u.ExportsOnly a) :
    u.hasExport (EntryPoint.construct.symbol b) ↔ EntryPoint.LookAlike a b := by
  rw [hasExport, List.contains_iff_mem, h]
  simp only [EntryPoint.construct_symbol_eq_iff, exists_eq_left]

end CompiledUnit

private theorem map_snd_bind {α β : Type} (x : Call ω α) {f g : α → Call ω β}
    (h : ∀ a w, (f a w).map Prod.snd = (g a w).map Prod.snd) (w : ω) :
    ((x >>= f) w).map Prod.snd = ((x >>= g) w).map Prod.snd := by
  change ((x w).bind fun (a, w) => f a w).map _ = ((x w).bind fun (a, w) => g a w).map _
  cases x w with
  | none => rfl
  | some result => exact h result.1 result.2

/-- Under a name that looks like another, that other one's generator runs: what is left behind is the same. -/
theorem LoadedUnit.run_of_lookAlike (h : EntryPoint.LookAlike a b) (unit : LoadedUnit ω)
    (take : ω → Option PanicReport × ω) (ds : List RawDeclaration) (w : ω) :
    (unit.run take b ds w).map Prod.snd = (unit.run take a ds w).map Prod.snd := by
  unfold run
  simp only [← (EntryPoint.symbol_eq_symbol_iff _).mpr h]
  cases unit.construct? (EntryPoint.construct.symbol a) with
  | none => rfl
  | some construct =>
    cases unit.execute? (EntryPoint.execute.symbol a) with
    | none => rfl
    | some execute =>
      -- Only the answers carry the name; the calls are the same.
      refine map_snd_bind construct (fun address? w => ?_) w
      cases address? with
      | none => exact map_snd_bind _ (fun _ _ => rfl) w
      | some address =>
        refine map_snd_bind _ (fun status w => ?_) w
        cases unit.release? (EntryPoint.release.symbol a) with
        | none => exact map_snd_bind _ (fun _ _ => rfl) w
        | some release =>
          refine map_snd_bind (release address) (fun _ w => ?_) w
          exact map_snd_bind _ (fun _ _ => rfl) w

theorem Dispatcher.invoke_of_lookAlike (h : EntryPoint.LookAlike a b) (d : Dispatcher) (u : CompiledUnit)
    (load : Image → Except String (LoadedUnit (InvocationSink σ))) (ds : List RawDeclaration) (artifacts : σ) :
    (d.invoke load u b ds artifacts).map Prod.snd = (d.invoke load u a ds artifacts).map Prod.snd := by
  unfold invoke
  simp only [← (EntryPoint.symbol_eq_symbol_iff _).mpr h]
  split
  · rfl
  · split
    · rfl
    · cases load u.image with
      | error reason => rfl
      | ok unit =>
        have hr := LoadedUnit.run_of_lookAlike h unit InvocationSink.takeFailure ds (d.sink artifacts)
        have := congrArg (Option.map InvocationSink.artifacts) hr
        simpa only [Option.map_map, Function.comp_def] using this

/-! ### Refusal -/

/-- A unit that exports the entry points of one name alone refuses another name exactly if the two do not look alike,
which two clear names never do. For a name that looks like its own it runs its generator. -/
theorem CompiledUnit.refuses_iff_not_lookAlike (h : u.ExportsOnly a) (b : String) :
    (u.Refuses b ↔ ¬ EntryPoint.LookAlike a b) ∧
    (∀ e : EntryPoint, e.symbol a = e.symbol b ↔ EntryPoint.LookAlike a b) ∧
    (EntryPoint.Clear a.toList → EntryPoint.Clear b.toList → a ≠ b → u.Refuses b) ∧
    (EntryPoint.LookAlike a b → ∀ {σ : Type} (d : Dispatcher)
      (load : Image → Except String (LoadedUnit (InvocationSink σ))) (ds : List RawDeclaration) (artifacts : σ),
      (d.invoke load u b ds artifacts).map Prod.snd = (d.invoke load u a ds artifacts).map Prod.snd) := by
  have hr : u.Refuses b ↔ ¬ EntryPoint.LookAlike a b := by rw [refuses_iff_not_hasExport, h.hasExport_iff]
  refine ⟨hr, fun e => EntryPoint.symbol_eq_symbol_iff e, fun ha hb hne => hr.mpr fun hl => hne ?_, ?_⟩
  · exact String.toList_inj.mp (ha.eq_of_forall₂ hb hl)
  · exact fun hl σ d load ds artifacts => Dispatcher.invoke_of_lookAlike hl d u load ds artifacts

/-- The unit that exports the entry points of a name and nothing else. -/
def CompiledUnit.exporting (a : String) : CompiledUnit := ⟨a, ⟨#[]⟩, EntryPoint.all.map (·.symbol a), ⟨0⟩⟩

theorem CompiledUnit.exportsOnly_exporting (a : String) : (exporting a).ExportsOnly a := by
  intro s
  rw [exporting, List.mem_map]
  constructor
  · rintro ⟨e, -, rfl⟩
    exact ⟨e, rfl⟩
  · rintro ⟨e, rfl⟩
    cases e <;> exact ⟨_, by decide, rfl⟩

/-- `crate::a__b::S` looks like `crate::a::b::S`, and `crate::ab::S` does not. -/
theorem CompiledUnit.refuses_iff_not_lookAlike_exporting :
    (exporting "crate::a::b::S").ExportsOnly "crate::a::b::S" ∧
    ¬ (exporting "crate::a::b::S").Refuses "crate::a__b::S" ∧ (exporting "crate::a::b::S").Refuses "crate::ab::S" := by
  have he := exportsOnly_exporting "crate::a::b::S"
  exact ⟨he, fun hr => (refuses_iff_not_lookAlike he _).1.mp hr (by decide),
    (refuses_iff_not_lookAlike he _).1.mpr (by decide)⟩

/-- Whether the unit of one path of identifiers refuses another path. -/
def CompiledUnit.TellsApart (names others : List String) : Prop :=
  (∀ n ∈ names ++ others, UnitRoot.isIdentifier n.toList) → scopePath names ≠ scopePath others →
    ∀ u : CompiledUnit, u.ExportsOnly (scopePath names) → u.Refuses (scopePath others)

/-- Units do not tell every two paths apart: an underscore in a name may stand where another path has a double colon,
and letters beyond ASCII may stand for each other. -/
theorem CompiledUnit.not_tellsApart :
    ¬ TellsApart ["a", "b", "S"] ["a__b", "S"] ∧ ¬ TellsApart ["É"] ["È"] ∧
    ¬ ∀ (e : EntryPoint) (a b : String), e.symbol a = e.symbol b → a = b := by
  have collide {names others : List String} (hn : ∀ n ∈ names ++ others, UnitRoot.isIdentifier n.toList)
      (hne : scopePath names ≠ scopePath others) (hl : EntryPoint.LookAlike (scopePath names) (scopePath others)) :
      ¬ TellsApart names others := by
    intro h
    have he := exportsOnly_exporting (scopePath names)
    exact refuses_iff_not_hasExport.mp (h hn hne _ he) (he.hasExport_iff.mpr hl)
  refine ⟨collide ?_ (by decide) (by decide), collide ?_ (by decide) (by decide), fun h => ?_⟩
  · decide +kernel
  · decide +kernel
  · have := h .construct "crate::a::b::S" "crate::a__b::S" ((EntryPoint.symbol_eq_symbol_iff _).mpr (by decide))
    exact absurd this (by decide)

end GeneratorHost
