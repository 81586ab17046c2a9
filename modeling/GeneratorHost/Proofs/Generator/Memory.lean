import Mathlib.Data.List.Forall2
import GeneratorHost.Generator.Memory

/-! What the host lays out in memory is what a unit reads there, whatever is put into memory in between. -/
namespace GeneratorHost

variable {α β γ : Type}

namespace Memory

variable {m m' m'' : Memory}

/-! ### Growth -/

/-- Something was put into memory, and nothing was moved. -/
def Grows (m m' : Memory) : Prop := m.blocks <+: m'.blocks

theorem Grows.refl (m : Memory) : m.Grows m := List.prefix_rfl

theorem Grows.trans (h : m.Grows m') (h' : m'.Grows m'') : m.Grows m'' := List.IsPrefix.trans h h'

/-- What holds of a memory goes on whatever is put into it. -/
def Steady (P : Memory → Prop) : Prop := ∀ m m', Grows m m' → P m → P m'

theorem steady_block (a : Address) (b : Block) : Steady fun m => m.block? a = some b := by
  intro m m' h hb
  unfold block? at hb ⊢
  split at hb
  · cases hb
  · rename_i hn
    obtain ⟨rest, hr⟩ := h
    rw [if_neg hn, ← hr, List.getElem?_append_left (List.getElem?_eq_some_iff.mp hb).1]
    exact hb

theorem steady_row (cells? : Block → Option (List α)) (a : Address) (count : Nat) (cells : List α) :
    Steady fun m => m.row? cells? a count = some cells := by
  intro m m' h hc
  unfold row? at hc ⊢
  split at hc
  · rename_i hn
    rwa [if_pos hn]
  · rename_i hn
    rw [if_neg hn]
    obtain ⟨row, hrow, hc⟩ := Option.bind_eq_some_iff.mp hc
    obtain ⟨b, hb, hrow⟩ := Option.bind_eq_some_iff.mp hrow
    rw [steady_block a b _ _ h hb, Option.bind_some, hrow, Option.bind_some]
    exact hc

theorem steady_bind {x : Memory → Option α} {f : Memory → α → Option β} (hx : ∀ a, Steady fun m => x m = some a)
    (hf : ∀ a b, Steady fun m => f m a = some b) (b : β) : Steady fun m => (x m >>= f m) = some b := by
  intro m m' h hb
  obtain ⟨a, ha, hb⟩ := Option.bind_eq_some_iff.mp hb
  exact Option.bind_eq_some_iff.mpr ⟨a, hx a m m' h ha, hf a b m m' h hb⟩

theorem steady_map {x : Memory → Option α} (hx : ∀ a, Steady fun m => x m = some a) (f : α → β) (b : β) :
    Steady fun m => (x m).map f = some b := by
  intro m m' h hb
  obtain ⟨a, ha, rfl⟩ := Option.map_eq_some_iff.mp hb
  exact Option.map_eq_some_iff.mpr ⟨a, hx a m m' h ha, rfl⟩

theorem mapM_eq_some_iff {f : α → Option β} {as : List α} {bs : List β} :
    as.mapM f = some bs ↔ List.Forall₂ (fun a b => f a = some b) as bs := by
  induction as generalizing bs with
  | nil => simp [eq_comm]
  | cons a as ih =>
    rw [List.mapM_cons, List.forall₂_cons_left_iff]
    constructor
    · intro h
      obtain ⟨b, hb, h⟩ := Option.bind_eq_some_iff.mp h
      obtain ⟨rest, hrest, h⟩ := Option.bind_eq_some_iff.mp h
      exact ⟨b, rest, hb, ih.mp hrest, (Option.some.inj h).symm⟩
    · rintro ⟨b, rest, hb, hrest, rfl⟩
      exact Option.bind_eq_some_iff.mpr ⟨b, hb, Option.bind_eq_some_iff.mpr ⟨rest, ih.mpr hrest, rfl⟩⟩

theorem steady_forall₂ {Q : Memory → α → β → Prop} (hs : ∀ a b, Steady (Q · a b)) (as : List α) (bs : List β) :
    Steady fun m => List.Forall₂ (Q m) as bs :=
  fun m m' h => .imp fun a b => hs a b m m' h

theorem steady_text (c : TextCell) (t : String) : Steady fun m => m.text? c = some t :=
  steady_map (steady_row Block.bytes? c.address c.length) _ t

theorem steady_texts (c : ListCell) (ts : List String) : Steady fun m => m.texts? c = some ts := by
  unfold texts?
  refine steady_bind (steady_row _ _ _) (fun cells ts => ?_) ts
  simp only [mapM_eq_some_iff]
  exact steady_forall₂ steady_text cells ts

theorem steady_symbol (a : Address) (v : SymbolView) : Steady fun m => m.symbol? a = some v := by
  unfold symbol?
  refine steady_bind (steady_bind (steady_block a) fun _ _ _ _ _ => id) (fun c => ?_) v
  refine steady_bind (steady_text c.kind) fun kind => ?_
  refine steady_bind (steady_text c.name) fun name => ?_
  refine steady_bind (steady_text c.qualifiedName) fun qualifiedName => ?_
  refine steady_bind (steady_text c.nameSpace) fun nameSpace => ?_
  refine steady_bind (steady_texts c.attributes) fun attributes => ?_
  exact steady_bind (steady_texts c.interfaces) fun _ _ _ _ _ => id

theorem steady_symbolUnlessNull (a : Address) (v? : Option SymbolView) :
    Steady fun m => m.symbolUnlessNull? a = some v? := by
  unfold symbolUnlessNull?
  split
  · exact fun _ _ _ => id
  · exact steady_map (steady_symbol a) _ v?

theorem steady_declaration (c : DeclarationCell) (index : Nat) (v : DeclarationView) :
    Steady fun m => m.declaration? c index = some v := by
  unfold declaration?
  refine steady_bind (steady_symbolUnlessNull c.symbol) (fun symbol => ?_) v
  refine steady_bind (steady_text c.kind) fun kind => ?_
  refine steady_bind (steady_text c.file) fun file => ?_
  exact steady_bind (steady_text c.text) fun _ _ _ _ _ => id

/-! ### Blocks -/

theorem ne_null_of_block {a : Address} {b : Block} (h : m.block? a = some b) : a ≠ .null := by
  unfold block? at h
  split at h
  · cases h
  · assumption

/-- All cells of a block can be read. -/
theorem row_of_block {cells? : Block → Option (List α)} {a : Address} {b : Block} {cells : List α}
    (h : m.block? a = some b) (hb : cells? b = some cells) : m.row? cells? a cells.length = some cells := by
  unfold row?
  cases cells with
  | nil => simp
  | cons c cs => simp [ne_null_of_block h, h, hb]

end Memory

/-! ### Laying out -/

namespace Layout

open Memory

/-- Whatever is in memory already stays where it is, and what is put there is as described. -/
def Yields (x : Layout α) (P : Memory → α → Prop) : Prop := ∀ m, m.Grows (x m).2 ∧ P (x m).2 (x m).1

variable {x : Layout α} {P : Memory → α → Prop} {R : Memory → β → Prop}

theorem Yields.pure {a : α} (h : ∀ m, P m a) : Yields (pure a) P := fun m => ⟨.refl m, h m⟩

theorem Yields.mono {Q : Memory → α → Prop} (hx : x.Yields P) (h : ∀ m a, P m a → Q m a) : x.Yields Q :=
  fun m => ⟨(hx m).1, h _ _ (hx m).2⟩

/-- What was put into memory first is still there after what follows. -/
theorem Yields.bind (hx : x.Yields P) (hs : ∀ a, Steady (P · a)) {f : α → Layout β}
    (hf : ∀ a, (f a).Yields fun m b => P m a → R m b) : (x >>= f).Yields R := by
  intro m
  obtain ⟨hg, hp⟩ := hx m
  obtain ⟨hg', hr⟩ := hf (x m).1 (x m).2
  exact ⟨hg.trans hg', hr (hs _ _ _ hg' hp)⟩

theorem put_yields (b : Block) : (put b).Yields fun m a => m.block? a = some b := by
  intro m
  refine ⟨List.prefix_append _ _, ?_⟩
  simp [put, block?, Address.null]

theorem mapM_yields {f : γ → Layout α} {Q : Memory → α → γ → Prop} (hs : ∀ a c, Steady (Q · a c))
    (h : ∀ c, (f c).Yields fun m a => Q m a c) (cs : List γ) :
    (cs.mapM f).Yields fun m as => List.Forall₂ (Q m) as cs := by
  induction cs with
  | nil => exact .pure fun _ => .nil
  | cons c cs ih =>
    rw [List.mapM_cons]
    refine (h c).bind (fun a => hs a c) fun a => ?_
    refine ih.bind (fun as => steady_forall₂ hs as cs) fun as => ?_
    exact .pure fun _ has ha => .cons ha has

theorem text_yields (t : RawText) : (text t).Yields fun m c => m.text? c = some t.toText := by
  unfold text RawText.toText
  cases t.bytes? with
  | none => exact .pure fun _ => rfl
  | some bytes =>
    refine (put_yields (.bytes bytes)).bind (fun a => steady_block a _) fun a => ?_
    exact .pure fun m hb => by rw [text?, row_of_block hb rfl]; rfl

theorem texts_yields (ts : List RawText) : (texts ts).Yields fun m c => m.texts? c = some (ts.map (·.toText)) := by
  have hs (c : TextCell) (t : RawText) : Steady fun m => m.text? c = some t.toText := steady_text c t.toText
  refine (mapM_yields hs text_yields ts).bind (fun cells => steady_forall₂ hs cells ts) fun cells => ?_
  refine (put_yields (.texts cells)).bind (fun a => steady_block a _) fun a => ?_
  refine .pure fun m hb hc => ?_
  rw [texts?, row_of_block hb rfl]
  exact mapM_eq_some_iff.mpr (List.forall₂_map_right_iff.mpr hc)

theorem symbol_yields (s : RawSymbol) : (symbol s).Yields fun m a => m.symbol? a = some s.toView := by
  -- Each part is put behind the ones before it, which stay readable up to the block that points at them all.
  refine (text_yields s.kind).bind (steady_text · _) fun kind => ?_
  refine (text_yields s.name).bind (steady_text · _) fun name => ?_
  refine (text_yields s.qualifiedName).bind (steady_text · _) fun qualifiedName => ?_
  refine (text_yields s.nameSpace).bind (steady_text · _) fun nameSpace => ?_
  refine (texts_yields s.attributes).bind (steady_texts · _) fun attributes => ?_
  refine (texts_yields s.interfaces).bind (steady_texts · _) fun interfaces => ?_
  refine (put_yields _).mono fun m a hb hi ha hs hq hn hk => ?_
  simp [Memory.symbol?, hb, Block.symbol?, hk, hn, hq, hs, ha, hi, RawSymbol.toView]

theorem symbol?_yields (s? : Option RawSymbol) :
    (symbol? s?).Yields fun m a => m.symbolUnlessNull? a = some (s?.map (·.toView)) := by
  cases s? with
  | none => exact .pure fun _ => rfl
  | some s =>
    refine (symbol_yields s).mono fun m a hs => ?_
    obtain ⟨c, hc, -⟩ := Option.bind_eq_some_iff.mp hs
    obtain ⟨b, hb, -⟩ := Option.bind_eq_some_iff.mp hc
    rw [symbolUnlessNull?, if_neg (ne_null_of_block hb), hs, Option.map_some, Option.map_some]

/-- A declaration reads as its view, whatever its place in a list. -/
theorem declaration_yields (d : RawDeclaration) :
    (declaration d).Yields fun m c => ∀ index, m.declaration? c index = some (d.toView index) := by
  refine (symbol?_yields d.symbol?).bind (steady_symbolUnlessNull · _) fun symbol => ?_
  refine (text_yields d.kind).bind (steady_text · _) fun kind => ?_
  refine (text_yields d.file).bind (steady_text · _) fun file => ?_
  refine (text_yields d.text).bind (steady_text · _) fun text => ?_
  refine .pure fun m ht hf hk hs index => ?_
  simp [Memory.declaration?, hs, hk, hf, ht, RawDeclaration.toView]

theorem forall₂_zipIdx {Q : α → β → Prop} {as : List α} {bs : List β} (h : List.Forall₂ Q as bs) (index : Nat) :
    List.Forall₂ (fun a b => Q a.1 b.1 ∧ a.2 = b.2) (as.zipIdx index) (bs.zipIdx index) := by
  induction h generalizing index with
  | nil => exact .nil
  | cons h _ ih => exact .cons ⟨h, rfl⟩ (ih (index + 1))

theorem steady_view (c : DeclarationCell) (d : RawDeclaration) :
    Steady fun m => ∀ index, m.declaration? c index = some (d.toView index) :=
  fun m m' hg hd index => steady_declaration c index _ m m' hg (hd index)

theorem declarations_yields (ds : List RawDeclaration) :
    (declarations ds).Yields fun m r => m.declarations? r.1 r.2 = some (unmarshal ds) := by
  refine (mapM_yields steady_view declaration_yields ds).bind
    (fun cells => steady_forall₂ steady_view cells ds) fun cells => ?_
  refine (put_yields (.declarations cells)).bind (fun a => steady_block a _) fun a => ?_
  refine .pure fun m hb hc => ?_
  rw [Memory.declarations?, row_of_block hb rfl]
  refine mapM_eq_some_iff.mpr (List.forall₂_map_right_iff.mpr ?_)
  refine (forall₂_zipIdx hc 0).imp ?_
  rintro ⟨c, index⟩ ⟨d, _⟩ ⟨h, rfl⟩
  exact h index

end Layout

/-- A unit reads the declarations that were handed to it, and nothing that is not there. -/
theorem Memory.views?_eq (m : Memory) (ds : List RawDeclaration) : m.views? ds = some (unmarshal ds) :=
  (Layout.declarations_yields ds m).2

end GeneratorHost
