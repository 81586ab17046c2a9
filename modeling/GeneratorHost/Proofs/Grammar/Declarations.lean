import GeneratorHost.Proofs.Grammar.Productions
import GeneratorHost.Proofs.Grammar.Sources

/-! Signatures, fields and the frame of declarations yield what is well formed and covers what it is read from, where
productions find such items only. -/
namespace GeneratorHost.Grammar
open Std.Do Reader Declaration

set_option mvcgen.warning false

/-- Productions that find items only, and fields where they read fields. -/
structure ItemGrammar (g : Grammar) : Prop where
  exists_depth : ∃ depth, g = grammar depth
  items {source : TokenSource} {P : Declaration → Prop} (h : ∀ d, Placed source.tokens Head.isItem d → P d)
    (b : Reading source) (c : Category) (hc : c ≠ .namedFields) : Keeps P b (g c)
  fields {source : TokenSource} {P : Declaration → Prop} (h : ∀ d, Placed source.tokens Head.isField d → P d)
    (b : Reading source) : Keeps P b (g .namedFields)
  moves_type {source : TokenSource} {P : Declaration → Prop} (h : ∀ d, Placed source.tokens Head.isItem d → P d)
    (plus : Bool) : Moves source P (g (.type plus))
  moves_bound {source : TokenSource} {P : Declaration → Prop} (h : ∀ d, Placed source.tokens Head.isItem d → P d)
    (capture const : Bool) : Moves source P (g (.bound capture const))

variable {α : Type} {source : TokenSource} {P : Declaration → Prop} {b : Reading source} {g : Grammar}

theorem ItemGrammar.keeps (hg : ItemGrammar g) (h : ∀ d, Placed source.tokens Head.isItem d → P d)
    {p : Grammar → Reader α} (hp : ∀ k : KeepingGrammar source, Keeps k.Found b (p k.grammar)) : Keeps P b (p g) :=
  hp ⟨P, g, hg.items h⟩

theorem ItemGrammar.declaring (hg : ItemGrammar g) {p : Grammar → Reader Unit}
    (h : ∀ depth, Declaring (p (grammar depth))) : Declaring (p g) := by
  obtain ⟨depth, rfl⟩ := hg.exists_depth
  exact h depth

/-- Declarations of one sort, each with the tokens that it covers. -/
def AllPlaced (tokens : List Token) (sort : Head → Bool) (ds : List Declaration) : Prop :=
  ∀ d ∈ ds, Placed tokens sort d

variable {tokens : List Token} {sort : Head → Bool} {ds es : List Declaration}

@[simp] theorem allPlaced_nil : AllPlaced tokens sort [] := List.forall_mem_nil _

@[simp] theorem allPlaced_append :
    AllPlaced tokens sort (ds ++ es) ↔ AllPlaced tokens sort ds ∧ AllPlaced tokens sort es :=
  List.forall_mem_append

abbrev Items (tokens : List Token) : List Declaration → Prop := AllPlaced tokens Head.isItem

theorem placed_of_allPlaced {head : Head} {extent : Extent} {attributes : List Attribute} {own : List Token}
    (hs : sort head) (named : head.WellNamed) (hh : Items tokens ds) (hb : AllPlaced tokens head.admits es)
    (read : ReadFrom tokens own ⟨head, extent, attributes, ds, es⟩) (hn : own ≠ []) (he : extent = Token.span own) :
    Placed tokens sort ⟨head, extent, attributes, ds, es⟩ where
  sort := hs
  formed := .mk named (fun d hd => (hh d hd).sort) (fun d hd => (hh d hd).formed) (fun d hd => (hb d hd).sort)
    (fun d hd => (hb d hd).formed)
  located := .mk read hn he (fun d hd => (hh d hd).located) (fun d hd => (hb d hd).located)

/-- A reader that finds items only. -/
structure FindsItems (source : TokenSource) (p : Reader α) : Prop where
  keeps (b : Reading source) : Keeps (Placed source.tokens Head.isItem) b p

theorem ItemGrammar.findsItems (hg : ItemGrammar g) {p : Grammar → Reader α}
    (hp : ∀ (k : KeepingGrammar source) (b : Reading source), Keeps k.Found b (p k.grammar)) :
    FindsItems source (p g) :=
  ⟨fun b => hg.keeps (fun _ => id) (hp · b)⟩

theorem collecting_placed {p : Reader α} (h : Keeps (Placed source.tokens sort) b p) :
    Gives P b (collecting p) (fun r => AllPlaced source.tokens sort r.2) := by
  have hc := collecting_gives (P := P) (gives_of_keeps h)
  rw [gives_iff] at hc ⊢
  intro s r s' he hs
  obtain ⟨hp, -, hi⟩ := hc s r s' he hs
  exact ⟨hp, hi⟩

@[spec low] theorem collecting_items {p : Reader α} (h : FindsItems source p) :
    Gives P b (collecting p) (fun r => Items source.tokens r.2) :=
  collecting_placed (h.keeps b)

/-! ### Parts of declarations -/

theorem typeDeclaration_advances {P : Declaration → Prop} (hg : ItemGrammar g)
    (mayDefault whereFirst whereLast : Bool) :
    Advances source P (typeDeclaration g mayDefault whereFirst whereLast)
      (fun t => IsItemName t.name ∧ Items source.tokens t.found) := by
  refine .behind (fun _ => visibility_keeps) fun visible => ?_
  extract_lets behind
  have hbehind (u : Unit) :
      Advances source P (behind u) fun t => IsItemName t.name ∧ Items source.tokens t.found := by
    refine (word_advances "type").bind fun _ _ b => ?_
    mvcgen [name_gives]
    all_goals try (clear * - hg; apply hg.findsItems; intro k b; mvcgen)
    all_goals simp_all
  exact .ite (.behind (fun _ => word?_keeps _) fun _ => hbehind ()) (hbehind ())

theorem constDeclaration_advances {P : Declaration → Prop} (hg : ItemGrammar g) :
    Advances source P (constDeclaration g)
      (fun c => IsItemName c.name ∧ Items source.tokens c.header ∧ Items source.tokens c.body) := by
  refine (word_advances "const").bind fun _ _ b => ?_
  have hn := nameOrWord_gives (P := P) (b := b) "_" (by decide)
  mvcgen [hn]
  all_goals try (clear * - hg; apply hg.findsItems; intro k b; mvcgen)
  all_goals simp_all

theorem signature_advances {P : Declaration → Prop} (hg : ItemGrammar g) (safe : Bool) :
    Advances source P (signature g safe) (fun s => IsItemName s.name ∧ Items source.tokens s.found) := by
  refine .behind (fun _ => word?_keeps _) fun _ => .behind (fun _ => word?_keeps _) fun _ =>
    .behind (fun _ => word?_keeps _) fun _ => .behind (fun _ => ahead_keeps _) fun _ => ?_
  extract_lets isSafe behind
  have hbehind (u : Unit) :
      Advances source P (behind u) fun s => IsItemName s.name ∧ Items source.tokens s.found := by
    refine .behind (fun _ => convention?_keeps) fun _ => (word_advances "fn").bind fun _ _ b => ?_
    mvcgen [name_gives]
    all_goals try (clear * - hg; apply hg.findsItems; intro k b; mvcgen)
    all_goals simp_all
  exact .ite (.behind (fun _ => word_keeps _) fun _ => hbehind ()) (hbehind ())

theorem functionBody_gives (hg : ItemGrammar g) :
    Gives P b (functionBody g) (fun r => Items source.tokens r.2.1 ∧ Items source.tokens r.2.2) := by
  apply inGroup_gives
  intro b _
  have hi : FindsItems source (innerAttributes g) := hg.findsItems fun k _ => innerAttributes_keeps k
  have hs : FindsItems source (g .statements) := hg.findsItems (p := (· .statements)) fun k _ => k.statements
  mvcgen
  all_goals simp_all

theorem members_gives (hg : ItemGrammar g) {member : Reader Unit}
    (h : ∀ b : Reading source, Keeps (Placed source.tokens sort) b member) :
    Gives P b (members g member) (fun r => Items source.tokens r.2.1 ∧ AllPlaced source.tokens sort r.2.2) := by
  apply inGroup_gives
  intro b _
  have hi : FindsItems source (innerAttributes g) := hg.findsItems fun k _ => innerAttributes_keeps k
  have hm := collecting_placed (P := P) (untilEnd_keeps (h b))
  mvcgen [hm]
  all_goals simp_all

/-! ### Fields -/

/-- A field from in front of its attributes. -/
private theorem fieldName_advances (hg : ItemGrammar g) {name : Reader String}
    (h : Advances source (Placed source.tokens Head.isItem) name fun _ => True) :
    Advances source (Placed source.tokens Head.isItem) (do
      let attributes ← outerAttributes g
      let _ ← visibility
      return (attributes, ← name)) fun _ => True := by
  refine .behind (fun _ => hg.keeps (fun _ => id) fun k => outerAttributes_keeps k) fun _ =>
    .behind (fun _ => visibility_keeps) fun _ => h.bind fun _ _ b => ?_
  mvcgen

/-- A field covers what it is read from with its attributes. -/
theorem declaringField_keeps {P : Declaration → Prop} {b : Reading source} (hg : ItemGrammar g)
    (hp : ∀ d, Placed source.tokens Head.isField d → P d) {name : Nat → Reader String}
    (production : Declaring (declaringField g name))
    (h : ∀ n, Advances source (Placed source.tokens Head.isItem) (name n) fun _ => True) :
    Keeps P b (declaringField g name) := by
  rw [keeps_iff]
  intro s u s' run hs
  obtain ⟨⟨⟨⟨attributes, field⟩, extent⟩, body⟩, t, hc, hd⟩ := bind_eq_some_iff.mp
    (show (collecting (spanning do
        let attributes ← outerAttributes g
        let _ ← visibility
        return (attributes, ← name s.found.size)) >>= fun r =>
      declare ⟨.field r.1.1.2, r.1.2, r.1.1.1, [], r.2⟩) s = some (u, s') from run)
  obtain ⟨t', hspan, hbody, rfl⟩ := exists_of_collecting hc
  obtain rfl : body = t'.found.toList := hbody
  have ha := fieldName_advances hg (h s.found.size)
  obtain ⟨own, wrote, ⟨hr, hw⟩, hcover, hextent, hf, -⟩ :=
    exists_read_of_spanning ha.gives hspan hs.within (by simp)
  have hm := ha.moves.spanning _ _ _ t' hspan
    (Reading.proper_start ⟨{ s with found := #[] }, true, hs.within⟩ (by simp))
  cases hd
  refine hs.step own wrote ⟨hr, hw⟩ (fun _ => hcover) ?_
  simp only [Array.mem_push]
  rintro d (hd | rfl)
  · exact hs.found d hd
  refine hp _ (placed_of_allPlaced rfl trivial allPlaced_nil ?_ (.all production run hs.within hr rfl) ?_ hextent)
  · simpa [AllPlaced, Head.admits] using hf
  · exact ReaderState.Passage.ne_nil ⟨hr, hw⟩ hm

/-- Fields in the type of a field without a name count as not found. -/
private theorem nestedFields_finds (hg : ItemGrammar g) (b : Reading source) :
    Keeps (fun _ => True) b (do let _ ← anyName; g .namedFields) := by
  have hf := hg.fields (P := fun _ => True) (fun _ _ => trivial) b
  mvcgen [hf]

private theorem namedField_advances (hg : ItemGrammar g) :
    Advances source (Placed source.tokens Head.isItem) (do
      let unnamed ← ahead (isWord "_")
      let field ← if unnamed then anyName else name
      mark ":"
      let nested ← ahead fun ts => isWord "struct" ts || (isWord "union" ts && isGroup .brace (skip ts))
      if unnamed && nested then
        verbatim do
          let _ ← anyName
          g .namedFields
      else
        let _ ← g (.type true)
      return field) fun _ => True := by
  refine .behind (fun _ => ahead_keeps _) fun unnamed => ?_
  extract_lets behind
  have hbehind (field : String) : Advances source (Placed source.tokens Head.isItem) (behind field) fun _ => True := by
    refine (mark_advances ":").bind fun _ _ b => ?_
    have ht : Keeps (Placed source.tokens Head.isItem) b (g (.type true)) := hg.items (fun _ => id) b _ (by simp)
    have hf := verbatim_keeps_of (P := Placed source.tokens Head.isItem) (b := b) (fun _ _ => trivial)
      (nestedFields_finds hg)
    mvcgen [ht, hf]
  exact .ite (.behind (fun _ => anyName_keeps) hbehind) (.behind (fun _ => name_keeps) hbehind)

theorem namedFields_keeps {P : Declaration → Prop} {b : Reading source} (hg : ItemGrammar g)
    (hp : ∀ d, Placed source.tokens Head.isField d → P d) : Keeps P b (namedFields g) := by
  have hf (b : Reading source) : Keeps P b (namedField g) :=
    declaringField_keeps hg hp (hg.declaring .namedField) fun _ => namedField_advances hg
  mvcgen [namedFields, hf]

theorem tupleFields_keeps {P : Declaration → Prop} {b : Reading source} (hg : ItemGrammar g)
    (hp : ∀ d, Placed source.tokens Head.isField d → P d) : Keeps P b (tupleFields g) := by
  have ht : Advances source (Placed source.tokens Head.isItem) (g (.type true)) fun _ => True :=
    ⟨fun b => gives_of_keeps (hg.items (fun _ => id) b _ (by simp)), hg.moves_type (fun _ => id) true⟩
  have hf (b : Reading source) : Keeps P b (tupleField g) :=
    declaringField_keeps hg hp (hg.declaring .tupleField) fun position => ht.bind fun _ _ b => by
      clear hp
      mvcgen
  mvcgen [tupleFields, hf]

/-! ### Declarations -/

/-- Parts that make a well-formed declaration of some sort. -/
structure Parts.Fit (tokens : List Token) (sort : Head → Bool) (p : Parts) : Prop where
  sort : sort p.head
  named : p.head.WellNamed
  inner : Items tokens p.innerFound
  header : Items tokens p.header
  body : AllPlaced tokens p.head.admits p.body

theorem Parts.fit_iff {p : Parts} :
    p.Fit tokens sort ↔ sort p.head ∧ p.head.WellNamed ∧ Items tokens p.innerFound ∧ Items tokens p.header ∧
      AllPlaced tokens p.head.admits p.body :=
  ⟨fun ⟨h, n, i, e, b⟩ => ⟨h, n, i, e, b⟩, fun ⟨h, n, i, e, b⟩ => ⟨h, n, i, e, b⟩⟩

/-- Parts that fit, if there are any. -/
def AnyFit (tokens : List Token) (sort : Head → Bool) (parts? : Option Parts) : Prop :=
  ∀ parts ∈ parts?, parts.Fit tokens sort

@[simp] theorem anyFit_none : AnyFit tokens sort none := by
  simp [AnyFit]

@[simp] theorem anyFit_some {p : Parts} : AnyFit tokens sort (some p) ↔ p.Fit tokens sort := by
  simp [AnyFit]

@[simp] theorem anyFit_unless {c : Prop} [Decidable c] {parts? : Option Parts} :
    AnyFit tokens sort (if c then none else parts?) ↔ ¬c → AnyFit tokens sort parts? := by
  by_cases hc : c <;> simp [hc]

/-- The state behind a declaration, which is found with its parts or as it stands. -/
def recorded (s : ReaderState) (outer : List Attribute × List Declaration) (t : ReaderState) :
    Option Parts → ReaderState
  | some parts =>
    { t with found := s.found.push ⟨parts.head, Token.span (t.written.extract s.written.size).toList,
        outer.1 ++ parts.inner, outer.2 ++ parts.innerFound ++ parts.header, parts.body⟩ }
  | none =>
    let source := s.rest.take (s.rest.length - t.rest.length)
    ⟨t.rest, s.written ++ source, s.found.push ⟨.other, Token.span source, [], [], []⟩⟩

@[simp] theorem recorded_rest (s : ReaderState) (outer : List Attribute × List Declaration) (t : ReaderState)
    (parts? : Option Parts) : (recorded s outer t parts?).rest = t.rest := by
  cases parts? <;> rfl

theorem declaring_eq_some_iff {rest : Reader (Option Parts)} {s s' : ReaderState} {u : Unit} :
    declaring g rest s = some (u, s') ↔ ∃ outer s₁ parts? s₂, collecting (outerAttributes g) s = some (outer, s₁) ∧
      rest s₁ = some (parts?, s₂) ∧ s' = recorded s outer s₂ parts? := by
  constructor
  · intro h
    obtain ⟨_, _, hs, h⟩ := bind_eq_some_iff.mp h
    cases hs
    obtain ⟨outer, s₁, ho, h⟩ := bind_eq_some_iff.mp h
    obtain ⟨parts?, s₂, hr, h⟩ := bind_eq_some_iff.mp h
    obtain ⟨_, _, hs, h⟩ := bind_eq_some_iff.mp h
    cases hs
    refine ⟨outer, s₁, parts?, s₂, ho, hr, ?_⟩
    cases parts? <;> cases h <;> rfl
  · rintro ⟨outer, s₁, parts?, s₂, ho, hr, rfl⟩
    refine bind_eq_some_iff.mpr ⟨s, s, rfl, bind_eq_some_iff.mpr ⟨outer, s₁, ho,
      bind_eq_some_iff.mpr ⟨parts?, s₂, hr, bind_eq_some_iff.mpr ⟨s₂, s₂, rfl, ?_⟩⟩⟩⟩
    cases parts? <;> rfl

/-- A declaration is of the sort that its parts are of, and covers what it is read from with its attributes. -/
theorem declaring_keeps {P : Declaration → Prop} {b : Reading source} (hg : ItemGrammar g) (other : sort .other)
    (hp : ∀ d, Placed source.tokens sort d → P d) {rest : Reader (Option Parts)}
    (production : Declaring (declaring g rest))
    (h : ∀ Q, (∀ d, Placed source.tokens Head.isItem d → Q d) →
      Advances source Q rest (AnyFit source.tokens sort)) :
    Keeps P b (declaring g rest) := by
  rw [keeps_iff]
  intro s a s' run hs
  obtain ⟨outer, s₁, parts?, s₂, ho, hr, he⟩ := declaring_eq_some_iff.mp run
  let own : Reading source := ⟨s, true, hs.within⟩
  have hattributes : FindsItems source (outerAttributes g) := hg.findsItems fun k _ => outerAttributes_keeps k
  obtain ⟨hs₁, houter⟩ := gives_iff.mp (collecting_items hattributes) s outer s₁ ho
    (Reading.proper_start own fun _ _ => trivial)
  have h := h (fun _ => True) fun _ _ => trivial
  obtain ⟨hs₂, hf⟩ := gives_iff.mp (h.gives own) s₁ parts? s₂ hr hs₁
  obtain ⟨_, _, hpass₁, -⟩ := hs₁.passed
  obtain ⟨read, wrote, hpass, hcover⟩ := hs₂.passed
  have hcover := hcover rfl
  have hne : read ≠ [] := hpass.ne_nil (Nat.lt_of_lt_of_le (h.moves own s₁ parts? s₂ hr hs₁) hpass₁.length_le)
  cases parts? with
  | none =>
    rw [recorded] at he
    obtain rfl : s' = ⟨s₂.rest, s.written ++ read, s.found.push _⟩ := take_length_sub hpass ▸ he
    refine hs.step read read ⟨hpass.rest, by simp⟩ (fun _ => .refl read) ?_
    simp only [Array.mem_push]
    rintro d (hd | rfl)
    · exact hs.found d hd
    · exact hp _ (placed_of_allPlaced other trivial allPlaced_nil allPlaced_nil
        (.all production run hs.within hpass.rest rfl) hne rfl)
  | some parts =>
    obtain ⟨hsort, hnamed, hinner, hheader, hbody⟩ := hf parts rfl
    rw [recorded] at he
    obtain rfl : s' = { s₂ with found := s.found.push _ } := extract_written hpass ▸ he
    refine hs.step read wrote ⟨hpass.rest, hpass.written⟩ (fun _ => hcover) ?_
    simp only [Array.mem_push]
    rintro d (hd | rfl)
    · exact hs.found d hd
    · exact hp _ (placed_of_allPlaced hsort hnamed (by simp_all) hbody
        (.all production run hs.within hpass.rest rfl) hne hcover.span_eq)

end GeneratorHost.Grammar
