import GeneratorHost.Proofs.Grammar.Declarations

/-! Every declaration that a file yields is well formed and covers the tokens that it is read from. -/
namespace GeneratorHost.Grammar
open Std.Do Reader Declaration

set_option mvcgen.warning false

variable {source : TokenSource} {P : Declaration → Prop} {b : Reading source} {g : Grammar} {sort : Head → Bool}

private theorem some_advances {p : Reader Parts} (h : Advances source P p (Parts.Fit source.tokens sort)) :
    Advances source P (some <$> p) (AnyFit source.tokens sort) :=
  h.map fun _ => anyFit_some.mpr

/-! ### Members -/

theorem memberMacro_advances (h : sort .memberMacro) :
    Advances source P memberMacro (Parts.Fit source.tokens sort) := by
  have hm : Advances source P macroCall fun _ => True :=
    .behind (fun _ => modPath_keeps) fun _ => (mark_advances "!").bind fun _ _ _ => gives_of_keeps (by mvcgen)
  refine hm.bind fun _ _ b => ?_
  mvcgen [endMacro]
  all_goals simp_all [Parts.fit_iff, Head.WellNamed]

theorem traitFunction_advances (hg : ItemGrammar g) :
    Advances source P (traitFunction g) (Parts.Fit source.tokens Head.isMember) := by
  refine (signature_advances hg false).bind fun _ _ b => ?_
  have hb := functionBody_gives (P := P) (b := b) hg
  mvcgen [hb]
  all_goals simp_all [Parts.fit_iff, Head.isMember, Head.WellNamed, Head.admits]

theorem traitMember_keeps {P : Declaration → Prop} {b : Reading source} (hg : ItemGrammar g)
    (hp : ∀ d, Placed source.tokens Head.isMember d → P d) : Keeps P b (traitMember g) := by
  refine declaring_keeps hg rfl hp (hg.declaring .traitMember) fun Q _ => ?_
  refine .behind (fun _ => visibility_keeps) fun visible => .behind (fun _ => word?_keeps _) fun defaulted =>
    .behind (fun _ => by mvcgen) fun s => ?_
  extract_lets ts second whole
  have hwhole (parts? : Option Parts) (h : AnyFit source.tokens Head.isMember parts?) (b : Reading source) :
      Gives Q b (whole parts?) (AnyFit source.tokens Head.isMember) := by
    mvcgen [whole]
    simp_all
  refine .ite ?_ (.ite ?_ (.ite ?_ ?_))
  · exact (some_advances (traitFunction_advances hg)).bind hwhole
  · refine (constDeclaration_advances hg).bind fun c hc b => hwhole _ ?_ b
    simp_all [Parts.fit_iff, Head.isMember, Head.WellNamed, Head.admits]
  · refine (typeDeclaration_advances hg false false true).bind fun t ht b => hwhole _ ?_ b
    simp_all [Parts.fit_iff, Head.isMember, Head.WellNamed, Head.admits]
  · exact .behind (fun _ => require_keeps _) fun _ => (some_advances (memberMacro_advances rfl)).bind hwhole

theorem implFunction_advances (hg : ItemGrammar g) :
    Advances source P (implFunction g) (AnyFit source.tokens Head.isMember) := by
  refine .behind (fun _ => visibility_keeps) fun _ => .behind (fun _ => word?_keeps _) fun _ =>
    (signature_advances hg false).bind fun _ _ b => ?_
  have hb := functionBody_gives (P := P) (b := b) hg
  mvcgen [hb]
  all_goals simp_all [Parts.fit_iff, Head.isMember, Head.WellNamed, Head.admits]

@[spec] theorem behindVisibility_keeps : Keeps P b behindVisibility := by
  mvcgen [behindVisibility]

theorem implMember_keeps {P : Declaration → Prop} {b : Reading source} (hg : ItemGrammar g)
    (hp : ∀ d, Placed source.tokens Head.isMember d → P d) : Keeps P b (implMember g) := by
  refine declaring_keeps hg rfl hp (hg.declaring .implMember) fun Q _ => ?_
  refine .behind (fun _ => behindVisibility_keeps) ?_
  rintro ⟨visible, ts⟩
  refine .ite (implFunction_advances hg) (.ite ?_ (.ite ?_ ?_))
  · have hc : Advances source Q (do
        let c ← constDeclaration g
        pure <| if c.generic || !c.valued then none
          else some { head := .assocConst c.name, header := c.header, body := c.body })
        (AnyFit source.tokens Head.isMember) := by
      refine (constDeclaration_advances hg).bind fun c hc b => ?_
      mvcgen
      simp_all [Parts.fit_iff, Head.isMember, Head.WellNamed, Head.admits]
    exact .behind (fun _ => visibility_keeps) fun _ => .ite (.behind (fun _ => word_keeps _) fun _ => hc) hc
  · refine (typeDeclaration_advances hg true false true).bind fun t ht b => ?_
    mvcgen
    simp_all [Parts.fit_iff, Head.isMember, Head.WellNamed, Head.admits]
  · exact .behind (fun _ => require_keeps _) fun _ => some_advances (memberMacro_advances rfl)

theorem foreignFunction_advances {P : Declaration → Prop} (hg : ItemGrammar g) :
    Advances source P (foreignFunction g) (AnyFit source.tokens Head.isForeign) := by
  refine .behind (fun _ => visibility_keeps) fun _ => (signature_advances hg true).bind fun _ _ b => ?_
  mvcgen
  all_goals try (clear * - hg; apply hg.findsItems; intro k b; mvcgen)
  all_goals simp_all [Parts.fit_iff, Head.isForeign, Head.WellNamed]

theorem foreignStatic_advances {P : Declaration → Prop} (hg : ItemGrammar g)
    (hp : ∀ d, Placed source.tokens Head.isItem d → P d) :
    Advances source P (foreignStatic g) (AnyFit source.tokens Head.isForeign) := by
  refine .behind (fun _ => visibility_keeps) fun _ => .behind (fun _ => word?_keeps _) fun isUnsafe => ?_
  extract_lets behind
  have hbehind (safe : Bool) : Advances source P (behind safe) (AnyFit source.tokens Head.isForeign) := by
    refine (word_advances "static").bind fun _ _ b => ?_
    have he : Keeps P b (g (.expression true)) := hg.items hp b _ (by simp)
    have ht : FindsItems source (g (.type true)) := ⟨fun b => hg.items (fun _ => id) b _ (by simp)⟩
    mvcgen [he, name_gives]
    all_goals simp_all [Parts.fit_iff, Head.isForeign, Head.WellNamed]
  exact .ite (.behind (fun _ => by mvcgen) hbehind) (.behind (fun _ => word?_keeps _) hbehind)

theorem foreignMember_keeps {P : Declaration → Prop} {b : Reading source} (hg : ItemGrammar g)
    (hp : ∀ d, Placed source.tokens Head.isForeign d → P d) : Keeps P b (foreignMember g) := by
  refine declaring_keeps hg rfl hp (hg.declaring .foreignMember) fun Q hi => ?_
  refine .behind (fun _ => behindVisibility_keeps) ?_
  rintro ⟨visible, ts⟩
  refine .ite (foreignFunction_advances hg) (.ite (foreignStatic_advances hg hi) (.ite ?_ ?_))
  · refine (typeDeclaration_advances hg false true true).bind fun t ht b => ?_
    mvcgen
    simp_all [Parts.fit_iff, Head.isForeign, Head.WellNamed, Head.admits]
  · exact .behind (fun _ => require_keeps _) fun _ => some_advances (memberMacro_advances rfl)

/-! ### Imports and macros -/

theorem useItem_advances (hg : ItemGrammar g) (hp : ∀ d, Placed source.tokens Head.isItem d → P d) :
    Advances source P (useItem g) (AnyFit source.tokens Head.isItem) := by
  refine .behind (fun _ => visibility_keeps) fun _ => (word_advances "use").bind fun _ _ b => ?_
  have ht (root : Bool) : Keeps P b (g (.useTree root)) := hg.items hp b _ (by simp)
  mvcgen [ht]
  rename_i tree? _ _ _ _ _
  cases tree? <;> simp_all [Parts.fit_iff, Head.isItem, Head.WellNamed]

theorem externCrate_advances : Advances source P externCrate (Parts.Fit source.tokens Head.isItem) := by
  refine .behind (fun _ => visibility_keeps) fun _ => (word_advances "extern").bind fun _ _ b => ?_
  mvcgen
  all_goals simp_all [Parts.fit_iff, Head.isItem, Head.WellNamed]

theorem macroItem_advances : Advances source P macroItem (Parts.Fit source.tokens Head.isItem) := by
  refine .behind (fun _ => modPath_keeps) fun _ => (mark_advances "!").bind fun _ _ b => ?_
  have hn := attempt_gives (nameOrWord_gives (P := P) (b := b) "try" (by decide))
  mvcgen [endMacro, hn]
  all_goals simp_all [Parts.fit_iff, Head.isItem, Head.WellNamed]

/-! ### Types of the user -/

theorem structBody_gives (hg : ItemGrammar g) :
    Gives P b (structBody g) (fun r => Items source.tokens r.1 ∧ AllPlaced source.tokens Head.isField r.2) := by
  have hn := collecting_placed (P := P) (b := b) (namedFields_keeps hg fun _ => id)
  have ht := collecting_placed (P := P) (b := b) (tupleFields_keeps hg fun _ => id)
  have hw := collecting_items (P := P) (b := b) (hg.findsItems fun k _ => whereClause?_keeps k)
  mvcgen [structBody, hn, ht, hw]
  all_goals simp_all

theorem structItem_advances (hg : ItemGrammar g) :
    Advances source P (structItem g) (Parts.Fit source.tokens Head.isItem) := by
  refine .behind (fun _ => visibility_keeps) fun _ => (word_advances "struct").bind fun _ _ b => ?_
  have hp := collecting_items (P := P) (b := b) (hg.findsItems fun k _ => generics_keeps k)
  have hb := structBody_gives (P := P) (b := b) hg
  mvcgen [hp, hb, name_gives]
  all_goals simp_all [Parts.fit_iff, Head.isItem, Head.WellNamed, Head.admits]

theorem unionItem_advances (hg : ItemGrammar g) :
    Advances source P (unionItem g) (Parts.Fit source.tokens Head.isItem) := by
  refine .behind (fun _ => visibility_keeps) fun _ => (word_advances "union").bind fun _ _ b => ?_
  have hp := collecting_items (P := P) (b := b) (hg.findsItems fun k _ => generics_keeps k)
  have hw := collecting_items (P := P) (b := b) (hg.findsItems fun k _ => whereClause?_keeps k)
  have hn := collecting_placed (P := P) (b := b) (namedFields_keeps hg fun _ => id)
  mvcgen [hp, hw, hn, name_gives]
  all_goals simp_all [Parts.fit_iff, Head.isItem, Head.WellNamed, Head.admits]

/-- A variant holds its fields and the items in its discriminant. -/
theorem variantBody_gives (hg : ItemGrammar g) :
    Gives (Placed source.tokens (Head.admits (.variant ""))) b (variantBody g) IsItemName := by
  have hf (d : Declaration) (h : Placed source.tokens Head.isField d) :
      Placed source.tokens (Head.admits (.variant "")) d :=
    { h with sort := by simp [Head.admits, h.sort] }
  have hi (d : Declaration) (h : Placed source.tokens Head.isItem d) :
      Placed source.tokens (Head.admits (.variant "")) d :=
    { h with sort := by simp [Head.admits, h.sort] }
  have hn := namedFields_keeps (b := b) hg hf
  have ht := tupleFields_keeps (b := b) hg hf
  have he : Keeps _ b (g (.expression true)) := hg.items hi b _ (by simp)
  mvcgen [variantBody, hn, ht, he, name_gives]
  all_goals simp_all

private theorem moves_variantBody {P : Declaration → Prop} (hg : ItemGrammar g) (hp : ∀ d, P d) :
    Moves source P (variantBody g) := by
  refine .bind (moves_nameIf _) (fun _ => name_keeps) fun name b => ?_
  have hn := namedFields_keeps (b := b) hg fun d _ => hp d
  have ht := tupleFields_keeps (b := b) hg fun d _ => hp d
  have he : Keeps P b (g (.expression true)) := hg.items (fun d _ => hp d) b _ (by simp)
  mvcgen [hn, ht, he]

private theorem exists_read_of_dropped {s s' : ReaderState} {r : (Bool × List Token) × List Declaration}
    (h : collecting (capturing visibility) s = some (r, s')) (within : Token.Within source.tokens s.rest) :
    ∃ t t' read, visibility t = some (r.1.1, t') ∧ t.rest = s.rest ∧ t'.rest = s'.rest ∧
      s.Passage s' read [] ∧ s'.found = s.found := by
  obtain ⟨u, hc, -, rfl⟩ := exists_of_collecting h
  obtain ⟨t, hv, -, rfl⟩ := exists_of_capturing hc
  have ht := keeps_iff.mp visibility_keeps _ _ t hv
    (Reading.proper_start (P := fun _ => True) ⟨⟨s.rest, #[], #[]⟩, true, within⟩ fun _ _ => trivial)
  obtain ⟨read, _, hp, -⟩ := ht.passed
  exact ⟨_, t, read, hv, rfl, rfl, ⟨hp.rest, (List.append_nil _).symm⟩, rfl⟩

private theorem exists_read_of_variantBody (hg : ItemGrammar g) {s s' : ReaderState} {r : String × List Declaration}
    (h : collecting (variantBody g) s = some (r, s')) (within : Token.Within source.tokens s.rest) :
    ∃ read wrote, s.Passage s' read wrote ∧ Token.Covers read wrote ∧ read ≠ [] ∧ s'.found = s.found ∧
      IsItemName r.1 ∧ AllPlaced source.tokens (Head.admits (.variant "")) r.2 := by
  obtain ⟨t, hv, hr, rfl⟩ := exists_of_collecting h
  have hs := Reading.proper_start (P := Placed source.tokens (Head.admits (.variant "")))
    ⟨{ s with found := #[] }, true, within⟩ (by simp)
  obtain ⟨ht, hname⟩ := gives_iff.mp (variantBody_gives hg) _ _ t hv hs
  obtain ⟨read, wrote, hp, hc⟩ := ht.passed
  refine ⟨read, wrote, ⟨hp.rest, hp.written⟩, hc rfl, ?_, rfl, hname, by simpa [AllPlaced, hr] using ht.found⟩
  have hm := moves_variantBody (P := fun _ => True) hg (fun _ => trivial) ⟨{ s with found := #[] }, true, within⟩
    _ _ t hv (Reading.proper_start _ fun _ _ => trivial)
  rintro rfl
  rw [hp.rest] at hm
  exact Nat.lt_irrefl _ hm

/-- A visibility that is dropped stands behind the attributes or, if there are none, in front of the variant. -/
private theorem exists_own_of_variantParts (hg : ItemGrammar g) {s s' : ReaderState}
    {r : (List Attribute × List Declaration) × String × List Declaration} (h : variantParts g s = some (r, s'))
    (within : Token.Within source.tokens s.rest) :
    ∃ own read wrote, s.Passage s' read wrote ∧ Token.Covers own wrote ∧ s'.found = s.found ∧
      (read = own ∨
        ∃ t t' visible, visibility t = some (visible, t') ∧ t.rest = s.rest ∧ t'.rest = own ++ s'.rest) ∧
      own ≠ [] ∧ Items source.tokens r.1.2 ∧ IsItemName r.2.1 ∧
      AllPlaced source.tokens (Head.admits (.variant "")) r.2.2 := by
  obtain ⟨outer, s₁, ho, h⟩ := bind_eq_some_iff.mp h
  obtain ⟨dropped, s₂, hd, h⟩ := bind_eq_some_iff.mp h
  obtain ⟨body, s₃, hb, h⟩ := bind_eq_some_iff.mp h
  cases h
  have hattributes : FindsItems source (outerAttributes g) := hg.findsItems fun k _ => outerAttributes_keeps k
  obtain ⟨hs₁, houter⟩ := gives_iff.mp (collecting_items hattributes) s outer s₁ ho
    (Reading.proper_start (P := fun _ => True) ⟨s, true, within⟩ fun _ _ => trivial)
  obtain ⟨attributes, wrote, hp₁, hc₁⟩ := hs₁.passed
  have hf₁ : s₁.found = s.found := by
    obtain ⟨_, -, -, rfl⟩ := exists_of_collecting ho
    rfl
  obtain ⟨t, t', hidden, hv, ht, ht', hp₂, hf₂⟩ := exists_read_of_dropped hd hs₁.within
  have within₂ := hs₁.within
  rw [hp₂.rest] at within₂
  obtain ⟨read, wrote', hp₃, hc₃, hne, hf₃, hname, hbody⟩ :=
    exists_read_of_variantBody hg hb (within₂.drop hidden)
  have hp := (hp₁.trans hp₂).trans hp₃
  have hf := hf₃.trans (hf₂.trans hf₁)
  by_cases he : attributes = []
  · subst he
    obtain rfl := (hc₁ rfl).eq_nil
    exact ⟨read, _, _, hp, hc₃, hf, .inr ⟨t, t', _, hv, ht.trans hp₁.rest.symm, ht'.trans hp₃.rest⟩, hne, houter,
      hname, hbody⟩
  · have hbegins := (hc₁ rfl).begins he
    exact ⟨_, _, _, hp, hbegins.append.covers hc₃ hne, hf, .inl rfl, by simp [hne], houter, hname, hbody⟩

private theorem exists_of_variant {s s' : ReaderState} {u : Unit} (h : variant g s = some (u, s')) :
    ∃ r t, variantParts g { s with written := #[] } = some (r, t) ∧
      s' = ⟨t.rest, s.written ++ t.written.toList, t.found.push
        ⟨.variant r.2.1, Token.span t.written.toList, r.1.1, r.1.2, r.2.2⟩⟩ := by
  obtain ⟨r, _, hs, hd⟩ := bind_eq_some_iff.mp h
  obtain ⟨r', _, hc, hw⟩ := bind_eq_some_iff.mp hs
  obtain ⟨t, hv, ht, rfl⟩ := exists_of_capturing hc
  cases hw
  cases hd
  exact ⟨r'.1, t, hv, by rw [← ht]⟩

theorem variant_keeps {P : Declaration → Prop} {b : Reading source} (hb : b.exact = false) (hg : ItemGrammar g)
    (hp : ∀ d, Placed source.tokens Head.isVariant d → P d) : Keeps P b (variant g) := by
  rw [keeps_iff]
  intro s u s' run hs
  obtain ⟨r, t, hv, rfl⟩ := exists_of_variant run
  obtain ⟨own, read, wrote, ⟨hrest, hwrote⟩, hcover, hfound, hown, hne, hheader, hname, hbody⟩ :=
    exists_own_of_variantParts hg hv hs.within
  rw [List.nil_append] at hwrote
  refine hs.step read wrote ⟨hrest, by simp [hwrote]⟩ (by simp [hb]) ?_
  simp only [Array.mem_push]
  rintro d (hd | rfl)
  · exact hs.found d (hfound ▸ hd)
  refine hp _ (placed_of_allPlaced rfl hname hheader hbody ?_ hne (hwrote ▸ hcover.span_eq))
  rcases hown with rfl | ⟨t, t', visible, hvisible, ht, ht'⟩
  · exact .all (hg.declaring .variant) run hs.within hrest (by rw [hfound])
  · obtain ⟨depth, rfl⟩ := hg.exists_depth
    exact .behind run hs.within hvisible ht ht' (by rw [hfound])

theorem enumItem_advances (hg : ItemGrammar g) :
    Advances source P (enumItem g) (Parts.Fit source.tokens Head.isItem) := by
  refine .behind (fun _ => visibility_keeps) fun _ => (word_advances "enum").bind fun _ _ b => ?_
  have hp := collecting_items (P := P) (b := b) (hg.findsItems fun k _ => generics_keeps k)
  have hw := collecting_items (P := P) (b := b) (hg.findsItems fun k _ => whereClause?_keeps k)
  have hv : Gives P b (collecting (braced (separated "," (variant g)))) (fun r => AllPlaced source.tokens _ r.2) :=
    collecting_placed (braced_keeps fun _ hb => separated_keeps (variant_keeps hb hg fun _ => id))
  mvcgen [hp, hw, hv, name_gives]
  all_goals simp_all [Parts.fit_iff, Head.isItem, Head.WellNamed, Head.admits]

/-! ### Items with members -/

theorem traitBody_gives {P : Declaration → Prop} {b : Reading source} (hg : ItemGrammar g) {name : String}
    (hn : IsItemName name) {parameterFound : List Declaration} (hf : Items source.tokens parameterFound) :
    Gives P b (traitBody g name parameterFound) (Parts.Fit source.tokens Head.isItem) := by
  have hm := members_gives (P := P) (b := b) hg fun _ => traitMember_keeps hg fun _ => id
  mvcgen [traitBody, hm]
  all_goals try (clear * - hg; apply hg.findsItems; intro k b; mvcgen)
  all_goals simp_all [Parts.fit_iff, Head.isItem, Head.WellNamed, Head.admits]

@[spec] theorem aliasBounds_keeps (k : KeepingGrammar source) : Keeps k.Found b (aliasBounds k.grammar) := by
  mvcgen [aliasBounds]

theorem traitAliasBody_gives (hg : ItemGrammar g) {name : String} (hn : IsItemName name)
    {parameterFound : List Declaration} (hf : Items source.tokens parameterFound) :
    Gives P b (traitAliasBody g name parameterFound) (Parts.Fit source.tokens Head.isItem) := by
  have hb := collecting_items (P := P) (b := b) (hg.findsItems fun k _ => aliasBounds_keeps k)
  have hw := collecting_items (P := P) (b := b) (hg.findsItems fun k _ => whereClause?_keeps k)
  mvcgen [traitAliasBody, hb, hw]
  all_goals simp_all [Parts.fit_iff, Head.isItem, Head.WellNamed, Head.admits]

theorem traitItem_advances (hg : ItemGrammar g) :
    Advances source P (traitItem g) (Parts.Fit source.tokens Head.isItem) := by
  refine .behind (fun _ => visibility_keeps) fun _ => .behind (fun _ => word?_keeps _) fun _ =>
    .behind (fun _ => word?_keeps _) fun _ => (word_advances "trait").bind fun _ _ b => ?_
  have hp := collecting_items (P := P) (b := b) (hg.findsItems fun k _ => generics_keeps k)
  have hb := @traitBody_gives source g P b hg
  have ha := @traitAliasBody_gives source P b g hg
  mvcgen [hp, hb, ha, name_gives]
  all_goals simp_all

/-- What was captured is still to be written. -/
private theorem collecting_captured {p : Reader α} (h : FindsItems source p) :
    ⦃fun s => ⌜s.Proper P b⌝⦄ collecting (capturing p)
      ⦃⇓? r s => ⌜({ s with written := s.written ++ r.1.2 } : ReaderState).Proper P b ∧
        Items source.tokens r.2⌝⦄ := by
  rw [triple_iff]
  intro s r s' he hs
  obtain ⟨t, hp, hr, rfl⟩ := exists_of_collecting he
  obtain ⟨read, wrote, hpass, hcover⟩ := hs.passed
  have ht := triple_iff.mp (capturing_gives (b := b) fun b => gives_of_keeps (h.keeps b)) _ _ t hp
    ⟨by simp, read, wrote, ⟨hpass.rest, hpass.written⟩, hcover⟩
  obtain ⟨read, wrote, hpass, hcover⟩ := ht.1.passed
  refine ⟨⟨hs.found, read, wrote, ⟨hpass.rest, hpass.written⟩, hcover⟩, ?_⟩
  simpa [AllPlaced, hr] using ht.1.found

theorem implItem_advances {P : Declaration → Prop} (hg : ItemGrammar g) :
    Advances source P (implItem g) (AnyFit source.tokens Head.isItem) := by
  refine .behind (fun _ => visibility_keeps) fun _ => .behind (fun _ => word?_keeps _) fun _ =>
    .behind (fun _ => word?_keeps _) fun _ => (word_advances "impl").bind fun _ _ b => ?_
  have hm := members_gives (P := P) (b := b) hg fun _ => implMember_keeps hg fun _ => id
  have ht : FindsItems source (g (.type true)) := ⟨fun b => hg.items (fun _ => id) b _ (by simp)⟩
  have hc := collecting_captured (P := P) (b := b) ht
  mvcgen [hm, hc, write_captured, -capturing_keeps, -write_keeps]
  all_goals try (clear * - hg; apply hg.findsItems; intro k b; mvcgen)
  all_goals simp_all [Parts.fit_iff, Head.isItem, Head.WellNamed, Head.admits]

theorem moduleItem_advances (hg : ItemGrammar g) :
    Advances source P (moduleItem g) (Parts.Fit source.tokens Head.isItem) := by
  refine .behind (fun _ => visibility_keeps) fun _ => .behind (fun _ => word?_keeps _) fun _ =>
    (word_advances "mod").bind fun _ _ b => ?_
  have hm := members_gives (P := P) (b := b) hg fun b =>
    hg.items (P := Placed source.tokens Head.isItem) (fun _ => id) b .item (by simp)
  have hn := nameOrWord_gives (P := P) (b := b) "try" (by decide)
  mvcgen [hm, hn]
  all_goals simp_all [Parts.fit_iff, Head.isItem, Head.WellNamed, Head.admits]

theorem foreignModule_advances (hg : ItemGrammar g) :
    Advances source P (foreignModule g) (Parts.Fit source.tokens Head.isItem) := by
  have hc : Advances source P convention fun _ => True :=
    (word_advances "extern").bind fun _ _ _ => gives_of_keeps (by mvcgen)
  refine .behind (fun _ => word?_keeps _) fun _ => hc.bind fun _ _ b => ?_
  have hm := members_gives (P := P) (b := b) hg fun _ => foreignMember_keeps hg fun _ => id
  mvcgen [hm]
  all_goals simp_all [Parts.fit_iff, Head.isItem, Head.WellNamed, Head.admits]

/-! ### Items with values -/

theorem functionItem_advances (hg : ItemGrammar g) :
    Advances source P (functionItem g) (AnyFit source.tokens Head.isItem) := by
  refine .behind (fun _ => visibility_keeps) fun _ => (signature_advances hg false).bind fun _ _ b => ?_
  have hb := functionBody_gives (P := P) (b := b) hg
  mvcgen [hb]
  all_goals simp_all [Parts.fit_iff, Head.isItem, Head.WellNamed, Head.admits]

theorem staticItem_advances {P : Declaration → Prop} (hg : ItemGrammar g) :
    Advances source P (staticItem g) (AnyFit source.tokens Head.isItem) := by
  refine .behind (fun _ => visibility_keeps) fun _ => (word_advances "static").bind fun _ _ b => ?_
  mvcgen [name_gives]
  all_goals try (clear * - hg; apply hg.findsItems; intro k b; mvcgen)
  all_goals simp_all [Parts.fit_iff, Head.isItem, Head.WellNamed, Head.admits]

theorem constItem_advances (hg : ItemGrammar g) :
    Advances source P (constItem g) (AnyFit source.tokens Head.isItem) := by
  refine .behind (fun _ => visibility_keeps) fun _ => (constDeclaration_advances hg).bind fun _ _ b => ?_
  mvcgen
  all_goals simp_all [Parts.fit_iff, Head.isItem, Head.WellNamed, Head.admits]

theorem typeItem_advances (hg : ItemGrammar g) :
    Advances source P (typeItem g) (AnyFit source.tokens Head.isItem) := by
  refine (typeDeclaration_advances hg false true false).bind fun _ _ b => ?_
  mvcgen
  all_goals simp_all [Parts.fit_iff, Head.isItem, Head.WellNamed, Head.admits]

theorem unsafeItem_advances (hg : ItemGrammar g) (second : List Token) :
    Advances source P (unsafeItem g second) (AnyFit source.tokens Head.isItem) :=
  .ite (some_advances (traitItem_advances hg)) <| .ite (implItem_advances hg) <|
    .ite (some_advances (foreignModule_advances hg)) <|
      .behind (fun _ => require_keeps _) fun _ => some_advances (moduleItem_advances hg)

/-- What is kept as it stands. -/
private theorem macroDefinition_advances :
    Advances source P (keeping macroDefinition) (AnyFit source.tokens Head.isItem) := by
  have hm : Advances source P macroDefinition fun _ => True :=
    .behind (fun _ => visibility_keeps) fun _ => (word_advances "macro").bind fun _ _ _ => gives_of_keeps (by mvcgen)
  refine hm.bind fun _ _ b => ?_
  mvcgen
  simp_all

theorem itemRest_advances (hg : ItemGrammar g) (hp : ∀ d, Placed source.tokens Head.isItem d → P d) :
    Advances source P (itemRest g) (AnyFit source.tokens Head.isItem) := by
  refine .behind (fun _ => behindVisibility_keeps) ?_
  rintro ⟨visible, ts⟩
  exact .ite (functionItem_advances hg) <|
    .ite (.ite (some_advances externCrate_advances) <|
      .behind (fun _ => require_keeps _) fun _ => some_advances (foreignModule_advances hg)) <|
    .ite (useItem_advances hg hp) <|
    .ite (staticItem_advances hg) <|
    .ite (constItem_advances hg) <|
    .ite (unsafeItem_advances hg _) <|
    .ite (some_advances (moduleItem_advances hg)) <|
    .ite (typeItem_advances hg) <|
    .ite (some_advances (structItem_advances hg)) <|
    .ite (some_advances (enumItem_advances hg)) <|
    .ite (some_advances (unionItem_advances hg)) <|
    .ite (some_advances (traitItem_advances hg)) <|
    .ite (implItem_advances hg) <|
    .ite macroDefinition_advances <|
    .behind (fun _ => require_keeps _) fun _ => some_advances macroItem_advances

theorem item_keeps {P : Declaration → Prop} {b : Reading source} (hg : ItemGrammar g)
    (hp : ∀ d, Placed source.tokens Head.isItem d → P d) : Keeps P b (item g) :=
  declaring_keeps hg rfl hp (hg.declaring .item) fun _ hi => itemRest_advances hg hi

theorem useTree_keeps (hg : ItemGrammar g) (hp : ∀ d, Placed source.tokens Head.isItem d → P d) (root : Bool) :
    Keeps P b (useTree g root) := by
  have ht (b : Reading source) (root : Bool) : Keeps P b (g (.useTree root)) := hg.items hp b _ (by simp)
  mvcgen [useTree, ht]

/-! ### Files -/

private theorem failure_keeps {α : Type} : Keeps P b (failure : Reader α) :=
  keeps_iff.mpr fun _ _ _ h => by cases h

/-- The productions find items, down to every depth. -/
theorem itemGrammar_grammar (depth : Nat) : ItemGrammar (grammar depth) := by
  induction depth with
  | zero =>
    exact ⟨⟨0, rfl⟩, fun _ _ _ _ => failure_keeps, fun _ _ => failure_keeps, fun _ _ _ _ _ _ h => (by cases h),
      fun _ _ _ _ _ _ _ h => (by cases h)⟩
  | succ depth ih =>
    refine ⟨⟨_, rfl⟩, ?_, ?_, ?_, ?_⟩
    · intro source P hp b c hc
      let k : KeepingGrammar source := ⟨P, grammar depth, ih.items hp⟩
      cases c with
      | expression structs => exact expression_keeps k structs
      | unary structs => exact unary_keeps k structs
      | early => exact early_keeps k
      | operators structs left base => exact operators_keeps k structs left base
      | type plus => exact type_keeps k plus
      | pattern => exact pattern_keeps k
      | bound capture const => exact bound_keeps k capture const
      | statements => exact statements_keeps k
      | item => exact item_keeps ih hp
      | useTree root => exact useTree_keeps ih hp root
      | namedFields => exact absurd rfl hc
    · intro source P hp b
      exact namedFields_keeps ih hp
    · intro source P hp plus
      exact moves_type (k := ⟨P, grammar depth, ih.items hp⟩) (ih.moves_bound hp) plus
    · intro source P hp capture const
      exact moves_bound (k := ⟨P, grammar depth, ih.items hp⟩) capture const

theorem file_keeps (hg : ItemGrammar g) (hp : ∀ d, Placed source.tokens Head.isItem d → P d) :
    Keeps P b (file g) := by
  have hi := collecting_items (P := P) (b := b) (hg.findsItems fun k _ => innerAttributes_keeps k)
  have hu : Keeps P b (g .item) := hg.items hp b _ (by simp)
  mvcgen [file, hi, hu]
  exact And.left ‹_›

/-- What is found where all tokens of a text are read. -/
theorem found_of_parseAll (source : TokenSource) {α : Type} {p : Grammar → Reader α}
    (hp : ∀ g, ItemGrammar g → ∀ b : Reading source, Keeps P b (p g)) {r : α × ReaderState}
    (h : parseAll p source.tokens = some r) : ∀ d ∈ r.2.found, P d := by
  have hk := fun b => keeps_iff.mp (hp _ (itemGrammar_grammar (depthFor source.tokens)) b)
  unfold parseAll at h
  split at h
  · rename_i a s hs
    split at h
    · cases h
      exact (hk ⟨⟨source.tokens, #[], #[]⟩, true, .all⟩ _ _ _ hs (Reading.proper_start _ (by simp))).found
    · cases h
  · cases h

end GeneratorHost.Grammar

namespace GeneratorHost.SourceFile
open Declaration Grammar

variable {text : String} {file : SourceFile}

/-- The items of a file that parses cover the tokens that they are read from. -/
theorem exists_placed_of_ofText? (h : ofText? text = some file) :
    ∃ ts, Token.ofChars? (content text.toList) = some ts ∧ ∀ d ∈ file.items, Placed ts Head.isItem d := by
  obtain ⟨ts, ht, h⟩ := Option.bind_eq_some_iff.mp h
  obtain ⟨⟨u, s⟩, hs, rfl⟩ := Option.map_eq_some_iff.mp h
  have hf := found_of_parseAll ⟨ts, Token.ofChars?_proper ht⟩ (fun g hg _ => file_keeps hg fun _ => id) hs
  exact ⟨ts, ht, by simpa using hf⟩

/-- A file that parses holds well-formed items. -/
theorem ofText?_items (h : ofText? text = some file) : ∀ d ∈ file.items, d.IsItem := by
  obtain ⟨ts, -, hi⟩ := exists_placed_of_ofText? h
  exact fun d hd => (hi d hd).toFits

end GeneratorHost.SourceFile
