import GeneratorHost.Proofs.Reading.Basic
import GeneratorHost.Proofs.Token.Printed
import GeneratorHost.Proofs.Unit.Root

/-! The text of a unit's root reads as the tokens that it is printed from. -/
namespace GeneratorHost.UnitRoot
open Token

variable {ts : List Token} {names : List String} {name support file : String}

/-! ### Phrases -/

/-- Whether words are identifiers, and marks either stand alone or are a double colon or an arrow. -/
def isPlain : List Token → Bool
  | [] => true
  | .ident false name _ :: ts => isIdentifier name.toList && isPlain ts
  | .punct c false _ :: ts => unquoted.contains c && isPlain ts
  | .punct c true _ :: .punct d joint extent :: ts =>
    (c = ':' && d = ':' || c = '-' && d = '>') && isPlain (.punct d joint extent :: ts)
  | _ => false

theorem joins_colons : Joins ':' ':' := fun _ => ⟨plain_of_ne (by decide) (by decide), rfl⟩

theorem joins_arrow : Joins '-' '>' := fun _ => ⟨plain_of_ne (by decide) (by decide), rfl⟩

theorem printable_of_isPlain (h : isPlain ts) : Printable (bareAll ts) := by
  fun_induction isPlain ts with
  | case1 => exact .nil
  | case2 name _ ts ih =>
    rw [Bool.and_eq_true] at h
    exact .leaf (readable_ident h.1) (ih h.2)
  | case3 c _ ts ih =>
    rw [Bool.and_eq_true] at h
    exact .leaf (readable_punct (List.contains_iff_mem.mp h.1)) (ih h.2)
  | case4 c _ d joint extent ts ih =>
    simp only [Bool.and_eq_true, Bool.or_eq_true, decide_eq_true_iff] at h
    obtain ⟨⟨rfl, rfl⟩ | ⟨rfl, rfl⟩, hs⟩ := h
    · exact .joint joins_colons (ih hs)
    · exact .joint joins_arrow (ih hs)
  | case5 => cases h

theorem bareAll_mark (cs : List Char) : bareAll (mark cs) = mark cs := by
  fun_induction mark cs with
  | case1 => rfl
  | case2 => rfl
  | case3 c cs _ ih => rw [bareAll, ih, bare]

theorem bareAll_phrase (s : String) : bareAll (phrase s) = phrase s := by
  unfold phrase
  rw [bareAll_eq_map, List.map_flatMap]
  refine List.flatMap_congr fun piece _ => ?_
  rw [← bareAll_eq_map]
  cases piece with
  | nil => rfl
  | cons c cs =>
    dsimp only
    split
    · rfl
    · exact bareAll_mark _

theorem printable_phrase {s : String} (h : isPlain (phrase s)) : Printable (phrase s) :=
  bareAll_phrase s ▸ printable_of_isPlain h

/-! ### Names -/

theorem printable_written (h : Writable name) : Printable [written name] := by
  refine Readable.printable ?_
  rw [written]
  cases isNameText name with
  | false => exact readable_raw h.1 h.2
  | true => exact readable_ident h.1

theorem printable_pathTokens (h : ∀ n ∈ names, Writable n) : Printable (pathTokens names) := by
  refine .leaf (readable_ident (by decide)) ?_
  induction names with
  | nil => exact .nil
  | cons name names ih =>
    obtain ⟨hn, hs⟩ := List.forall_mem_cons.mp h
    rw [List.map_cons, List.flatMap_cons]
    exact ((printable_phrase (by decide)).append (printable_written hn)).append (ih hs)

theorem isIdentifier_append {cs more : List Char} (h : isIdentifier cs) (hm : more.all Text.continuesIdentifier) :
    isIdentifier (cs ++ more) := by
  cases cs with
  | nil => cases h
  | cons c cs =>
    rw [isIdentifier, Bool.and_eq_true] at h
    rw [List.cons_append, isIdentifier, List.all_append, h.1, h.2, hm]
    rfl

theorem isIdentifier_symbol (e : EntryPoint) (name : String) : isIdentifier (e.symbol name).toList := by
  have hm : (EntryPoint.mangle name).toList.all Text.continuesIdentifier := by
    rw [EntryPoint.mangle, String.toList_ofList, List.all_map, List.all_eq_true]
    intro c _
    dsimp only [Function.comp]
    split
    · rename_i hc
      simp only [EntryPoint.isPlain, Char.isAlphanum, Bool.or_eq_true, decide_eq_true_iff] at hc
      simp only [Text.continuesIdentifier, Text.startsIdentifier, Bool.or_eq_true, decide_eq_true_iff]
      tauto
    · decide
  rw [EntryPoint.symbol, String.toList_append]
  refine isIdentifier_append ?_ hm
  cases e <;> decide

theorem printable_literal (s : String) : Printable (literal s) := (readable_literal s.toList).printable

theorem printable_group {delimiter : Delimiter} (h : Printable ts) : Printable (group delimiter ts) := .group h .nil

/-! ### Mounts and entry points -/

theorem printable_mounting (h : ∀ n ∈ names, Writable n) (file : String) : Printable (mounting file names) := by
  induction names with
  | nil => exact .nil
  | cons name names ih =>
    obtain ⟨hn, hs⟩ := List.forall_mem_cons.mp h
    by_cases he : names = []
    · subst he
      refine ((((Printable.append ?_ ?_).append ?_).append ?_).append ?_)
      · exact printable_phrase (by decide)
      · exact printable_group ((printable_phrase (by decide)).append (printable_literal file))
      · exact printable_phrase (by decide)
      · exact printable_written hn
      · exact printable_phrase (by decide)
    · rw [mounting_cons file name he]
      exact ((printable_phrase (by decide)).append (printable_written hn)).append (printable_group (ih hs))

theorem printable_exported (edition : Edition) : Printable (exported edition) := by
  cases edition with
  | e2024 =>
    refine (printable_phrase (by decide)).append (printable_group ?_)
    exact (printable_phrase (by decide)).append (printable_group (printable_phrase (by decide)))
  | _ => exact (printable_phrase (by decide)).append (printable_group (printable_phrase (by decide)))

theorem printable_function (edition : Edition) {symbol : String} {parameters result support type : List Token}
    {callee arguments : String} (hs : isIdentifier symbol.toList) (hp : Printable parameters) (hr : Printable result)
    (hsup : Printable support) (hc : isIdentifier callee.toList) (ht : Printable type)
    (ha : isPlain (phrase arguments)) :
    Printable (function edition symbol parameters result support callee type arguments) := by
  have hcall : Printable (support ++ phrase "::" ++ [.word callee] ++ phrase ":: <" ++ type ++ phrase ">" ++
      group .parenthesis (phrase arguments)) := by
    refine (((((hsup.append ?_).append ?_).append ?_).append ht).append ?_).append (printable_group (printable_phrase ha))
    · exact printable_phrase (by decide)
    · exact (readable_ident hc).printable
    · exact printable_phrase (by decide)
    · exact printable_phrase (by decide)
  refine (((((((printable_exported edition).append ?_).append ?_).append ?_).append ?_).append ?_).append hr).append ?_
  · exact printable_phrase (by decide)
  · exact printable_literal "C"
  · exact printable_phrase (by decide)
  · exact (readable_ident hs).printable
  · exact printable_group hp
  · exact printable_group ((printable_phrase (by decide)).append (printable_group hcall))

theorem printable_entryPoints (name : String) (edition : Edition) {type support : List Token} (ht : Printable type)
    (hs : Printable support) : Printable (entryPoints name edition type support) := by
  have haddress : Printable (phrase "* mut :: core :: ffi :: c_void") := printable_phrase (by decide)
  have hsink : Printable (phrase "sink : * const" ++ support ++ phrase ":: RawSink") :=
    ((printable_phrase (by decide)).append hs).append (printable_phrase (by decide))
  have hinstance : Printable (phrase "instance :" ++ phrase "* mut :: core :: ffi :: c_void") :=
    (printable_phrase (by decide)).append haddress
  have hnodes : Printable (phrase "nodes : * const" ++ support ++ phrase ":: RawDeclaration") :=
    ((printable_phrase (by decide)).append hs).append (printable_phrase (by decide))
  have hcomma : Printable (phrase ",") := printable_phrase (by decide)
  refine (Printable.append ?_ ?_).append ?_
  · exact printable_function edition (isIdentifier_symbol _ name) hsink ((printable_phrase (by decide)).append haddress) hs
      (by decide) ht (by decide)
  · refine printable_function edition (isIdentifier_symbol _ name) ?_ (printable_phrase (by decide)) hs (by decide) ht
      (by decide)
    exact (((((hinstance.append hcomma).append hsink).append hcomma).append hnodes).append hcomma).append
      (printable_phrase (by decide)) |>.append hcomma
  · exact printable_function edition (isIdentifier_symbol _ name) hinstance .nil hs (by decide) ht (by decide)

/-! ### Texts -/

theorem exists_readAll_of_printable (h : Printable ts) {rest : List Char} (hr : Border rest)
    (hs : ∀ done p, ∃ p', Scans ⟨[], done, ⟨rest, p⟩⟩ ⟨[], done, ⟨[], p'⟩⟩) {fuel : Nat}
    (hf : ((textAll ts).toList ++ rest).length < fuel) (p : Position) :
    ∃ tokens, readAll fuel [] [] ⟨(textAll ts).toList ++ rest, p⟩ = some tokens ∧ bareAll tokens = ts := by
  obtain ⟨tokens, p₁, hb, h₁⟩ := h.scans hr [] [] p
  obtain ⟨p₂, h₂⟩ := hs (tokens.reverse ++ []) p₁
  have hread := readAll_of_scans (h₁.trans h₂) hf
  rw [List.append_nil, List.reverse_reverse] at hread
  exact ⟨tokens, hread, hb⟩

/-- A name is plain unless it is reserved. -/
theorem isNameText_iff (h : isIdentifier name.toList) : isNameText name ↔ name ∉ Reader.reserved := by
  have hprint := (readable_ident h).printable
  have hread : ∃ tokens, ofText? name = some tokens ∧ bareAll tokens = [.ident false name default] := by
    have htext : (textAll [.ident false name default]).toList ++ [] = name.toList := by
      rw [List.append_nil]
      rfl
    unfold ofText?
    cases hn : name.toList with
    | nil =>
      rw [hn] at h
      cases h
    | cons c cs =>
      rw [hn, isIdentifier, Bool.and_eq_true] at h
      rw [ofChars?_of_identifier h.1, ← hn, ← htext]
      refine exists_readAll_of_printable hprint border_nil (fun _ p => ⟨p, .refl⟩) ?_ _
      rw [htext, hn]
      exact Nat.lt_succ_of_lt (Nat.lt_succ_self _)
  obtain ⟨tokens, ht, hb⟩ := hread
  obtain ⟨extent, _, rfl, hnil⟩ := Reader.exists_of_bareAll_ident hb
  obtain rfl := Reader.eq_nil_of_bareAll hnil
  rw [isNameText, ht]
  change (false || !Reader.reserved.contains name) ↔ _
  rw [Bool.false_or, Bool.not_eq_true', ← Bool.not_eq_true, List.contains_iff_mem]

/-- A line comment goes to the end of its line. -/
theorem blankLength_line {line : List Char} (h : '\n' ∉ line) (body : List Char) :
    blankLength ('/' :: '/' :: ' ' :: line ++ '\n' :: body) = line.length + 3 := by
  have hline : ∀ c ∈ '/' :: '/' :: ' ' :: line, decide (c ≠ '\n') := by
    simp only [List.forall_mem_cons, decide_eq_true_iff]
    exact ⟨by decide, by decide, by decide, fun c hc => ne_of_mem_of_not_mem hc h⟩
  have hcomment : blankLength ('/' :: '/' :: ' ' :: line ++ '\n' :: body) =
      lineCommentLength ('/' :: '/' :: ' ' :: line ++ '\n' :: body) := rfl
  rw [hcomment, lineCommentLength_eq, List.takeWhile_append_of_pos hline, List.takeWhile_cons_of_neg (by simp), List.append_nil]
  rfl

/-- The comment that a root begins with. -/
def heading (name : String) : List Char := '/' :: '/' :: ' ' :: ("Generated by selfgen for ".toList ++ (name.toList ++ ['.']))

theorem blankLength_heading (hn : '\n' ∉ name.toList) (body : List Char) :
    blankLength (heading name ++ '\n' :: body) = (heading name).length := by
  refine blankLength_line ?_ body
  rw [List.mem_append, List.mem_append, List.mem_singleton]
  rintro (hm | hm | hm)
  · exact absurd hm (by decide)
  · exact hn hm
  · cases hm

/-- A root reads as the tokens that it is printed from. -/
theorem exists_ofChars?_of_printable (h : Printable ts) (hn : '\n' ∉ name.toList) : ∃ tokens,
    ofChars? (SourceFile.content (heading name ++ '\n' :: ((textAll ts).toList ++ ['\n']))) = some tokens ∧ bareAll tokens = ts := by
  generalize hbody : (textAll ts).toList ++ ['\n'] = body
  obtain ⟨p, hp⟩ := advance_left (heading name) ('\n' :: body) .origin
  have hcontent : SourceFile.content (heading name ++ '\n' :: body) = heading name ++ '\n' :: body := rfl
  have hstart : Cursor.start (heading name ++ '\n' :: body) = ⟨heading name ++ '\n' :: body, .origin⟩ := by
    rw [heading, List.cons_append, Cursor.start, if_neg (by decide)]
  have hend (done : List Token) (p : Position) : ∃ p', Scans ⟨[], done, ⟨['\n'], p⟩⟩ ⟨[], done, ⟨[], p'⟩⟩ := by
    have hround : Round ⟨[], done, ⟨['\n'], p⟩⟩ _ := .blank rfl
    exact ⟨_, .single hround⟩
  have hlength : body.length < (heading name ++ '\n' :: body).length + 2 := by
    rw [List.length_append, List.length_cons]
    omega
  have hheading : readAll ((heading name ++ '\n' :: body).length + 2) [] [] ⟨heading name ++ '\n' :: body, .origin⟩ =
      readAll ((heading name ++ '\n' :: body).length + 2) [] []
        (Cursor.advance (heading name).length ⟨heading name ++ '\n' :: body, .origin⟩) :=
    readAll_blank (blankLength_heading hn body) (Nat.lt_succ_of_lt (Nat.lt_succ_self _))
  have hbreak : readAll ((heading name ++ '\n' :: body).length + 2) [] [] ⟨'\n' :: body, p⟩ =
      readAll ((heading name ++ '\n' :: body).length + 2) [] [] ⟨body, p.after '\n'⟩ := by
    refine readAll_blank (c := ⟨'\n' :: body, p⟩) (n := 0) rfl ?_
    rw [List.length_append]
    exact Nat.lt_succ_of_le (Nat.le_succ_of_le (Nat.le_add_left _ _))
  obtain ⟨tokens, ht, hb⟩ := exists_readAll_of_printable h (border_cons rfl []) hend (hbody ▸ hlength) (p.after '\n')
  refine ⟨tokens, ?_, hb⟩
  rw [hcontent, ofChars?_eq, hstart, hheading, hp, hbreak, ← ht, hbody]

end GeneratorHost.UnitRoot
