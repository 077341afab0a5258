import ApigateBenchmark.Library.JsonWriting

/-!
# What can be wrong with a string of a text

The literals of a tree are those of the tokens it was parsed from. In a text of Unicode characters the
lexer comes to them a character at a time, so the raw bytes of a literal are whole characters, and a
literal denotes a string unless some `\uXXXX` of it is half of a surrogate pair.
-/

namespace Json

/-! ### The literals of a tree are those of its tokens -/

def Token.leaves : Token → List Value
  | .scalar value => value.leaves
  | .str lit => [.str lit]
  | _ => []

def Frame.leaves : Frame → List Value
  | .arr done => elementsLeaves done
  | .obj done key => membersLeaves done ++ [.str key]

/-- The literals of the open containers, the outermost first. -/
def stackLeaves : List Frame → List Value
  | [] => []
  | frame :: stack => stackLeaves stack ++ frame.leaves

def ParseState.leaves : ParseState → List Value
  | .value stack | .firstElement stack | .firstKey stack => stackLeaves stack
  | .afterElement stack done => stackLeaves stack ++ elementsLeaves done
  | .nextKey stack done | .afterMember stack done => stackLeaves stack ++ membersLeaves done
  | .afterKey stack done key => stackLeaves stack ++ (membersLeaves done ++ [.str key])
  | .finished tree => tree.leaves

theorem elementsLeaves_append (elements more : List Value) :
    elementsLeaves (elements ++ more) = elementsLeaves elements ++ elementsLeaves more := by
  induction elements with
  | nil => rfl
  | cons element elements ih => rw [List.cons_append, elementsLeaves, elementsLeaves, ih, List.append_assoc]

theorem membersLeaves_append (members more : List Member) :
    membersLeaves (members ++ more) = membersLeaves members ++ membersLeaves more := by
  induction members with
  | nil => rfl
  | cons member members ih =>
      obtain ⟨key, value⟩ := member
      rw [List.cons_append, membersLeaves, membersLeaves, ih, List.cons_append, List.append_assoc]

theorem leaves_plug (value : Value) (stack : List Frame) :
    (plug value stack).leaves = stackLeaves stack ++ value.leaves := by
  cases stack with
  | nil => rfl
  | cons frame stack =>
      cases frame with
      | arr done =>
          have hlast : elementsLeaves [value] = value.leaves := List.append_nil _
          rw [plug, ParseState.leaves, elementsLeaves_append, hlast, stackLeaves, Frame.leaves,
            List.append_assoc]
      | obj done key =>
          have hlast : membersLeaves [(key, value)] = .str key :: value.leaves :=
            congrArg (_ :: ·) (List.append_nil _)
          rw [plug, ParseState.leaves, membersLeaves_append, hlast, stackLeaves, Frame.leaves]
          simp only [List.append_assoc, List.cons_append, List.nil_append]

theorem leaves_startValue {stack : List Frame} {token : Token} {next : ParseState}
    (h : startValue stack token = some next) : next.leaves = stackLeaves stack ++ token.leaves := by
  cases token with
  | scalar value =>
      obtain rfl := Option.some.inj h
      exact leaves_plug value stack
  | str lit =>
      obtain rfl := Option.some.inj h
      exact leaves_plug (.str lit) stack
  | lbrack =>
      obtain rfl := Option.some.inj h
      exact (List.append_nil _).symm
  | lbrace =>
      obtain rfl := Option.some.inj h
      exact (List.append_nil _).symm
  | _ => cases h

theorem leaves_startElement {stack : List Frame} {token : Token} {next : ParseState}
    (h : startValue (.arr [] :: stack) token = some next) :
    next.leaves = stackLeaves stack ++ token.leaves := by
  have hstart := leaves_startValue h
  rwa [stackLeaves, Frame.leaves, elementsLeaves, List.append_nil] at hstart

/-- A step adds the literals of its token. -/
theorem ParseState.leaves_step {state next : ParseState} {token : Token}
    (h : state.step token = some next) : next.leaves = state.leaves ++ token.leaves := by
  cases state with
  | value stack => exact leaves_startValue h
  | firstElement stack =>
      cases token with
      | rbrack =>
          obtain rfl := Option.some.inj h
          exact leaves_plug (.arr []) stack
      | _ => exact leaves_startElement h
  | afterElement stack done =>
      cases token with
      | comma =>
          obtain rfl := Option.some.inj h
          exact (List.append_nil _).symm
      | rbrack =>
          obtain rfl := Option.some.inj h
          rw [leaves_plug]
          exact (List.append_nil _).symm
      | _ => cases h
  | firstKey stack =>
      cases token with
      | rbrace =>
          obtain rfl := Option.some.inj h
          exact leaves_plug (.obj []) stack
      | str lit =>
          obtain rfl := Option.some.inj h
          rfl
      | _ => cases h
  | nextKey stack done =>
      cases token with
      | str lit =>
          obtain rfl := Option.some.inj h
          exact (List.append_assoc _ _ _).symm
      | _ => cases h
  | afterKey stack done key =>
      cases token with
      | colon =>
          obtain rfl := Option.some.inj h
          exact (List.append_nil _).symm
      | _ => cases h
  | afterMember stack done =>
      cases token with
      | comma =>
          obtain rfl := Option.some.inj h
          exact (List.append_nil _).symm
      | rbrace =>
          obtain rfl := Option.some.inj h
          rw [leaves_plug]
          exact (List.append_nil _).symm
      | _ => cases h
  | finished value => cases h

theorem ParseState.leaves_run {tokens : List Token} {state next : ParseState}
    (h : tokens.foldlM ParseState.step state = some next) :
    next.leaves = state.leaves ++ tokens.flatMap Token.leaves := by
  induction tokens generalizing state with
  | nil =>
      obtain rfl := Option.some.inj h
      exact (List.append_nil _).symm
  | cons token tokens ih =>
      obtain ⟨mid, hstep, hrest⟩ := Option.bind_eq_some_iff.mp h
      rw [ih hrest, ParseState.leaves_step hstep, List.append_assoc, List.flatMap_cons]

theorem parse_leaves {text : Bytes} {tree : Value} (h : parse text = some tree) :
    ∃ tokens, lex .ground text = some tokens ∧ tree.leaves = tokens.flatMap Token.leaves := by
  simp only [parse, Option.bind_eq_bind, Option.bind_eq_some_iff] at h
  obtain ⟨tokens, hlex, state, hrun, hstate⟩ := h
  refine ⟨tokens, hlex, ?_⟩
  have hleaves := ParseState.leaves_run hrun
  cases state with
  | finished value =>
      obtain rfl := Option.some.inj hstate
      exact hleaves
  | _ => cases hstate

/-! ### Literals of whole characters -/

/-- The raw bytes of the literal are those of characters. -/
inductive StrLit.IsText : StrLit → Prop
  | nil : StrLit.IsText []
  | char (c : Char) {rest : StrLit} (h : StrLit.IsText rest) :
      StrLit.IsText ((String.utf8EncodeChar c).map .raw ++ rest)
  | escape (c : Char) {rest : StrLit} (h : StrLit.IsText rest) : StrLit.IsText (.escape c :: rest)
  | unicode (code : Nat) {rest : StrLit} (h : StrLit.IsText rest) : StrLit.IsText (.unicode code :: rest)

theorem StrLit.IsText.append {lit more : StrLit} (h : lit.IsText) (hmore : more.IsText) :
    StrLit.IsText (lit ++ more) := by
  induction h with
  | nil => exact hmore
  | char c h ih =>
      rw [List.append_assoc]
      exact .char c ih
  | escape c h ih => exact .escape c ih
  | unicode code h ih => exact .unicode code ih

theorem utf8EncodeChar_ne_nil (c : Char) : String.utf8EncodeChar c ≠ [] := by
  intro h
  have hlength := String.length_utf8EncodeChar c
  rw [h] at hlength
  exact absurd hlength (Nat.ne_of_lt c.utf8Size_pos)

theorem StrLit.IsText.of_unicode {code : Nat} {rest : StrLit} (h : StrLit.IsText (.unicode code :: rest)) :
    rest.IsText := by
  generalize hlit : StrUnit.unicode code :: rest = lit at h
  cases h with
  | nil => cases hlit
  | char c h =>
      cases hbytes : String.utf8EncodeChar c with
      | nil => exact absurd hbytes (utf8EncodeChar_ne_nil c)
      | cons b bytes =>
          rw [hbytes] at hlit
          cases hlit
  | escape c h => cases hlit
  | unicode other h =>
      obtain ⟨-, rfl⟩ := List.cons.inj hlit
      exact h

theorem paired_raws (bytes : Bytes) (rest : StrLit) :
    StrLit.paired (bytes.map .raw ++ rest) = rest.paired := by
  induction bytes with
  | nil => rfl
  | cons b bytes ih => exact ih

theorem isSome_unicodeChar (code : Nat) : (unicodeChar code).isSome = !isSurrogate code := by
  rw [unicodeChar]
  cases isSurrogate code <;> rfl

/-- An escape is half of a pair with the one after it, or it stands for itself. -/
theorem charsFrom_unicode (code : Nat) (rest : StrLit) :
    (∃ low more, rest = .unicode low :: more ∧
        (charsFrom [] (.unicode code :: rest)).all Option.isSome = (charsFrom [] more).all Option.isSome ∧
        StrLit.paired (.unicode code :: rest) = StrLit.paired more) ∨
      (charsFrom [] (.unicode code :: rest)).all Option.isSome =
          (!isSurrogate code && (charsFrom [] rest).all Option.isSome) ∧
        StrLit.paired (.unicode code :: rest) = (!isSurrogate code && StrLit.paired rest) := by
  cases rest with
  | nil => exact .inr ⟨congrArg (· && true) (isSome_unicodeChar code), rfl⟩
  | cons unit more =>
      cases unit with
      | raw b => exact .inr ⟨congrArg (· && _) (isSome_unicodeChar code), rfl⟩
      | escape c => exact .inr ⟨congrArg (· && _) (isSome_unicodeChar code), rfl⟩
      | unicode low =>
          rw [charsFrom, StrLit.paired]
          cases hpair : isPair code low with
          | true => exact .inl ⟨low, more, rfl, rfl, rfl⟩
          | false => exact .inr ⟨congrArg (· && _) (isSome_unicodeChar code), rfl⟩

theorem charsFrom_unicode_pending (pending : Bytes) (code : Nat) (rest : StrLit) :
    charsFrom pending (.unicode code :: rest) =
      pending.map (fun _ => none) ++ charsFrom [] (.unicode code :: rest) := by
  cases rest with
  | nil => rfl
  | cons unit more => cases unit <;> rfl

/-- A raw byte leaves the rest of the literal to be read after it. -/
theorem charsFrom_raw (pending : Bytes) (b : UInt8) (rest : StrLit) :
    ∃ before later, charsFrom pending (.raw b :: rest) = before ++ charsFrom later rest := by
  rw [charsFrom]
  split
  · exact ⟨[_], [], rfl⟩
  · exact ⟨[], _, rfl⟩
  · split
    · rename_i c _
      exact ⟨pending.map (fun _ => none) ++ [some c], [], by simp⟩
    · exact ⟨pending.map (fun _ => none), [b], rfl⟩
    · exact ⟨pending.map (fun _ => none) ++ [none], [], by simp⟩

/-- Whatever bytes it has, a literal that denotes a string has no half of a pair. -/
theorem StrLit.paired_of_wellFormed {lit : StrLit} (h : lit.wellFormed = true) : lit.paired = true := by
  have hall : ∀ n, ∀ (lit : StrLit) (pending : Bytes), lit.length ≤ n →
      (charsFrom pending lit).all Option.isSome = true → lit.paired = true := by
    intro n
    induction n with
    | zero =>
        intro lit pending hlength _
        rw [List.length_eq_zero_iff.mp (Nat.le_zero.mp hlength)]
        rfl
    | succ n ih =>
        intro lit pending hlength hchars
        cases lit with
        | nil => rfl
        | cons unit rest =>
            rw [List.length_cons] at hlength
            cases unit with
            | raw b =>
                obtain ⟨before, later, hsplit⟩ := charsFrom_raw pending b rest
                rw [hsplit, List.all_append, Bool.and_eq_true] at hchars
                exact ih rest later (by omega) hchars.2
            | escape c =>
                have hsplit : charsFrom pending (.escape c :: rest) =
                    pending.map (fun _ => none) ++ some c :: charsFrom [] rest := by rw [charsFrom]
                rw [hsplit, List.all_append, Bool.and_eq_true] at hchars
                exact ih rest [] (by omega) hchars.2
            | unicode code =>
                rw [charsFrom_unicode_pending, List.all_append, Bool.and_eq_true] at hchars
                obtain ⟨low, more, rfl, hsplit, hpaired⟩ | ⟨hsplit, hpaired⟩ := charsFrom_unicode code rest
                · rw [List.length_cons] at hlength
                  rw [hpaired]
                  exact ih more [] (by omega) (hsplit ▸ hchars.2)
                · rw [hsplit, Bool.and_eq_true] at hchars
                  rw [hpaired, hchars.2.1, ih rest [] (by omega) hchars.2.2]
                  rfl
  exact hall lit.length lit [] (Nat.le_refl _) h

/-- The one thing that can be wrong with a literal of a text is an escape that is no character. -/
theorem StrLit.IsText.wellFormed_eq {lit : StrLit} (h : lit.IsText) : lit.wellFormed = lit.paired := by
  have hall : ∀ n, ∀ lit : StrLit, lit.length ≤ n → lit.IsText →
      (charsFrom [] lit).all Option.isSome = lit.paired := by
    -- by strong induction: past a surrogate pair the literal goes on two units later
    intro n
    induction n with
    | zero =>
        intro lit hlength _
        rw [List.length_eq_zero_iff.mp (Nat.le_zero.mp hlength)]
        rfl
    | succ n ih =>
        intro lit hlength hlit
        cases hlit with
        | nil => rfl
        | char c h =>
            rw [List.length_append, List.length_map] at hlength
            have hpos := List.length_pos_of_ne_nil (utf8EncodeChar_ne_nil c)
            rw [charsFrom_utf8EncodeChar, paired_raws, ← ih _ (by omega) h]
            rfl
        | @escape c rest h =>
            rw [List.length_cons] at hlength
            have hpaired : StrLit.paired (.escape c :: rest) = rest.paired := rfl
            rw [hpaired, ← ih rest (by omega) h]
            rfl
        | @unicode code rest h =>
            rw [List.length_cons] at hlength
            obtain ⟨low, more, rfl, hchars, hpaired⟩ | ⟨hchars, hpaired⟩ := charsFrom_unicode code rest
            · rw [List.length_cons] at hlength
              rw [hchars, hpaired]
              exact ih more (by omega) h.of_unicode
            · rw [hchars, hpaired, ih rest (by omega) h]
  exact hall lit.length lit (Nat.le_refl _) h

/-! ### The lexer on a text of characters -/

/-- The strings among the literals are those of a text. -/
def LeafIsText : Value → Prop
  | .str lit => lit.IsText
  | _ => True

def Mode.IsText : Mode → Prop
  | .string units | .escape units | .hex units _ => units.IsText
  | _ => True

def Token.IsText (token : Token) : Prop := ∀ leaf ∈ token.leaves, LeafIsText leaf

theorem isText_wordToken {text : Bytes} {token : Token} (h : wordToken text = some token) :
    token.IsText := by
  have hscalar : ∀ value : Value, value.leaves = [value] → LeafIsText value →
      (Token.scalar value).IsText := by
    intro value hleaves hvalue leaf hleaf
    rw [Token.leaves, hleaves, List.mem_singleton] at hleaf
    rwa [hleaf]
  rw [wordToken] at h
  split at h
  · obtain rfl := Option.some.inj h
    exact hscalar .null rfl trivial
  split at h
  · obtain rfl := Option.some.inj h
    exact hscalar (.bool true) rfl trivial
  split at h
  · obtain rfl := Option.some.inj h
    exact hscalar (.bool false) rfl trivial
  · obtain ⟨lit, -, rfl⟩ := Option.map_eq_some_iff.mp h
    exact hscalar (.num lit) rfl trivial

theorem isText_groundStep {b : UInt8} {tokens : List Token} {next : Mode}
    (h : groundStep b = some (tokens, next)) : next.IsText ∧ ∀ token ∈ tokens, token.IsText := by
  rw [groundStep] at h
  split at h
  · obtain ⟨rfl, rfl⟩ := Prod.mk.inj (Option.some.inj h)
    exact ⟨trivial, by simp⟩
  split at h
  · obtain ⟨rfl, rfl⟩ := Prod.mk.inj (Option.some.inj h)
    exact ⟨.nil, by simp⟩
  split at h
  · obtain ⟨rfl, rfl⟩ := Prod.mk.inj (Option.some.inj h)
    exact ⟨trivial, by simp⟩
  · obtain ⟨token, htoken, hnext⟩ := Option.map_eq_some_iff.mp h
    obtain ⟨rfl, rfl⟩ := Prod.mk.inj hnext
    refine ⟨trivial, List.forall_mem_singleton.mpr ?_⟩
    intro leaf hleaf
    rw [punctuation] at htoken
    split_ifs at htoken <;> obtain rfl := Option.some.inj htoken <;> cases hleaf

/-- On an ASCII character. -/
theorem Mode.isText_step {mode next : Mode} {c : Char} {tokens : List Token} (hmode : mode.IsText)
    (hascii : c.toNat < 0x80) (h : mode.step (UInt8.ofNat c.toNat) = some (tokens, next)) :
    next.IsText ∧ ∀ token ∈ tokens, token.IsText := by
  have hraw : ∀ units : StrLit, units.IsText → StrLit.IsText (units ++ [.raw (UInt8.ofNat c.toNat)]) := by
    intro units hunits
    have hchar := hunits.append (.char c .nil)
    rwa [Bytes.utf8EncodeChar_ascii hascii] at hchar
  cases mode with
  | ground => exact isText_groundStep h
  | word text =>
      rw [Mode.step] at h
      split at h
      · obtain ⟨rfl, rfl⟩ := Prod.mk.inj (Option.some.inj h)
        exact ⟨trivial, by simp⟩
      · simp only [Option.bind_eq_bind, Option.bind_eq_some_iff] at h
        obtain ⟨token, htoken, ⟨more, mode⟩, hground, hnext⟩ := h
        obtain ⟨rfl, rfl⟩ := Prod.mk.inj (Option.some.inj hnext)
        obtain ⟨hmode, hmore⟩ := isText_groundStep hground
        exact ⟨hmode, List.forall_mem_cons.mpr ⟨isText_wordToken htoken, hmore⟩⟩
  | string units =>
      rw [Mode.step] at h
      split at h
      · obtain ⟨rfl, rfl⟩ := Prod.mk.inj (Option.some.inj h)
        refine ⟨trivial, List.forall_mem_singleton.mpr ?_⟩
        exact List.forall_mem_singleton.mpr hmode
      split at h
      · obtain ⟨rfl, rfl⟩ := Prod.mk.inj (Option.some.inj h)
        exact ⟨hmode, by simp⟩
      split at h
      · cases h
      · obtain ⟨rfl, rfl⟩ := Prod.mk.inj (Option.some.inj h)
        exact ⟨hraw units hmode, by simp⟩
  | escape units =>
      rw [Mode.step] at h
      split at h
      · obtain ⟨rfl, rfl⟩ := Prod.mk.inj (Option.some.inj h)
        exact ⟨hmode, by simp⟩
      · obtain ⟨char, -, hnext⟩ := Option.map_eq_some_iff.mp h
        obtain ⟨rfl, rfl⟩ := Prod.mk.inj hnext
        exact ⟨StrLit.IsText.append hmode (.escape char .nil), by simp⟩
  | hex units digits =>
      simp only [Mode.step, Option.bind_eq_bind, Option.bind_eq_some_iff] at h
      obtain ⟨digit, -, hnext⟩ := h
      split at hnext
      · obtain ⟨rfl, rfl⟩ := Prod.mk.inj (Option.some.inj hnext)
        exact ⟨StrLit.IsText.append hmode (.unicode _ .nil), by simp⟩
      · obtain ⟨rfl, rfl⟩ := Prod.mk.inj (Option.some.inj hnext)
        exact ⟨hmode, by simp⟩

/-- Outside of a string no byte is in place that is not ASCII. -/
theorem Mode.step_high {mode : Mode} (hmode : ∀ units, mode ≠ .string units) {b : UInt8} (h : 0x80 ≤ b) :
    mode.step b = none := by
  have hall : ∀ n : Fin 256, 0x80 ≤ n.val → ((groundStep (UInt8.ofNat n)).isNone &&
      !isWordByte (UInt8.ofNat n) && UInt8.ofNat n != ascii 'u' && (escapeChar (UInt8.ofNat n)).isNone &&
      (hexValue (UInt8.ofNat n)).isNone) = true := by decide +kernel
  have hb := hall ⟨b.toNat, b.toNat_lt⟩ (UInt8.le_iff_toNat_le.mp h)
  simp only [UInt8.ofNat_toNat, Bool.and_eq_true, Option.isNone_iff_eq_none, Bool.not_eq_true',
    bne_iff_ne] at hb
  obtain ⟨⟨⟨⟨hground, hword⟩, hunicode⟩, hescape⟩, hhex⟩ := hb
  cases mode with
  | ground => exact hground
  | word text =>
      rw [Mode.step, if_neg (by rw [hword]; decide), hground]
      cases wordToken text <;> rfl
  | string units => exact absurd rfl (hmode units)
  | escape units => rw [Mode.step, if_neg hunicode, hescape, Option.map_none]
  | hex units digits =>
      rw [Mode.step, hhex]
      rfl

theorem isText_lex {chars : List Char} {mode : Mode} {tokens : List Token} (hmode : mode.IsText)
    (h : lex mode (chars.flatMap String.utf8EncodeChar) = some tokens) : ∀ token ∈ tokens, token.IsText := by
  induction chars generalizing mode tokens with
  | nil =>
      cases mode with
      | ground =>
          obtain rfl := Option.some.inj h
          exact fun token hmem => absurd hmem List.not_mem_nil
      | word text =>
          obtain ⟨token, htoken, rfl⟩ := Option.map_eq_some_iff.mp h
          exact List.forall_mem_singleton.mpr (isText_wordToken htoken)
      | _ => cases h
  | cons c chars ih =>
      rw [List.flatMap_cons] at h
      by_cases hascii : c.toNat < 0x80
      · rw [Bytes.utf8EncodeChar_ascii hascii, List.singleton_append, lex_cons] at h
        obtain ⟨⟨first, next⟩, hstep, hrest⟩ := Option.bind_eq_some_iff.mp h
        obtain ⟨more, hmore, rfl⟩ := Option.map_eq_some_iff.mp hrest
        obtain ⟨hnext, hfirst⟩ := Mode.isText_step hmode hascii hstep
        intro token hmem
        obtain hold | hnew := List.mem_append.mp hmem
        · exact hfirst token hold
        · exact ih hnext hmore token hnew
      · have hhigh : ∀ b ∈ String.utf8EncodeChar c, 0x80 ≤ b := fun b hb =>
          Bytes.le_of_mem_utf8EncodeChar (show 0x7f < c.toNat by omega) hb
        have hfails : (∀ units, mode ≠ .string units) → False := by
          intro hother
          cases hbytes : String.utf8EncodeChar c with
          | nil => exact utf8EncodeChar_ne_nil c hbytes
          | cons b bytes =>
              have hstep := Mode.step_high hother (hhigh b (hbytes ▸ List.mem_cons_self))
              rw [hbytes, List.cons_append, lex_cons, hstep] at h
              cases h
        cases mode with
        | string units =>
            rw [spells_high hhigh] at h
            have hunits := StrLit.IsText.append hmode (.char c .nil)
            rw [List.append_nil] at hunits
            have hnext : (Mode.string (units ++ (String.utf8EncodeChar c).map .raw)).IsText := hunits
            exact ih hnext h
        | _ => exact (hfails fun units => Mode.noConfusion).elim

/-- The literals of a text are those of a text. -/
theorem isText_parse {text : String} {tree : Value} (h : parse (Bytes.utf8 text) = some tree) :
    ∀ leaf ∈ tree.leaves, LeafIsText leaf := by
  obtain ⟨tokens, hlex, hleaves⟩ := parse_leaves h
  have hground : Mode.ground.IsText := trivial
  have htokens := isText_lex hground hlex
  rw [hleaves]
  intro leaf hleaf
  obtain ⟨token, hmem, hleaf⟩ := List.mem_flatMap.mp hleaf
  exact htokens token hmem leaf hleaf

theorem leaves_of_mem {members : List Member} {member : Member} (h : member ∈ members) :
    .str member.1 ∈ membersLeaves members ∧ ∀ leaf ∈ member.2.leaves, leaf ∈ membersLeaves members := by
  induction members with
  | nil => exact absurd h List.not_mem_nil
  | cons first rest ih =>
      obtain ⟨key, value⟩ := first
      rw [membersLeaves]
      obtain rfl | hrest := List.mem_cons.mp h
      · exact ⟨List.mem_cons_self, fun leaf hleaf => List.mem_cons_of_mem _ (List.mem_append_left _ hleaf)⟩
      · obtain ⟨hkey, hvalue⟩ := ih hrest
        exact ⟨List.mem_cons_of_mem _ (List.mem_append_right _ hkey),
          fun leaf hleaf => List.mem_cons_of_mem _ (List.mem_append_right _ (hvalue leaf hleaf))⟩

/-! ### Well-formed and paired -/

theorem StrLit.paired_of_isPlain {lit : StrLit} (h : lit.isPlain = true) : lit.paired = true := by
  induction lit with
  | nil => rfl
  | cons unit rest ih =>
      rw [StrLit.isPlain, List.all_cons, Bool.and_eq_true] at h
      cases unit with
      | raw b => exact ih h.2
      | escape c => cases h.1
      | unicode code => cases h.1

theorem StrLit.decoded_isSome (lit : StrLit) : lit.decoded.isSome = lit.wellFormed := by
  rw [StrLit.decoded]
  cases lit.wellFormed <;> rfl

mutual

theorem Value.wellFormed_eq (tree : Value) :
    tree.wellFormed = tree.leaves.all (Value.isString StrLit.wellFormed) := by
  cases tree with
  | str lit => exact (Bool.and_true _).symm
  | arr elements => exact elementsWellFormed_eq elements
  | obj members => exact membersWellFormed_eq members
  | _ => rfl

theorem elementsWellFormed_eq (elements : List Value) :
    elementsWellFormed elements = (elementsLeaves elements).all (Value.isString StrLit.wellFormed) := by
  cases elements with
  | nil => rfl
  | cons element rest =>
      rw [elementsWellFormed, elementsLeaves, List.all_append, Value.wellFormed_eq element,
        elementsWellFormed_eq rest]

theorem membersWellFormed_eq (members : List (StrLit × Value)) :
    membersWellFormed members = (membersLeaves members).all (Value.isString StrLit.wellFormed) := by
  cases members with
  | nil => rfl
  | cons member rest =>
      obtain ⟨key, value⟩ := member
      rw [membersWellFormed, membersLeaves, List.all_cons, List.all_append, Value.wellFormed_eq value,
        membersWellFormed_eq rest, Bool.and_assoc]
      rfl

end

theorem Value.paired_of_wellFormed {tree : Value} (h : tree.wellFormed = true) : tree.paired = true := by
  rw [Value.wellFormed_eq, List.all_eq_true] at h
  refine List.all_eq_true.mpr fun leaf hleaf => ?_
  have hleaf := h leaf hleaf
  cases leaf with
  | str lit => exact StrLit.paired_of_wellFormed hleaf
  | _ => rfl

/-- The strings of a text denote strings exactly if no surrogate in them stands alone. -/
theorem wellFormed_eq_paired {text : String} {tree : Value} (h : parse (Bytes.utf8 text) = some tree) :
    tree.wellFormed = tree.paired := by
  rw [Value.wellFormed_eq, Value.paired, Bool.eq_iff_iff, List.all_eq_true, List.all_eq_true]
  refine forall₂_congr fun leaf hleaf => ?_
  have htext := isText_parse h leaf hleaf
  cases leaf with
  | str lit => rw [Value.isString, Value.isString, htext.wellFormed_eq]
  | _ => exact Iff.rfl

/-- The members of a text with their strings: a key, or a string that is the value of one, denotes a
string unless it has half of a surrogate pair. -/
theorem wellFormed_members {text : String} {members : List Member}
    (h : parse (Bytes.utf8 text) = some (.obj members)) {member : Member} (hmember : member ∈ members) :
    member.1.wellFormed = member.1.paired ∧
      ∀ lit, member.2 = .str lit → lit.wellFormed = lit.paired := by
  obtain ⟨hkey, hvalue⟩ := leaves_of_mem hmember
  have htext := isText_parse h
  refine ⟨StrLit.IsText.wellFormed_eq (htext _ hkey), fun lit hlit => ?_⟩
  have hleaf : Value.str lit ∈ member.2.leaves := by
    rw [hlit]
    exact List.mem_singleton_self _
  exact StrLit.IsText.wellFormed_eq (htext _ (hvalue _ hleaf))

/-- In an object without half of a pair the keys have none, and neither have the strings among the
values. -/
theorem paired_of_mem {members : List Member} (h : (Value.obj members).paired = true) {member : Member}
    (hmember : member ∈ members) : member.1.paired = true ∧ member.2.paired = true := by
  obtain ⟨hkey, hvalue⟩ := leaves_of_mem hmember
  have hall := List.all_eq_true.mp h
  exact ⟨hall _ hkey, List.all_eq_true.mpr fun leaf hleaf => hall leaf (hvalue leaf hleaf)⟩

end Json
