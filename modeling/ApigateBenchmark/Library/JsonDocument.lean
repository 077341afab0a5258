import ApigateBenchmark.Library.JsonValue
import ApigateBenchmark.Library.JsonWriting
import Mathlib.Data.List.TakeWhile

/-!
# Documents that are read back

Values of any shape, written piece by piece. A piece takes the parser from one state to another, and
pieces are put together where the one stops and the next begins. A number has no end of its own: it is
read to the first byte that no word is made of, so a piece that may end in one is followed by something
that delimits it.
-/

namespace Json

/-- What follows ends a word. -/
def Delimited (rest : Bytes) : Prop := ∀ b ∈ rest.head?, isWordByte b = false

theorem delimited_nil : Delimited [] := fun _ h => absurd h (by simp)

theorem delimited_cons {b : UInt8} (h : isWordByte b = false) (rest : Bytes) : Delimited (b :: rest) := by
  intro c hc
  obtain rfl : b = c := Option.some.inj hc
  exact h

/-! ### Pieces -/

/-- Whatever follows, the bytes take the parser from one state to the other. -/
def Carries (text : Bytes) (s t : ParseState) : Prop :=
  ∃ tokens, Writes text tokens ∧ tokens.foldlM ParseState.step s = some t

/-- The same, before what ends a word. -/
def Moves (text : Bytes) (s t : ParseState) : Prop :=
  ∃ tokens, (∀ rest, Delimited rest →
      lex .ground (text ++ rest) = (lex .ground rest).map (tokens ++ ·)) ∧
    tokens.foldlM ParseState.step s = some t

theorem Carries.moves {text : Bytes} {s t : ParseState} (h : Carries text s t) : Moves text s t := by
  obtain ⟨tokens, hwrites, hfold⟩ := h
  exact ⟨tokens, fun rest _ => hwrites rest, hfold⟩

theorem carries_punctuation {b : UInt8} {token : Token} {s t : ParseState}
    (hb : groundStep b = some ([token], .ground)) (hstep : s.step token = some t) : Carries [b] s t := by
  refine ⟨[token], writes_punctuation hb, ?_⟩
  rw [List.foldlM_cons, hstep]
  rfl

theorem carries_string {text : Bytes} {lit : StrLit} {s t : ParseState} (htext : Writes text [.str lit])
    (hstep : s.step (.str lit) = some t) : Carries text s t := by
  refine ⟨[.str lit], htext, ?_⟩
  rw [List.foldlM_cons, hstep]
  rfl

theorem foldlM_append_of {l m : List Token} {s t u : ParseState}
    (hl : l.foldlM ParseState.step s = some t) (hm : m.foldlM ParseState.step t = some u) :
    (l ++ m).foldlM ParseState.step s = some u := by
  rw [List.foldlM_append, hl]
  exact hm

theorem Carries.append {text text' : Bytes} {s t u : ParseState} (h : Carries text s t)
    (h' : Moves text' t u) : Moves (text ++ text') s u := by
  obtain ⟨tokens, hwrites, hfold⟩ := h
  obtain ⟨tokens', hwrites', hfold'⟩ := h'
  refine ⟨tokens ++ tokens', fun rest hrest => ?_, foldlM_append_of hfold hfold'⟩
  rw [List.append_assoc, hwrites, hwrites' rest hrest, Option.map_map]
  exact congrArg (Option.map · _) (funext fun more => (List.append_assoc _ _ _).symm)

theorem Moves.append {text text' : Bytes} {s t u : ParseState} (h : Moves text s t)
    (hdelim : ∀ rest, Delimited rest → Delimited (text' ++ rest)) (h' : Moves text' t u) :
    Moves (text ++ text') s u := by
  obtain ⟨tokens, hwrites, hfold⟩ := h
  obtain ⟨tokens', hwrites', hfold'⟩ := h'
  refine ⟨tokens ++ tokens', fun rest hrest => ?_, foldlM_append_of hfold hfold'⟩
  rw [List.append_assoc, hwrites _ (hdelim rest hrest), hwrites' rest hrest, Option.map_map]
  exact congrArg (Option.map · _) (funext fun more => (List.append_assoc _ _ _).symm)

/-- What closes a container delimits what stands in it. -/
theorem Moves.close {text : Bytes} {b : UInt8} {s t u : ParseState} (h : Moves text s t)
    (hb : isWordByte b = false) (h' : Carries [b] t u) : Moves (text ++ [b]) s u :=
  h.append (fun rest _ => delimited_cons hb rest) h'.moves

/-! ### Values -/

/-- The text is read as the value, wherever the parser looks for one. -/
structure WritesValue (text : Bytes) (value : Value) : Prop where
  moves : ∀ stack, Moves text (.value stack) (plug value stack)
  first : ∀ stack, Moves text (.firstElement stack) (plug value (.arr [] :: stack))

theorem writesValue_str {text : Bytes} {lit : StrLit} (h : Writes text [.str lit]) :
    WritesValue text (.str lit) :=
  ⟨fun _ => (carries_string h rfl).moves, fun _ => (carries_string h rfl).moves⟩

theorem WritesValue.parse_eq {text : Bytes} {value : Value} (h : WritesValue text value) :
    parse text = some value := by
  obtain ⟨tokens, hwrites, hfold⟩ := h.moves []
  have hlex := hwrites [] delimited_nil
  rw [List.append_nil] at hlex
  rw [parse, hlex]
  simp only [lex, Option.map_some, List.append_nil, Option.bind_eq_bind, Option.bind_some, hfold, plug]

/-! ### Words -/

theorem step_wordByte {b : UInt8} (h : isWordByte b = true) :
    Mode.ground.step b = some ([], .word [b]) := by
  have hspace : ¬ isSpace b = true := by
    intro hspace
    simp only [isSpace, Bool.or_eq_true, beq_iff_eq] at hspace
    obtain ((rfl | rfl) | rfl) | rfl := hspace <;> exact absurd h (by decide)
  have hquote : b ≠ ascii '"' := by
    rintro rfl
    exact absurd h (by decide)
  rw [Mode.step, groundStep, if_neg hspace, if_neg hquote, if_pos h]

theorem lex_word {text rest : Bytes} (htext : ∀ b ∈ text, isWordByte b = true) (hrest : Delimited rest)
    {before : Bytes} {token : Token} (htoken : wordToken (before ++ text) = some token) :
    lex (.word before) (text ++ rest) = (lex .ground rest).map (token :: ·) := by
  induction text generalizing before with
  | nil =>
      rw [List.append_nil] at htoken
      cases rest with
      | nil =>
          rw [List.nil_append]
          simp only [lex, htoken, Option.map_some]
      | cons b rest =>
          have hb : isWordByte b = false := hrest b rfl
          rw [List.nil_append, lex_cons, lex_cons, Mode.step, Mode.step, hb, htoken]
          cases groundStep b with
          | none => rfl
          | some next =>
              simp only [Bool.false_eq_true, if_false, Option.bind_eq_bind, Option.bind_some,
                Option.map_map]
              rfl
  | cons b text ih =>
      obtain ⟨hb, hmore⟩ := List.forall_mem_cons.mp htext
      have hsilent : (Mode.word before).step b = some ([], .word (before ++ [b])) := by
        rw [Mode.step, if_pos hb]
      rw [List.cons_append, lex_silent hsilent]
      exact ih hmore (by rw [List.append_assoc]; exact htoken)

/-- A word is read to its end. -/
theorem writesValue_word {text : Bytes} {value : Value} (hne : text ≠ [])
    (htext : ∀ b ∈ text, isWordByte b = true) (htoken : wordToken text = some (.scalar value)) :
    WritesValue text value := by
  have hlex : ∀ rest, Delimited rest →
      lex .ground (text ++ rest) = (lex .ground rest).map ([.scalar value] ++ ·) := by
    intro rest hrest
    cases text with
    | nil => exact absurd rfl hne
    | cons b text =>
        obtain ⟨hb, hmore⟩ := List.forall_mem_cons.mp htext
        rw [List.cons_append, lex_silent (step_wordByte hb)]
        exact lex_word hmore hrest htoken
  exact ⟨fun _ => ⟨_, hlex, rfl⟩, fun _ => ⟨_, hlex, rfl⟩⟩

/-! ### Integers -/

/-- The digits of a number, most significant first. -/
def decimal (n : Nat) : Bytes := (Nat.toDigits 10 n).map fun c => UInt8.ofNat c.toNat

theorem digitByte {c : Char} (h : c.isDigit = true) :
    48 ≤ c.toNat ∧ c.toNat ≤ 57 ∧ (UInt8.ofNat c.toNat).toNat = c.toNat := by
  simp only [Char.isDigit, Bool.and_eq_true, decide_eq_true_eq, UInt32.le_iff_toNat_le] at h
  have hlow : 48 ≤ c.toNat := h.1
  have hhigh : c.toNat ≤ 57 := h.2
  exact ⟨hlow, hhigh, toNat_ofNat_of_lt (by omega)⟩

theorem isDigit_toDigits {n : Nat} {c : Char} (h : c ∈ Nat.toDigits 10 n) : c.isDigit = true :=
  Nat.isDigit_of_mem_toDigits (by decide) (by decide) h

theorem isDigit_decimal {n : Nat} {b : UInt8} (h : b ∈ decimal n) : isDigit b = true := by
  obtain ⟨c, hc, rfl⟩ := List.mem_map.mp h
  obtain ⟨hlow, hhigh, hcode⟩ := digitByte (isDigit_toDigits hc)
  rw [isDigit, Bool.and_eq_true, decide_eq_true_eq, decide_eq_true_eq, UInt8.le_iff_toNat_le,
    UInt8.le_iff_toNat_le, hcode]
  exact ⟨hlow, hhigh⟩

theorem decimal_ne_nil (n : Nat) : decimal n ≠ [] := by
  rw [decimal, ne_eq, List.map_eq_nil_iff]
  exact Nat.toDigits_ne_nil

theorem utf8_digits {chars : List Char} (h : ∀ c ∈ chars, c.isDigit = true) :
    chars.flatMap String.utf8EncodeChar = chars.map fun c => UInt8.ofNat c.toNat := by
  induction chars with
  | nil => rfl
  | cons c chars ih =>
      obtain ⟨hc, hmore⟩ := List.forall_mem_cons.mp h
      obtain ⟨-, hhigh, -⟩ := digitByte hc
      rw [List.flatMap_cons, List.map_cons, Bytes.utf8EncodeChar_ascii (by omega), ih hmore]
      rfl

theorem utf8_toString (n : Nat) : Bytes.utf8 (toString n) = decimal n := by
  rw [Nat.toString_eq_ofList_toDigits, Bytes.utf8_ofList, utf8_digits fun c => isDigit_toDigits, decimal]

theorem foldl_digits {chars : List Char} (h : ∀ c ∈ chars, c.isDigit = true) (init : Nat) :
    (chars.map fun c => UInt8.ofNat c.toNat).foldl
        (fun n digit => 10 * n + (digit.toNat - (ascii '0').toNat)) init =
      Nat.ofDigitChars 10 chars init := by
  induction chars generalizing init with
  | nil => rfl
  | cons c chars ih =>
      obtain ⟨hc, hmore⟩ := List.forall_mem_cons.mp h
      obtain ⟨-, -, hcode⟩ := digitByte hc
      rw [List.map_cons, List.foldl_cons, hcode, ih hmore, Nat.ofDigitChars_cons]
      rfl

theorem digitsValue_decimal (n : Nat) : digitsValue (decimal n) = n := by
  rw [digitsValue, decimal, foldl_digits fun c => isDigit_toDigits, Nat.ofDigitChars_ten_toDigits]

theorem head_toDigits {n : Nat} (h : 0 < n) : (Nat.toDigits 10 n).head? ≠ some '0' := by
  induction n using Nat.strongRecOn with
  | ind n ih =>
      rw [Nat.toDigits_eq_if (by decide)]
      split
      · rename_i hlt
        have hall : ∀ k : Fin 10, 0 < k.val → k.val.digitChar ≠ '0' := by decide
        intro hhead
        exact hall ⟨n, hlt⟩ h (Option.some.inj hhead)
      · have hdiv : 0 < n / 10 := by omega
        rw [List.head?_append_of_ne_nil _ Nat.toDigits_ne_nil]
        exact ih (n / 10) (by omega) hdiv

/-- Only zero begins with a zero. -/
theorem head_decimal {n : Nat} (h : (decimal n).head? = some (ascii '0')) : (decimal n).length = 1 := by
  obtain rfl | hpos := Nat.eq_zero_or_pos n
  · rfl
  · rw [decimal, List.head?_map] at h
    obtain ⟨c, hc, hzero⟩ := Option.map_eq_some_iff.mp h
    have hmem : c ∈ Nat.toDigits 10 n := List.mem_of_head? hc
    obtain ⟨-, -, hcode⟩ := digitByte (isDigit_toDigits hmem)
    have hnat := congrArg UInt8.toNat hzero
    rw [hcode] at hnat
    obtain rfl : c = '0' := Char.toNat_inj.mp hnat
    exact absurd hc (head_toDigits hpos)

theorem takeDigits_decimal (n : Nat) : takeDigits (decimal n) = some (decimal n, []) := by
  have hall : ∀ b ∈ decimal n, isDigit b = true := fun b => isDigit_decimal
  have htake : (decimal n).takeWhile isDigit = decimal n := List.takeWhile_eq_self_iff.mpr hall
  have hdrop : (decimal n).dropWhile isDigit = [] := List.dropWhile_eq_nil_iff.mpr hall
  simp only [takeDigits, htake, hdrop]
  rw [if_neg (decimal_ne_nil n)]

theorem parseNumber_decimal (n : Nat) : parseNumber (decimal n) = some ⟨false, decimal n, none, none⟩ := by
  have hplus : ¬ (decimal n).head? = some (ascii '-') := fun h =>
    absurd (isDigit_decimal (List.mem_of_head? h)) (by decide)
  simp only [parseNumber, hplus, if_false, takeDigits_decimal, takeFrac, takeExp, Option.bind_eq_bind,
    Option.bind_some, true_and, decide_false]
  exact if_pos head_decimal

theorem parseNumber_minus (n : Nat) :
    parseNumber (ascii '-' :: decimal n) = some ⟨true, decimal n, none, none⟩ := by
  simp only [parseNumber, List.head?_cons, if_true, List.drop_succ_cons, List.drop_zero,
    takeDigits_decimal, takeFrac, takeExp, Option.bind_eq_bind, Option.bind_some, true_and, decide_true]
  exact if_pos head_decimal

theorem wordToken_number {text : Bytes} {lit : NumLit} (h : parseNumber text = some lit) :
    wordToken text = some (.scalar (.num lit)) := by
  have hne : ∀ word : String, parseNumber (Bytes.utf8 word) = none → text ≠ Bytes.utf8 word := by
    rintro word hword rfl
    rw [hword] at h
    cases h
  rw [wordToken, if_neg (hne "null" (by decide +kernel)), if_neg (hne "true" (by decide +kernel)),
    if_neg (hne "false" (by decide +kernel)), h, Option.map_some]

/-- The literal of an integer as encoders write it. -/
def integerLit (n : Int) : NumLit := ⟨decide (n < 0), decimal n.natAbs, none, none⟩

theorem isInteger_integerLit (n : Int) : (integerLit n).isInteger = true := rfl

theorem toInt_integerLit (n : Int) : (integerLit n).toInt = n := by
  rw [NumLit.toInt, integerLit]
  simp only [digitsValue_decimal, decide_eq_true_eq]
  split <;> omega

theorem isWordByte_decimal {n : Nat} {b : UInt8} (h : b ∈ decimal n) : isWordByte b = true := by
  rw [isWordByte, isDigit_decimal h, Bool.or_true, Bool.true_or, Bool.true_or, Bool.true_or]

theorem writesValue_int (n : Int) : WritesValue (Bytes.utf8 (toString n)) (.num (integerLit n)) := by
  cases n with
  | ofNat m =>
      have htext : Bytes.utf8 (toString (Int.ofNat m)) = decimal m := utf8_toString m
      have hlit : integerLit (Int.ofNat m) = ⟨false, decimal m, none, none⟩ := by
        rw [integerLit, decide_eq_false (by simp)]
        rfl
      rw [htext, hlit]
      exact writesValue_word (decimal_ne_nil m) (fun b => isWordByte_decimal)
        (wordToken_number (parseNumber_decimal m))
  | negSucc m =>
      have htext : Bytes.utf8 (toString (Int.negSucc m)) = ascii '-' :: decimal (m + 1) := by
        change Bytes.utf8 ("-" ++ toString (m + 1)) = _
        rw [Bytes.utf8_append, utf8_toString]
        rfl
      have hlit : integerLit (Int.negSucc m) = ⟨true, decimal (m + 1), none, none⟩ := by
        rw [integerLit, decide_eq_true (Int.negSucc_lt_zero m)]
        rfl
      rw [htext, hlit]
      refine writesValue_word (by simp) (fun b hb => ?_) (wordToken_number (parseNumber_minus (m + 1)))
      obtain rfl | hb := List.mem_cons.mp hb
      · decide
      · exact isWordByte_decimal hb

/-! ### Arrays -/

theorem intercalate_cons (sep text : Bytes) (texts : List Bytes) :
    sep.intercalate (text :: texts) = text ++ texts.flatMap (sep ++ ·) := by
  induction texts generalizing text with
  | nil => rw [List.intercalate_singleton, List.flatMap_nil, List.append_nil]
  | cons next texts ih => rw [List.intercalate_cons_cons, ih, List.flatMap_cons, List.append_assoc, List.append_assoc]

/-- Later pieces begin with a comma. -/
theorem delimited_pieces (texts : List Bytes) {rest : Bytes} (h : Delimited rest) :
    Delimited (texts.flatMap ([ascii ','] ++ ·) ++ rest) := by
  cases texts with
  | nil => exact h
  | cons text texts => exact delimited_cons (by decide) _

theorem moves_elements {texts : List Bytes} {values : List Value}
    (h : List.Forall₂ WritesValue texts values) (stack : List Frame) (done : List Value) :
    Moves (texts.flatMap ([ascii ','] ++ ·)) (.afterElement stack done)
      (.afterElement stack (done ++ values)) := by
  induction h generalizing done with
  | nil => exact ⟨[], fun rest _ => by simp, by rw [List.append_nil]; rfl⟩
  | @cons text value texts values hfirst hrest ih =>
      have hcomma : Carries [ascii ','] (.afterElement stack done) (.value (.arr done :: stack)) :=
        carries_punctuation rfl rfl
      have hvalue := hcomma.append (hfirst.moves (.arr done :: stack))
      have hmore := ih (done ++ [value])
      rw [List.append_assoc] at hmore
      exact hvalue.append (fun _ => delimited_pieces texts) hmore

/-- What is written element by element is read as the array. -/
theorem writesValue_array {texts : List Bytes} {values : List Value}
    (h : List.Forall₂ WritesValue texts values) :
    WritesValue (ascii '[' :: [ascii ','].intercalate texts ++ [ascii ']']) (.arr values) := by
  have hinner : ∀ stack, Moves ([ascii ','].intercalate texts ++ [ascii ']']) (.firstElement stack)
      (plug (.arr values) stack) := by
    intro stack
    cases h with
    | nil => exact (carries_punctuation rfl rfl).moves
    | @cons text value texts values hfirst hrest =>
        have helements := (hfirst.first stack).append (fun _ => delimited_pieces texts)
          (moves_elements hrest stack [value])
        rw [intercalate_cons]
        exact helements.close (by decide) (carries_punctuation rfl rfl)
  constructor
  · intro stack
    exact (carries_punctuation (b := ascii '[') rfl rfl).append (hinner stack)
  · intro stack
    exact (carries_punctuation (b := ascii '[') rfl rfl).append (hinner (.arr [] :: stack))

/-! ### Objects -/

/-- The text is a key, a colon and the text of a value. -/
def WritesEntry (text : Bytes) (member : Member) : Prop :=
  ∃ key value, text = key ++ ascii ':' :: value ∧ Writes key [.str member.1] ∧
    WritesValue value member.2

theorem WritesEntry.moves {text : Bytes} {member : Member} (h : WritesEntry text member)
    {s : ParseState} {stack : List Frame} {done : List Member}
    (hkey : s.step (.str member.1) = some (.afterKey stack done member.1)) :
    Moves text s (.afterMember stack (done ++ [member])) := by
  obtain ⟨key, value, rfl, hwrites, hvalue⟩ := h
  have hcolon : Carries [ascii ':'] (.afterKey stack done member.1)
      (.value (.obj done member.1 :: stack)) := carries_punctuation rfl rfl
  exact (carries_string hwrites hkey).append (hcolon.append (hvalue.moves _))

theorem moves_entries {texts : List Bytes} {members : List Member}
    (h : List.Forall₂ WritesEntry texts members) (stack : List Frame) (done : List Member) :
    Moves (texts.flatMap ([ascii ','] ++ ·)) (.afterMember stack done)
      (.afterMember stack (done ++ members)) := by
  induction h generalizing done with
  | nil => exact ⟨[], fun rest _ => by simp, by rw [List.append_nil]; rfl⟩
  | @cons text member texts members hfirst hrest ih =>
      have hcomma : Carries [ascii ','] (.afterMember stack done) (.nextKey stack done) :=
        carries_punctuation rfl rfl
      have hmember := hcomma.append (hfirst.moves (s := .nextKey stack done) rfl)
      have hmore := ih (done ++ [member])
      rw [List.append_assoc] at hmore
      exact hmember.append (fun _ => delimited_pieces texts) hmore

/-- What is written member by member is read as the object. -/
theorem writesValue_object {texts : List Bytes} {members : List Member}
    (h : List.Forall₂ WritesEntry texts members) : WritesValue (objectText texts) (.obj members) := by
  have hinner : ∀ stack, Moves ([ascii ','].intercalate texts ++ [ascii '\x7d']) (.firstKey stack)
      (plug (.obj members) stack) := by
    intro stack
    cases h with
    | nil => exact (carries_punctuation rfl rfl).moves
    | @cons text member texts members hfirst hrest =>
        have hentries := (hfirst.moves (s := .firstKey stack) rfl).append (fun _ => delimited_pieces texts)
          (moves_entries hrest stack [member])
        rw [intercalate_cons]
        exact hentries.close (by decide) (carries_punctuation rfl rfl)
  constructor
  · intro stack
    exact (carries_punctuation (b := ascii '\x7b') rfl rfl).append (hinner stack)
  · intro stack
    exact (carries_punctuation (b := ascii '\x7b') rfl rfl).append (hinner (.arr [] :: stack))

/-! ### What a document denotes -/

/-- The text is read as a value that denotes this. -/
def WritesDenoted (text : Bytes) (denoted : Denoted) : Prop :=
  ∃ value, WritesValue text value ∧ value.denoted = some denoted

theorem WritesDenoted.parse_eq {text : Bytes} {denoted : Denoted} (h : WritesDenoted text denoted) :
    (parse text).bind Value.denoted = some denoted := by
  obtain ⟨value, hwrites, hdenoted⟩ := h
  rw [hwrites.parse_eq, Option.bind_some, hdenoted]

theorem WritesDenoted.parse_obj {text : Bytes} {entries : List (String × Denoted)}
    (h : WritesDenoted text (.obj entries)) :
    ∃ members, parse text = some (.obj members) ∧ List.Forall₂ Denotes members entries := by
  obtain ⟨value, hwrites, hdenoted⟩ := h
  obtain ⟨members, rfl, hmembers⟩ := eq_obj_of_denoted hdenoted
  exact ⟨members, hwrites.parse_eq, forall₂_of_membersDenoted hmembers⟩

theorem writesDenoted_str {text : Bytes} {lit : StrLit} {string : String}
    (h : Writes text [.str lit]) (hdecoded : lit.decoded = some string) :
    WritesDenoted text (.str string) :=
  ⟨.str lit, writesValue_str h, by rw [Value.denoted, hdecoded, Option.map_some]⟩

theorem writesDenoted_int (n : Int) : WritesDenoted (Bytes.utf8 (toString n)) (.num (integerLit n)) :=
  ⟨_, writesValue_int n, rfl⟩

theorem writesDenoted_array {texts : List Bytes} {elements : List Denoted}
    (h : List.Forall₂ WritesDenoted texts elements) :
    WritesDenoted (ascii '[' :: [ascii ','].intercalate texts ++ [ascii ']']) (.arr elements) := by
  have hvalues : ∃ values, List.Forall₂ WritesValue texts values ∧
      elementsDenoted values = some elements := by
    induction h with
    | nil => exact ⟨[], .nil, rfl⟩
    | cons hfirst hrest ih =>
        obtain ⟨value, hwrites, hdenoted⟩ := hfirst
        obtain ⟨values, hmore, helements⟩ := ih
        refine ⟨value :: values, .cons hwrites hmore, ?_⟩
        simp only [elementsDenoted, hdenoted, helements, Option.bind_eq_bind, Option.bind_some]
  obtain ⟨values, hwrites, helements⟩ := hvalues
  exact ⟨.arr values, writesValue_array hwrites, by rw [Value.denoted, helements, Option.map_some]⟩

/-- The text of a key and the text of what stands under it. -/
structure WritesField (text : Bytes × Bytes) (field : String × Denoted) : Prop where
  key : ∃ lit : StrLit, Writes text.1 [.str lit] ∧ lit.decoded = some field.1
  value : WritesDenoted text.2 field.2

theorem writesDenoted_object {texts : List (Bytes × Bytes)} {fields : List (String × Denoted)}
    (h : List.Forall₂ WritesField texts fields) :
    WritesDenoted (objectText (texts.map fun text => text.1 ++ ascii ':' :: text.2)) (.obj fields) := by
  have hmembers : ∃ members, List.Forall₂ WritesEntry
        (texts.map fun text => text.1 ++ ascii ':' :: text.2) members ∧
      membersDenoted members = some fields := by
    induction h with
    | nil => exact ⟨[], .nil, rfl⟩
    | cons hfirst hrest ih =>
        obtain ⟨⟨lit, hkey, hdecoded⟩, value, hwrites, hdenoted⟩ := hfirst
        obtain ⟨members, hmore, hfields⟩ := ih
        refine ⟨(lit, value) :: members, .cons ⟨_, _, rfl, hkey, hwrites⟩ hmore, ?_⟩
        simp only [membersDenoted, hdecoded, hdenoted, hfields, Option.bind_eq_bind, Option.bind_some]
  obtain ⟨members, hwrites, hfields⟩ := hmembers
  exact ⟨.obj members, writesValue_object hwrites, by rw [Value.denoted, hfields, Option.map_some]⟩

/-- A word that stands for a value without parts. -/
theorem writesDenoted_word {text : Bytes} {value : Value} {denoted : Denoted} (hne : text ≠ [])
    (htext : ∀ b ∈ text, isWordByte b = true) (htoken : wordToken text = some (.scalar value))
    (hdenoted : value.denoted = some denoted) : WritesDenoted text denoted :=
  ⟨value, writesValue_word hne htext htoken, hdenoted⟩

end Json
