import ApigateBenchmark.Library.Bytes

/-!
# JSON texts, with the spelling kept

Decoders differ in what they make of a JSON text, not in what a text is, so a text is parsed into a
tree that still shows how each literal is spelled, and a decoder is a function of the tree. A string
literal is a list of raw bytes and escapes; a number literal is its digits. `lex` reads the bytes as an
automaton and `parse` the tokens as a stack machine, so neither needs a bound on the depth of nesting.

What a string literal denotes is read off by `chars`, with `none` in place of a byte that is no UTF-8
and of an unpaired surrogate: some decoders refuse those, others put U+FFFD.
-/

namespace Json

def ascii (c : Char) : UInt8 := UInt8.ofNat c.toNat

/-! ### Literals -/

inductive StrUnit where
  | raw (byte : UInt8)
  | escape (char : Char)
  | unicode (code : Nat)
  deriving DecidableEq

abbrev StrLit := List StrUnit

/-- The digits of a number, the fraction and the exponent with its sign as far as they are there. -/
structure NumLit where
  negative : Bool
  int : Bytes
  frac : Option Bytes
  exp : Option (Bool × Bytes)
  deriving DecidableEq

def isDigit (b : UInt8) : Bool := ascii '0' ≤ b && b ≤ ascii '9'

/-- One or more digits from the front. -/
def takeDigits (text : Bytes) : Option (Bytes × Bytes) :=
  let digits := text.takeWhile isDigit
  if digits = [] then none else some (digits, text.dropWhile isDigit)

def takeFrac : Bytes → Option (Option Bytes × Bytes)
  | [] => some (none, [])
  | b :: rest =>
      if b = ascii '.' then (takeDigits rest).map fun split => (some split.1, split.2)
      else some (none, b :: rest)

def takeExp : Bytes → Option (Option (Bool × Bytes) × Bytes)
  | [] => some (none, [])
  | b :: rest =>
      if b = ascii 'e' ∨ b = ascii 'E' then
        let negative := rest.head? = some (ascii '-')
        let unsigned := if negative ∨ rest.head? = some (ascii '+') then rest.drop 1 else rest
        (takeDigits unsigned).map fun split => (some (negative, split.1), split.2)
      else some (none, b :: rest)

def parseNumber (text : Bytes) : Option NumLit := do
  let negative := text.head? = some (ascii '-')
  let (int, rest) ← takeDigits (if negative then text.drop 1 else text)
  let (frac, rest) ← takeFrac rest
  let (exp, rest) ← takeExp rest
  if rest = [] ∧ (int.head? = some (ascii '0') → int.length = 1) then some ⟨negative, int, frac, exp⟩
  else none

def NumLit.isInteger (lit : NumLit) : Bool := lit.frac.isNone && lit.exp.isNone

def digitsValue (digits : Bytes) : Nat :=
  digits.foldl (fun n digit => 10 * n + (digit.toNat - (ascii '0').toNat)) 0

/-- The value of a literal without fraction and exponent. -/
def NumLit.toInt (lit : NumLit) : Int :=
  if lit.negative then -(digitsValue lit.int : Int) else digitsValue lit.int

inductive Value where
  | null
  | bool (value : Bool)
  | num (lit : NumLit)
  | str (lit : StrLit)
  | arr (elements : List Value)
  | obj (members : List (StrLit × Value))

abbrev Member := StrLit × Value

def IsStringOrNull (value : Value) : Prop := value = .null ∨ ∃ lit, value = .str lit

/-! ### The lexer -/

inductive Token where
  | lbrace
  | rbrace
  | lbrack
  | rbrack
  | colon
  | comma
  | scalar (value : Value)
  | str (lit : StrLit)

inductive Mode where
  | ground
  | word (text : Bytes)
  | string (units : StrLit)
  | escape (units : StrLit)
  | hex (units : StrLit) (digits : List Nat)

def isSpace (b : UInt8) : Bool := b == 0x20 || b == 0x09 || b == 0x0a || b == 0x0d

def isLetter (b : UInt8) : Bool :=
  (ascii 'a' ≤ b && b ≤ ascii 'z') || (ascii 'A' ≤ b && b ≤ ascii 'Z')

/-- The bytes numbers and `null`, `true`, `false` are made of. -/
def isWordByte (b : UInt8) : Bool :=
  isLetter b || isDigit b || b == ascii '-' || b == ascii '+' || b == ascii '.'

def wordToken (text : Bytes) : Option Token :=
  if text = Bytes.utf8 "null" then some (.scalar .null)
  else if text = Bytes.utf8 "true" then some (.scalar (.bool true))
  else if text = Bytes.utf8 "false" then some (.scalar (.bool false))
  else (parseNumber text).map fun lit => .scalar (.num lit)

def punctuation (b : UInt8) : Option Token :=
  if b = ascii '\x7b' then some .lbrace
  else if b = ascii '\x7d' then some .rbrace
  else if b = ascii '[' then some .lbrack
  else if b = ascii ']' then some .rbrack
  else if b = ascii ':' then some .colon
  else if b = ascii ',' then some .comma
  else none

def groundStep (b : UInt8) : Option (List Token × Mode) :=
  if isSpace b then some ([], .ground)
  else if b = ascii '"' then some ([], .string [])
  else if isWordByte b then some ([], .word [b])
  else (punctuation b).map fun token => ([token], .ground)

def escapeChar (b : UInt8) : Option Char :=
  if b = ascii '"' then some '"'
  else if b = ascii '\\' then some '\\'
  else if b = ascii '/' then some '/'
  else if b = ascii 'b' then some (Char.ofNat 8)
  else if b = ascii 'f' then some (Char.ofNat 12)
  else if b = ascii 'n' then some '\n'
  else if b = ascii 'r' then some '\r'
  else if b = ascii 't' then some '\t'
  else none

def hexValue (b : UInt8) : Option Nat :=
  if isDigit b then some (b.toNat - (ascii '0').toNat)
  else if ascii 'a' ≤ b ∧ b ≤ ascii 'f' then some (b.toNat - (ascii 'a').toNat + 10)
  else if ascii 'A' ≤ b ∧ b ≤ ascii 'F' then some (b.toNat - (ascii 'A').toNat + 10)
  else none

def Mode.step : Mode → UInt8 → Option (List Token × Mode)
  | .ground, b => groundStep b
  | .word text, b =>
      if isWordByte b then some ([], .word (text ++ [b]))
      else do
        let token ← wordToken text
        let (tokens, mode) ← groundStep b
        some (token :: tokens, mode)
  | .string units, b =>
      if b = ascii '"' then some ([.str units], .ground)
      else if b = ascii '\\' then some ([], .escape units)
      else if b < 0x20 then none
      else some ([], .string (units ++ [.raw b]))
  | .escape units, b =>
      if b = ascii 'u' then some ([], .hex units [])
      else (escapeChar b).map fun c => ([], .string (units ++ [.escape c]))
  | .hex units digits, b => do
      let digit ← hexValue b
      let digits := digits ++ [digit]
      if digits.length = 4 then
        some ([], .string (units ++ [.unicode (digits.foldl (fun n d => 16 * n + d) 0)]))
      else some ([], .hex units digits)

def lex : Mode → Bytes → Option (List Token)
  | .ground, [] => some []
  | .word text, [] => (wordToken text).map fun token => [token]
  | _, [] => none
  | mode, b :: rest => do
      let (tokens, next) ← mode.step b
      let more ← lex next rest
      some (tokens ++ more)

/-! ### The parser -/

/-- A container whose next value is being read. -/
inductive Frame where
  | arr (done : List Value)
  | obj (done : List Member) (key : StrLit)

inductive ParseState where
  | value (stack : List Frame)
  | firstElement (stack : List Frame)
  | afterElement (stack : List Frame) (done : List Value)
  | firstKey (stack : List Frame)
  | nextKey (stack : List Frame) (done : List Member)
  | afterKey (stack : List Frame) (done : List Member) (key : StrLit)
  | afterMember (stack : List Frame) (done : List Member)
  | finished (value : Value)

def plug (value : Value) : List Frame → ParseState
  | [] => .finished value
  | .arr done :: stack => .afterElement stack (done ++ [value])
  | .obj done key :: stack => .afterMember stack (done ++ [(key, value)])

def startValue (stack : List Frame) : Token → Option ParseState
  | .scalar value => some (plug value stack)
  | .str lit => some (plug (.str lit) stack)
  | .lbrack => some (.firstElement stack)
  | .lbrace => some (.firstKey stack)
  | _ => none

def ParseState.step : ParseState → Token → Option ParseState
  | .value stack, token => startValue stack token
  | .firstElement stack, .rbrack => some (plug (.arr []) stack)
  | .firstElement stack, token => startValue (.arr [] :: stack) token
  | .afterElement stack done, .comma => some (.value (.arr done :: stack))
  | .afterElement stack done, .rbrack => some (plug (.arr done) stack)
  | .firstKey stack, .rbrace => some (plug (.obj []) stack)
  | .firstKey stack, .str lit => some (.afterKey stack [] lit)
  | .nextKey stack done, .str lit => some (.afterKey stack done lit)
  | .afterKey stack done key, .colon => some (.value (.obj done key :: stack))
  | .afterMember stack done, .comma => some (.nextKey stack done)
  | .afterMember stack done, .rbrace => some (plug (.obj done) stack)
  | _, _ => none

/-- The tree of a JSON text; a text is one value with white space around it. -/
def parse (text : Bytes) : Option Value := do
  let tokens ← lex .ground text
  match ← tokens.foldlM ParseState.step (.value []) with
  | .finished value => some value
  | _ => none

/-! ### What a string literal denotes -/

inductive Utf8Class where
  | char (c : Char)
  | incomplete
  | bad

def isContinuation (b : UInt8) : Bool := 0x80 ≤ b && b ≤ 0xbf

/-- The second byte a sequence may have, which rules out overlong forms and surrogates. -/
def isSecond (first b : UInt8) : Bool :=
  if first = 0xe0 then 0xa0 ≤ b && b ≤ 0xbf
  else if first = 0xed then 0x80 ≤ b && b ≤ 0x9f
  else if first = 0xf0 then 0x90 ≤ b && b ≤ 0xbf
  else if first = 0xf4 then 0x80 ≤ b && b ≤ 0x8f
  else isContinuation b

def utf8Class : Bytes → Utf8Class
  | [a] =>
      if a < 0x80 then .char (Char.ofNat a.toNat)
      else if 0xc2 ≤ a ∧ a ≤ 0xf4 then .incomplete
      else .bad
  | [a, b] =>
      if !isSecond a b then .bad
      else if a < 0xe0 then .char (Char.ofNat (64 * (a.toNat - 0xc0) + (b.toNat - 0x80)))
      else .incomplete
  | [a, b, c] =>
      if !isContinuation c then .bad
      else if a < 0xf0 then
        .char (Char.ofNat (4096 * (a.toNat - 0xe0) + 64 * (b.toNat - 0x80) + (c.toNat - 0x80)))
      else .incomplete
  | [a, b, c, d] =>
      if !isContinuation d then .bad
      else .char (Char.ofNat
        (262144 * (a.toNat - 0xf0) + 4096 * (b.toNat - 0x80) + 64 * (c.toNat - 0x80) + (d.toNat - 0x80)))
  | _ => .bad

def isSurrogate (code : Nat) : Bool := 0xd800 ≤ code && code < 0xe000

def isPair (high low : Nat) : Bool :=
  0xd800 ≤ high && high < 0xdc00 && 0xdc00 ≤ low && low < 0xe000

def pairChar (high low : Nat) : Char := Char.ofNat (0x10000 + 1024 * (high - 0xd800) + (low - 0xdc00))

def unicodeChar (code : Nat) : Option Char := if isSurrogate code then none else some (Char.ofNat code)

/-- The characters of a literal, after the bytes of a sequence that is not complete yet. -/
def charsFrom : Bytes → StrLit → List (Option Char)
  | pending, [] => pending.map fun _ => none
  | pending, .raw b :: rest =>
      match utf8Class (pending ++ [b]) with
      | .char c => some c :: charsFrom [] rest
      | .incomplete => charsFrom (pending ++ [b]) rest
      | .bad => pending.map (fun _ => none) ++ match utf8Class [b] with
          | .char c => some c :: charsFrom [] rest
          | .incomplete => charsFrom [b] rest
          | .bad => none :: charsFrom [] rest
  | pending, .escape c :: rest => pending.map (fun _ => none) ++ some c :: charsFrom [] rest
  | pending, .unicode high :: .unicode low :: rest =>
      pending.map (fun _ => none) ++
        if isPair high low then some (pairChar high low) :: charsFrom [] rest
        else unicodeChar high :: charsFrom [] (.unicode low :: rest)
  | pending, .unicode code :: rest =>
      pending.map (fun _ => none) ++ unicodeChar code :: charsFrom [] rest

def StrLit.chars (lit : StrLit) : List (Option Char) := charsFrom [] lit

def replacement : Char := Char.ofNat 0xfffd

/-- The string with U+FFFD wherever the literal does not denote a character. -/
def StrLit.coerced (lit : StrLit) : String := String.ofList (lit.chars.map fun c => c.getD replacement)

def StrLit.wellFormed (lit : StrLit) : Bool := lit.chars.all Option.isSome

/-- The string of a literal that denotes one. -/
def StrLit.decoded (lit : StrLit) : Option String := if lit.wellFormed then some lit.coerced else none

/-- The literal is spelled without escapes. -/
def StrLit.isPlain (lit : StrLit) : Bool :=
  lit.all fun
    | .raw _ => true
    | _ => false

/-- No escape stands for half of a surrogate pair. -/
def StrLit.paired : StrLit → Bool
  | [] => true
  | .unicode high :: .unicode low :: rest =>
      if isPair high low then StrLit.paired rest
      else !isSurrogate high && StrLit.paired (.unicode low :: rest)
  | .unicode code :: rest => !isSurrogate code && StrLit.paired rest
  | _ :: rest => StrLit.paired rest

theorem StrLit.coerced_of_decoded {lit : StrLit} {text : String} (h : lit.decoded = some text) :
    lit.coerced = text := by
  rw [StrLit.decoded] at h
  split at h
  · exact Option.some.inj h
  · exact absurd h (by simp)

mutual

/-- Every string literal of the tree denotes a string. -/
def Value.wellFormed : Value → Bool
  | .str lit => lit.wellFormed
  | .arr elements => elementsWellFormed elements
  | .obj members => membersWellFormed members
  | _ => true

def elementsWellFormed : List Value → Bool
  | [] => true
  | element :: rest => element.wellFormed && elementsWellFormed rest

def membersWellFormed : List (StrLit × Value) → Bool
  | [] => true
  | (key, value) :: rest => key.wellFormed && value.wellFormed && membersWellFormed rest

end

/-! ### The leaves of a tree

What some decoders ask of a text they ask of every literal in it, keys and skipped members included.
-/

mutual

/-- The literals of the tree in the order of the text, a key as the string it is. -/
def Value.leaves : Value → List Value
  | .arr elements => elementsLeaves elements
  | .obj members => membersLeaves members
  | leaf => [leaf]

def elementsLeaves : List Value → List Value
  | [] => []
  | element :: rest => element.leaves ++ elementsLeaves rest

def membersLeaves : List (StrLit × Value) → List Value
  | [] => []
  | (key, value) :: rest => .str key :: (value.leaves ++ membersLeaves rest)

end

mutual

/-- How many containers are open at most. -/
def Value.depth : Value → Nat
  | .arr elements => elementsDepth elements + 1
  | .obj members => membersDepth members + 1
  | _ => 0

def elementsDepth : List Value → Nat
  | [] => 0
  | element :: rest => max element.depth (elementsDepth rest)

def membersDepth : List (StrLit × Value) → Nat
  | [] => 0
  | (_, value) :: rest => max value.depth (membersDepth rest)

end

def Value.isString (p : StrLit → Bool) : Value → Bool
  | .str lit => p lit
  | _ => true

/-- No string of the tree has half of a surrogate pair. -/
def Value.paired (tree : Value) : Bool := tree.leaves.all (Value.isString StrLit.paired)

theorem StrLit.decoded_of_wellFormed {lit : StrLit} (h : lit.wellFormed = true) :
    lit.decoded = some lit.coerced := by
  rw [StrLit.decoded, if_pos h]

/-! ### The members of an object -/

/-- The key is the name, letter by letter. -/
def isKey (name : String) (key : StrLit) : Bool := key.decoded == some name

/-- Decode the members under a key one after the other into the same place; one that does not decode
fails the whole. -/
def readField {α : Type} (isKey : StrLit → Bool) (read : α → Value → Option α) (initial : α)
    (members : List Member) : Option α :=
  members.foldlM (fun value member => if isKey member.1 then read value member.2 else some value) initial

/-- The value of the last member under a key. -/
def lastValue (isKey : StrLit → Bool) (members : List Member) : Option Value :=
  ((members.filter fun member => isKey member.1).getLast?).map Prod.snd

theorem lastValue_cons_pos {isKey : StrLit → Bool} {member : Member} (hkey : isKey member.1 = true)
    (members : List Member) :
    lastValue isKey (member :: members) = some ((lastValue isKey members).getD member.2) := by
  have hfilter : (member :: members).filter (fun member => isKey member.1) =
      member :: members.filter fun member => isKey member.1 := by simp [hkey]
  rw [lastValue, lastValue, hfilter, List.getLast?_cons, Option.map_some]
  cases (members.filter fun member => isKey member.1).getLast? <;> rfl

theorem lastValue_cons_neg {isKey : StrLit → Bool} {member : Member} (hkey : ¬ isKey member.1 = true)
    (members : List Member) : lastValue isKey (member :: members) = lastValue isKey members := by
  have hfilter : (member :: members).filter (fun member => isKey member.1) =
      members.filter fun member => isKey member.1 := by simp [hkey]
  rw [lastValue, lastValue, hfilter]

theorem lastValue_property {isKey : StrLit → Bool} (P : Value → Prop) {members : List Member}
    (h : ∀ member ∈ members, isKey member.1 = true → P member.2) :
    ∀ value ∈ lastValue isKey members, P value := by
  intro value hvalue
  obtain ⟨member, hlast, rfl⟩ := Option.map_eq_some_iff.mp hvalue
  obtain ⟨hmem, hkey⟩ := List.mem_filter.mp (List.mem_of_getLast? hlast)
  exact h member hmem hkey

/-- What the last value decodes to does not depend on where decoding started. -/
theorem lastValue_decoded {α : Type} {isKey : StrLit → Bool} {read : Value → Option α}
    {members : List Member} {value : Value} {first : α} (hfirst : read value = some first) (initial : α)
    (hall : ∀ member ∈ members, isKey member.1 = true → (read member.2).isSome = true) :
    (read ((lastValue isKey members).getD value)).getD initial =
      ((lastValue isKey members).bind read).getD first := by
  cases hlast : lastValue isKey members with
  | none =>
      rw [Option.getD_none, hfirst]
      rfl
  | some last =>
      have hread : (read last).isSome = true :=
        lastValue_property (fun value => (read value).isSome = true) hall last hlast
      obtain ⟨decoded, hdecoded⟩ := Option.isSome_iff_exists.mp hread
      rw [Option.getD_some, Option.bind_some, hdecoded]
      rfl

/-- Where a member's value takes the place of the one before, decoding succeeds when every member of
the key decodes, and the last one is what is left. -/
theorem readField_eq_some_iff {α : Type} (isKey : StrLit → Bool) (read : Value → Option α) (initial : α)
    (members : List Member) (value : α) :
    readField isKey (fun _ => read) initial members = some value ↔
      (∀ member ∈ members, isKey member.1 = true → (read member.2).isSome = true) ∧
        value = ((lastValue isKey members).bind read).getD initial := by
  induction members generalizing initial with
  | nil =>
      constructor
      · intro h
        exact ⟨fun member hmember => absurd hmember List.not_mem_nil, (Option.some.inj h).symm⟩
      · intro h
        rw [h.2]
        rfl
  | cons member members ih =>
      have hsplit : readField isKey (fun _ => read) initial (member :: members) =
          (if isKey member.1 then read member.2 else some initial).bind fun first =>
            readField isKey (fun _ => read) first members := by
        rw [readField, List.foldlM_cons]
        rfl
      rw [hsplit, Option.bind_eq_some_iff, List.forall_mem_cons]
      by_cases hkey : isKey member.1 = true
      · rw [lastValue_cons_pos hkey, Option.bind_some, if_pos hkey]
        simp only [hkey, forall_true_left]
        constructor
        · intro h
          obtain ⟨first, hfirst, hrest⟩ := h
          obtain ⟨hall, hvalue⟩ := (ih first).mp hrest
          have hread : (read member.2).isSome = true := by rw [hfirst]; rfl
          exact ⟨⟨hread, hall⟩, hvalue.trans (lastValue_decoded hfirst initial hall).symm⟩
        · intro h
          obtain ⟨⟨hread, hall⟩, hvalue⟩ := h
          obtain ⟨first, hfirst⟩ := Option.isSome_iff_exists.mp hread
          exact ⟨first, hfirst, (ih first).mpr ⟨hall, hvalue.trans (lastValue_decoded hfirst initial hall)⟩⟩
      · rw [lastValue_cons_neg hkey, if_neg hkey]
        simp only [hkey, Bool.false_eq_true, false_implies, true_and]
        constructor
        · intro h
          obtain ⟨first, hfirst, hrest⟩ := h
          obtain rfl := Option.some.inj hfirst
          exact (ih initial).mp hrest
        · intro h
          exact ⟨initial, rfl, (ih initial).mpr h⟩

example : (parse (Bytes.utf8 "\x7b\"a\": [1, -2.5e3, \"\\u00e9\", null]\x7d")).isSome = true := by decide

end Json
