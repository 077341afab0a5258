import ApigateBenchmark.Library.JsonWriting
import ApigateBenchmark.Library.PythonValue

/-!
# `json.loads`

The scanner takes the texts of JSON, with `NaN`, `Infinity` and `-Infinity` as further values. It reads a
text once from front to back and builds the value on the way, so what it raises is decided by the first
place it does not get past: an integer of too many digits, a container that is nested too deeply, or
whatever else is out of place.

The tree of such a text is that of JSON, where the three constants are number literals with their letters
for digits.
-/

namespace Python

open Json (StrLit NumLit Token Mode ParseState ascii digitsValue utf8Class isPair pairChar)

variable (python : Interpreter)

/-- `bytes.decode()` -/
def decode (body : Bytes) : Except Exc String :=
  match StrLit.decoded (body.map .raw) with
  | some text => .ok text
  | none => .error .unicodeDecodeError

/-! ### The value of a tree -/

/-- The code points of a literal of a text, after the bytes of a character that is not complete yet. -/
def codesFrom : Bytes → StrLit → Str
  | _, [] => []
  | pending, .raw b :: rest =>
      match utf8Class (pending ++ [b]) with
      | .char c => c.toNat :: codesFrom [] rest
      | .incomplete => codesFrom (pending ++ [b]) rest
      | .bad => codesFrom [] rest
  | _, .escape c :: rest => c.toNat :: codesFrom [] rest
  | _, .unicode high :: .unicode low :: rest =>
      if isPair high low then (pairChar high low).toNat :: codesFrom [] rest
      else high :: codesFrom [] (.unicode low :: rest)
  | _, .unicode code :: rest => code :: codesFrom [] rest

def nanDigits : Bytes := Bytes.utf8 "NaN"

def infinityDigits : Bytes := Bytes.utf8 "Infinity"

/-- The constant that the literal is, if it is one. -/
def constant? (lit : NumLit) : Option FloatValue :=
  if lit.int = nanDigits then some .nan
  else if lit.int = infinityDigits then some (.infinity lit.negative)
  else none

/-- The least number that is rounded to infinity. -/
def floatBound : ℚ := 2 ^ 1024 - 2 ^ 970

def floatOfLit (lit : NumLit) : FloatValue :=
  let fraction := lit.frac.getD []
  let exponent : Int := match lit.exp with
    | none => 0
    | some (negative, digits) => if negative then -(digitsValue digits : Int) else digitsValue digits
  let magnitude : ℚ := digitsValue (lit.int ++ fraction) / 10 ^ fraction.length * 10 ^ exponent
  if floatBound ≤ magnitude then .infinity lit.negative
  else .finite (if lit.negative then -magnitude else magnitude)

def numberOfLit (lit : NumLit) : Value :=
  match constant? lit with
  | some value => .float value
  | none => if lit.isInteger then .int lit.toInt else .float (floatOfLit lit)

mutual

def ofJson : Json.Value → Value
  | .null => .none
  | .bool value => .bool value
  | .num lit => numberOfLit lit
  | .str lit => .str (codesFrom [] lit)
  | .arr elements => .list (elementsOfJson elements)
  | .obj members => .dict (itemsOfJson [] members)

def elementsOfJson : List Json.Value → List Value
  | [] => []
  | element :: rest => ofJson element :: elementsOfJson rest

/-- The members are set one after the other, so the last of a key counts. -/
def itemsOfJson (items : List (Str × Value)) : List (StrLit × Json.Value) → List (Str × Value)
  | [] => items
  | (key, value) :: rest => itemsOfJson (setItem (codesFrom [] key) (ofJson value) items) rest

end

/-! ### The scanner -/

def words : List (Bytes × Json.Value) :=
  [(Bytes.utf8 "null", .null), (Bytes.utf8 "true", .bool true), (Bytes.utf8 "false", .bool false),
    (Bytes.utf8 "NaN", .num ⟨false, nanDigits, none, none⟩),
    (Bytes.utf8 "Infinity", .num ⟨false, infinityDigits, none, none⟩),
    (Bytes.utf8 "-Infinity", .num ⟨true, infinityDigits, none, none⟩)]

/-- The digits at the front; a zero has none after it. -/
def scanInt (text : Bytes) : Option (Bytes × Bytes) :=
  if text.head? = some (ascii '0') then some ([ascii '0'], text.drop 1) else Json.takeDigits text

/-- The number at the front. A point or an `e` that no digits follow is left where it is. -/
def scanNumber (text : Bytes) : Option (NumLit × Bytes) := do
  let negative := text.head? = some (ascii '-')
  let unsigned := if negative then text.drop 1 else text
  let (int, rest) ← scanInt unsigned
  let (frac, rest) := (Json.takeFrac rest).getD (none, rest)
  let (exp, rest) := (Json.takeExp rest).getD (none, rest)
  some (⟨negative, int, frac, exp⟩, rest)

/-- The value that a run of letters, digits and signs begins with, and whether it is all of it: what
follows right after a value is out of place. -/
def scanWord (text : Bytes) : List Token × Bool :=
  match words.find? fun word => word.1.isPrefixOf text with
  | some (word, value) => ([.scalar value], text == word)
  | none => match scanNumber text with
    | some (lit, rest) => ([.scalar (.num lit)], rest.isEmpty)
    | none => ([], false)

/-- The tokens that are found with a byte, and how the scanner goes on if it does. -/
def scanStep : Mode → UInt8 → List Token × Option Mode
  | .word text, b =>
      if Json.isWordByte b then ([], some (.word (text ++ [b])))
      else match scanWord text, Json.groundStep b with
        | (tokens, true), some (more, next) => (tokens ++ more, some next)
        | (tokens, _), _ => (tokens, none)
  | mode, b =>
      match mode.step b with
      | some (tokens, next) => (tokens, some next)
      | none => ([], none)

/-- The tokens up to the first place that is none, and whether that is the end of the text. -/
def scan : Mode → Bytes → List Token × Bool
  | .ground, [] => ([], true)
  | .word text, [] => scanWord text
  | _, [] => ([], false)
  | mode, b :: rest =>
      match scanStep mode b with
      | (tokens, some next) =>
          let later := scan next rest
          (tokens ++ later.1, later.2)
      | (tokens, none) => (tokens, false)

def openContainers : ParseState → Nat
  | .value stack => stack.length
  | .firstElement stack | .afterElement stack _ | .firstKey stack | .nextKey stack _ | .afterKey stack _ _
  | .afterMember stack _ => stack.length + 1
  | .finished _ => 0

/-- What a token in its place can still raise. -/
def checkLimits (state : ParseState) : Token → Except Exc Unit
  | .scalar (.num lit) =>
      if (constant? lit).isNone && lit.isInteger && exceedsLimit python lit.int.length then
        .error .valueError
      else .ok ()
  | .lbrace | .lbrack => if openContainers state < python.nesting then .ok () else .error .recursionError
  | _ => .ok ()

def step (state : ParseState) (token : Token) : Except Exc ParseState :=
  match state.step token with
  | some next => (checkLimits python state token).map fun _ => next
  | none => .error .jsonDecodeError

/-- What has come of the tokens, and whether they are the whole text. -/
def finish : ParseState → Bool → Except Exc Value
  | .finished tree, true => .ok (ofJson tree)
  | _, _ => .error .jsonDecodeError

/-- `json.loads` -/
def loads (text : String) : Except Exc Value := do
  let found := scan .ground (Bytes.utf8 text)
  let state ← found.1.foldlM (step python) (.value [])
  finish state found.2

/-! ### What it raises -/

theorem checkLimits_error {state : ParseState} {token : Token} {exc : Exc}
    (h : checkLimits python state token = .error exc) : exc = .recursionError ∨ exc = .valueError := by
  cases token with
  | scalar value =>
      cases value with
      | num lit =>
          rw [checkLimits] at h
          split at h
          · exact .inr (Except.error.inj h).symm
          · cases h
      | _ => cases h
  | lbrace | lbrack =>
      rw [checkLimits] at h
      split at h
      · cases h
      · exact .inl (Except.error.inj h).symm
  | _ => cases h

theorem step_error {state : ParseState} {token : Token} {exc : Exc}
    (h : step python state token = .error exc) :
    exc = .jsonDecodeError ∨ exc = .recursionError ∨ exc = .valueError := by
  rw [step] at h
  split at h
  · cases hlimits : checkLimits python state token with
    | error raised =>
        rw [hlimits] at h
        obtain rfl : raised = exc := Except.error.inj h
        exact .inr (checkLimits_error python hlimits)
    | ok value =>
        rw [hlimits] at h
        cases h
  · exact .inl (Except.error.inj h).symm

theorem run_error {tokens : List Token} {state : ParseState} {exc : Exc}
    (h : tokens.foldlM (step python) state = .error exc) :
    exc = .jsonDecodeError ∨ exc = .recursionError ∨ exc = .valueError := by
  induction tokens generalizing state with
  | nil => cases h
  | cons token tokens ih =>
      rw [List.foldlM_cons] at h
      cases hstep : step python state token with
      | error raised =>
          rw [hstep] at h
          obtain rfl : raised = exc := Except.error.inj h
          exact step_error python hstep
      | ok next =>
          rw [hstep] at h
          exact ih h

theorem finish_error {state : ParseState} {whole : Bool} {exc : Exc}
    (h : finish state whole = .error exc) : exc = .jsonDecodeError := by
  rw [finish.eq_def] at h
  split at h
  · cases h
  · exact (Except.error.inj h).symm

/-- `json.loads` raises nothing but these. -/
theorem loads_error {text : String} {exc : Exc} (h : loads python text = .error exc) :
    exc = .jsonDecodeError ∨ exc = .recursionError ∨ exc = .valueError := by
  rw [loads] at h
  cases hrun : (scan .ground (Bytes.utf8 text)).1.foldlM (step python) (.value []) with
  | error raised =>
      rw [hrun] at h
      obtain rfl : raised = exc := Except.error.inj h
      exact run_error python hrun
  | ok state =>
      rw [hrun] at h
      exact .inl (finish_error h)

/-! ### Texts of JSON -/

theorem takeDigits_eq_none {b : UInt8} (h : Json.isDigit b = false) (rest : Bytes) :
    Json.takeDigits (b :: rest) = none := by
  have hnone : (b :: rest).takeWhile Json.isDigit = [] := by
    rw [List.takeWhile_cons, h]
    rfl
  rw [Json.takeDigits, hnone]
  exact if_pos rfl

theorem parseNumber_eq_none {b : UInt8} (h : Json.isDigit b = false) (hminus : b ≠ ascii '-') (rest : Bytes) :
    Json.parseNumber (b :: rest) = none := by
  have hplus : ¬ (b :: rest).head? = some (ascii '-') := fun hhead => hminus (Option.some.inj hhead)
  simp only [Json.parseNumber, hplus, decide_false, if_false, takeDigits_eq_none h,
    Option.bind_eq_bind, Option.bind_none]

theorem parseNumber_minus_eq_none {b : UInt8} (h : Json.isDigit b = false) (rest : Bytes) :
    Json.parseNumber (ascii '-' :: b :: rest) = none := by
  simp only [Json.parseNumber, List.head?_cons, decide_true, if_true, List.drop_succ_cons, List.drop_zero,
    takeDigits_eq_none h, Option.bind_eq_bind, Option.bind_none]

/-- No word of the scanner is the beginning of a number. -/
theorem parseNumber_word_eq_none {word : Bytes × Json.Value} (h : word ∈ words) (rest : Bytes) :
    Json.parseNumber (word.1 ++ rest) = none := by
  simp only [words, List.mem_cons, List.not_mem_nil, or_false] at h
  obtain rfl | rfl | rfl | rfl | rfl | rfl := h
  · exact parseNumber_eq_none (by decide) (by decide) _
  · exact parseNumber_eq_none (by decide) (by decide) _
  · exact parseNumber_eq_none (by decide) (by decide) _
  · exact parseNumber_eq_none (by decide) (by decide) _
  · exact parseNumber_eq_none (by decide) (by decide) _
  · exact parseNumber_minus_eq_none (by decide) _

theorem find?_words {text : Bytes} {lit : NumLit} (h : Json.parseNumber text = some lit) :
    words.find? (fun word => word.1.isPrefixOf text) = none := by
  refine List.find?_eq_none.mpr fun word hword hprefix => ?_
  obtain ⟨rest, rfl⟩ := List.isPrefixOf_iff_prefix.mp hprefix
  cases (parseNumber_word_eq_none hword rest).symm.trans h

theorem scanInt_of_takeDigits {text int rest : Bytes} (h : Json.takeDigits text = some (int, rest))
    (hzero : int.head? = some (ascii '0') → int.length = 1) : scanInt text = some (int, rest) := by
  rw [scanInt]
  split
  · rename_i hhead
    obtain ⟨digits, rfl⟩ : ∃ digits, text = ascii '0' :: digits := List.head?_eq_some_iff.mp hhead
    have hdigit : Json.isDigit (ascii '0') = true := by decide
    simp only [Json.takeDigits, List.takeWhile_cons, List.dropWhile_cons, if_pos hdigit, reduceCtorEq,
      if_false, Option.some.injEq, Prod.mk.injEq] at h
    obtain ⟨rfl, rfl⟩ := h
    -- the zero is the only digit
    have hone := hzero rfl
    have hnone : digits.takeWhile Json.isDigit = [] :=
      List.length_eq_zero_iff.mp (Nat.succ.inj ((List.length_cons).symm.trans hone))
    have hall := List.takeWhile_append_dropWhile (p := Json.isDigit) (l := digits)
    rw [hnone, List.nil_append] at hall
    rw [hnone, hall]
    rfl
  · exact h

theorem scanNumber_of_parseNumber {text : Bytes} {lit : NumLit} (h : Json.parseNumber text = some lit) :
    scanNumber text = some (lit, []) := by
  simp only [Json.parseNumber, Option.bind_eq_bind, Option.bind_eq_some_iff] at h
  obtain ⟨⟨int, rest⟩, hint, ⟨frac, rest'⟩, hfrac, ⟨exp, rest''⟩, hexp, hlit⟩ := h
  rw [Option.ite_none_right_eq_some] at hlit
  obtain ⟨⟨rfl, hzero⟩, hlit⟩ := hlit
  obtain rfl := Option.some.inj hlit
  simp only [scanNumber, scanInt_of_takeDigits hint hzero, Option.bind_eq_bind, Option.bind_some, hfrac,
    hexp, Option.getD_some]

theorem scanWord_of_wordToken {text : Bytes} {token : Token} (h : Json.wordToken text = some token) :
    scanWord text = ([token], true) := by
  rw [Json.wordToken] at h
  split at h
  · rename_i hword
    obtain rfl := Option.some.inj h
    rw [hword]
    rfl
  split at h
  · rename_i hword
    obtain rfl := Option.some.inj h
    rw [hword]
    rfl
  split at h
  · rename_i hword
    obtain rfl := Option.some.inj h
    rw [hword]
    rfl
  · obtain ⟨lit, hlit, rfl⟩ := Option.map_eq_some_iff.mp h
    rw [scanWord, find?_words hlit, scanNumber_of_parseNumber hlit]
    rfl

theorem scan_cons (mode : Mode) (b : UInt8) (rest : Bytes) :
    scan mode (b :: rest) = match scanStep mode b with
      | (tokens, some next) => (tokens ++ (scan next rest).1, (scan next rest).2)
      | (tokens, none) => (tokens, false) := by
  cases mode <;> rfl

theorem scanStep_of_step {mode next : Mode} {b : UInt8} {tokens : List Token}
    (h : mode.step b = some (tokens, next)) : scanStep mode b = (tokens, some next) := by
  cases mode with
  | word text =>
      rw [Mode.step] at h
      rw [scanStep]
      split at h
      · rename_i hword
        obtain ⟨rfl, rfl⟩ := Prod.mk.inj (Option.some.inj h)
        rw [if_pos hword]
      · rename_i hword
        simp only [Option.bind_eq_bind, Option.bind_eq_some_iff] at h
        obtain ⟨token, htoken, ⟨more, after⟩, hground, hnext⟩ := h
        obtain ⟨rfl, rfl⟩ := Prod.mk.inj (Option.some.inj hnext)
        rw [if_neg hword, scanWord_of_wordToken htoken, hground]
        rfl
  | _ =>
      rw [scanStep, h]
      intro text hmode
      cases hmode

/-- On a text of JSON the scanner finds the tokens of the lexer. -/
theorem scan_of_lex {text : Bytes} {mode : Mode} {tokens : List Token}
    (h : Json.lex mode text = some tokens) : scan mode text = (tokens, true) := by
  induction text generalizing mode tokens with
  | nil =>
      cases mode with
      | ground =>
          obtain rfl := Option.some.inj h
          rfl
      | word text =>
          obtain ⟨token, htoken, rfl⟩ := Option.map_eq_some_iff.mp h
          exact scanWord_of_wordToken htoken
      | _ => cases h
  | cons b rest ih =>
      rw [Json.lex_cons] at h
      obtain ⟨⟨first, next⟩, hstep, hrest⟩ := Option.bind_eq_some_iff.mp h
      obtain ⟨more, hmore, rfl⟩ := Option.map_eq_some_iff.mp hrest
      rw [scan_cons, scanStep_of_step hstep]
      simp only [ih hmore]

/-- The steps of the parser are taken, unless a limit is in the way. -/
theorem run_of_parse {tokens : List Token} {state final : ParseState}
    (h : tokens.foldlM ParseState.step state = some final) :
    tokens.foldlM (step python) state = .ok final ∨
      ∃ exc, tokens.foldlM (step python) state = .error exc ∧ (exc = .recursionError ∨ exc = .valueError) := by
  induction tokens generalizing state with
  | nil =>
      obtain rfl := Option.some.inj h
      exact .inl rfl
  | cons token tokens ih =>
      obtain ⟨next, hnext, hrest⟩ := Option.bind_eq_some_iff.mp h
      rw [List.foldlM_cons, step, hnext]
      cases hlimits : checkLimits python state token with
      | error exc => exact .inr ⟨exc, rfl, checkLimits_error python hlimits⟩
      | ok value => exact ih hrest

/-- A text of JSON is read as its tree, unless its nesting or the length of an integer is in the way. -/
theorem loads_of_parse {text : String} {tree : Json.Value}
    (h : Json.parse (Bytes.utf8 text) = some tree) :
    loads python text = .ok (ofJson tree) ∨
      ∃ exc, loads python text = .error exc ∧ (exc = .recursionError ∨ exc = .valueError) := by
  simp only [Json.parse, Option.bind_eq_bind, Option.bind_eq_some_iff] at h
  obtain ⟨tokens, hlex, final, hrun, hfinal⟩ := h
  rw [loads, scan_of_lex hlex]
  dsimp only
  obtain hread | ⟨exc, hraised, hlimit⟩ := run_of_parse python hrun
  · left
    rw [hread, ok_bind]
    cases final with
    | finished value =>
        obtain rfl := Option.some.inj hfinal
        rfl
    | _ => cases hfinal
  · right
    rw [hraised]
    exact ⟨exc, rfl, hlimit⟩

end Python
