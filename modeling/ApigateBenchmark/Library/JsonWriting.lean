import ApigateBenchmark.Library.Json

/-!
# Texts that are read back

What an encoder writes is read back as it was meant: a character of a string in any of its spellings,
the bytes of its UTF-8, an escape or `\uXXXX`, and the string of such characters. A text is taken apart
as it was put together, so each lemma says what the lexer makes of a piece wherever it stands.
-/

namespace Json

theorem lex_cons (mode : Mode) (b : UInt8) (rest : Bytes) :
    lex mode (b :: rest) = (mode.step b).bind fun next => (lex next.2 rest).map (next.1 ++ ·) := by
  have hmore : ∀ next : List Token × Mode,
      ((lex next.2 rest).bind fun more => some (next.1 ++ more)) = (lex next.2 rest).map (next.1 ++ ·) := by
    intro next
    cases lex next.2 rest <;> rfl
  cases mode <;> simp only [lex, Option.bind_eq_bind, hmore]

/-- A byte that completes no token. -/
theorem lex_silent {mode next : Mode} {b : UInt8} (h : mode.step b = some ([], next)) (rest : Bytes) :
    lex mode (b :: rest) = lex next rest := by
  rw [lex_cons, h, Option.bind_some]
  exact Option.map_id'

theorem step_backslash (before : StrLit) :
    (Mode.string before).step (ascii '\\') = some ([], .escape before) := rfl

/-! ### Inside a string -/

/-- Within a string the bytes are lexed as the units. -/
def Spells (text : Bytes) (units : StrLit) : Prop :=
  ∀ (before : StrLit) (rest : Bytes),
    lex (.string before) (text ++ rest) = lex (.string (before ++ units)) rest

theorem Spells.nil : Spells [] [] := by
  intro before rest
  rw [List.append_nil, List.nil_append]

theorem Spells.append {text text' : Bytes} {units units' : StrLit} (h : Spells text units)
    (h' : Spells text' units') : Spells (text ++ text') (units ++ units') := by
  intro before rest
  rw [List.append_assoc, h, h', List.append_assoc]

theorem spells_raw {b : UInt8} (hquote : b ≠ ascii '"') (hescape : b ≠ ascii '\\')
    (hcontrol : ¬ b < 0x20) : Spells [b] [.raw b] := by
  intro before rest
  apply lex_silent
  rw [Mode.step, if_neg hquote, if_neg hescape, if_neg hcontrol]

theorem spells_raws {text : Bytes}
    (h : ∀ b ∈ text, b ≠ ascii '"' ∧ b ≠ ascii '\\' ∧ ¬ b < 0x20) : Spells text (text.map .raw) := by
  induction text with
  | nil => exact Spells.nil
  | cons b text ih =>
      obtain ⟨⟨hquote, hescape, hcontrol⟩, hrest⟩ := List.forall_mem_cons.mp h
      exact (spells_raw hquote hescape hcontrol).append (ih hrest)

theorem spells_high {text : Bytes} (h : ∀ b ∈ text, 0x80 ≤ b) : Spells text (text.map .raw) := by
  refine spells_raws fun b hb => ?_
  have hnat : 0x80 ≤ b.toNat := UInt8.le_iff_toNat_le.mp (h b hb)
  refine ⟨?_, ?_, ?_⟩
  · rintro rfl
    exact absurd hnat (by decide)
  · rintro rfl
    exact absurd hnat (by decide)
  · rw [UInt8.lt_iff_toNat_lt]
    change ¬ b.toNat < 0x20
    omega

theorem spells_escape {b : UInt8} {c : Char} (hunicode : b ≠ ascii 'u') (hchar : escapeChar b = some c) :
    Spells [ascii '\\', b] [.escape c] := by
  intro before rest
  change lex (.string before) (ascii '\\' :: b :: rest) = _
  rw [lex_silent (step_backslash before)]
  apply lex_silent
  rw [Mode.step, if_neg hunicode, hchar, Option.map_some]

/-- A digit of `\uXXXX` in lower case. -/
def hexDigit (n : Nat) : UInt8 := UInt8.ofNat (if n < 10 then 0x30 + n else 0x57 + n)

def unicodeEscape (code : Nat) : Bytes :=
  [ascii '\\', ascii 'u', hexDigit (code / 4096 % 16), hexDigit (code / 256 % 16), hexDigit (code / 16 % 16),
    hexDigit (code % 16)]

theorem hexValue_hexDigit (n : Fin 16) : hexValue (hexDigit n) = some n.val := by
  revert n
  decide

theorem step_hexDigit (before : StrLit) (digits : List Nat) (n : Nat) :
    (Mode.hex before digits).step (hexDigit (n % 16)) =
      if (digits ++ [n % 16]).length = 4 then
        some ([], .string (before ++ [.unicode ((digits ++ [n % 16]).foldl (fun n d => 16 * n + d) 0)]))
      else some ([], .hex before (digits ++ [n % 16])) := by
  have hvalue := hexValue_hexDigit ⟨n % 16, Nat.mod_lt n (by decide)⟩
  simp only at hvalue
  simp only [Mode.step, hvalue, Option.bind_eq_bind, Option.bind_some]

theorem spells_unicodeEscape {code : Nat} (hcode : code < 0x10000) :
    Spells (unicodeEscape code) [.unicode code] := by
  intro before rest
  have hvalue : 16 * (16 * (16 * (16 * 0 + code / 4096 % 16) + code / 256 % 16) + code / 16 % 16) +
      code % 16 = code := by omega
  simp only [unicodeEscape, List.cons_append, List.nil_append]
  have hunicode : (Mode.escape before).step (ascii 'u') = some ([], .hex before []) := rfl
  rw [lex_silent (step_backslash before), lex_silent hunicode,
    lex_silent (step_hexDigit before [] _), lex_silent (step_hexDigit before _ _),
    lex_silent (step_hexDigit before _ _)]
  apply lex_silent
  rw [step_hexDigit]
  simp only [List.nil_append, List.cons_append, List.length_cons, List.length_nil, Nat.zero_add, if_true,
    List.foldl_cons, List.foldl_nil, hvalue]

theorem toNat_ofNat_of_lt {n : Nat} (h : n < 256) : (UInt8.ofNat n).toNat = n := by
  rw [UInt8.toNat_ofNat', Nat.mod_eq_of_lt h]

theorem utf8Class_one {n : Nat} (h : n < 0x80) : utf8Class [UInt8.ofNat n] = .char (Char.ofNat n) := by
  have hn := toNat_ofNat_of_lt (show n < 256 by omega)
  have hascii : UInt8.ofNat n < 0x80 := by
    rw [UInt8.lt_iff_toNat_lt, hn]
    exact h
  rw [utf8Class, if_pos hascii, hn]

/-- The lead byte of a longer sequence. -/
theorem utf8Class_lead {n : Nat} (hlow : 0xc2 ≤ n) (hhigh : n ≤ 0xf4) :
    utf8Class [UInt8.ofNat n] = .incomplete := by
  have hn := toNat_ofNat_of_lt (show n < 256 by omega)
  have hascii : ¬ UInt8.ofNat n < 0x80 := by
    rw [UInt8.lt_iff_toNat_lt, hn]
    change ¬ n < 0x80
    omega
  have hlead : 0xc2 ≤ UInt8.ofNat n ∧ UInt8.ofNat n ≤ 0xf4 := by
    rw [UInt8.le_iff_toNat_le, UInt8.le_iff_toNat_le, hn]
    exact ⟨hlow, hhigh⟩
  rw [utf8Class, if_neg hascii, if_pos hlead]

theorem isContinuation_ofNat (n : Nat) : isContinuation (UInt8.ofNat (n % 0x40 + 0x80)) = true := by
  have hn := toNat_ofNat_of_lt (show n % 0x40 + 0x80 < 256 by omega)
  rw [isContinuation, Bool.and_eq_true, decide_eq_true_eq, decide_eq_true_eq, UInt8.le_iff_toNat_le,
    UInt8.le_iff_toNat_le, hn]
  constructor
  · exact Nat.le_add_left _ _
  · change n % 0x40 + 0x80 ≤ 0xbf
    omega

/-- The second byte of a sequence that is not overlong, and no surrogate. -/
theorem isSecond_ofNat {a n : Nat} (ha : a < 256) (he0 : a = 0xe0 → 0x20 ≤ n % 0x40)
    (hed : a = 0xed → n % 0x40 < 0x20) (hf0 : a = 0xf0 → 0x10 ≤ n % 0x40)
    (hf4 : a = 0xf4 → n % 0x40 < 0x10) :
    isSecond (UInt8.ofNat a) (UInt8.ofNat (n % 0x40 + 0x80)) = true := by
  have hn := toNat_ofNat_of_lt (show n % 0x40 + 0x80 < 256 by omega)
  have hcases : ∀ k : Nat, k < 256 → (UInt8.ofNat a = UInt8.ofNat k ↔ a = k) := by
    intro k hk
    rw [← UInt8.toNat_inj, toNat_ofNat_of_lt ha, toNat_ofNat_of_lt hk]
  have hrange : ∀ low high : UInt8, low.toNat ≤ n % 0x40 + 0x80 → n % 0x40 + 0x80 ≤ high.toNat →
      (decide (low ≤ UInt8.ofNat (n % 0x40 + 0x80)) &&
        decide (UInt8.ofNat (n % 0x40 + 0x80) ≤ high)) = true := by
    intro low high hlow hhigh
    rw [Bool.and_eq_true, decide_eq_true_eq, decide_eq_true_eq, UInt8.le_iff_toNat_le,
      UInt8.le_iff_toNat_le, hn]
    exact ⟨hlow, hhigh⟩
  rw [isSecond]
  split
  · rename_i h
    have := he0 ((hcases 0xe0 (by omega)).mp h)
    exact hrange _ _ (by change 0xa0 ≤ _; omega) (by change _ ≤ 0xbf; omega)
  · split
    · rename_i h
      have := hed ((hcases 0xed (by omega)).mp h)
      exact hrange _ _ (by change 0x80 ≤ _; omega) (by change _ ≤ 0x9f; omega)
    · split
      · rename_i h
        have := hf0 ((hcases 0xf0 (by omega)).mp h)
        exact hrange _ _ (by change 0x90 ≤ _; omega) (by change _ ≤ 0xbf; omega)
      · split
        · rename_i h
          have := hf4 ((hcases 0xf4 (by omega)).mp h)
          exact hrange _ _ (by change 0x80 ≤ _; omega) (by change _ ≤ 0x8f; omega)
        · exact isContinuation_ofNat n

theorem utf8Class_two {n : Nat} (hlow : 0x80 ≤ n) (hhigh : n ≤ 0x7ff) :
    utf8Class [UInt8.ofNat (n / 64 % 0x20 + 0xc0), UInt8.ofNat (n % 0x40 + 0x80)] = .char (Char.ofNat n) := by
  have ha := toNat_ofNat_of_lt (show n / 64 % 0x20 + 0xc0 < 256 by omega)
  have hb := toNat_ofNat_of_lt (show n % 0x40 + 0x80 < 256 by omega)
  have hsecond := isSecond_ofNat (n := n) (show n / 64 % 0x20 + 0xc0 < 256 by omega) (by omega) (by omega)
    (by omega) (by omega)
  have hshort : UInt8.ofNat (n / 64 % 0x20 + 0xc0) < 0xe0 := by
    rw [UInt8.lt_iff_toNat_lt, ha]
    change n / 64 % 0x20 + 0xc0 < 0xe0
    omega
  have hvalue : 64 * (n / 64 % 0x20 + 0xc0 - 0xc0) + (n % 0x40 + 0x80 - 0x80) = n := by omega
  simp only [utf8Class, hsecond, hshort, Bool.not_true, Bool.false_eq_true, if_false, if_true, ha, hb, hvalue]

/-- The first two bytes of a longer sequence. -/
theorem utf8Class_second {a n : Nat} (hlow : 0xe0 ≤ a) (hhigh : a < 256)
    (he0 : a = 0xe0 → 0x20 ≤ n % 0x40) (hed : a = 0xed → n % 0x40 < 0x20)
    (hf0 : a = 0xf0 → 0x10 ≤ n % 0x40) (hf4 : a = 0xf4 → n % 0x40 < 0x10) :
    utf8Class [UInt8.ofNat a, UInt8.ofNat (n % 0x40 + 0x80)] = .incomplete := by
  have hsecond := isSecond_ofNat hhigh he0 hed hf0 hf4
  have hlong : ¬ UInt8.ofNat a < 0xe0 := by
    rw [UInt8.lt_iff_toNat_lt, toNat_ofNat_of_lt hhigh]
    change ¬ a < 0xe0
    omega
  simp only [utf8Class, hsecond, hlong, Bool.not_true, Bool.false_eq_true, if_false]

theorem utf8Class_three {n : Nat} (hlow : 0x800 ≤ n) (hhigh : n ≤ 0xffff) :
    utf8Class [UInt8.ofNat (n / 4096 % 0x10 + 0xe0), UInt8.ofNat (n / 64 % 0x40 + 0x80),
      UInt8.ofNat (n % 0x40 + 0x80)] = .char (Char.ofNat n) := by
  have ha := toNat_ofNat_of_lt (show n / 4096 % 0x10 + 0xe0 < 256 by omega)
  have hb := toNat_ofNat_of_lt (show n / 64 % 0x40 + 0x80 < 256 by omega)
  have hc := toNat_ofNat_of_lt (show n % 0x40 + 0x80 < 256 by omega)
  have hshort : UInt8.ofNat (n / 4096 % 0x10 + 0xe0) < 0xf0 := by
    rw [UInt8.lt_iff_toNat_lt, ha]
    change n / 4096 % 0x10 + 0xe0 < 0xf0
    omega
  have hvalue : 4096 * (n / 4096 % 0x10 + 0xe0 - 0xe0) + 64 * (n / 64 % 0x40 + 0x80 - 0x80) +
      (n % 0x40 + 0x80 - 0x80) = n := by omega
  simp only [utf8Class, isContinuation_ofNat, hshort, Bool.not_true, Bool.false_eq_true, if_false, if_true,
    ha, hb, hc, hvalue]

/-- The first three bytes of a sequence of four. -/
theorem utf8Class_third {a n : Nat} (hlow : 0xf0 ≤ a) (hhigh : a < 256) (b : UInt8) :
    utf8Class [UInt8.ofNat a, b, UInt8.ofNat (n % 0x40 + 0x80)] = .incomplete := by
  have hlong : ¬ UInt8.ofNat a < 0xf0 := by
    rw [UInt8.lt_iff_toNat_lt, toNat_ofNat_of_lt hhigh]
    change ¬ a < 0xf0
    omega
  simp only [utf8Class, isContinuation_ofNat, hlong, Bool.not_true, Bool.false_eq_true, if_false]

theorem utf8Class_four {n : Nat} (hhigh : n < 0x110000) :
    utf8Class [UInt8.ofNat (n / 262144 % 0x08 + 0xf0), UInt8.ofNat (n / 4096 % 0x40 + 0x80),
      UInt8.ofNat (n / 64 % 0x40 + 0x80), UInt8.ofNat (n % 0x40 + 0x80)] = .char (Char.ofNat n) := by
  have ha := toNat_ofNat_of_lt (show n / 262144 % 0x08 + 0xf0 < 256 by omega)
  have hb := toNat_ofNat_of_lt (show n / 4096 % 0x40 + 0x80 < 256 by omega)
  have hc := toNat_ofNat_of_lt (show n / 64 % 0x40 + 0x80 < 256 by omega)
  have hd := toNat_ofNat_of_lt (show n % 0x40 + 0x80 < 256 by omega)
  have hvalue : 262144 * (n / 262144 % 0x08 + 0xf0 - 0xf0) + 4096 * (n / 4096 % 0x40 + 0x80 - 0x80) +
      64 * (n / 64 % 0x40 + 0x80 - 0x80) + (n % 0x40 + 0x80 - 0x80) = n := by omega
  simp only [utf8Class, isContinuation_ofNat, Bool.not_true, Bool.false_eq_true, if_false, ha, hb, hc, hd,
    hvalue]

theorem charsFrom_char {pending : Bytes} {b : UInt8} {c : Char} (h : utf8Class (pending ++ [b]) = .char c)
    (rest : StrLit) : charsFrom pending (.raw b :: rest) = some c :: charsFrom [] rest := by
  rw [charsFrom, h]

theorem charsFrom_incomplete {pending : Bytes} {b : UInt8} (h : utf8Class (pending ++ [b]) = .incomplete)
    (rest : StrLit) : charsFrom pending (.raw b :: rest) = charsFrom (pending ++ [b]) rest := by
  rw [charsFrom, h]

/-- The bytes of a character are read back as that character. -/
theorem charsFrom_utf8EncodeChar (c : Char) (rest : StrLit) :
    charsFrom [] ((String.utf8EncodeChar c).map .raw ++ rest) = some c :: charsFrom [] rest := by
  have hvalid : c.val.toNat < 0xd800 ∨ 0xdfff < c.val.toNat ∧ c.val.toNat < 0x110000 := c.valid
  have hchar : Char.ofNat c.val.toNat = c := Char.ofNat_toNat c
  conv_rhs => rw [← hchar]
  rw [String.utf8EncodeChar]
  generalize c.val.toNat = n at hvalid
  split
  · exact charsFrom_char (utf8Class_one (by omega)) rest
  · split
    · simp only [List.map_cons, List.map_nil, List.cons_append, List.nil_append]
      rw [charsFrom_incomplete (utf8Class_lead (by omega) (by omega))]
      exact charsFrom_char (utf8Class_two (by omega) (by omega)) rest
    · split
      · simp only [List.map_cons, List.map_nil, List.cons_append, List.nil_append]
        rw [charsFrom_incomplete (utf8Class_lead (by omega) (by omega)),
          charsFrom_incomplete
            (utf8Class_second (by omega) (by omega) (by omega) (by omega) (by omega) (by omega))]
        exact charsFrom_char (utf8Class_three (by omega) (by omega)) rest
      · simp only [List.map_cons, List.map_nil, List.cons_append, List.nil_append]
        rw [charsFrom_incomplete (utf8Class_lead (by omega) (by omega)),
          charsFrom_incomplete
            (utf8Class_second (by omega) (by omega) (by omega) (by omega) (by omega) (by omega)),
          charsFrom_incomplete (utf8Class_third (by omega) (by omega) _)]
        exact charsFrom_char (utf8Class_four (by omega)) rest

/-- Whatever units follow, these are read as the characters. -/
def Reads (units : StrLit) (chars : List Char) : Prop :=
  ∀ rest : StrLit, charsFrom [] (units ++ rest) = chars.map some ++ charsFrom [] rest

theorem Reads.nil : Reads [] [] := fun _ => rfl

theorem Reads.append {units units' : StrLit} {chars chars' : List Char} (h : Reads units chars)
    (h' : Reads units' chars') : Reads (units ++ units') (chars ++ chars') := by
  intro rest
  rw [List.append_assoc, h, h', List.map_append, List.append_assoc]

theorem reads_escape (c : Char) : Reads [.escape c] [c] := fun _ => rfl

theorem reads_unicode {code : Nat} (hcode : isSurrogate code = false) :
    Reads [.unicode code] [Char.ofNat code] := by
  have hchar : unicodeChar code = some (Char.ofNat code) := by
    rw [unicodeChar, hcode]
    rfl
  intro rest
  change charsFrom [] (.unicode code :: rest) = some (Char.ofNat code) :: charsFrom [] rest
  rw [← hchar]
  cases rest with
  | nil => rfl
  | cons unit rest => cases unit with
    | raw b => rfl
    | escape c => rfl
    | unicode low =>
        have hpair : isPair code low = false := by
          simp only [isSurrogate, Bool.and_eq_false_iff, decide_eq_false_iff_not] at hcode
          simp only [isPair, Bool.and_eq_false_iff, decide_eq_false_iff_not]
          omega
        rw [charsFrom, hpair]
        rfl

/-- The text is how a string literal spells the character. -/
def SpellsChar (text : Bytes) (c : Char) : Prop := ∃ units, Spells text units ∧ Reads units [c]

theorem spells_flatMap {encode : Char → Bytes} (h : ∀ c, SpellsChar (encode c) c) (chars : List Char) :
    ∃ units, Spells (chars.flatMap encode) units ∧ Reads units chars := by
  induction chars with
  | nil => exact ⟨[], Spells.nil, Reads.nil⟩
  | cons c chars ih =>
      obtain ⟨first, hspells, hreads⟩ := h c
      obtain ⟨units, hspells', hreads'⟩ := ih
      exact ⟨first ++ units, hspells.append hspells', hreads.append hreads'⟩

theorem Reads.decoded {units : StrLit} {chars : List Char} (h : Reads units chars) :
    StrLit.decoded units = some (String.ofList chars) := by
  have hchars : StrLit.chars units = chars.map some := by
    have hread := h []
    rw [List.append_nil] at hread
    rw [StrLit.chars, hread]
    exact List.append_nil _
  have hwell : StrLit.wellFormed units = true := by
    rw [StrLit.wellFormed, hchars, List.all_map]
    exact List.all_eq_true.mpr fun _ _ => rfl
  rw [StrLit.decoded_of_wellFormed hwell, StrLit.coerced, hchars, List.map_map]
  exact congrArg (fun l => some (String.ofList l)) (List.map_id chars)

/-! ### Tokens -/

/-- Between tokens the bytes are lexed as the tokens. -/
def Writes (text : Bytes) (tokens : List Token) : Prop :=
  ∀ rest, lex .ground (text ++ rest) = (lex .ground rest).map (tokens ++ ·)

theorem Writes.append {text text' : Bytes} {tokens tokens' : List Token} (h : Writes text tokens)
    (h' : Writes text' tokens') : Writes (text ++ text') (tokens ++ tokens') := by
  intro rest
  rw [List.append_assoc, h, h', Option.map_map]
  exact congrArg (Option.map · _) (funext fun more => (List.append_assoc _ _ _).symm)

theorem writes_punctuation {b : UInt8} {token : Token} (h : groundStep b = some ([token], .ground)) :
    Writes [b] [token] := by
  intro rest
  change lex .ground (b :: rest) = _
  rw [lex_cons, Mode.step, h, Option.bind_some]

theorem writes_string {text : Bytes} {units : StrLit} (h : Spells text units) :
    Writes (ascii '"' :: text ++ [ascii '"']) [.str units] := by
  intro rest
  have hopen : Mode.ground.step (ascii '"') = some ([], .string []) := rfl
  rw [List.append_assoc, List.cons_append, lex_silent hopen, h, List.nil_append]
  change lex (.string units) (ascii '"' :: rest) = _
  rw [lex_cons, Mode.step, if_pos rfl, Option.bind_some]

/-- An object, given its written members. -/
def objectText (fields : List Bytes) : Bytes :=
  ascii '\x7b' :: [ascii ','].intercalate fields ++ [ascii '\x7d']

end Json
