import ApigateBenchmark.Contract.SearchAgreement
import ApigateBenchmark.GatewayLua.Remap

/-!
# The query the four gateways send to data-service

A lookup body that all four gateways take is an object with one `q`, which all four read as the same
string. They trim it by three notions of white space: the six ASCII bytes within `White_Space` within
`str.isspace`. So the queries are one and the same exactly if what is left after ASCII white space
neither begins nor ends with white space in the sense of Python.
-/

namespace ApigateBenchmark.Contract

open Json GatewayLua WhiteSpace

variable (msgspec : GatewayPython.Msgspec) (doubles : Doubles) (cjson : Cjson doubles)

/-- The four internal bodies hold the same query. -/
structure SameQuery (python : GatewayPython.LookupInternal) (rust : GatewayApigate.LookupInternal)
    (kong apisix : GatewayLua.LookupInternal) : Prop where
  rust : rust.query = python.query
  kong : kong.query = some (Bytes.utf8 python.query)
  apisix : apisix.query = some (Bytes.utf8 python.query)

/-- Without the ASCII white space around it the string neither begins nor ends with `str.isspace`. -/
def OnlyAsciiAround (q : String) : Prop :=
  Bare GatewayPython.isSpace (WhiteSpace.trim isAsciiSpaceChar q.toList)

/-! ### Three notions of white space -/

theorem isWhitespace_of_ascii (c : Char) (h : isAsciiSpaceChar c = true) :
    GatewayApigate.isWhitespace c = true := by
  simp only [isAsciiSpaceChar, GatewayApigate.isWhitespace, Bool.or_eq_true, Bool.and_eq_true, beq_iff_eq,
    decide_eq_true_eq] at h ⊢
  omega

theorem isSpace_of_isWhitespace (c : Char) (h : GatewayApigate.isWhitespace c = true) :
    GatewayPython.isSpace c = true := by
  simp only [GatewayPython.isSpace, GatewayApigate.isWhitespace, Bool.or_eq_true, Bool.and_eq_true,
    beq_iff_eq, decide_eq_true_eq] at h ⊢
  omega

theorem isSpace_of_ascii (c : Char) (h : isAsciiSpaceChar c = true) : GatewayPython.isSpace c = true :=
  isSpace_of_isWhitespace c (isWhitespace_of_ascii c h)

theorem strip_eq (q : String) :
    GatewayPython.strip q = String.ofList (WhiteSpace.trim GatewayPython.isSpace q.toList) := rfl

/-- What the four make of one string is the same exactly if the widest and the narrowest notion of white
space are. -/
theorem sameQuery_iff (q : String) (limit : Nat) (source : String) :
    SameQuery (GatewayPython.lookupInternal ⟨q⟩) (GatewayApigate.remapLookup ⟨q⟩)
        ⟨GatewayLua.trim (Bytes.utf8 q), limit, source⟩ ⟨GatewayLua.trim (Bytes.utf8 q), limit, source⟩ ↔
      OnlyAsciiAround q := by
  have hlua : GatewayLua.trim (Bytes.utf8 q) = some (Bytes.utf8 (GatewayPython.strip q)) ↔
      OnlyAsciiAround q := by
    rw [trim_eq, trim_utf8, Option.some.injEq, Bytes.utf8_injective.eq_iff, strip_eq, String.ofList_inj,
      eq_comm, trim_eq_trim_iff isSpace_of_ascii, OnlyAsciiAround]
  rw [← hlua]
  constructor
  · exact fun h => h.kong
  · intro h
    refine ⟨?_, h, h⟩
    have hbare : Bare GatewayApigate.isWhitespace (WhiteSpace.trim isAsciiSpaceChar q.toList) :=
      (hlua.mp h).of_le isSpace_of_isWhitespace
    have hrust := (trim_eq_trim_iff isWhitespace_of_ascii q.toList).mpr hbare
    have hpython := (trim_eq_trim_iff isSpace_of_ascii q.toList).mpr (hlua.mp h)
    change String.ofList (WhiteSpace.trim GatewayApigate.isWhitespace q.toList) =
      String.ofList (WhiteSpace.trim GatewayPython.isSpace q.toList)
    rw [hrust, hpython]

/-! ### One body, one string -/

/-- The last `q` of the object is a literal of that string. -/
def ReadsQ (members : List Member) (q : String) : Prop :=
  ∃ lit, lastValue (isKey "q") members = some (.str lit) ∧ lit.decoded = some q

theorem ReadsQ.unique {members : List Member} {q r : String} (hq : ReadsQ members q)
    (hr : ReadsQ members r) : q = r := by
  obtain ⟨lit, hlast, hdecoded⟩ := hq
  obtain ⟨other, hsame, hother⟩ := hr
  rw [hlast, Option.some.injEq, Value.str.injEq] at hsame
  rw [← hsame, hdecoded] at hother
  exact Option.some.inj hother

variable {msgspec} in
theorem python_reads {body : Bytes} {members : List Member} (hparse : parse body = some (.obj members))
    {payload : GatewayPython.LookupInput}
    (h : GatewayPython.decodeLookupInput msgspec body = some payload) : ReadsQ members payload.q := by
  simp only [GatewayPython.decodeLookupInput, hparse, Option.ite_none_right_eq_some, Option.bind_eq_bind,
    Option.bind_eq_some_iff, Option.map_eq_some_iff] at h
  obtain ⟨-, read, hread, q, rfl, rfl⟩ := h
  obtain ⟨hall, hvalue⟩ := (readField_eq_some_iff (isKey "q") GatewayPython.readText none members _).mp hread
  cases hlast : lastValue (isKey "q") members with
  | none =>
      rw [hlast] at hvalue
      exact absurd hvalue (by simp)
  | some value =>
      have hsome := lastValue_property (fun value => (GatewayPython.readText value).isSome = true) hall
        value hlast
      rw [hlast, Option.bind_some] at hvalue
      cases value with
      | str lit =>
          rw [GatewayPython.readText] at hvalue
          cases hdecoded : lit.decoded with
          | none =>
              rw [hdecoded] at hvalue
              exact absurd hvalue (by simp)
          | some text =>
              rw [hdecoded] at hvalue
              obtain rfl := Option.some.inj hvalue
              exact ⟨lit, hlast, hdecoded⟩
      | _ => simp [GatewayPython.readText] at hsome

theorem rust_reads {body : Bytes} {members : List Member} (hparse : parse body = some (.obj members))
    {input : GatewayApigate.LookupInput} (h : GatewayApigate.decodeLookupInput body = some input) :
    ReadsQ members input.q := by
  simp only [GatewayApigate.decodeLookupInput, hparse, Option.ite_none_right_eq_some, Option.bind_eq_bind,
    Option.bind_eq_some_iff, Option.map_eq_some_iff] at h
  obtain ⟨-, read, hread, q, rfl, rfl⟩ := h
  rw [GatewayApigate.readOnce] at hread
  split at hread
  · exact absurd hread (by simp)
  · rename_i member hone
    have hlast : lastValue (isKey "q") members = some member.2 := by
      rw [lastValue, hone]
      rfl
    cases hvalue : member.2 with
    | str lit =>
        rw [hvalue, GatewayApigate.readStrRef] at hread
        split at hread
        · obtain ⟨text, htext, hq⟩ := Option.map_eq_some_iff.mp hread
          obtain rfl := Option.some.inj hq
          exact ⟨lit, by rw [hlast, hvalue], htext⟩
        · exact absurd hread (by simp)
    | _ =>
        rw [hvalue] at hread
        simp [GatewayApigate.readStrRef] at hread
  · exact absurd hread (by simp)

/-- A body either Lua gateway sends on holds the trimmed `q` of an object. -/
theorem lua_reads (hcjson : DecodesJson doubles cjson) {body : Bytes} {tree : Value}
    (hparse : parse body = some tree) (hwell : tree.paired = true → tree.wellFormed = true)
    {value : LuaValue doubles} (hvalue : cjson body = some value) {internal : GatewayLua.LookupInternal}
    (hremap : remapBody doubles value = .ok internal) :
    ∃ members q, tree = .obj members ∧ ReadsQ members q ∧
      internal = ⟨GatewayLua.trim (Bytes.utf8 q), lookupLimit, lookupSource⟩ := by
  obtain ⟨hpaired, hdepth⟩ := hcjson.taken doubles cjson hparse (by rw [hvalue]; simp)
  have htree : (toLua doubles tree).isSome = true := (toLua_isSome doubles tree).trans (hwell hpaired)
  obtain ⟨converted, hconverted⟩ := Option.isSome_iff_exists.mp htree
  have hdecoded := hcjson.decodes body tree converted hparse hdepth hconverted
  obtain rfl : value = converted := Option.some.inj (hvalue.symm.trans hdecoded)
  obtain ⟨members, fields, rfl, rfl, hfields⟩ := obj_of_remapBody doubles hconverted hremap
  obtain ⟨lit, text, hlast, htext, hinternal⟩ := (remapBody_table doubles hfields internal).mp hremap
  exact ⟨members, text, rfl, ⟨lit, hlast, htext⟩, hinternal⟩

/-- The bodies the four gateways send on for a lookup they all accept hold the same query exactly if
nothing but ASCII white space surrounds the string. -/
theorem lookup_query_same_iff (hcjson : DecodesJson doubles cjson) {body : Bytes} {members : List Member}
    (hparse : parse body = some (.obj members)) (hwell : membersWellFormed members = true)
    {payload : GatewayPython.LookupInput} {input : GatewayApigate.LookupInput}
    {kong apisix : GatewayLua.LookupInternal}
    (hpython : GatewayPython.decodeLookupInput msgspec body = some payload)
    (hrust : GatewayApigate.decodeLookupInput body = some input)
    (hkong : kongRemap doubles cjson body = .ok kong)
    (hapisix : apisixRemap doubles cjson (some body) = .ok apisix) :
    SameQuery (GatewayPython.lookupInternal payload) (GatewayApigate.remapLookup input) kong apisix ↔
      OnlyAsciiAround payload.q := by
  have hq := python_reads hparse hpython
  obtain ⟨value, hvalue, hremap⟩ := decoded_of_kongRemap doubles cjson hkong
  obtain ⟨value', hvalue', hremap'⟩ := decoded_of_apisixRemap doubles cjson hapisix
  obtain ⟨_, q, hobj, hkongQ, rfl⟩ := lua_reads doubles cjson hcjson hparse (fun _ => hwell) hvalue hremap
  obtain ⟨_, r, hobj', hapisixQ, rfl⟩ :=
    lua_reads doubles cjson hcjson hparse (fun _ => hwell) hvalue' hremap'
  obtain rfl := Value.obj.inj hobj
  obtain rfl := Value.obj.inj hobj'
  obtain rfl := hq.unique hkongQ
  obtain rfl := hq.unique hapisixQ
  obtain ⟨q⟩ := payload
  obtain ⟨r⟩ := input
  obtain rfl : q = r := hq.unique (rust_reads hparse hrust)
  exact sameQuery_iff q lookupLimit lookupSource

def lookupText : Bytes := Bytes.utf8 "\x7b\"q\":\" pen \"\x7d"

def lookupMembers : List Member :=
  [((Bytes.utf8 "q").map .raw, .str ((Bytes.utf8 " pen ").map .raw))]

theorem lookup_query_same_pen :
    SameQuery (GatewayPython.lookupInternal ⟨" pen "⟩) (GatewayApigate.remapLookup ⟨" pen "⟩)
        ⟨some (Bytes.utf8 "pen"), 20, "gateway"⟩ ⟨some (Bytes.utf8 "pen"), 20, "gateway"⟩ ↔
      OnlyAsciiAround " pen " := by
  have hparse : parse lookupText = some (.obj lookupMembers) := rfl
  have hwell : membersWellFormed lookupMembers = true := by decide +kernel
  exact lookup_query_same_iff GatewayPython.plainMsgspec decimals strictCjson strictCjson_decodes hparse hwell
    (by decide +kernel) (by decide +kernel) (by decide +kernel) (by decide +kernel)

/-- A lookup for `pen` after a no-break space, spelled as it is. -/
def spacedText : Bytes := Bytes.utf8 "\x7b\"q\":\"\u00a0pen\"\x7d"

def spacedMembers : List Member :=
  [((Bytes.utf8 "q").map .raw, .str ((Bytes.utf8 "\u00a0pen").map .raw))]

/-- Python and Rust trim a no-break space, Lua does not. -/
theorem lookup_query_no_break_space :
    ¬ ∀ (msgspec : GatewayPython.Msgspec) (doubles : Doubles) (cjson : Cjson doubles) (body : Bytes)
        (members : List Member) (payload : GatewayPython.LookupInput) (input : GatewayApigate.LookupInput)
        (kong apisix : GatewayLua.LookupInternal),
      DecodesJson doubles cjson → parse body = some (.obj members) → membersWellFormed members = true →
      GatewayPython.decodeLookupInput msgspec body = some payload →
      GatewayApigate.decodeLookupInput body = some input → kongRemap doubles cjson body = .ok kong →
      apisixRemap doubles cjson (some body) = .ok apisix →
      SameQuery (GatewayPython.lookupInternal payload) (GatewayApigate.remapLookup input) kong apisix := by
  intro h
  have hparse : parse spacedText = some (.obj spacedMembers) := rfl
  have hsame := h GatewayPython.plainMsgspec decimals strictCjson spacedText spacedMembers ⟨"\u00a0pen"⟩
    ⟨"\u00a0pen"⟩ ⟨some (Bytes.utf8 "\u00a0pen"), 20, "gateway"⟩
    ⟨some (Bytes.utf8 "\u00a0pen"), 20, "gateway"⟩ strictCjson_decodes hparse
    (by decide +kernel) (by decide +kernel) (by decide +kernel) (by decide +kernel) (by decide +kernel)
  have hdiffer : some (Bytes.utf8 "\u00a0pen") ≠
      some (Bytes.utf8 (GatewayPython.lookupInternal ⟨"\u00a0pen"⟩).query) := by decide +kernel
  exact hdiffer hsame.kong

end ApigateBenchmark.Contract
