import ApigateBenchmark.Library.Json
import ApigateBenchmark.Library.WhiteSpace
import Mathlib.Algebra.Ring.Int.Defs

/-!
# The body schemas of the Rust gateway

`SearchInput` and `LookupInput` of `routes.rs` as serde's derived decoders read them from a JSON text.
`category` and `q` borrow from the text, so a string with an escape in it cannot be one. `max_price` is
an `i64`; `serde_json` reads `-0` as a float, as it does a literal with a fraction or an exponent. A
repeated member is an error, and a struct may also be given as the array of its fields. Every key of the
object is decoded to be compared; the members of other keys are ignored, and the escapes in them not
looked at. `remap_lookup` trims what has the Unicode property `White_Space`.
-/

namespace ApigateBenchmark.GatewayApigate

open Json

structure SearchInput where
  category : Option Bytes
  maxPrice : Option Int
  deriving DecidableEq

/-- `Option<&'a str>` -/
def readBorrowedStr : Value → Option (Option Bytes)
  | .null => some none
  | .str lit => if lit.isPlain then lit.decoded.map fun text => some (Bytes.utf8 text) else none
  | _ => none

def isI64 (n : Int) : Bool := -(2 : Int) ^ 63 ≤ n && n < (2 : Int) ^ 63

/-- `Option<i64>` -/
def readI64 : Value → Option (Option Int)
  | .null => some none
  | .num lit =>
      if lit.isInteger && isI64 lit.toInt && !(lit.negative && lit.toInt == 0) then some (some lit.toInt)
      else none
  | _ => none

/-- The field under a key, which may be there once. -/
def readOnce {α : Type} (name : String) (read : Value → Option (Option α)) (members : List Member) :
    Option (Option α) :=
  match members.filter fun member => isKey name member.1 with
  | [] => some none
  | [member] => read member.2
  | _ => none

/-- The keys of an object are strings. -/
def readsKeys (members : List Member) : Bool := members.all fun member => member.1.wellFormed

def decodeSearchInput (body : Bytes) : Option SearchInput :=
  match parse body with
  | some (.obj members) =>
      if readsKeys members then do
        let category ← readOnce "category" readBorrowedStr members
        let maxPrice ← readOnce "max_price" readI64 members
        some ⟨category, maxPrice⟩
      else none
  | some (.arr [first, second]) => do
      let category ← readBorrowedStr first
      let maxPrice ← readI64 second
      some ⟨category, maxPrice⟩
  | _ => none

/-! ### Lookup -/

structure LookupInput where
  q : String
  deriving DecidableEq

structure LookupInternal where
  query : String
  limit : Nat
  source : String
  deriving DecidableEq

/-- `&'a str` -/
def readStrRef : Value → Option (Option String)
  | .str lit => if lit.isPlain then lit.decoded.map some else none
  | _ => none

def decodeLookupInput (body : Bytes) : Option LookupInput :=
  match parse body with
  | some (.obj members) =>
      if readsKeys members then do
        let q ← readOnce "q" readStrRef members
        q.map LookupInput.mk
      else none
  | some (.arr [first]) => do
      let q ← readStrRef first
      q.map LookupInput.mk
  | _ => none

/-- `char::is_whitespace` -/
def isWhitespace (c : Char) : Bool :=
  (9 ≤ c.toNat && c.toNat ≤ 13) || c.toNat == 0x20 || c.toNat == 0x85 || c.toNat == 0xa0 ||
    c.toNat == 0x1680 || (0x2000 ≤ c.toNat && c.toNat ≤ 0x200a) || c.toNat == 0x2028 ||
    c.toNat == 0x2029 || c.toNat == 0x202f || c.toNat == 0x205f || c.toNat == 0x3000

/-- `str::trim` -/
def trim (s : String) : String := String.ofList (WhiteSpace.trim isWhitespace s.toList)

def remapLookup (input : LookupInput) : LookupInternal where
  query := trim input.q
  limit := 20
  source := "gateway"

end ApigateBenchmark.GatewayApigate
