import ApigateBenchmark.GatewayPython.Gateway
import ApigateBenchmark.Library.Json
import Mathlib.Algebra.Ring.Int.Defs

/-!
# The schemas as msgspec reads them

The decoders of `SearchInput`, `LookupInput` and `VerifyOut`. Keys are matched as they are, and of
several members under one key the last wins, though each must have the right type. A field without a
default must be there. A member under any other key is passed over, but still read: an escape for half of
a surrogate pair is an error anywhere in the body.

A `Msgspec` says what these modules leave open: what becomes of a number where an `int` is expected that
is no integer of 64 bits, which numbers can be passed over, and how deep a member may be nested before
the recursion limit of the interpreter is reached. Nothing here depends on it.
-/

namespace ApigateBenchmark.GatewayPython

open Json

structure Msgspec where
  asInt : NumLit → Option Int
  passesNumber : NumLit → Bool
  nesting : Nat

variable (msgspec : Msgspec)

def fitsInt64 (n : Int) : Bool := -(2 : Int) ^ 63 ≤ n && n < (2 : Int) ^ 63

/-- `str | None` -/
def readStr : Value → Option (Option Bytes)
  | .null => some none
  | .str lit => lit.decoded.map fun text => some (Bytes.utf8 text)
  | _ => none

/-- `int | None` -/
def readInt : Value → Option (Option Int)
  | .null => some none
  | .num lit =>
      if lit.isInteger && fitsInt64 lit.toInt then some (some lit.toInt) else (msgspec.asInt lit).map some
  | _ => none

/-- A literal of a member that is passed over. -/
def Msgspec.passesLeaf : Value → Bool
  | .str lit => lit.paired
  | .num lit => msgspec.passesNumber lit
  | _ => true

def Msgspec.passes (value : Value) : Bool :=
  value.depth ≤ msgspec.nesting && value.leaves.all msgspec.passesLeaf

/-- What msgspec asks of the members of an object, whatever it makes of the fields. -/
def Msgspec.readsMembers (fields : List String) (members : List Member) : Bool :=
  members.all fun member =>
    member.1.paired && ((fields.any fun name => isKey name member.1) || msgspec.passes member.2)

def decodeSearchInput (body : Bytes) : Option SearchInput :=
  match parse body with
  | some (.obj members) =>
      if msgspec.readsMembers ["category", "max_price"] members then do
        let category ← readField (isKey "category") (fun _ => readStr) none members
        let maxPrice ← readField (isKey "max_price") (fun _ => readInt msgspec) none members
        some ⟨category, maxPrice⟩
      else none
  | _ => none

/-- `str` -/
def readText : Value → Option (Option String)
  | .str lit => lit.decoded.map some
  | _ => none

def decodeLookupInput (body : Bytes) : Option LookupInput :=
  match parse body with
  | some (.obj members) =>
      if msgspec.readsMembers ["q"] members then do
        let q ← readField (isKey "q") (fun _ => readText) none members
        q.map LookupInput.mk
      else none
  | _ => none

def decodeVerifyOut (body : Bytes) : Option VerifyOut :=
  match parse body with
  | some (.obj members) =>
      if msgspec.readsMembers ["user_id", "email"] members then do
        let userId ← readField (isKey "user_id") (fun _ => readText) none members
        let email ← readField (isKey "email") (fun _ => readText) none members
        some ⟨← userId, ← email⟩
      else none
  | _ => none

/-- The decoder of `VerifyOut` is the one of msgspec, its exceptions aside. -/
def Decoders.DecodesVerify (decoders : Decoders) : Prop :=
  ∀ body, (decoders.verify body).toOption = decodeVerifyOut msgspec body

/-- The decoder of `LookupInput` is the one of msgspec, its exceptions aside. -/
def Decoders.DecodesLookup (decoders : Decoders) : Prop :=
  ∀ body, (decoders.lookup body).toOption = decodeLookupInput msgspec body

/-- A decoder that takes 64-bit integers and no other numbers, in bodies of a few levels. -/
def plainMsgspec : Msgspec := ⟨fun _ => none, fun lit => lit.isInteger && fitsInt64 lit.toInt, 16⟩

end ApigateBenchmark.GatewayPython
