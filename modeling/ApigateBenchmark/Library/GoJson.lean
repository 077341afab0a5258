import ApigateBenchmark.Library.Json
import Mathlib.Algebra.Ring.Int.Defs

/-!
# `encoding/json` on flat structs

`json.Unmarshal` checks that the bytes are one JSON value and decodes it into the zero value of the
struct. A `null` changes nothing, an object is decoded member by member into the field its key names,
and anything else is a type mismatch. Keys are compared under simple case folding, which meets ASCII in
the letters of both cases, the long s and the Kelvin sign. After a mismatch decoding goes on, but the
error is returned, so the value is lost to a caller that looks at the error first.

The nesting limit of the scanner is left out.
-/

namespace GoJson

open Json

/-- `foldRune`, as far as it decides whether a name of ASCII letters is met. -/
def foldRune (c : Char) : Char :=
  if 'a' ≤ c ∧ c ≤ 'z' then Char.ofNat (c.toNat - 0x20)
  else if c.toNat = 0x17f then 'S'
  else if c.toNat = 0x212a then 'K'
  else c

def foldName (name : String) : List Char := name.toList.map foldRune

/-- The key names the field, in some mix of cases. -/
def isField (name : String) (key : StrLit) : Bool := foldName key.coerced == foldName name

theorem isField_of_isKey {name : String} {key : StrLit} (h : isKey name key = true) :
    isField name key = true := by
  rw [isField, StrLit.coerced_of_decoded (beq_iff_eq.mp h), beq_self_eq_true]

def goString (lit : StrLit) : Bytes := Bytes.utf8 lit.coerced

def isInt64 (n : Int) : Bool := -(2 : Int) ^ 63 ≤ n && n < (2 : Int) ^ 63

/-- Decode into a `*string`. -/
def readStringPtr : Value → Option (Option Bytes)
  | .null => some none
  | .str lit => some (some (goString lit))
  | _ => none

/-- Decode into an `*int`; `ParseInt` takes neither a fraction nor an exponent. -/
def readIntPtr : Value → Option (Option Int)
  | .null => some none
  | .num lit => if lit.isInteger && isInt64 lit.toInt then some (some lit.toInt) else none
  | _ => none

/-- Decode into a `string`; a `null` leaves it as it is. -/
def readString (value : Bytes) : Value → Option Bytes
  | .null => some value
  | .str lit => some (goString lit)
  | _ => none

/-- Decode into an `int`; a `null` leaves it as it is. -/
def readInteger (value : Int) : Value → Option Int
  | .null => some value
  | .num lit => if lit.isInteger && isInt64 lit.toInt then some lit.toInt else none
  | _ => none

/-- `json.Unmarshal`, given the struct's zero value and what it makes of the members of an object. -/
def unmarshal {σ : Type} (zero : σ) (decodeMembers : List Member → Option σ) (data : Bytes) : Option σ :=
  match parse data with
  | some .null => some zero
  | some (.obj members) => decodeMembers members
  | _ => none

end GoJson
