import ApigateBenchmark.Library.Bytes

/-!
# bcrypt, as far as auth-service relies on it

`golang.org/x/crypto/bcrypt` is not part of the repository. Its two functions are a parameter, at the
default cost, and what is documented of them is stated here: hashing refuses long passwords, the
comparison looks at no length, and all either takes from a password is a key of 72 bytes.
-/

namespace ApigateBenchmark.AuthService

structure Bcrypt where
  generateFromPassword : (salt password : Bytes) → Option Bytes
  compareHashAndPassword : (hash password : Bytes) → Bool

/-- The first 72 bytes of the endless repetition of the password and a zero byte. -/
def bcryptKey (password : Bytes) : Bytes :=
  (List.range 72).map fun i => (password ++ [0]).getD (i % (password.length + 1)) 0

namespace Bcrypt

def RefusesLong (bcrypt : Bcrypt) : Prop :=
  ∀ salt password, 72 < password.length → bcrypt.generateFromPassword salt password = none

def HashesShort (bcrypt : Bcrypt) : Prop :=
  ∀ salt password, password.length ≤ 72 → ∃ hash, bcrypt.generateFromPassword salt password = some hash

def AcceptsOwn (bcrypt : Bcrypt) : Prop :=
  ∀ salt password hash, bcrypt.generateFromPassword salt password = some hash →
    bcrypt.compareHashAndPassword hash password = true

def ComparesKeys (bcrypt : Bcrypt) : Prop :=
  ∀ salt password hash, bcrypt.generateFromPassword salt password = some hash →
    ∀ other, bcrypt.compareHashAndPassword hash other = true ↔ bcryptKey password = bcryptKey other

end Bcrypt

/-- A bcrypt whose hash is the key itself. -/
def keyBcrypt : Bcrypt where
  generateFromPassword _ password := if 72 < password.length then none else some (bcryptKey password)
  compareHashAndPassword hash password := hash == bcryptKey password

theorem keyBcrypt_refusesLong : keyBcrypt.RefusesLong := fun _ _ hlong => if_pos hlong

theorem keyBcrypt_hashesShort : keyBcrypt.HashesShort := fun _ password hshort =>
  ⟨bcryptKey password, if_neg (Nat.not_lt.mpr hshort)⟩

theorem keyBcrypt_comparesKeys : keyBcrypt.ComparesKeys := by
  intro salt password hash hhash other
  simp only [keyBcrypt, Option.ite_none_left_eq_some, Option.some.injEq] at hhash
  rw [← hhash.2]
  exact beq_iff_eq

theorem keyBcrypt_acceptsOwn : keyBcrypt.AcceptsOwn := fun salt password hash hhash =>
  (keyBcrypt_comparesKeys salt password hash hhash password).mpr rfl

/-- A password that fits the key is found at its front. -/
theorem take_bcryptKey {password : Bytes} (h : password.length ≤ 72) :
    (bcryptKey password).take password.length = password := by
  apply List.ext_getElem
  · simp [bcryptKey, h]
  · intro i hi hpassword
    have hmod : i % (password.length + 1) = i := Nat.mod_eq_of_lt (by omega)
    simp [bcryptKey, hmod, List.getElem?_append_left hpassword, hpassword]

/-- Among passwords of one length that fits, the key tells all apart. -/
theorem bcryptKey_inj {password other : Bytes} (hfits : password.length ≤ 72)
    (hlength : other.length = password.length) (h : bcryptKey password = bcryptKey other) :
    password = other := by
  calc password = (bcryptKey password).take password.length := (take_bcryptKey hfits).symm
    _ = (bcryptKey other).take other.length := by rw [h, hlength]
    _ = other := take_bcryptKey (hlength ▸ hfits)

end ApigateBenchmark.AuthService
