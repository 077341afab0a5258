import ApigateBenchmark.AuthService.FreshTokens
import ApigateBenchmark.Library.GoDocument

/-!
# Tokens that keep what is documented of golang-jwt

The claims as a JSON object, in letters. Whatever the claims are it signs them, the token is printable, and
it parses back to them until it expires: what is assumed of golang-jwt can be had together.
-/

namespace ApigateBenchmark.AuthService

open GoJson Json

/-! ### Bytes in letters -/

def letter (n : UInt8) : UInt8 := 0x61 + n

/-- Two letters from `a` to `p` for each byte. -/
def lettered (b : Bytes) : Bytes := b.flatMap fun x => [letter (x / 16), letter (x % 16)]

def unlettered : Bytes → Bytes
  | high :: low :: rest => ((high - 0x61) * 16 + (low - 0x61)) :: unlettered rest
  | _ => []

def isLetter (x : UInt8) : Bool := 0x20 < x && x < 0x7f

theorem letter_facts (n : Fin 256) :
    (letter (UInt8.ofNat n.val / 16) - 0x61) * 16 + (letter (UInt8.ofNat n.val % 16) - 0x61) =
        UInt8.ofNat n.val ∧
      isLetter (letter (UInt8.ofNat n.val / 16)) ∧ isLetter (letter (UInt8.ofNat n.val % 16)) := by
  revert n
  decide +kernel

theorem unlettered_lettered (b : Bytes) : unlettered (lettered b) = b := by
  induction b with
  | nil => rfl
  | cons x b ih =>
      have hx := (letter_facts ⟨x.toNat, x.toNat_lt⟩).1
      simp only [UInt8.ofNat_toNat] at hx
      show (_ * 16 + _) :: unlettered (lettered b) = _
      rw [ih, hx]

theorem visible_lettered {b : Bytes} (h : b ≠ []) : Bytes.IsVisible (lettered b) := by
  refine ⟨fun hnil => h ?_, fun x hx => ?_⟩
  · rw [← unlettered_lettered b, hnil]
    rfl
  · obtain ⟨y, -, hy⟩ := List.mem_flatMap.mp hx
    have hfacts := (letter_facts ⟨y.toNat, y.toNat_lt⟩).2
    rw [UInt8.ofNat_toNat] at hfacts
    have hx : isLetter x := by
      rcases List.mem_pair.mp hy with rfl | rfl
      · exact hfacts.1
      · exact hfacts.2
    simpa only [isLetter, Bool.and_eq_true, decide_eq_true_eq] using hx

/-! ### Claims -/

def marshalTime : Option Time → Bytes
  | none => Bytes.utf8 "null"
  | some t => marshalInt t

def timeDenoted : Option Time → Denoted
  | none => .null
  | some t => .num (integerLit t)

def readTime : Denoted → Option (Option Time)
  | .null => some none
  | .num lit => some (some lit.toInt)
  | _ => none

theorem readTime_timeDenoted (time : Option Time) : readTime (timeDenoted time) = some time := by
  cases time with
  | none => rfl
  | some t => rw [timeDenoted, readTime, toInt_integerLit]

theorem marshalTime_denotes (time : Option Time) : WritesDenoted (marshalTime time) (timeDenoted time) := by
  cases time with
  | none => exact marshalNil_denotes
  | some t => exact marshalInt_denotes t

def Claims.marshal (claims : Claims) : Bytes :=
  marshalStruct [("email", marshalString claims.email), ("sub", marshalString claims.subject),
    ("iat", marshalTime claims.issuedAt), ("exp", marshalTime claims.expiresAt)]

def Claims.denoted (claims : Claims) : Denoted :=
  .obj [("email", .str (goText claims.email)), ("sub", .str (goText claims.subject)),
    ("iat", timeDenoted claims.issuedAt), ("exp", timeDenoted claims.expiresAt)]

theorem Claims.marshal_denotes (claims : Claims) : WritesDenoted claims.marshal claims.denoted :=
  marshalStruct_denotes <|
    .cons ⟨rfl, marshalString_denotes claims.email⟩ <|
    .cons ⟨rfl, marshalString_denotes claims.subject⟩ <|
    .cons ⟨rfl, marshalTime_denotes claims.issuedAt⟩ <|
    .cons ⟨rfl, marshalTime_denotes claims.expiresAt⟩ .nil

def readClaims : Denoted → Option Claims
  | .obj [(_, .str email), (_, .str subject), (_, iat), (_, exp)] => do
      some ⟨Bytes.utf8 email, Bytes.utf8 subject, ← readTime iat, ← readTime exp⟩
  | _ => none

theorem readClaims_marshal {claims : Claims} (hemail : IsText claims.email) (hsubject : IsText claims.subject) :
    ((parse claims.marshal).bind Value.denoted).bind readClaims = some claims := by
  obtain ⟨email, subject, issuedAt, expiresAt⟩ := claims
  obtain ⟨email, rfl⟩ := hemail
  obtain ⟨subject, rfl⟩ := hsubject
  rw [(Claims.marshal_denotes _).parse_eq, Option.bind_some, Claims.denoted, readClaims,
    readTime_timeDenoted, readTime_timeDenoted, goText_utf8, goText_utf8]
  rfl

def jsonJwt : Jwt where
  signedString _ claims := some (lettered claims.marshal)
  parseWithClaims _ now raw :=
    match ((parse (unlettered raw)).bind Value.denoted).bind readClaims with
    | none => .error .other
    | some claims => if claims.expiresAt.all (now < ·) then .ok ⟨claims, true⟩ else .error .tokenExpired

theorem jsonJwt_signs : jsonJwt.Signs := fun _ _ => ⟨_, rfl⟩

theorem Claims.marshal_ne_nil (claims : Claims) : claims.marshal ≠ [] := by
  rw [Claims.marshal, marshalStruct, objectText]
  exact List.cons_ne_nil _ _

theorem jsonJwt_compact : jsonJwt.Compact := by
  intro secret claims token htoken
  obtain rfl := Option.some.inj htoken
  exact visible_lettered claims.marshal_ne_nil

theorem jsonJwt_roundTrips : jsonJwt.RoundTrips := by
  constructor
  · intro secret claims token htoken
    exact (jsonJwt_compact secret claims token htoken).ne_nil
  · intro secret claims token exp now hemail hsubject _ htoken hexp
    obtain rfl := Option.some.inj htoken
    simp only [jsonJwt, unlettered_lettered, readClaims_marshal hemail hsubject, hexp, Option.all_some,
      decide_eq_true_eq]

end ApigateBenchmark.AuthService
