import ApigateBenchmark.AuthService.Security
import ApigateBenchmark.Library.GoJson

/-!
# Configuration

`config/config.go`, with the environment as a function; a variable that is not set is empty. The
configured minutes are multiplied in 64 bits, as durations are.
-/

namespace ApigateBenchmark.AuthService

open GoTime

structure Config where
  listenAddr : GoString
  jwtSecret : Bytes
  jwtTTL : Int
  deriving DecidableEq

/-- `strconv.Atoi`: an optional sign and decimal digits, within the range of `int`. -/
def atoi (s : GoString) : Option Int :=
  let negative := s.head? = some (Json.ascii '-')
  let digits := if negative ∨ s.head? = some (Json.ascii '+') then s.drop 1 else s
  let value : Int := Json.digitsValue digits
  let n := if negative then -value else value
  if digits ≠ [] ∧ digits.all Json.isDigit ∧ GoJson.isInt64 n then some n else none

def orDefault (value default : GoString) : GoString := if value = [] then default else value

def ttlMinutes (s : GoString) : Int :=
  if s = [] then 60
  else match atoi s with
    | some n => if 0 < n then n else 60
    | none => 60

def load (getenv : String → GoString) : Config where
  listenAddr := orDefault (getenv "LISTEN_ADDR") (Bytes.utf8 ":8001")
  jwtSecret := orDefault (getenv "JWT_SECRET") (Bytes.utf8 "dev-secret-change-me")
  jwtTTL := int64 (ttlMinutes (getenv "JWT_TTL_MINUTES") * minute)

/-- The issuer `main` builds. -/
def Config.issuer (config : Config) : Issuer := ⟨config.jwtSecret, config.jwtTTL⟩

theorem atoi_nil : atoi [] = none := by decide

theorem ttlMinutes_eq {s : GoString} {n : Int} (hn : atoi s = some n) (hpos : 0 < n) :
    ttlMinutes s = n := by
  have hset : s ≠ [] := by
    rintro rfl
    rw [atoi_nil] at hn
    cases hn
  simp only [ttlMinutes, if_neg hset, hn, if_pos hpos]

theorem load_ttl {getenv : String → GoString} {n : Int}
    (hn : atoi (getenv "JWT_TTL_MINUTES") = some n) (hpos : 0 < n) :
    (load getenv).issuer.ttl = int64 (n * minute) := by
  rw [Config.issuer, load, ttlMinutes_eq hn hpos]

end ApigateBenchmark.AuthService
