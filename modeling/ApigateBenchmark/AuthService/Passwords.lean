import ApigateBenchmark.AuthService.Accounts

/-!
# Which passwords `Login` admits

A `Login` that is answered 200 was given a password with the key of the registered one. Hashing refused
what does not fit the key, so of the passwords as long as the registered one `Login` admits that one
alone. It looks at no length itself, and a longer or shorter password can have the same key.
-/

namespace ApigateBenchmark.AuthService

open GoTime

variable {jwt : Jwt} {bcrypt : Bcrypt} {issuer : Issuer}

theorem Task.Knows.login_ok {store : Store} {body : Bytes} {response : Response}
    {signed : Option Claims}
    (h : Task.Knows jwt bcrypt issuer store (.login body) (.responded response signed))
    (hstatus : response.status = 200) : ∃ claims, signed = some claims := by
  obtain ⟨now, henter⟩ | ⟨now, op, result, -, -, hleave⟩ := h
  · cases hinput : loginInput body with
    | error response' =>
        have h400 := loginInput_error hinput
        rw [Request.enter, hinput] at henter
        cases henter
        rw [h400] at hstatus
        cases hstatus
    | ok input =>
        rw [Request.enter, hinput] at henter
        cases henter
  · exact loginResult_ok hleave hstatus

/-- A `Login` answered 200 is for an email that exactly one `Register` created, and its password has the
key of the one registered there; it is that one exactly if it has the same length. -/
theorem login_admits_iff (hrefuses : bcrypt.RefusesLong) (hcompares : bcrypt.ComparesKeys)
    {labels : List Label} {s : Service}
    (hrun : Transition.run (Service.step jwt bcrypt issuer) Service.start labels = some s)
    {body : Bytes} {response : Response} {signed : Option Claims} {email password : GoString}
    (hlogin : ⟨.login body, .responded response signed⟩ ∈ s.tasks) (hstatus : response.status = 200)
    (hbody : unmarshalCredentials body = some ⟨email, password⟩) :
    ∃ id registered, s.createdBy id = some ⟨email, registered⟩ ∧
      (∀ other registered', s.createdBy other = some ⟨email, registered'⟩ → other = id) ∧
      bcryptKey registered = bcryptKey password ∧
      (password = registered ↔ password.length = registered.length) := by
  have hknows := Service.run_sound hrun _ hlogin
  have haccounts := Service.run_accounts hrun
  obtain ⟨claims, rfl⟩ := Task.Knows.login_ok hknows hstatus
  obtain ⟨body', email', password', user, token, now, heq, hbody', huser, haccept, -, -, -⟩ :=
    Task.Knows.signed hknows
  cases heq
  rw [hbody] at hbody'
  cases hbody'
  obtain ⟨id, registered, hcreated⟩ := haccounts.created email user huser
  obtain ⟨user', salt, huser', hhash⟩ := haccounts.stored id _ hcreated
  obtain rfl : user = user' := Option.some.inj (huser.symm.trans huser')
  have hkey : bcryptKey registered = bcryptKey password :=
    (hcompares salt registered user.passwordHash hhash password).mp haccept
  have hfits : registered.length ≤ 72 := by
    apply Nat.le_of_not_lt
    intro hlong
    rw [hrefuses salt registered hlong] at hhash
    cases hhash
  refine ⟨id, registered, hcreated, fun other registered' hother => ?_, hkey, ?_⟩
  · exact haccounts.once other id _ _ hother hcreated rfl
  · exact ⟨congrArg List.length, fun hlength => (bcryptKey_inj hfits hlength hkey).symm⟩

theorem login_admits_iff_visit : ∃ id registered, visitEnd.createdBy id = some ⟨Bytes.utf8 "ann", registered⟩ ∧
    (Bytes.utf8 "secret1" = registered ↔ (Bytes.utf8 "secret1").length = registered.length) := by
  have hlogin : ⟨.login visitBody, .responded ⟨200, .login (Bytes.utf8 "token") "bearer" 3600⟩
      (some visitClaims)⟩ ∈ visitEnd.tasks := by decide +kernel
  have hbody : unmarshalCredentials visitBody = some ⟨Bytes.utf8 "ann", Bytes.utf8 "secret1"⟩ := by
    decide +kernel
  obtain ⟨id, registered, hcreated, -, -, hiff⟩ :=
    login_admits_iff keyBcrypt_refusesLong keyBcrypt_comparesKeys visitRun_eq hlogin rfl hbody
  exact ⟨id, registered, hcreated, hiff⟩

/-! ### A longer password -/

def letters (n : Nat) : Bytes := List.replicate n 0x61

/-- The body with the email `ann` and so many letters for a password. -/
def lettersBody (n : Nat) : Bytes :=
  Bytes.utf8 "\x7b\"email\":\"ann\",\"password\":\"" ++ letters n ++ Bytes.utf8 "\"\x7d"

def longerLabels : List Label :=
  [.clock (7 * second), .arrive (.register (lettersBody 72) ⟨[1], [9]⟩), .advance 0, .advance 0,
    .advance 0, .advance 0, .arrive (.login (lettersBody 73)), .advance 1, .advance 1, .advance 1,
    .advance 1]

def longerRun : Option Service :=
  Transition.run (Service.step (oneTokenJwt visitClaims) keyBcrypt visitIssuer) Service.start longerLabels

def longerEnd : Service := longerRun.getD Service.start

theorem longerRun_eq : longerRun = some longerEnd := eq_some_getD (by decide +kernel) Service.start

/-- Registered with 72 letters, `ann` logs in with 73. -/
theorem login_admits_longer :
    keyBcrypt.RefusesLong ∧ keyBcrypt.ComparesKeys ∧ longerRun = some longerEnd ∧
      longerEnd.tasks[1]? = some ⟨.login (lettersBody 73),
        .responded ⟨200, .login (Bytes.utf8 "token") "bearer" 3600⟩ (some visitClaims)⟩ ∧
      unmarshalCredentials (lettersBody 73) = some ⟨Bytes.utf8 "ann", letters 73⟩ ∧
      ∀ id, longerEnd.createdBy id ≠ some ⟨Bytes.utf8 "ann", letters 73⟩ := by
  refine ⟨keyBcrypt_refusesLong, keyBcrypt_comparesKeys, longerRun_eq, by decide +kernel,
    by decide +kernel, fun id hcreated => ?_⟩
  have hshorter : longerEnd.createdBy 0 = some ⟨Bytes.utf8 "ann", letters 72⟩ := by decide +kernel
  have hid : id = 0 := (Service.run_accounts longerRun_eq).once id 0 _ _ hcreated hshorter rfl
  rw [hid, hshorter] at hcreated
  exact absurd hcreated (by decide)

end ApigateBenchmark.AuthService
