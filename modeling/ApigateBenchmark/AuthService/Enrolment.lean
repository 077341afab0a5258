import ApigateBenchmark.AuthService.Accounts

/-!
# What is known of a stored user

A user got into the store through a `Register` of the run: its email passed the check of `Register`, and
so is the text of a JSON string and not empty, and its ID is the one that request drew.
-/

namespace ApigateBenchmark.AuthService

open GoJson

variable {jwt : Jwt} {bcrypt : Bcrypt} {issuer : Issuer}

/-- The bytes are the UTF-8 of a text. -/
def IsText (b : GoString) : Prop := ∃ text : String, b = Bytes.utf8 text

/-- `uuid.NewString` draws texts that are not empty. -/
def Draw.Proper (draw : Draw) : Prop := IsText draw.id ∧ draw.id ≠ []

def Service.requests (s : Service) : List Request := s.tasks.map Task.request

/-- Every `Register` of the run draws, or would draw, a proper ID. -/
def Service.DrawsProper (s : Service) : Prop :=
  ∀ body draw, Request.register body draw ∈ s.requests → draw.Proper

/-- The user was stored for a `Register` of the run. -/
def Service.EnrolledBy (s : Service) (email : GoString) (user : User) : Prop :=
  ∃ body draw input, Request.register body draw ∈ s.requests ∧ registerInput body = .ok input ∧
    input.email = email ∧ user.id = draw.id

theorem Service.Steps.requests_subset {s s' : Service} {label : Label}
    (h : Service.Steps jwt bcrypt issuer s label s') : s.requests ⊆ s'.requests := by
  cases h with
  | arrives request =>
      simp only [Service.requests, List.map_append]
      exact List.subset_append_left _ _
  | ticks now => exact List.Subset.refl _
  | @advances id request progress progress' store htask hsteps =>
      intro other hother
      obtain ⟨task, htaskMem, rfl⟩ := List.mem_map.mp hother
      obtain ⟨index, hindex⟩ := List.mem_iff_getElem?.mp htaskMem
      by_cases hsame : index = id
      · -- the task keeps its request
        subst hsame
        rw [htask] at hindex
        cases hindex
        have hlt := (List.getElem?_eq_some_iff.mp htask).1
        exact List.mem_map.mpr ⟨⟨request, progress'⟩,
          List.mem_of_getElem? (List.getElem?_set_self hlt), rfl⟩
      · refine List.mem_map.mpr ⟨task, List.mem_of_getElem? (i := index) ?_, rfl⟩
        rw [List.getElem?_set_ne (Ne.symm hsame), hindex]

theorem Service.EnrolledBy.mono {s s' : Service} (hsubset : s.requests ⊆ s'.requests) {email : GoString}
    {user : User} (h : s.EnrolledBy email user) : s'.EnrolledBy email user := by
  obtain ⟨body, draw, input, hmem, hrest⟩ := h
  exact ⟨body, draw, input, hsubset hmem, hrest⟩

/-- A step of a task leaves the users alone, or stores one for the `Register` it is. -/
theorem Task.Steps.stores {now : Time} {store store' : Store} {request : Request}
    {progress progress' : Progress}
    (h : Task.Steps jwt bcrypt issuer now store request progress store' progress')
    (hknows : Task.Knows jwt bcrypt issuer store request progress) :
    store' = store ∨ ∃ body draw input hash, request = .register body draw ∧
      registerInput body = .ok input ∧ store' = store.insert ⟨draw.id, input.email, hash⟩ := by
  cases h with
  | enters => exact .inl rfl
  | leaves hleave => exact .inl rfl
  | works hsteps =>
      cases hsteps with
      | @inserts email password draw hash hptr =>
          cases request with
          | register body draw' =>
              obtain ⟨⟨hinput, rfl⟩, -⟩ := hknows
              exact .inr ⟨body, _, _, hash, rfl, hinput, rfl⟩
          | login body => exact hknows.1.elim
          | verify auth => exact hknows.1.elim
      | _ => exact .inl rfl

theorem Service.Steps.enrolled {s s' : Service} {label : Label}
    (h : Service.Steps jwt bcrypt issuer s label s') (hsound : s.Sound jwt bcrypt issuer)
    (henrolled : ∀ email user, s.store.user email = some user → s.EnrolledBy email user) :
    ∀ email user, s'.store.user email = some user → s'.EnrolledBy email user := by
  intro email user huser
  have hsubset := h.requests_subset
  cases h with
  | arrives request => exact (henrolled email user huser).mono hsubset
  | ticks now => exact (henrolled email user huser).mono hsubset
  | @advances id request progress progress' store htask hsteps =>
      obtain rfl | ⟨body, draw, input, hash, rfl, hinput, rfl⟩ :=
        hsteps.stores (hsound _ (List.mem_of_getElem? htask))
      · exact (henrolled email user huser).mono hsubset
      · rw [Store.user_insert] at huser
        by_cases hemail : email = input.email
        · subst hemail
          rw [Function.update_self, Option.some.injEq] at huser
          subst huser
          have hmem : Request.register body draw ∈ s.requests :=
            List.mem_map.mpr ⟨_, List.mem_of_getElem? htask, rfl⟩
          exact ⟨body, draw, input, hsubset hmem, hinput, rfl, rfl⟩
        · rw [Function.update_of_ne hemail] at huser
          exact (henrolled email user huser).mono hsubset

theorem Service.run_enrolled {s : Service} {labels : List Label}
    (hrun : Transition.run (Service.step jwt bcrypt issuer) Service.start labels = some s)
    {email : GoString} {user : User} (huser : s.store.user email = some user) :
    s.EnrolledBy email user := by
  have hstart : Service.start.Sound jwt bcrypt issuer := fun _ hmem => absurd hmem List.not_mem_nil
  have hinv := Transition.run_invariant (Service.step jwt bcrypt issuer)
    (I := fun t => t.Sound jwt bcrypt issuer ∧
      ∀ email user, t.store.user email = some user → t.EnrolledBy email user)
    (fun t label t' ht hstep => ⟨(Service.step_spec hstep).sound ht.1,
      (Service.step_spec hstep).enrolled ht.1 ht.2⟩)
    ⟨hstart, fun email user h => nomatch h⟩ hrun
  exact hinv.2 email user huser

/-! ### Emails and IDs -/

/-- What a member decodes into is the zero value or the text of a literal. -/
theorem isText_readField {isKey : Json.StrLit → Bool} {members : List Json.Member} {initial value : Bytes}
    (hinitial : IsText initial) (h : Json.readField isKey readString initial members = some value) :
    IsText value := by
  induction members generalizing initial with
  | nil =>
      obtain rfl := Option.some.inj h
      exact hinitial
  | cons member rest ih =>
      rw [Json.readField, List.foldlM_cons] at h
      obtain ⟨next, hnext, hrest⟩ := Option.bind_eq_some_iff.mp h
      refine ih ?_ hrest
      split at hnext
      · cases hvalue : member.2 with
        | str lit =>
            rw [hvalue] at hnext
            obtain rfl := Option.some.inj hnext
            exact ⟨lit.coerced, rfl⟩
        | null =>
            rw [hvalue] at hnext
            obtain rfl := Option.some.inj hnext
            exact hinitial
        | _ =>
            rw [hvalue] at hnext
            cases hnext
      · obtain rfl := Option.some.inj hnext
        exact hinitial

theorem isText_email {data : Bytes} {input : Credentials} (h : unmarshalCredentials data = some input) :
    IsText input.email := by
  rw [unmarshalCredentials, unmarshal] at h
  split at h
  · obtain rfl := Option.some.inj h
    exact ⟨"", rfl⟩
  · obtain ⟨email, hemail, hrest⟩ := Option.bind_eq_some_iff.mp h
    obtain ⟨password, -, hinput⟩ := Option.bind_eq_some_iff.mp hrest
    obtain rfl := Option.some.inj hinput
    exact isText_readField ⟨"", rfl⟩ hemail
  · cases h

theorem Service.EnrolledBy.email {s : Service} {email : GoString} {user : User}
    (h : s.EnrolledBy email user) : IsText email ∧ email ≠ [] := by
  obtain ⟨body, draw, input, -, hinput, rfl, -⟩ := h
  obtain ⟨hbody, hadmitted⟩ := registerInput_ok hinput
  refine ⟨isText_email hbody, fun hempty => ?_⟩
  rw [Credentials.admitted, hempty] at hadmitted
  exact absurd hadmitted (by simp)

theorem Service.EnrolledBy.id {s : Service} (hdraws : s.DrawsProper) {email : GoString} {user : User}
    (h : s.EnrolledBy email user) : IsText user.id ∧ user.id ≠ [] := by
  obtain ⟨body, draw, input, hmem, -, -, hid⟩ := h
  rw [hid]
  exact hdraws body draw hmem

end ApigateBenchmark.AuthService
