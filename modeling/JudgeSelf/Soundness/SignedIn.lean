import JudgeSelf.Model.Submission.Auth
import JudgeSelf.Soundness.Registration

/-! # Whose submissions are stored

The main API hands out access tokens in the answers to logins only, and the submission service takes the user
of a row from such a token. So, if nobody forges tokens, a row of a user goes back to a login of this user in
the five minutes before, with a password that was accepted for the user's row.
-/

namespace JudgeSelf.MainApi

variable {lib : Libraries} {server : Server}

/-- A login signs the id that it is the login of. -/
theorem accessToken_of_findLogin {name password : String} {loginResponse : LoginResponse}
    (found : findLogin lib server name password = some loginResponse) : ∃ username, loginResponse.accessToken =
      lib.sign ⟨loginResponse.userId, username⟩ lib.jwtAccessTokenSecret accessTokenExpiration server.now := by
  have signed {user : UserData} (logged : AuthService.loginUser lib server.now user password = some loginResponse) :
      ∃ username, loginResponse.accessToken =
        lib.sign ⟨loginResponse.userId, username⟩ lib.jwtAccessTokenSecret accessTokenExpiration server.now := by
    rw [AuthService.loginUser] at logged
    split at logged
    · obtain rfl := Option.some.inj logged
      exact ⟨user.username, rfl⟩
    · contradiction
  rw [findLogin] at found
  split at found
  · obtain ⟨user, -, logged⟩ := Option.bind_eq_some_iff.mp found
    split at logged
    · exact signed logged
    · contradiction
  · obtain ⟨user, -, logged⟩ := Option.bind_eq_some_iff.mp found
    exact signed logged

private theorem lookup_asyncHandler {handled : Except Thrown (Response × Server)}
    (answers : ∀ answer next, handled = .ok (answer, next) → answer.json.lookup "accessToken" = none) :
    (asyncHandler server handled).1.json.lookup "accessToken" = none := by
  cases handled with
  | error thrown => rfl
  | ok answered => exact answers answered.1 answered.2 rfl

/-- The other requests are answered without an access token. -/
theorem lookup_authRoutes {request : Request} (other : ∀ name password, request ≠ .login name password) :
    (authRoutes lib server request).1.json.lookup "accessToken" = none := by
  cases request with
  | login name password => exact absurd rfl (other name password)
  | signup username email password id salt =>
    apply lookup_asyncHandler
    intro answer next ran
    rw [AuthController.registerUser] at ran
    split at ran
    · obtain ⟨rfl, rfl⟩ := Prod.mk.inj (Except.ok.inj ran)
      rfl
    · obtain ⟨registered, -, ran⟩ := Except.bind_eq_ok_iff.mp ran
      cases registered with
      | error err =>
        obtain ⟨rfl, rfl⟩ := Prod.mk.inj (Except.ok.inj ran)
        rfl
      | ok created =>
        obtain ⟨rfl, rfl⟩ := Prod.mk.inj (Except.ok.inj ran)
        rfl
  | refreshToken cookie =>
    apply lookup_asyncHandler
    intro answer next ran
    rw [AuthController.refreshToken] at ran
    split at ran
    · obtain ⟨rfl, rfl⟩ := Prod.mk.inj (Except.ok.inj ran)
      rfl
    · contradiction
  | logout authorization =>
    rw [authRoutes, authenticate]
    split
    · rfl
    · next user _ =>
      apply lookup_asyncHandler
      intro answer next ran
      obtain ⟨stored, -, ran⟩ := Except.bind_eq_ok_iff.mp ran
      dsimp only at ran
      split at ran
      · obtain ⟨after, -, ran⟩ := Except.bind_eq_ok_iff.mp ran
        obtain ⟨rfl, rfl⟩ := Prod.mk.inj (Except.ok.inj ran)
        rfl
      · obtain ⟨rfl, rfl⟩ := Prod.mk.inj (Except.ok.inj ran)
        rfl
  | changePassword authorization oldPassword newPassword salt =>
    rw [authRoutes, authenticate]
    split
    · rfl
    · next user _ =>
      apply lookup_asyncHandler
      intro answer next ran
      simp only [AuthController.changePassword] at ran
      split at ran
      · obtain ⟨rfl, rfl⟩ := Prod.mk.inj (Except.ok.inj ran)
        rfl
      · split at ran
        · obtain ⟨rfl, rfl⟩ := Prod.mk.inj (Except.ok.inj ran)
          rfl
        · obtain ⟨rfl, rfl⟩ := Prod.mk.inj (Except.ok.inj ran)
          rfl

/-- An answer holds an access token only after a login, for the user who logs in. -/
theorem logsIn_of_accessToken {request : Request} {token : String}
    (handed : (authRoutes lib server request).1.json.lookup "accessToken" = some token) :
    ∃ name password id username, request = .login name password ∧ LogsIn lib server name password id ∧
      token = lib.sign ⟨id, username⟩ lib.jwtAccessTokenSecret accessTokenExpiration server.now := by
  by_cases login : ∃ name password, request = .login name password
  · obtain ⟨name, password, rfl⟩ := login
    have status := @login_status_iff lib server name password
    rw [authRoutes, AuthController.loginUser] at handed
    split at handed
    · contradiction
    · next given =>
      split at handed
      · contradiction
      · next loginResponse found =>
        rw [not_or] at given
        rw [found] at status
        cases isOpen : server.redisOpen with
        | false =>
          simp only [Server.redisSet, isOpen] at handed
          contradiction
        | true =>
          obtain ⟨username, signed⟩ := accessToken_of_findLogin found
          simp only [Server.redisSet, isOpen] at handed
          obtain rfl := Option.some.inj handed
          exact ⟨name, password, loginResponse.userId, username, rfl,
            ⟨status.mpr ⟨given, isOpen, rfl⟩, by rw [found]; rfl⟩, signed⟩
  · have none := @lookup_authRoutes lib server request fun name password here => login ⟨name, password, here⟩
    rw [none] at handed
    contradiction

end JudgeSelf.MainApi

namespace JudgeSelf.SubmissionService

open MainApi (Libraries LogsIn accessTokenExpiration parseToMilliseconds)

variable {lib : Libraries} {parse : Parse} {start s : Site}

/-- Among the events is a login of the user with an access token that is still valid at `now`. -/
def SignedIn (lib : Libraries) (parse : Parse) (start : Site) (events : List SiteEvent) (now : ℕ) (userId : String) :
    Prop :=
  ∃ before name password after,
    Machine.Taken (Site.Step lib parse) start events before (.api (.request (.login name password))) after ∧
      LogsIn lib before.server name password userId ∧
      now / 1000 < before.server.now / 1000 + parseToMilliseconds accessTokenExpiration / 1000

/-- Among the events is the request that has made the row: `AuthMiddleware` let it through for the user of the row,
who was signed in. -/
def Submitted (lib : Libraries) (parse : Parse) (start : Site) (events : List SiteEvent) (row : SubmissionRow) : Prop :=
  ∃ done calls authorization body mid, done ++ [.submit calls authorization body] <+: events ∧
    Machine.Run (Site.Step lib parse) start done mid ∧
    authMiddleware parse lib.jwtAccessTokenSecret mid.server.now authorization = .ok row.userId ∧
    row ∉ mid.stores.rows ∧ row ∈ (handleSubmit calls row.userId body mid.stores).2.rows ∧
    SignedIn lib parse start done mid.server.now row.userId

/-- The token was handed out after a login among the events. -/
def HandedOut (lib : Libraries) (parse : Parse) (start : Site) (events : List SiteEvent) (token : String) : Prop :=
  ∃ before name password id username after,
    Machine.Taken (Site.Step lib parse) start events before (.api (.request (.login name password))) after ∧
      LogsIn lib before.server name password id ∧
      token = lib.sign ⟨id, username⟩ lib.jwtAccessTokenSecret accessTokenExpiration before.server.now

structure Provenance (lib : Libraries) (parse : Parse) (start : Site) (events : List SiteEvent) (s : Site) : Prop where
  tokens : ∀ token ∈ s.handedOut, HandedOut lib parse start events token
  rows : ∀ row ∈ s.stores.rows, Submitted lib parse start events row

theorem HandedOut.later {events : List SiteEvent} {token : String} (handed : HandedOut lib parse start events token)
    (more : List SiteEvent) : HandedOut lib parse start (events ++ more) token := by
  obtain ⟨before, name, password, id, username, after, taken, rest⟩ := handed
  exact ⟨before, name, password, id, username, after, taken.later more, rest⟩

theorem Submitted.later {events : List SiteEvent} {row : SubmissionRow}
    (submitted : Submitted lib parse start events row)
    (more : List SiteEvent) : Submitted lib parse start (events ++ more) row := by
  obtain ⟨done, calls, authorization, body, mid, front, rest⟩ := submitted
  exact ⟨done, calls, authorization, body, mid, front.trans (List.prefix_append _ _), rest⟩

/-- Who presents a token that was handed out is signed in. -/
theorem HandedOut.signedIn (parses : ParsesSigned lib parse) {events : List SiteEvent} {token userId : String}
    (handed : HandedOut lib parse start events token) {now : ℕ} {claims : Claims}
    (parsed : parse token lib.jwtAccessTokenSecret now = some claims) (id : claims "id" = some (.string userId)) :
    SignedIn lib parse start events now userId := by
  obtain ⟨before, name, password, user, username, after, taken, logged, rfl⟩ := handed
  have signed := parses ⟨user, username⟩ lib.jwtAccessTokenSecret accessTokenExpiration before.server.now now
  rw [parsed, Option.map_some, id] at signed
  split at signed
  · next valid =>
    obtain rfl := Json.Scalar.string.inj (Option.some.inj (Option.some.inj signed))
    exact ⟨before, name, password, after, taken, logged, valid⟩
  · contradiction

theorem Provenance.step (parses : ParsesSigned lib parse) {done : List SiteEvent}
    (run : Machine.Run (Site.Step lib parse) start done s) (provenance : Provenance lib parse start done s)
    {event : SiteEvent} (unforged : s.Unforged lib parse event) :
    Provenance lib parse start (done ++ [event]) (s.next lib parse event) := by
  have tokens := fun token member => (provenance.tokens token member).later [event]
  have rows := fun row member => (provenance.rows row member).later [event]
  cases event with
  | api event =>
    cases event with
    | tick elapsed => exact ⟨tokens, rows⟩
    | request request =>
      refine ⟨fun token member => ?_, rows⟩
      rcases List.mem_append.mp member with before | here
      · exact tokens token before
      · obtain ⟨name, password, id, username, rfl, logged, signed⟩ :=
          MainApi.logsIn_of_accessToken (Option.mem_toList.mp here)
        exact ⟨s, name, password, id, username, _, Machine.Taken.last run rfl, logged, signed⟩
  | submit calls authorization body =>
    rw [Site.next]
    split
    · exact ⟨tokens, rows⟩
    · next userId passed =>
      refine ⟨tokens, fun row member => ?_⟩
      by_cases before : row ∈ s.stores.rows
      · exact rows row before
      · obtain rfl := (rows_handleSubmit member).resolve_left before
        obtain ⟨token, claims, presented, parsed, id⟩ := authMiddleware_eq_ok passed
        have handed := provenance.tokens token (unforged token presented (Option.isSome_of_eq_some parsed))
        exact ⟨done, calls, authorization, body, s, List.prefix_refl _, run, passed, before, member,
          handed.signedIn parses parsed id⟩

/-- In every run in which nobody forges tokens, each row of the submissions table was made by a submission of its
user, who had logged in with an accepted password in the five minutes before. -/
theorem submissions_authenticated (parses : ParsesSigned lib parse) (tokens : start.handedOut = [])
    (rows : start.stores.rows = []) {events : List SiteEvent}
    (run : Machine.Run (Machine.Guarded (Site.Step lib parse) (Site.Unforged lib parse)) start events s) :
    ∀ row ∈ s.stores.rows, Submitted lib parse start events row := by
  have plain {events : List SiteEvent} {s : Site}
      (run : Machine.Run (Machine.Guarded (Site.Step lib parse) (Site.Unforged lib parse)) start events s) :
      Machine.Run (Site.Step lib parse) start events s := run.mono fun _ _ _ step => step.2
  have initial : Provenance lib parse start [] start := by
    constructor
    · rw [tokens]
      exact List.forall_mem_nil _
    · rw [rows]
      exact List.forall_mem_nil _
  have provenance : Provenance lib parse start events s := run.history initial
    fun done mid event next before provenance ⟨unforged, taken⟩ =>
      taken ▸ provenance.step parses (plain before) unforged
  exact provenance.rows

/-- A token is the second at which it expires, a dot, and the id. -/
def datedLibraries : Libraries :=
  { MainApi.plainLibraries with
    sign := fun payload _ expiresIn now => String.ofList
      (Nat.toDigits 10 (now / 1000 + parseToMilliseconds expiresIn / 1000) ++ '.' :: payload.id.toList) }

def parseDated : Parse := fun token _ now =>
  let expires := token.toList.takeWhile Char.isDigit
  if now / 1000 < Nat.ofDigitChars 10 expires 0 then
    some fun claim =>
      if claim = "id" then some (.string (String.ofList (token.toList.drop (expires.length + 1)))) else none
  else none

private theorem parsesSigned_parseDated : ParsesSigned datedLibraries parseDated := by
  intro payload secret expiresIn issued now
  change (parseDated (String.ofList (Nat.toDigits 10 (issued / 1000 + parseToMilliseconds expiresIn / 1000) ++
    '.' :: payload.id.toList)) secret now).map (· "id") = _
  generalize issued / 1000 + parseToMilliseconds expiresIn / 1000 = second
  have expires : (Nat.toDigits 10 second ++ '.' :: payload.id.toList).takeWhile Char.isDigit =
      Nat.toDigits 10 second := by
    rw [List.takeWhile_append_of_pos fun c member => Nat.isDigit_of_mem_toDigits (by decide) (by decide) member,
      List.takeWhile_cons_of_neg (by decide), List.append_nil]
  have id : (Nat.toDigits 10 second ++ '.' :: payload.id.toList).drop ((Nat.toDigits 10 second).length + 1) =
      payload.id.toList := by
    rw [List.drop_append, List.drop_of_length_le (Nat.le_succ _), Nat.add_sub_cancel_left]
    rfl
  rw [parseDated]
  simp only [String.toList_ofList, expires, id, String.ofList_toList, Nat.ofDigitChars_ten_toDigits]
  split <;> rfl

def annSite : Site := ⟨MainApi.newServer, noSubmissions, []⟩

def annToken : String := datedLibraries.sign ⟨"1", "ann"⟩ "default_access" accessTokenExpiration 0

def annSubmits : List SiteEvent :=
  [.api (.request (.signup "ann" "ann@x.org" "secret" "1" "salt")), .api (.request (.login "ann" "secret")),
    .submit (firstMinute .confirmed) (some ("Bearer " ++ annToken)) (some pythonRequest)]

def annRow : SubmissionRow := ⟨"s", "p", "1", "RATED", "print(0)", "python", "QUEUE", 60⟩

theorem ann_submission_authenticated : Submitted datedLibraries parseDated annSite annSubmits annRow := by
  obtain ⟨final, run, rows⟩ : ∃ final, Machine.Run (Machine.Guarded (Site.Step datedLibraries parseDated)
      (Site.Unforged datedLibraries parseDated)) annSite annSubmits final ∧ final.stores.rows = [annRow] := by
    refine ⟨_, ⟨_, ⟨trivial, rfl⟩, _, ⟨trivial, rfl⟩, _, ⟨fun token presented _ => ?_, rfl⟩, rfl⟩, ?_⟩
    · have same : token = annToken := (String.append_right_inj _).mp (Option.some.inj presented).symm
      rw [same]
      decide +kernel
    · decide +kernel
  exact submissions_authenticated parsesSigned_parseDated rfl rfl run annRow (rows ▸ List.mem_singleton_self annRow)

end JudgeSelf.SubmissionService
