import JudgeSelf.Machine.Run
import JudgeSelf.Model.MainApi.Auth

/-! # Logging in after a registration

A login looks its name up as an email exactly when it contains an '@', and a registration accepts any
two texts. A registered user can log in with both exactly when the username contains no '@' and the
email contains one, or when both are the same text.
-/

namespace JudgeSelf.MainApi

variable {lib : Libraries} {server : Server}

/-- A login with the name and the password is answered 200, and is the login of the user `id`. -/
def LogsIn (lib : Libraries) (server : Server) (name password id : String) : Prop :=
  (authRoutes lib server (.login name password)).1.status = 200 ∧
    (findLogin lib server name password).map LoginResponse.userId = some id

instance (lib : Libraries) (server : Server) (name password id : String) :
    Decidable (LogsIn lib server name password id) := inferInstanceAs (Decidable (_ ∧ _))

/-- The column in which a login looks a name up. -/
def loginColumn (name : String) (user : UserData) : String := if '@' ∈ name.toList then user.email else user.username

/-- A login of a user who has been looked up is theirs, given the password. -/
private theorem bind_eq_iff {user : UserData} (member : user ∈ server.users.rows) {column : UserData → String}
    {name password : String} {found : Option UserData} {login : UserData → Option LoginResponse}
    (lookup : ∀ other, found = some other ↔ other ∈ server.users.rows ∧ column other = name)
    (own : ∀ other, (login other).map LoginResponse.userId = some user.id ↔
      lib.compare password other.passwordHash ∧ other.id = user.id) :
    (found.bind login).map LoginResponse.userId = some user.id ↔
      column user = name ∧ lib.compare password user.passwordHash := by
  constructor
  · intro logged
    cases present : found with
    | none =>
      rw [present] at logged
      contradiction
    | some other =>
      rw [present, Option.bind_some, own] at logged
      obtain ⟨known, here⟩ := (lookup other).mp present
      obtain rfl := Users.eq_of_id_eq known member logged.2
      exact ⟨here, logged.1⟩
  · rintro ⟨here, accepted⟩
    rw [(lookup user).mpr ⟨member, here⟩, Option.bind_some, own]
    exact ⟨accepted, rfl⟩

/-- A login finds a user of the table by the column and the password. -/
theorem findLogin_eq_iff {user : UserData} (member : user ∈ server.users.rows) (name password : String) :
    (findLogin lib server name password).map LoginResponse.userId = some user.id ↔
      loginColumn name user = name ∧ lib.compare password user.passwordHash := by
  have own (other : UserData) : (AuthService.loginUser lib server.now other password).map LoginResponse.userId =
      some user.id ↔ lib.compare password other.passwordHash ∧ other.id = user.id := by
    rw [AuthService.loginUser]
    split
    · next accepted => simp [accepted]
    · next rejected => simp [rejected]
  rw [findLogin, loginColumn]
  split
  · refine bind_eq_iff member (fun other => Users.getUserByEmail_eq_some_iff) fun other => ?_
    split
    · exact own other
    · next rejected => simp [rejected]
  · exact bind_eq_iff member (fun other => Users.getUserByUsername_eq_some_iff) own

/-- The answer to a login with a name and a password. -/
theorem login_status_iff {name password : String} :
    (authRoutes lib server (.login name password)).1.status = 200 ↔
      (name ≠ "" ∧ password ≠ "") ∧ server.redisOpen ∧ (findLogin lib server name password).isSome := by
  rw [authRoutes, AuthController.loginUser]
  split
  · next empty =>
    have missing : ¬ (name ≠ "" ∧ password ≠ "") := fun given => empty.elim given.1 given.2
    simp [asyncHandler, missing]
  · next given =>
    rw [not_or] at given
    rw [and_iff_right given]
    cases findLogin lib server name password with
    | none => simp [asyncHandler]
    | some loginResponse =>
      cases isOpen : server.redisOpen with
      | false => simp [asyncHandler, Server.redisSet, isOpen, bind, Except.bind]
      | true => simp [asyncHandler, Server.redisSet, isOpen, bind, Except.bind, pure, Except.pure]

/-- A user of the table logs in with a name exactly when the column of the name holds it. -/
theorem logsIn_iff {user : UserData} (member : user ∈ server.users.rows) {name password : String}
    (given : name ≠ "" ∧ password ≠ "") (accepted : lib.compare password user.passwordHash) :
    LogsIn lib server name password user.id ↔ server.redisOpen ∧ loginColumn name user = name := by
  rw [LogsIn, login_status_iff, findLogin_eq_iff member]
  constructor
  · rintro ⟨⟨_, isOpen, _⟩, here, _⟩
    exact ⟨isOpen, here⟩
  · rintro ⟨isOpen, here⟩
    have found : (findLogin lib server name password).map LoginResponse.userId = some user.id :=
      (findLogin_eq_iff member name password).mpr ⟨here, accepted⟩
    have present := congrArg Option.isSome found
    rw [Option.isSome_map] at present
    exact ⟨⟨given, isOpen, present⟩, here, accepted⟩

/-- The event replaces the password of the user `id`. -/
def ChangesPassword (lib : Libraries) (server : Server) (id : String) : Event → Prop
  | .request (.changePassword authorization oldPassword newPassword salt) =>
    (decodeAuthorization lib server authorization).map Payload.id = .ok id ∧
      (authRoutes lib server (.changePassword authorization oldPassword newPassword salt)).1.status = 200
  | _ => False

/-- A row stays in the table until its password is changed. -/
theorem mem_rows_serve {user : UserData} (member : user ∈ server.users.rows) {event : Event}
    (other : ¬ ChangesPassword lib server user.id event) : user ∈ (serve lib server event).users.rows := by
  cases event with
  | tick elapsed => exact member
  | request request =>
    have effect := @effect_authRoutes lib server request
    rw [serve]
    generalize (authRoutes lib server request).2 = next at effect
    cases effect with
    | unchanged => exact member
    | loggedIn found => exact member
    | registered rows =>
      rw [rows]
      exact List.mem_append_left _ member
    | loggedOut decoded => exact member
    | @changedPassword _ _ _ _ bearer decoded accepted =>
      have apart : user.id ≠ bearer.id := by
        intro here
        refine other ⟨?_, accepted⟩
        rw [decoded, here]
        rfl
      refine List.mem_map.mpr ⟨user, member, ?_⟩
      rw [Users.withPasswordHash, if_neg apart]

/-- Login of a registered user by username and by email: both succeed, now and after any later
requests that do not change the password, exactly when the username is the email, or the username has
no '@' and the email has one. -/
theorem registered_logs_in_iff (exact : lib.ComparesExactly) {username email password id salt : String}
    (accepted : (authRoutes lib server (.signup username email password id salt)).1.status = 200)
    {later : List Event} {after : Server}
    (run : Machine.Run (Machine.Guarded (fun s event t => t = serve lib s event)
        fun s event => ¬ ChangesPassword lib s id event)
      (authRoutes lib server (.signup username email password id salt)).2 later after) :
    (LogsIn lib after username password id ∧ LogsIn lib after email password id) ↔
      after.redisOpen ∧ (username = email ∨ '@' ∉ username.toList ∧ '@' ∈ email.toList) := by
  obtain ⟨given, member⟩ : (username ≠ "" ∧ email ≠ "" ∧ password ≠ "") ∧
      (⟨id, username, email, lib.hash password salt⟩ : UserData) ∈
        (authRoutes lib server (.signup username email password id salt)).2.users.rows := by
    rw [authRoutes] at accepted ⊢
    cases handled : AuthController.registerUser lib username email password id salt server with
    | error thrown =>
      rw [handled] at accepted
      exact absurd accepted (by simp [asyncHandler])
    | ok answered =>
      rw [handled] at accepted
      rcases registerUser_eq_ok handled with ⟨refused, _⟩ | ⟨given, users, inserted, rows⟩
      · exact absurd accepted refused
      · refine ⟨given, ?_⟩
        rw [asyncHandler, inserted]
        dsimp only
        rw [rows]
        exact List.mem_append_right _ (List.mem_singleton_self _)
  have preserved (s : Server) (event : Event) (t : Server)
      (held : (⟨id, username, email, lib.hash password salt⟩ : UserData) ∈ s.users.rows)
      (step : Machine.Guarded (fun s event t => t = serve lib s event)
        (fun s event => ¬ ChangesPassword lib s id event) s event t) :
      (⟨id, username, email, lib.hash password salt⟩ : UserData) ∈ t.users.rows := by
    rw [step.2]
    exact mem_rows_serve held step.1
  have stays := run.invariant preserved member
  have matches_ := (exact password salt password).mpr rfl
  rw [logsIn_iff stays ⟨given.1, given.2.2⟩ matches_, logsIn_iff stays ⟨given.2.1, given.2.2⟩ matches_,
    ← and_and_left]
  refine and_congr_right fun _ => ?_
  simp only [loginColumn]
  by_cases inUsername : '@' ∈ username.toList <;> by_cases inEmail : '@' ∈ email.toList <;>
    simp [inUsername, inEmail, eq_comm]

/-- Libraries without cryptography; a token lists its payload, its secret and the second it expires at. -/
def plainLibraries : Libraries where
  hash password _ := password
  compare password hash := password = hash
  sign payload secret expiresIn now := " ".intercalate
    [payload.id, payload.username, secret, toString (now / 1000 + parseToMilliseconds expiresIn / 1000)]
  verify token secret now :=
    match token.toList.splitOn ' ' with
    | [id, username, key, expires] =>
      if String.ofList key = secret ∧
          now / 1000 < expires.foldl (fun value digit => 10 * value + (digit.toNat - 48)) 0 then
        some ⟨String.ofList id, String.ofList username⟩
      else none
    | _ => none
  jwtAccessTokenSecret := "default_access"
  jwtRefreshTokenSecret := "default_refresh"

/-- A server without users, connected to an empty Redis. -/
def newServer : Server := ⟨Users.empty, fun _ => none, true, 0⟩

private theorem comparesExactly_plainLibraries : plainLibraries.ComparesExactly :=
  fun _ _ _ => decide_eq_true_iff

/-- An ordinary registration is followed by both logins. -/
theorem ann_logs_in :
    LogsIn plainLibraries (authRoutes plainLibraries newServer (.signup "ann" "ann@x.org" "secret" "1" "salt")).2
        "ann" "secret" "1" ∧
      LogsIn plainLibraries (authRoutes plainLibraries newServer (.signup "ann" "ann@x.org" "secret" "1" "salt")).2
        "ann@x.org" "secret" "1" :=
  (registered_logs_in_iff comparesExactly_plainLibraries (by decide +kernel) (Machine.Run.nil _)).mpr
    (by decide +kernel)

/-- A username with an '@' is accepted at the registration, and then looked up as an email. -/
theorem at_sign_username_cannot_log_in :
    (authRoutes plainLibraries newServer (.signup "ann@home" "ann@x.org" "secret" "1" "salt")).1.status = 200 ∧
      (authRoutes plainLibraries (authRoutes plainLibraries newServer
        (.signup "ann@home" "ann@x.org" "secret" "1" "salt")).2 (.login "ann@home" "secret")).1.status = 401 := by
  decide +kernel

end JudgeSelf.MainApi
