import JudgeSelf.ToMathlib.Except
import JudgeSelf.ToMathlib.Record
import Mathlib.Data.String.Basic
import Mathlib.Logic.Function.Basic

/-! # Accounts and sessions of the main API

Model of `auth.controller.ts`, `auth.service.ts`, `auth.routes.ts`, of the middleware `authenticate`
and of the queries on `users`. A request is one step. Body fields are strings, where a missing field
is empty; cookies and headers may be missing. What `bcrypt` and `jsonwebtoken` compute is a
parameter, and so are the values that they and the database draw. Commands of a Redis client that is
not open are rejected, as in the library; `app.ts` does not call `InitRedis`.
-/

namespace JudgeSelf.MainApi

/-- What a token says about its bearer, `DecodedToken`. -/
structure Payload where
  id : String
  username : String
deriving DecidableEq, Repr

/-- `bcrypt`, `jsonwebtoken` and the secrets of `env`. Times are in milliseconds. -/
structure Libraries where
  hash : (password salt : String) → String
  compare : (password hash : String) → Bool
  sign : Payload → (secret expiresIn : String) → (now : ℕ) → String
  verify : (token secret : String) → (now : ℕ) → Option Payload
  jwtAccessTokenSecret : String
  jwtRefreshTokenSecret : String

def accessTokenExpiration : String := "5m"

def refreshTokenExpiration : String := "7d"

def parseToMilliseconds (timeStr : String) : ℕ :=
  let value := (timeStr.toList.takeWhile Char.isDigit).foldl (fun value digit => 10 * value + (digit.toNat - 48)) 0
  match timeStr.toList.getLast? with
  | some 'd' => value * 24 * 60 * 60 * 1000
  | some 'h' => value * 60 * 60 * 1000
  | some 'm' => value * 60 * 1000
  | some 's' => value * 1000
  | _ => value

example : parseToMilliseconds refreshTokenExpiration = 604800000 := by decide

/-- A comparison accepts exactly the password that was hashed. -/
def Libraries.ComparesExactly (lib : Libraries) : Prop :=
  ∀ password salt other, lib.compare other (lib.hash password salt) = true ↔ other = password

/-- A token is verified with the secret of its signature until it expires, in whole seconds. -/
def Libraries.VerifiesSigned (lib : Libraries) : Prop :=
  ∀ payload secret expiresIn issued now, lib.verify (lib.sign payload secret expiresIn issued) secret now =
    if now / 1000 < issued / 1000 + parseToMilliseconds expiresIn / 1000 then some payload else none

structure UserData where
  id : String
  username : String
  email : String
  passwordHash : String
deriving DecidableEq, Repr

/-- The table with its primary key and its unique columns. -/
structure Users where
  rows : List UserData
  ids : (rows.map UserData.id).Nodup
  usernames : (rows.map UserData.username).Nodup
  emails : (rows.map UserData.email).Nodup

namespace Users

def empty : Users := ⟨[], List.nodup_nil, List.nodup_nil, List.nodup_nil⟩

def getUserById (users : Users) (id : String) : Option UserData := users.rows.find? fun user => user.id = id

def getUserByUsername (users : Users) (username : String) : Option UserData :=
  users.rows.find? fun user => user.username = username

def getUserByEmail (users : Users) (email : String) : Option UserData :=
  users.rows.find? fun user => user.email = email

def checkUsernameExists (users : Users) (username : String) : Bool :=
  users.rows.any fun user => user.username = username

def checkEmailExists (users : Users) (email : String) : Bool := users.rows.any fun user => user.email = email

private theorem nodup_concat_map {f : UserData → String} {rows : List UserData} {user : UserData}
    (distinct : (rows.map f).Nodup) (fresh : f user ∉ rows.map f) : ((rows ++ [user]).map f).Nodup := by
  rw [List.map_append, List.map_singleton, ← List.concat_eq_append, List.nodup_concat]
  exact ⟨fresh, distinct⟩

/-- The insertion, which fails when it violates a constraint. -/
def createUser (users : Users) (user : UserData) : Option Users :=
  if fresh : user.id ∉ users.rows.map UserData.id ∧ user.username ∉ users.rows.map UserData.username ∧
      user.email ∉ users.rows.map UserData.email then
    some {
      rows := users.rows ++ [user]
      ids := nodup_concat_map users.ids fresh.1
      usernames := nodup_concat_map users.usernames fresh.2.1
      emails := nodup_concat_map users.emails fresh.2.2 }
  else none

/-- The row after its password hash is replaced, if it is the row of `id`. -/
def withPasswordHash (id passwordHash : String) (user : UserData) : UserData :=
  if user.id = id then { user with passwordHash } else user

private theorem map_withPasswordHash {f : UserData → String} {rows : List UserData} {id passwordHash : String}
    (kept : ∀ user, f (withPasswordHash id passwordHash user) = f user) :
    (rows.map (withPasswordHash id passwordHash)).map f = rows.map f := by
  rw [List.map_map]
  exact List.map_congr_left fun user _ => kept user

@[simp] theorem withPasswordHash_id (id passwordHash : String) (user : UserData) :
    (withPasswordHash id passwordHash user).id = user.id := by
  rw [withPasswordHash]
  split <;> rfl

@[simp] theorem withPasswordHash_username (id passwordHash : String) (user : UserData) :
    (withPasswordHash id passwordHash user).username = user.username := by
  rw [withPasswordHash]
  split <;> rfl

@[simp] theorem withPasswordHash_email (id passwordHash : String) (user : UserData) :
    (withPasswordHash id passwordHash user).email = user.email := by
  rw [withPasswordHash]
  split <;> rfl

def changeUserPassword (users : Users) (id passwordHash : String) : Users where
  rows := users.rows.map (withPasswordHash id passwordHash)
  ids := by rw [map_withPasswordHash (withPasswordHash_id id passwordHash)]; exact users.ids
  usernames := by rw [map_withPasswordHash (withPasswordHash_username id passwordHash)]; exact users.usernames
  emails := by rw [map_withPasswordHash (withPasswordHash_email id passwordHash)]; exact users.emails

end Users

structure Server where
  users : Users
  /-- Values with the time at which they expire. -/
  redis : String → Option (String × ℕ)
  redisOpen : Bool
  now : ℕ

/-- What a request does to the cookie `refreshToken`. -/
inductive CookieChange
  | keep
  | set (value : String) (maxAge : ℕ)
  | clear
deriving DecidableEq, Repr

/-- A response; `json` lists the fields of its body. -/
structure Response where
  status : ℕ
  json : List (String × String)
  cookie : CookieChange := .keep
deriving DecidableEq, Repr

/-- What a handler throws. -/
inductive Thrown
  /-- A field of `undefined` was read. -/
  | typeError
  | clientClosedError
  | databaseError
deriving DecidableEq, Repr

inductive Request
  | login (username password : String)
  /-- `id` is drawn by the database and `salt` by `bcrypt`. -/
  | signup (username email password id salt : String)
  | refreshToken (cookie : Option String)
  | logout (authorization : Option String)
  | changePassword (authorization : Option String) (oldPassword newPassword salt : String)
deriving DecidableEq, Repr

/-- `redisClient.get`: an expired value is absent. -/
def Server.redisGet (server : Server) (key : String) : Except Thrown (Option String) :=
  if server.redisOpen then
    .ok ((server.redis key).bind fun (value, expires) => if server.now < expires then some value else none)
  else .error .clientClosedError

/-- `redisClient.set` with `EX`, in seconds. -/
def Server.redisSet (server : Server) (key value : String) (seconds : ℕ) : Except Thrown Server :=
  if server.redisOpen then
    .ok { server with redis := Function.update server.redis key (some (value, server.now + seconds * 1000)) }
  else .error .clientClosedError

def Server.redisDel (server : Server) (key : String) : Except Thrown Server :=
  if server.redisOpen then .ok { server with redis := Function.update server.redis key none }
  else .error .clientClosedError

def refreshTokenKey (userId : String) : String := "refreshToken:" ++ userId

structure LoginResponse where
  userId : String
  accessToken : String
  refreshToken : String
deriving DecidableEq, Repr

namespace AuthService

variable (lib : Libraries)

/-- `loginUser` of the service. -/
def loginUser (now : ℕ) (user : UserData) (password : String) : Option LoginResponse :=
  if lib.compare password user.passwordHash then
    let payload : Payload := ⟨user.id, user.username⟩
    some {
      userId := user.id
      accessToken := lib.sign payload lib.jwtAccessTokenSecret accessTokenExpiration now
      refreshToken := lib.sign payload lib.jwtRefreshTokenSecret refreshTokenExpiration now }
  else none

def loginUserByEmail (server : Server) (email password : String) : Option LoginResponse := do
  let user ← server.users.getUserByEmail email
  if lib.compare password user.passwordHash then loginUser lib server.now user password else none

def loginUserByUsername (server : Server) (username password : String) : Option LoginResponse := do
  let user ← server.users.getUserByUsername username
  loginUser lib server.now user password

/-- The user and the new table, or the reason why there is none. -/
def registerUser (server : Server) (username email password id salt : String) :
    Except Thrown (Except String (UserData × Users)) :=
  if server.users.checkEmailExists email then .ok (.error "An account with that email already exists")
  else if server.users.checkUsernameExists username then .ok (.error "Given username is already taken")
  else
    let user : UserData := ⟨id, username, email, lib.hash password salt⟩
    match server.users.createUser user with
    | some users => .ok (.ok (user, users))
    | none => .error .databaseError

def changePassword (users : Users) (userId oldPassword newPassword salt : String) : Except String Users :=
  match users.getUserById userId with
  | none => .error "User not found"
  | some user =>
    if lib.compare oldPassword user.passwordHash then
      .ok (users.changeUserPassword userId (lib.hash newPassword salt))
    else .error "Old password is incorrect"

def refreshAccessToken (now : ℕ) (refreshToken : String) : Except String String :=
  match lib.verify refreshToken lib.jwtRefreshTokenSecret now with
  | some decoded => .ok (lib.sign ⟨decoded.id, decoded.username⟩ lib.jwtAccessTokenSecret accessTokenExpiration now)
  | none => .error "Invalid refresh token"

end AuthService

/-- The login that the first half of `loginUser` looks up: a name with '@' is an email. -/
def findLogin (lib : Libraries) (server : Server) (username password : String) : Option LoginResponse :=
  if '@' ∈ username.toList then AuthService.loginUserByEmail lib server username password
  else AuthService.loginUserByUsername lib server username password

namespace AuthController

variable (lib : Libraries)

def loginUser (username password : String) (server : Server) : Except Thrown (Response × Server) :=
  if username = "" ∨ password = "" then
    .ok ({ status := 400, json := [("error", "Username and password are required")] }, server)
  else
    match findLogin lib server username password with
    | none => .ok ({ status := 401, json := [("error", "Invalid credentials")] }, server)
    | some loginResponse => do
      let server ← server.redisSet (refreshTokenKey loginResponse.userId) loginResponse.refreshToken
        (parseToMilliseconds refreshTokenExpiration / 1000)
      return ({
        status := 200
        json := [("accessToken", loginResponse.accessToken)]
        cookie := .set loginResponse.refreshToken (parseToMilliseconds refreshTokenExpiration) }, server)

/-- `user` is what the route has put on the request. -/
def logoutUser (user : Option Payload) (server : Server) : Except Thrown (Response × Server) :=
  match user with
  | none => .error .typeError
  | some user => do
    let stored ← server.redisGet (refreshTokenKey user.id)
    let server ← if stored.any (· ≠ "") then server.redisDel (refreshTokenKey user.id) else .ok server
    return ({ status := 200, json := [("message", "Logged out successfully")], cookie := .clear }, server)

def registerUser (username email password id salt : String) (server : Server) : Except Thrown (Response × Server) :=
  if username = "" ∨ email = "" ∨ password = "" then
    .ok ({ status := 400, json := [("error", "Username, email and password are required")] }, server)
  else do
    match ← AuthService.registerUser lib server username email password id salt with
    | .error err => return ({ status := 400, json := [("error", err)] }, server)
    | .ok (user, users) =>
      return ({ status := 200, json := [("message", "User registered successfully"), ("userId", user.id)] },
        { server with users })

def changePassword (user : Option Payload) (oldPassword newPassword salt : String) (server : Server) :
    Except Thrown (Response × Server) :=
  match user with
  | none => .error .typeError
  | some user =>
    if oldPassword = "" ∨ newPassword = "" then
      .ok ({ status := 400, json := [("error", "Old password and new password are required")] }, server)
    else
      match AuthService.changePassword lib server.users user.id oldPassword newPassword salt with
      | .error err => .ok ({ status := 400, json := [("error", err)] }, server)
      | .ok users =>
        .ok ({ status := 200, json := [("message", "Password changed successfully")] }, { server with users })

def refreshToken (user : Option Payload) (cookie : Option String) (server : Server) :
    Except Thrown (Response × Server) :=
  match cookie.filter (· ≠ "") with
  | none => .ok ({ status := 401, json := [("error", "Refresh token is required")] }, server)
  | some refreshToken =>
    match user with
    | none => .error .typeError
    | some user => do
      match ← server.redisGet (refreshTokenKey user.id) with
      | none => return ({ status := 401, json := [("error", "Invalid refresh token")] }, server)
      | some redisRefreshToken =>
        if redisRefreshToken = "" ∨ redisRefreshToken ≠ refreshToken then
          return ({ status := 401, json := [("error", "Invalid refresh token")] }, server)
        else
          match AuthService.refreshAccessToken lib server.now refreshToken with
          | .error err => return ({ status := 401, json := [("error", err)] }, server)
          | .ok accessToken => return ({ status := 200, json := [("accessToken", accessToken)] }, server)

end AuthController

/-- `asyncHandler` with `errorHandler` behind it; what a handler did before it threw is nothing. -/
def asyncHandler (server : Server) (handled : Except Thrown (Response × Server)) : Response × Server :=
  match handled with
  | .ok answered => answered
  | .error _ => ({ status := 500, json := [("message", "Internal server error")] }, server)

/-- The payload of the bearer token of the request. -/
def decodeAuthorization (lib : Libraries) (server : Server) (authorization : Option String) : Except String Payload :=
  match (authorization.bind fun header => (header.splitOn " ")[1]?).filter (· ≠ "") with
  | none => .error "Access Denied: No token provided"
  | some token =>
    match lib.verify token lib.jwtAccessTokenSecret server.now with
    | some decoded => .ok decoded
    | none => .error "Access Denied: Invalid token"

/-- `authenticate` in front of a handler. -/
def authenticate (lib : Libraries) (authorization : Option String) (server : Server)
    (next : Payload → Response × Server) : Response × Server :=
  match decodeAuthorization lib server authorization with
  | .error message => ({ status := 401, json := [("message", message)] }, server)
  | .ok user => next user

/-- The routes; the one of `/refresh-token` has no `authenticate`. -/
def authRoutes (lib : Libraries) (server : Server) : Request → Response × Server
  | .login username password => asyncHandler server (AuthController.loginUser lib username password server)
  | .signup username email password id salt =>
    asyncHandler server (AuthController.registerUser lib username email password id salt server)
  | .refreshToken cookie => asyncHandler server (AuthController.refreshToken lib none cookie server)
  | .logout authorization => authenticate lib authorization server fun user =>
    asyncHandler server (AuthController.logoutUser (some user) server)
  | .changePassword authorization oldPassword newPassword salt => authenticate lib authorization server fun user =>
    asyncHandler server (AuthController.changePassword lib (some user) oldPassword newPassword salt server)

/-- A request, or time that passes between requests. -/
inductive Event
  | request (request : Request)
  | tick (elapsed : ℕ)
deriving DecidableEq, Repr

def serve (lib : Libraries) (server : Server) : Event → Server
  | .request request => (authRoutes lib server request).2
  | .tick elapsed => { server with now := server.now + elapsed }

namespace Users

variable {users : Users} {user : UserData}

theorem eq_of_id_eq {other : UserData} (member : user ∈ users.rows) (present : other ∈ users.rows)
    (same : user.id = other.id) : user = other :=
  List.inj_on_of_nodup_map users.ids member present same

theorem getUserByUsername_eq_some_iff {username : String} :
    users.getUserByUsername username = some user ↔ user ∈ users.rows ∧ user.username = username :=
  List.find?_key_eq_some_iff users.usernames

theorem getUserByEmail_eq_some_iff {email : String} :
    users.getUserByEmail email = some user ↔ user ∈ users.rows ∧ user.email = email :=
  List.find?_key_eq_some_iff users.emails

theorem createUser_rows {next : Users} (created : users.createUser user = some next) :
    next.rows = users.rows ++ [user] := by
  rw [createUser] at created
  split at created
  · rw [← Option.some_inj.mp created]
  · contradiction

end Users

variable {lib : Libraries} {server next : Server} {answer : Response}

/-- What a handler that answers has made of the server is what the route makes of it. -/
theorem asyncHandler_invariant {P : Server → Prop} (initial : P server) {handled : Except Thrown (Response × Server)}
    (answers : ∀ answer next, handled = .ok (answer, next) → P next) : P (asyncHandler server handled).2 := by
  cases handled with
  | error thrown => exact initial
  | ok answered => exact answers answered.1 answered.2 rfl

/-- A login that is answered 200 has stored the refresh token of its user. -/
theorem loginUser_eq_ok {username password : String}
    (ran : AuthController.loginUser lib username password server = .ok (answer, next)) :
    answer.status ≠ 200 ∧ next = server ∨ ∃ loginResponse, findLogin lib server username password = some loginResponse ∧
      answer.status = 200 ∧
      next = { server with
        redis := Function.update server.redis (refreshTokenKey loginResponse.userId) (some
          (loginResponse.refreshToken, server.now + parseToMilliseconds refreshTokenExpiration / 1000 * 1000)) } := by
  rw [AuthController.loginUser] at ran
  split at ran
  · obtain ⟨rfl, rfl⟩ := Prod.mk.inj (Except.ok.inj ran)
    exact .inl ⟨by decide, rfl⟩
  · split at ran
    · obtain ⟨rfl, rfl⟩ := Prod.mk.inj (Except.ok.inj ran)
      exact .inl ⟨by decide, rfl⟩
    · next loginResponse found =>
      obtain ⟨after, stored, ran⟩ := Except.bind_eq_ok_iff.mp ran
      obtain ⟨rfl, rfl⟩ := Prod.mk.inj (Except.ok.inj ran)
      rw [Server.redisSet] at stored
      split at stored
      · exact .inr ⟨loginResponse, found, rfl, (Except.ok.inj stored).symm⟩
      · contradiction

/-- A logout that is answered has left no token of the user that is still stored. -/
theorem logoutUser_eq_ok {user : Payload} (ran : AuthController.logoutUser (some user) server = .ok (answer, next)) :
    answer.status = 200 ∧
      (next = { server with redis := Function.update server.redis (refreshTokenKey user.id) none } ∨
        next = server ∧ ∀ token expires, token ≠ "" → server.now < expires →
          server.redis (refreshTokenKey user.id) ≠ some (token, expires)) := by
  obtain ⟨stored, read, ran⟩ := Except.bind_eq_ok_iff.mp ran
  dsimp only at ran
  split at ran
  · obtain ⟨after, deleted, ran⟩ := Except.bind_eq_ok_iff.mp ran
    obtain ⟨rfl, rfl⟩ := Prod.mk.inj (Except.ok.inj ran)
    rw [Server.redisDel] at deleted
    split at deleted
    · exact ⟨rfl, .inl (Except.ok.inj deleted).symm⟩
    · contradiction
  · next absent =>
    obtain ⟨rfl, rfl⟩ := Prod.mk.inj (Except.ok.inj ran)
    refine ⟨rfl, .inr ⟨rfl, fun token expires given unexpired present => absent ?_⟩⟩
    rw [Server.redisGet] at read
    split at read
    · obtain rfl := Except.ok.inj read
      simp [present, unexpired, given]
    · contradiction

/-- Without a user on the request no token is refreshed. -/
theorem refreshToken_eq_ok {cookie : Option String}
    (ran : AuthController.refreshToken lib none cookie server = .ok (answer, next)) :
    answer.status = 401 ∧ next = server := by
  rw [AuthController.refreshToken] at ran
  split at ran
  · obtain ⟨rfl, rfl⟩ := Prod.mk.inj (Except.ok.inj ran)
    exact ⟨rfl, rfl⟩
  · contradiction

/-- With a user on the request the stored token is refreshed while it is verified. -/
theorem refreshToken_of_user {user : Payload} {token : String} (given : token ≠ "") {stored : Option String}
    (read : server.redisGet (refreshTokenKey user.id) = .ok stored) :
    AuthController.refreshToken lib (some user) (some token) server = .ok (if stored = some token then
        match lib.verify token lib.jwtRefreshTokenSecret server.now with
        | some decoded => ({
            status := 200
            json := [("accessToken", lib.sign ⟨decoded.id, decoded.username⟩ lib.jwtAccessTokenSecret
              accessTokenExpiration server.now)] }, server)
        | none => ({ status := 401, json := [("error", "Invalid refresh token")] }, server)
      else ({ status := 401, json := [("error", "Invalid refresh token")] }, server)) := by
  have present : (some token).filter (· ≠ "") = some token := by simp [given]
  simp only [AuthController.refreshToken, present, read, bind, Except.bind]
  cases stored with
  | none => rfl
  | some value =>
    by_cases same : value = token
    · subst same
      simp only [given, ne_eq, not_true_eq_false, or_self, ↓reduceIte, AuthService.refreshAccessToken]
      cases lib.verify value lib.jwtRefreshTokenSecret server.now <;> rfl
    · simp [same, pure, Except.pure]

/-- A registration that is answered 200 has inserted its row. -/
theorem registerUser_eq_ok {username email password id salt : String}
    (ran : AuthController.registerUser lib username email password id salt server = .ok (answer, next)) :
    answer.status ≠ 200 ∧ next = server ∨ (username ≠ "" ∧ email ≠ "" ∧ password ≠ "") ∧
      ∃ users, next = { server with users } ∧
        users.rows = server.users.rows ++ [⟨id, username, email, lib.hash password salt⟩] := by
  rw [AuthController.registerUser] at ran
  split at ran
  · obtain ⟨rfl, rfl⟩ := Prod.mk.inj (Except.ok.inj ran)
    exact .inl ⟨by decide, rfl⟩
  · next given =>
    rw [not_or, not_or] at given
    obtain ⟨registered, service, ran⟩ := Except.bind_eq_ok_iff.mp ran
    cases registered with
    | error err =>
      obtain ⟨rfl, rfl⟩ := Prod.mk.inj (Except.ok.inj ran)
      exact .inl ⟨show 400 ≠ 200 by decide, rfl⟩
    | ok created =>
      obtain ⟨user, users⟩ := created
      obtain ⟨rfl, rfl⟩ := Prod.mk.inj (Except.ok.inj ran)
      rw [AuthService.registerUser] at service
      split at service
      · cases Except.ok.inj service
      · split at service
        · cases Except.ok.inj service
        · dsimp only at service
          split at service
          · next inserted =>
            obtain ⟨rfl, rfl⟩ := Prod.mk.inj (Except.ok.inj (Except.ok.inj service))
            exact .inr ⟨given, _, rfl, Users.createUser_rows inserted⟩
          · contradiction

/-- A password change that is answered 200 has replaced the hash in the row of its user. -/
theorem changePassword_eq_ok {user : Payload} {oldPassword newPassword salt : String}
    (ran : AuthController.changePassword lib (some user) oldPassword newPassword salt server = .ok (answer, next)) :
    next = server ∨ answer.status = 200 ∧
      next = { server with users := server.users.changeUserPassword user.id (lib.hash newPassword salt) } := by
  rw [AuthController.changePassword] at ran
  split at ran
  · exact .inl (Prod.mk.inj (Except.ok.inj ran)).2.symm
  · split at ran
    · exact .inl (Prod.mk.inj (Except.ok.inj ran)).2.symm
    · next users changed =>
      obtain ⟨rfl, rfl⟩ := Prod.mk.inj (Except.ok.inj ran)
      refine .inr ⟨rfl, ?_⟩
      rw [AuthService.changePassword] at changed
      split at changed
      · contradiction
      · split at changed
        · rw [Except.ok.inj changed]
        · contradiction

/-- What a request does to the server. -/
inductive Effect (lib : Libraries) (server : Server) : Request → Server → Prop
  | unchanged (request : Request) : Effect lib server request server
  | loggedIn {username password : String} {loginResponse : LoginResponse}
      (found : findLogin lib server username password = some loginResponse) :
      Effect lib server (.login username password) { server with
        redis := Function.update server.redis (refreshTokenKey loginResponse.userId) (some
          (loginResponse.refreshToken, server.now + parseToMilliseconds refreshTokenExpiration / 1000 * 1000)) }
  | registered {username email password id salt : String} {users : Users}
      (rows : users.rows = server.users.rows ++ [⟨id, username, email, lib.hash password salt⟩]) :
      Effect lib server (.signup username email password id salt) { server with users }
  | loggedOut {authorization : Option String} {user : Payload}
      (decoded : decodeAuthorization lib server authorization = .ok user) :
      Effect lib server (.logout authorization)
        { server with redis := Function.update server.redis (refreshTokenKey user.id) none }
  | changedPassword {authorization : Option String} {oldPassword newPassword salt : String} {user : Payload}
      (decoded : decodeAuthorization lib server authorization = .ok user)
      (accepted :
        (authRoutes lib server (.changePassword authorization oldPassword newPassword salt)).1.status = 200) :
      Effect lib server (.changePassword authorization oldPassword newPassword salt)
        { server with users := server.users.changeUserPassword user.id (lib.hash newPassword salt) }

theorem effect_authRoutes (request : Request) : Effect lib server request (authRoutes lib server request).2 := by
  cases request with
  | login username password =>
    refine asyncHandler_invariant (.unchanged _) fun answer next ran => ?_
    rcases loginUser_eq_ok ran with ⟨_, rfl⟩ | ⟨_, found, _, rfl⟩
    · exact .unchanged _
    · exact .loggedIn found
  | signup username email password id salt =>
    refine asyncHandler_invariant (.unchanged _) fun answer next ran => ?_
    rcases registerUser_eq_ok ran with ⟨_, rfl⟩ | ⟨_, users, rfl, rows⟩
    · exact .unchanged _
    · exact .registered rows
  | refreshToken cookie =>
    refine asyncHandler_invariant (.unchanged _) fun answer next ran => ?_
    rw [(refreshToken_eq_ok ran).2]
    exact .unchanged _
  | logout authorization =>
    rw [authRoutes, authenticate]
    split
    · exact .unchanged _
    · next user decoded =>
      refine asyncHandler_invariant (.unchanged _) fun answer next ran => ?_
      rcases (logoutUser_eq_ok ran).2 with rfl | ⟨rfl, _⟩
      · exact .loggedOut decoded
      · exact .unchanged _
  | changePassword authorization oldPassword newPassword salt =>
    cases decoded : decodeAuthorization lib server authorization with
    | error message =>
      rw [authRoutes, authenticate, decoded]
      exact .unchanged _
    | ok user =>
      have routed : authRoutes lib server (.changePassword authorization oldPassword newPassword salt) =
          asyncHandler server (AuthController.changePassword lib (some user) oldPassword newPassword salt server) := by
        rw [authRoutes, authenticate, decoded]
      cases handled : AuthController.changePassword lib (some user) oldPassword newPassword salt server with
      | error thrown =>
        rw [routed, handled]
        exact .unchanged _
      | ok answered =>
        rw [handled] at routed
        rcases changePassword_eq_ok handled with same | ⟨status, changed⟩
        · rw [routed, asyncHandler, same]
          exact .unchanged _
        · have accepted := (congrArg (fun answered => answered.1.status) routed).trans status
          rw [routed, asyncHandler, changed]
          exact .changedPassword decoded accepted

end JudgeSelf.MainApi
