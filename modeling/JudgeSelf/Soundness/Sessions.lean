import JudgeSelf.Model.MainApi.Auth
import JudgeSelf.Soundness.Registration
import Mathlib.Data.List.Induction

/-! # Sessions

Redis holds for each user the refresh token of the latest login since the last logout
(`redis_iff_session`), and the handler of `/refresh-token` accepts exactly the live one, had the
route put the user on the request (`refreshToken_of_user_iff_live`). It does not: the route has no
`authenticate`, and every refresh with a cookie is answered 500.
-/

namespace JudgeSelf.MainApi

/-- A request and the server that receives it. -/
structure Exchange where
  before : Server
  request : Request

namespace Exchange

variable (lib : Libraries) (exchange : Exchange) (userId : String)

def response : Response := (authRoutes lib exchange.before exchange.request).1

/-- The refresh token of a successful login of the user. -/
def issued : Option String :=
  match exchange.request with
  | .login username password =>
    if (exchange.response lib).status = 200 then
      ((findLogin lib exchange.before username password).filter (·.userId = userId)).map LoginResponse.refreshToken
    else none
  | _ => none

/-- A logout of the user. -/
def LogsOut : Prop :=
  match exchange.request with
  | .logout authorization => (exchange.response lib).status = 200 ∧
      (decodeAuthorization lib exchange.before authorization).map Payload.id = .ok userId
  | _ => False

end Exchange

/-- The requests of a run, each with the server as it is then. -/
def exchanges (lib : Libraries) (server : Server) : List Event → List Exchange
  | [] => []
  | .tick elapsed :: rest => exchanges lib (serve lib server (.tick elapsed)) rest
  | .request request :: rest => ⟨server, request⟩ :: exchanges lib (serve lib server (.request request)) rest

/-- The user's most recent successful login was at `time` and issued `token`, and the user has not
logged out since. -/
def Session (lib : Libraries) (server : Server) (events : List Event) (userId token : String) (time : ℕ) : Prop :=
  ∃ front login back, exchanges lib server events = front ++ login :: back ∧
    login.issued lib userId = some token ∧ login.before.now = time ∧
    ∀ later ∈ back, later.issued lib userId = none ∧ ¬ later.LogsOut lib userId

/-- The token is that of the user's session and has not expired, in whole seconds. -/
def Live (lib : Libraries) (server : Server) (events : List Event) (userId token : String) : Prop :=
  ∃ time, Session lib server events userId token time ∧
    (events.foldl (serve lib) server).now / 1000 < time / 1000 + parseToMilliseconds refreshTokenExpiration / 1000

/-- A response with a new access token for the user. -/
def GrantsAccess (lib : Libraries) (server : Server) (response : Response) (userId : String) : Prop :=
  response.status = 200 ∧ ∃ username, response.json =
    [("accessToken", lib.sign ⟨userId, username⟩ lib.jwtAccessTokenSecret accessTokenExpiration server.now)]

variable {lib : Libraries} {server : Server} {events : List Event} {u : String}

private theorem exchanges_concat (event : Event) : exchanges lib server (events ++ [event]) =
    exchanges lib server events ++ match event with
      | .tick _ => []
      | .request request => [⟨events.foldl (serve lib) server, request⟩] := by
  induction events generalizing server with
  | nil => cases event <;> rfl
  | cons first rest ih =>
    cases first with
    | tick elapsed => exact ih
    | request request =>
      rw [List.cons_append, exchanges, ih]
      rfl

private theorem session_of_append_nil {token : String} {time : ℕ} {more : List Event}
    (same : exchanges lib server more = exchanges lib server events) :
    Session lib server more u token time ↔ Session lib server events u token time := by
  rw [Session, same, Session]

/-- A request that is no login and no logout of the user leaves the user's session. -/
theorem session_concat {last : Exchange} {token : String} {time : ℕ} {more : List Event}
    (grown : exchanges lib server more = exchanges lib server events ++ [last]) :
    Session lib server more u token time ↔
      (last.issued lib u = some token ∧ last.before.now = time) ∨
        last.issued lib u = none ∧ ¬ last.LogsOut lib u ∧ Session lib server events u token time := by
  rw [Session, grown]
  constructor
  · rintro ⟨front, login, back, split, issued, at_, quiet⟩
    rcases List.eq_nil_or_concat back with rfl | ⟨rest, final, rfl⟩
    · obtain ⟨_, single⟩ := List.append_inj' split rfl
      obtain rfl := List.singleton_inj.mp single
      exact .inl ⟨issued, at_⟩
    · rw [List.concat_eq_append] at split quiet
      have moved : exchanges lib server events ++ [last] = (front ++ login :: rest) ++ [final] := by
        rw [split, List.append_assoc, List.cons_append]
      obtain ⟨earlier, single⟩ := List.append_inj' moved rfl
      obtain rfl := List.singleton_inj.mp single
      obtain ⟨noLogin, noLogout⟩ := quiet last (by simp)
      exact .inr ⟨noLogin, noLogout, front, login, rest, earlier, issued, at_,
        fun later member => quiet later (List.mem_append_left _ member)⟩
  · rintro (⟨issued, at_⟩ | ⟨noLogin, noLogout, front, login, back, split, issued, at_, quiet⟩)
    · exact ⟨_, last, [], rfl, issued, at_, List.forall_mem_nil _⟩
    · refine ⟨front, login, back ++ [last], by rw [split, List.append_assoc, List.cons_append], issued, at_, ?_⟩
      exact List.forall_mem_append.mpr ⟨quiet, List.forall_mem_singleton.mpr ⟨noLogin, noLogout⟩⟩

private theorem refreshTokenKey_inj {userId other : String} :
    refreshTokenKey userId = refreshTokenKey other ↔ userId = other := by
  simp [refreshTokenKey]

/-- What a request does to the stored token of a user, next to what it is in the history of that user. -/
inductive TokenEffect (lib : Libraries) (exchange : Exchange) (userId : String) (next : Server) : Prop
  | issued (token : String) (issues : exchange.issued lib userId = some token)
      (stored : next.redis (refreshTokenKey userId) = some (token,
        exchange.before.now + parseToMilliseconds refreshTokenExpiration / 1000 * 1000))
  | removed (noLogin : exchange.issued lib userId = none) (logout : exchange.LogsOut lib userId)
      (absent : ∀ token expires, token ≠ "" → exchange.before.now < expires →
        next.redis (refreshTokenKey userId) ≠ some (token, expires))
  | kept (noLogin : exchange.issued lib userId = none) (noLogout : ¬ exchange.LogsOut lib userId)
      (same : next.redis (refreshTokenKey userId) = exchange.before.redis (refreshTokenKey userId))

private theorem issued_login (username password userId : String) :
    (⟨server, .login username password⟩ : Exchange).issued lib userId =
      if ((⟨server, .login username password⟩ : Exchange).response lib).status = 200 then
        ((findLogin lib server username password).filter (·.userId = userId)).map LoginResponse.refreshToken
      else none := rfl

private theorem tokenEffect_login (username password userId : String) :
    TokenEffect lib ⟨server, .login username password⟩ userId (authRoutes lib server (.login username password)).2 := by
  have response : (⟨server, .login username password⟩ : Exchange).response lib =
      (asyncHandler server (AuthController.loginUser lib username password server)).1 := rfl
  have quiet : ¬ (⟨server, .login username password⟩ : Exchange).LogsOut lib userId := not_false
  change TokenEffect lib _ userId (asyncHandler server (AuthController.loginUser lib username password server)).2
  cases handled : AuthController.loginUser lib username password server with
  | error thrown =>
    rw [handled] at response
    refine .kept ?_ quiet rfl
    rw [issued_login, response]
    rfl
  | ok answered =>
    rw [handled] at response
    rcases loginUser_eq_ok handled with ⟨refused, same⟩ | ⟨loginResponse, found, accepted, stored⟩
    · refine .kept ?_ quiet (by rw [asyncHandler, same])
      rw [issued_login, response]
      exact if_neg refused
    · have issues : (⟨server, .login username password⟩ : Exchange).issued lib userId =
          if loginResponse.userId = userId then some loginResponse.refreshToken else none := by
        have status : (asyncHandler server (.ok answered)).1.status = 200 := accepted
        rw [issued_login, response, if_pos status, found]
        by_cases own : loginResponse.userId = userId <;> simp [own]
      by_cases own : loginResponse.userId = userId
      · rw [if_pos own] at issues
        refine .issued _ issues ?_
        rw [asyncHandler, stored, own]
        exact Function.update_self ..
      · rw [if_neg own] at issues
        refine .kept issues quiet ?_
        rw [asyncHandler, stored]
        exact Function.update_of_ne (refreshTokenKey_inj.not.mpr (Ne.symm own)) _ _

private theorem tokenEffect_logout (authorization : Option String) (userId : String) :
    TokenEffect lib ⟨server, .logout authorization⟩ userId (authRoutes lib server (.logout authorization)).2 := by
  have logsOut : (⟨server, .logout authorization⟩ : Exchange).LogsOut lib userId ↔
      (authRoutes lib server (.logout authorization)).1.status = 200 ∧
        (decodeAuthorization lib server authorization).map Payload.id = .ok userId := Iff.rfl
  cases decoded : decodeAuthorization lib server authorization with
  | error message =>
    have refused : authRoutes lib server (.logout authorization) =
        ({ status := 401, json := [("message", message)] }, server) := by
      rw [authRoutes, authenticate, decoded]
    refine .kept rfl ?_ (by rw [refused])
    rw [logsOut, decoded]
    rintro ⟨_, bearer⟩
    contradiction
  | ok user =>
    have routed : authRoutes lib server (.logout authorization) =
        asyncHandler server (AuthController.logoutUser (some user) server) := by
      rw [authRoutes, authenticate, decoded]
    rw [decoded, routed] at logsOut
    rw [routed]
    cases handled : AuthController.logoutUser (some user) server with
    | error thrown =>
      rw [handled] at logsOut
      exact .kept rfl (fun out => absurd (logsOut.mp out).1 (show 500 ≠ 200 by decide)) rfl
    | ok answered =>
      rw [handled] at logsOut
      obtain ⟨status, left_⟩ := logoutUser_eq_ok handled
      by_cases own : user.id = userId
      · have out : (⟨server, .logout authorization⟩ : Exchange).LogsOut lib userId :=
          logsOut.mpr ⟨status, congrArg Except.ok own⟩
        refine .removed rfl out fun token expires given unexpired => ?_
        rcases left_ with cleared | ⟨same, absent⟩
        · rw [asyncHandler, cleared, ← own]
          simp
        · rw [asyncHandler, same, ← own]
          exact absent token expires given unexpired
      · refine .kept rfl (fun out => own (Except.ok.inj (logsOut.mp out).2)) ?_
        rcases left_ with cleared | ⟨same, _⟩
        · rw [asyncHandler, cleared]
          exact Function.update_of_ne (refreshTokenKey_inj.not.mpr (Ne.symm own)) _ _
        · rw [asyncHandler, same]

/-- The other requests leave Redis alone. -/
theorem redis_authRoutes {request : Request} (noLogin : ∀ username password, request ≠ .login username password)
    (noLogout : ∀ authorization, request ≠ .logout authorization) :
    (authRoutes lib server request).2.redis = server.redis := by
  have effect := @effect_authRoutes lib server request
  generalize (authRoutes lib server request).2 = next at effect
  cases effect with
  | unchanged => rfl
  | loggedIn found => exact absurd rfl (noLogin _ _)
  | registered rows => rfl
  | loggedOut decoded => exact absurd rfl (noLogout _)
  | changedPassword decoded accepted => rfl

private theorem tokenEffect (request : Request) (userId : String) :
    TokenEffect lib ⟨server, request⟩ userId (authRoutes lib server request).2 := by
  cases request with
  | login username password => exact tokenEffect_login username password userId
  | logout authorization => exact tokenEffect_logout authorization userId
  | signup username email password id salt =>
    refine .kept rfl not_false (congrFun (redis_authRoutes ?_ ?_) _) <;> simp
  | refreshToken cookie =>
    refine .kept rfl not_false (congrFun (redis_authRoutes ?_ ?_) _) <;> simp
  | changePassword authorization oldPassword newPassword salt =>
    refine .kept rfl not_false (congrFun (redis_authRoutes ?_ ?_) _) <;> simp

/-- A request takes no time. -/
theorem now_authRoutes (request : Request) : (authRoutes lib server request).2.now = server.now := by
  have effect := @effect_authRoutes lib server request
  generalize (authRoutes lib server request).2 = next at effect
  cases effect with
  | unchanged => rfl
  | loggedIn found => rfl
  | registered rows => rfl
  | loggedOut decoded => rfl
  | changedPassword decoded accepted => rfl

/-- After any run Redis holds for a user the token of the user's session, if any. -/
theorem redis_iff_session (noTokens : ∀ userId, server.redis (refreshTokenKey userId) = none) (events : List Event)
    {token : String} (given : token ≠ "") {expires : ℕ} (unexpired : (events.foldl (serve lib) server).now < expires) :
    (events.foldl (serve lib) server).redis (refreshTokenKey u) = some (token, expires) ↔
      ∃ time, Session lib server events u token time ∧
        expires = time + parseToMilliseconds refreshTokenExpiration / 1000 * 1000 := by
  induction events using List.reverseRecOn generalizing expires with
  | nil =>
    rw [List.foldl_nil, noTokens]
    constructor
    · intro stored
      contradiction
    · rintro ⟨_, ⟨front, login, back, split, _⟩, _⟩
      exact absurd split.symm (List.append_ne_nil_of_right_ne_nil _ (List.cons_ne_nil _ _))
  | append_singleton events event ih =>
    have grown := @exchanges_concat lib server events event
    rw [List.foldl_concat] at unexpired ⊢
    cases event with
    | tick elapsed =>
      have before : (events.foldl (serve lib) server).now < expires := lt_of_le_of_lt (Nat.le_add_right _ _) unexpired
      rw [List.append_nil] at grown
      simp only [session_of_append_nil grown]
      exact ih before
    | request request =>
      have before : (events.foldl (serve lib) server).now < expires := by
        rwa [serve, now_authRoutes] at unexpired
      simp only [session_concat grown]
      rw [serve]
      cases @tokenEffect lib (events.foldl (serve lib) server) request u with
      | issued newToken issues stored =>
        rw [stored, issues]
        constructor
        · intro same
          obtain ⟨rfl, rfl⟩ := Prod.mk.inj (Option.some_inj.mp same)
          exact ⟨_, .inl ⟨rfl, rfl⟩, rfl⟩
        · rintro ⟨_, ⟨same, rfl⟩ | ⟨none, _⟩, rfl⟩
          · rw [Option.some_inj.mp same]
          · contradiction
      | removed noLogin logout absent =>
        refine ⟨fun stored => absurd stored (absent token expires given before), ?_⟩
        rintro ⟨_, ⟨issues, _⟩ | ⟨_, noLogout, _⟩, _⟩
        · rw [noLogin] at issues
          contradiction
        · exact absurd logout noLogout
      | kept noLogin noLogout same =>
        rw [same]
        refine (ih before).trans (exists_congr fun time => and_congr_left fun _ => ?_)
        rw [noLogin]
        constructor
        · exact fun session => .inr ⟨rfl, noLogout, session⟩
        · rintro (⟨none, _⟩ | ⟨_, _, session⟩)
          · contradiction
          · exact session

private theorem findLogin_signed {name password : String} {loginResponse : LoginResponse}
    (found : findLogin lib server name password = some loginResponse) :
    ∃ username, loginResponse.refreshToken =
      lib.sign ⟨loginResponse.userId, username⟩ lib.jwtRefreshTokenSecret refreshTokenExpiration server.now := by
  have signed {user : UserData} (logged : AuthService.loginUser lib server.now user password = some loginResponse) :
      loginResponse.refreshToken = lib.sign ⟨loginResponse.userId, user.username⟩ lib.jwtRefreshTokenSecret
        refreshTokenExpiration server.now := by
    rw [AuthService.loginUser] at logged
    split at logged
    · rw [← Option.some_inj.mp logged]
    · contradiction
  rw [findLogin] at found
  split at found
  · obtain ⟨user, _, logged⟩ := Option.bind_eq_some_iff.mp found
    split at logged
    · exact ⟨_, signed logged⟩
    · contradiction
  · obtain ⟨user, _, logged⟩ := Option.bind_eq_some_iff.mp found
    exact ⟨_, signed logged⟩

theorem Exchange.signed_of_issued {exchange : Exchange} {token : String} (issues : exchange.issued lib u = some token) :
    ∃ username, token =
      lib.sign ⟨u, username⟩ lib.jwtRefreshTokenSecret refreshTokenExpiration exchange.before.now := by
  obtain ⟨before, request⟩ := exchange
  cases request with
  | login username password =>
    rw [issued_login] at issues
    split at issues
    · obtain ⟨loginResponse, found, rfl⟩ := Option.map_eq_some_iff.mp issues
      obtain ⟨found, own⟩ := Option.filter_eq_some_iff.mp found
      rw [← of_decide_eq_true own]
      exact findLogin_signed found
    · contradiction
  | signup _ _ _ _ _ => cases issues
  | refreshToken _ => cases issues
  | logout _ => cases issues
  | changePassword _ _ _ _ => cases issues

/-- The refresh token of a session is the one signed at the login. -/
theorem Session.signed {token : String} {time : ℕ} (session : Session lib server events u token time) :
    ∃ username, token = lib.sign ⟨u, username⟩ lib.jwtRefreshTokenSecret refreshTokenExpiration time := by
  obtain ⟨_, login, _, _, issues, rfl, _⟩ := session
  exact Exchange.signed_of_issued issues

/-- Had the route put the user on the request, the handler would accept exactly the live token. -/
theorem refreshToken_of_user_iff_live (verifies : lib.VerifiesSigned)
    (noTokens : ∀ userId, server.redis (refreshTokenKey userId) = none) (events : List Event)
    (connected : (events.foldl (serve lib) server).redisOpen) (username : String) {token : String}
    (given : token ≠ "") :
    let final := events.foldl (serve lib) server
    GrantsAccess lib final
        (asyncHandler final (AuthController.refreshToken lib (some ⟨u, username⟩) (some token) final)).1 u ↔
      Live lib server events u token := by
  intro final
  have week : parseToMilliseconds refreshTokenExpiration = 604800000 := by decide
  have stored : (final.redis (refreshTokenKey u)).bind
        (fun entry => if final.now < entry.2 then some entry.1 else none) = some token ↔
      ∃ time, Session lib server events u token time ∧ final.now < time + 604800000 := by
    rw [Option.bind_eq_some_iff]
    constructor
    · rintro ⟨⟨other, expires⟩, held, unexpired⟩
      dsimp only at unexpired
      split at unexpired
      · next before =>
        obtain rfl := Option.some_inj.mp unexpired
        obtain ⟨time, session, rfl⟩ := (redis_iff_session noTokens events given before).mp held
        rw [week] at before
        exact ⟨time, session, before⟩
      · contradiction
    · rintro ⟨time, session, before⟩
      refine ⟨(token, time + 604800000), ?_, if_pos before⟩
      exact (redis_iff_session noTokens events given before).mpr ⟨time, session, by rw [week]⟩
  have read : final.redisGet (refreshTokenKey u) = .ok ((final.redis (refreshTokenKey u)).bind fun entry =>
      if final.now < entry.2 then some entry.1 else none) := if_pos connected
  have handled := @refreshToken_of_user lib final ⟨u, username⟩ token given _ read
  rw [handled, asyncHandler, Live, week]
  constructor
  · rintro ⟨status, _⟩
    split at status
    · next here =>
      obtain ⟨time, session, _⟩ := stored.mp here
      obtain ⟨_, rfl⟩ := session.signed
      refine ⟨time, session, ?_⟩
      by_contra late
      rw [verifies, week, if_neg late] at status
      exact absurd status (show 401 ≠ 200 by decide)
    · exact absurd status (show 401 ≠ 200 by decide)
  · rintro ⟨time, session, early⟩
    obtain ⟨name, rfl⟩ := session.signed
    change final.now / 1000 < _ at early
    have before : final.now < time + 604800000 := by omega
    rw [if_pos (stored.mpr ⟨time, session, before⟩), verifies, week, if_pos early]
    exact ⟨rfl, name, rfl⟩

/-- `/refresh-token` agrees with the history of logins and logouts exactly for cookies that are the live
refresh token of no user: every other one is refused with a 500, as the route puts no user on the request. -/
theorem refresh_agrees_iff (lib : Libraries) (server : Server) (events : List Event) (cookie : Option String) :
    (∀ u, GrantsAccess lib (events.foldl (serve lib) server)
        (authRoutes lib (events.foldl (serve lib) server) (.refreshToken cookie)).1 u ↔
      ∃ token, cookie = some token ∧ Live lib server events u token) ↔
      ∀ u token, cookie = some token → ¬ Live lib server events u token := by
  have refused (s : Server) : (authRoutes lib s (.refreshToken cookie)).1.status ≠ 200 := by
    rw [authRoutes]
    cases handled : AuthController.refreshToken lib none cookie s with
    | error thrown => exact show 500 ≠ 200 by decide
    | ok answered =>
      rw [asyncHandler, (refreshToken_eq_ok handled).1]
      decide
  constructor
  · intro agrees u token same live
    exact refused _ ((agrees u).mpr ⟨token, same, live⟩).1
  · intro dead u
    constructor
    · exact fun granted => absurd granted.1 (refused _)
    · rintro ⟨token, same, live⟩
      exact absurd live (dead u token same)

/-- A server with one user, connected to an empty Redis. -/
def annServer : Server :=
  (authRoutes plainLibraries newServer (.signup "ann" "ann@x.org" "secret" "1" "salt")).2

/-- The token that the login has just issued is verified, and answered 500. -/
theorem live_token_is_refused :
    ∃ t, (authRoutes plainLibraries annServer (.login "ann" "secret")).1.cookie = .set t 604800000 ∧
      plainLibraries.verify t "default_refresh" 0 = some ⟨"1", "ann"⟩ ∧
      Live plainLibraries annServer [.request (.login "ann" "secret")] "1" t ∧
      (authRoutes plainLibraries (authRoutes plainLibraries annServer (.login "ann" "secret")).2
        (.refreshToken (some t))).1.status = 500 := by
  refine ⟨"1 ann default_refresh 604800", by decide +kernel, by decide +kernel, ⟨0, ?_, by decide +kernel⟩,
    by decide +kernel⟩
  exact ⟨[], ⟨annServer, .login "ann" "secret"⟩, [], rfl, by decide +kernel, by decide +kernel, List.forall_mem_nil _⟩

end JudgeSelf.MainApi
