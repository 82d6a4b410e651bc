import JudgeSelf.Json.Object
import JudgeSelf.Machine.Run
import JudgeSelf.Model.MainApi.Auth
import JudgeSelf.Model.Submission.Submit

/-! # Submissions behind their authentication

Model of `AuthMiddleware` in front of `HandleSubmit`, beside the main API that hands out the tokens. Both read
`JWT_ACCESS_TOKEN_SECRET`, with the same default. What `jwt.Parse` makes of a token is a parameter.
-/

namespace JudgeSelf.SubmissionService

open MainApi (Libraries Server authRoutes)

/-- The claims of a token by their names. -/
abbrev Claims := String → Option Json.Scalar

/-- `jwt.Parse` with a key function that insists on an HMAC method: the claims of a valid token. -/
abbrev Parse := (token secret : String) → (now : ℕ) → Option Claims

/-- `strings.TrimPrefix`. -/
def trimPrefix (s start : String) : String :=
  if start.toList <+: s.toList then String.ofList (s.toList.drop start.toList.length) else s

/-- `AuthMiddleware`: the user id for the handler, or the text of the answer 401. -/
def authMiddleware (parse : Parse) (jwtSecret : String) (now : ℕ) (authorization : Option String) :
    Except String String :=
  let authHeader := authorization.getD ""
  if authHeader = "" ∨ ¬ "Bearer ".toList <+: authHeader.toList then
    .error "Missing or invalid authorization header"
  else
    match parse (trimPrefix authHeader "Bearer ") jwtSecret now with
    | none => .error "Invalid token"
    | some claims =>
      match claims "id" with
      | some (.string userId) => .ok userId
      | _ => .error "user_id not found in token"

/-- The tokens of the main API are parsed until they expire, in whole seconds. -/
def ParsesSigned (lib : Libraries) (parse : Parse) : Prop :=
  ∀ (payload : MainApi.Payload) (secret expiresIn : String) (issued now : ℕ),
    (parse (lib.sign payload secret expiresIn issued) secret now).map (· "id") =
      if now / 1000 < issued / 1000 + MainApi.parseToMilliseconds expiresIn / 1000 then
        some (some (.string payload.id))
      else none

/-- `handedOut` lists the access tokens in the answers of the main API so far. -/
structure Site where
  server : Server
  stores : Stores
  handedOut : List String

inductive SiteEvent
  | api (event : MainApi.Event)
  | submit (calls : Calls) (authorization : Option String) (body : Option SubmissionRequest)

namespace Site

variable (lib : Libraries) (parse : Parse)

def next (s : Site) : SiteEvent → Site
  | .api (.tick elapsed) => { s with server := MainApi.serve lib s.server (.tick elapsed) }
  | .api (.request request) =>
    { s with
      server := MainApi.serve lib s.server (.request request)
      handedOut := s.handedOut ++ ((authRoutes lib s.server request).1.json.lookup "accessToken").toList }
  | .submit calls authorization body =>
    match authMiddleware parse lib.jwtAccessTokenSecret s.server.now authorization with
    | .error _ => s
    | .ok userId => { s with stores := (handleSubmit calls userId body s.stores).2 }

def Step (s : Site) (event : SiteEvent) (t : Site) : Prop := t = s.next lib parse event

/-- Nobody makes a valid token; those that are presented were handed out. -/
def Unforged (s : Site) : SiteEvent → Prop
  | .api _ => True
  | .submit _ authorization _ => ∀ token, authorization = some ("Bearer " ++ token) →
    (parse token lib.jwtAccessTokenSecret s.server.now).isSome → token ∈ s.handedOut

end Site

private theorem eq_append_trimPrefix {s start : String} (front : start.toList <+: s.toList) :
    s = start ++ trimPrefix s start := by
  apply String.toList_injective
  rw [trimPrefix, if_pos front, String.toList_append, String.toList_ofList]
  exact (List.prefix_iff_eq_append.mp front).symm

/-- Who is let through has presented a token with the id. -/
theorem authMiddleware_eq_ok {parse : Parse} {jwtSecret userId : String} {now : ℕ} {authorization : Option String}
    (passed : authMiddleware parse jwtSecret now authorization = .ok userId) :
    ∃ token claims, authorization = some ("Bearer " ++ token) ∧ parse token jwtSecret now = some claims ∧
      claims "id" = some (.string userId) := by
  rw [authMiddleware] at passed
  split at passed
  · contradiction
  · next given =>
    rw [not_or, not_not] at given
    obtain ⟨present, start⟩ := given
    cases authorization with
    | none => exact absurd rfl present
    | some header =>
      split at passed
      · contradiction
      · next claims parsed =>
        split at passed
        · next id =>
          obtain rfl := Except.ok.inj passed
          exact ⟨_, claims, congrArg some (eq_append_trimPrefix start), parsed, id⟩
        · contradiction

theorem userId_classify (now : ℕ → ℤ) (contestInfo : ContestData) (userId : String) (req : SubmissionRequest) :
    (classify now contestInfo userId req).userId = userId := by
  rw [classify]
  split <;> rfl

private theorem rows_beginSubmit {calls : Calls} {userId : String} {body : Option SubmissionRequest} {stores : Stores}
    {row : SubmissionRow} (member : row ∈ (beginSubmit calls userId body stores).2.rows) :
    row ∈ stores.rows ∨ row.userId = userId := by
  rcases body with _ | req
  · exact .inl member
  · rcases found : calls.problem with (_ | _) | problemData
    · simp only [beginSubmit, found] at member
      exact .inl member
    · simp only [beginSubmit, found] at member
      exact .inl member
    · rcases created : calls.newId with err | subId
      · simp only [beginSubmit, found, created] at member
        exact .inl member
      · simp only [beginSubmit, found, created, Stores.createSubmission, List.mem_append, List.mem_singleton] at member
        rcases member with before | rfl
        · exact .inl before
        · exact .inr (userId_classify _ _ _ _)

/-- A request adds rows of its user only. -/
theorem rows_handleSubmit {calls : Calls} {userId : String} {body : Option SubmissionRequest} {stores : Stores}
    {row : SubmissionRow} (member : row ∈ (handleSubmit calls userId body stores).2.rows) :
    row ∈ stores.rows ∨ row.userId = userId := by
  have begun := @rows_beginSubmit calls userId body stores row
  rw [handleSubmit] at member
  split at member
  · next rejected =>
    rw [rejected] at begun
    exact begun member
  · next message after created =>
    rw [created] at begun
    have rows : row ∈ after.rows := by
      have concluded := (concludeSubmit_spec calls.publish calls.deleteError message.submissionId
        (if calls.publish.taken then after.enqueue (.submission message) else after)).1
      have same : (if calls.publish.taken then after.enqueue (.submission message) else after).rows = after.rows := by
        split <;> rfl
      rcases concluded with kept | deleted
      · rw [kept, same] at member
        exact member
      · rw [deleted] at member
        exact same ▸ List.mem_of_mem_filter member
    exact begun rows

end JudgeSelf.SubmissionService
