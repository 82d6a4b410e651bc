import JudgeSelf.Soundness.Registration

/-! # Accounts and their passwords

What the service answers to logins, registrations and password changes is what a table of accounts with
their passwords would answer: hashes, salts, tokens and refresh tokens do not show. A password counts as
far as `bcrypt` reads it, which is 72 bytes.
-/

namespace JudgeSelf.MainApi

/-- The part of a password that `bcrypt` reads. -/
def significant (password : String) : List UInt8 := password.toUTF8.data.toList.take 72

/-- An account as its owner knows it. -/
structure Account where
  username : String
  email : String
  password : String

namespace Account

/-- A login with this name means the account. -/
def Named (account : Account) (name : String) : Prop :=
  (if '@' ∈ name.toList then account.email else account.username) = name

def Opens (account : Account) (password : String) : Prop := significant password = significant account.password

end Account

/-- A request about accounts, with the bearer that its header is accepted for. -/
inductive AccountRequest
  | login (name password : String)
  | signup (username email password id : String)
  | changePassword (bearer : Option Payload) (oldPassword newPassword : String)

/-- The accounts by their ids. -/
abbrev Vault := String → Option Account

namespace Vault

/-- A registration may not take these. -/
def Takes (vault : Vault) (username email : String) : Prop :=
  ∃ id account, vault id = some account ∧ (account.email = email ∨ account.username = username)

def Admits (vault : Vault) (name password : String) : Prop :=
  ∃ id account, vault id = some account ∧ account.Named name ∧ account.Opens password

open Classical in
/-- The status that a request is answered with, and the accounts after it. -/
noncomputable def serve (redisOpen : Bool) (vault : Vault) : AccountRequest → ℕ × Vault
  | .login name password =>
    if name = "" ∨ password = "" then (400, vault)
    else if vault.Admits name password then (if redisOpen then 200 else 500, vault)
    else (401, vault)
  | .signup username email password id =>
    if username = "" ∨ email = "" ∨ password = "" ∨ vault.Takes username email then (400, vault)
    else if vault id = none then (200, Function.update vault id (some ⟨username, email, password⟩))
    else (500, vault)
  | .changePassword none _ _ => (401, vault)
  | .changePassword (some bearer) oldPassword newPassword =>
    match vault bearer.id with
    | none => (400, vault)
    | some account =>
      if oldPassword = "" ∨ newPassword = "" ∨ ¬ account.Opens oldPassword then (400, vault)
      else (200, Function.update vault bearer.id (some { account with password := newPassword }))

section ChangePassword

variable {redisOpen : Bool} {vault : Vault} {bearer : Payload} {account : Account} {oldPassword newPassword : String}

end ChangePassword

/-- The statuses of a run of requests. -/
noncomputable def answers (redisOpen : Bool) (vault : Vault) : List AccountRequest → List ℕ
  | [] => []
  | request :: rest => (vault.serve redisOpen request).1 :: answers redisOpen (vault.serve redisOpen request).2 rest

end Vault

variable {lib : Libraries} {server : Server} {vault : Vault}

structure Users.Represents (lib : Libraries) (users : Users) (vault : Vault) : Prop where
  account : ∀ user ∈ users.rows, ∃ password salt, vault user.id = some ⟨user.username, user.email, password⟩ ∧
    user.passwordHash = lib.hash password salt
  row : ∀ id account, vault id = some account → ∃ user ∈ users.rows, user.id = id

/-- The request has the same answer from the vault, and leaves the vault that the table then holds. -/
structure Simulated (lib : Libraries) (server : Server) (vault : Vault) (request : Request)
    (accountRequest : AccountRequest) : Prop where
  status : (authRoutes lib server request).1.status = (vault.serve server.redisOpen accountRequest).1
  represents : (authRoutes lib server request).2.users.Represents lib (vault.serve server.redisOpen accountRequest).2

theorem Simulated.of_eq {request : Request} {accountRequest : AccountRequest} {answer : Response} {next : Server}
    {status : ℕ} {after : Vault} (served : vault.serve server.redisOpen accountRequest = (status, after))
    (answered : authRoutes lib server request = (answer, next)) (same : answer.status = status)
    (represents : next.users.Represents lib after) : Simulated lib server vault request accountRequest where
  status := by rw [answered, served, same]
  represents := by
    rw [answered, served]
    exact represents

end JudgeSelf.MainApi
