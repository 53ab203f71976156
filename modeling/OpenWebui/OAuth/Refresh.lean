import Mathlib.Algebra.Order.Ring.Rat
import Mathlib.Data.Rat.Floor
import Mathlib.Logic.Function.Basic
import OpenWebui.Base.Runs

/-! `OAuthManager.get_oauth_token`: how calls read an OAuth session, refresh its token with the
provider and store or delete the session. One step is one statement or one request. -/

namespace OpenWebui.OAuth

abbrev RefreshToken := Nat

/-- The data of a token, after `_normalize_token_expiry`. -/
structure Token where
  refresh_token : RefreshToken
  expires_at : Int
deriving DecidableEq

structure Session where
  provider : String
  token : Token
  expires_at : Option Int
deriving DecidableEq

inductive Phase where
  | idle
  | discovering (session : Session)
  | requesting (session : Session)
  | received (token : Token)
  | stored
  | failed
  | returned (token : Option Token)
deriving DecidableEq

/-- What a call does next; the times, and what the provider answers, come with it. -/
inductive Action where
  | read (force_refresh : Bool) (now : ℚ)
  | discover (answered : Bool)
  | request (expires_at : Int)
  | update (now : ℚ)
  | select
  | delete

/-- The row of the session, the refresh token that the provider issued last, and the calls. -/
structure System where
  session : Option Session
  issued : RefreshToken
  calls : Nat → Phase

namespace System

def setPhase (system : System) (call : Nat) (phase : Phase) : System :=
  { system with calls := Function.update system.calls call phase }

def mcp (session : Session) : Bool := "mcp:".toList.isPrefixOf session.provider.toList

def needsRefresh (session : Session) (force_refresh : Bool) (now : ℚ) : Bool :=
  force_refresh ||
    match session.expires_at with
    | none => true
    | some expires_at => decide ((expires_at : ℚ) ≤ now + 5 * 60)

def afterRead (row : Option Session) (force_refresh : Bool) (now : ℚ) : Phase :=
  match row with
  | none => .returned none
  | some session =>
    if mcp session then .returned none
    else if needsRefresh session force_refresh now then .discovering session
    else .returned (some session.token)

def afterSelect (row : Option Session) : Phase :=
  match row with
  | some session => .returned (some session.token)
  | none => .failed

/-- The columns that `update_session_by_id` writes. -/
def updated (session : Session) (token : Token) (now : ℚ) : Session :=
  { session with
    token := token
    expires_at := some (if token.expires_at = 0 then ⌊now + 3600⌋ else token.expires_at) }

/-- One step of a call. The provider honours the refresh token it issued last, and no other, and
answers with a new one. -/
def act (system : System) (event : Nat × Action) : Option System :=
  match system.calls event.1, event.2 with
  | .idle, .read force_refresh now =>
    some (system.setPhase event.1 (afterRead system.session force_refresh now))
  | .discovering session, .discover answered =>
    some (system.setPhase event.1 (if answered then .requesting session else .failed))
  | .requesting session, .request expires_at =>
    if session.token.refresh_token = system.issued then
      some ({ system with issued := system.issued + 1 }.setPhase event.1
        (.received ⟨system.issued + 1, expires_at⟩))
    else some (system.setPhase event.1 .failed)
  | .received token, .update now =>
    some ({ system with
      session := system.session.map (fun session => updated session token now) }.setPhase
        event.1 .stored)
  | .stored, .select => some (system.setPhase event.1 (afterSelect system.session))
  | .failed, .delete => some ({ system with session := none }.setPhase event.1 (.returned none))
  | _, _ => none

abbrev run (system : System) (events : List (Nat × Action)) : Option System :=
  events.foldlM act system

def start (session : Session) : System := ⟨some session, session.token.refresh_token, fun _ => .idle⟩

end System

end OpenWebui.OAuth
