import OpenWebui.AccessGrants.Sharing

/-! What the routes of several routers share: the exceptions they answer with, and their callers. -/

namespace OpenWebui

structure HTTPException where
  status_code : Nat
  detail : String
  deriving DecidableEq

namespace ERROR_MESSAGES

def DEFAULT : String := "Something went wrong :/"

def COMMAND_TAKEN : String :=
  "Uh-oh! This command is already registered. Please choose another command string."

def UNAUTHORIZED : String := "401 Unauthorized"

def ACCESS_PROHIBITED : String :=
  "You do not have permission to access this resource. Please contact your administrator for assistance."

def NOT_FOUND : String := "We could not find what you're looking for :/"

def INVALID_URL : String := "The URL you provided is invalid. Please double-check and try again."

def FEATURE_DISABLED (name : String) : String := name ++ " is disabled"

end ERROR_MESSAGES

def internalError : HTTPException := ⟨500, "Internal Server Error"⟩

def raised {α : Type} : Except PyError α → Except HTTPException α
  | .ok value => .ok value
  | .error _ => .error internalError

theorem raised_ok {α : Type} {result : Except PyError α} {value : α}
    (done : raised result = .ok value) : result = .ok value := by
  cases result with
  | error _ => cases done
  | ok found => exact congrArg Except.ok (Except.ok.inj done)

/-- The user of a request, with what `has_permission` answers for them. -/
structure Caller where
  id : String
  role : String
  has_permission : String → Except PyError Bool

def Caller.allowedGrants (caller : Caller) (public_permission_key : String) :
    Option (List AccessGrants.Payload) → Except PyError (Option (List AccessGrants.Payload))
  | none => .ok none
  | some access_grants =>
    (AccessGrants.filter_allowed_access_grants caller.has_permission caller.role access_grants
      public_permission_key none).map some

theorem Caller.allowedGrants_isSome {caller : Caller} {public_permission_key : String}
    {access_grants allowed : Option (List AccessGrants.Payload)}
    (done : caller.allowedGrants public_permission_key access_grants = .ok allowed) :
    allowed.isSome = access_grants.isSome := by
  cases access_grants with
  | none =>
    obtain rfl := Except.ok.inj done
    rfl
  | some grants =>
    obtain ⟨kept, _, rfl⟩ := map_eq_ok.mp done
    rfl

end OpenWebui
