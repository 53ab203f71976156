import Mathlib.Logic.Function.Basic
import OpenWebui.Base.Runs

/-! Registrations of new users: sign-up with a password, LDAP, OAuth without role management, and
a trusted header. One step is one statement. -/

namespace OpenWebui.Signup

inductive Role where
  | pending
  | user
  | admin
deriving DecidableEq

inductive Path where
  | password
  | ldap
  | oauth
  | trusted_header
deriving DecidableEq

/-- Who registers, and how; emails are compared in lower case. An OAuth account that is known
already logs in instead, and is no registration. -/
structure Request where
  path : Path
  email : String

structure Settings where
  webui_auth : Bool
  enable_login_form : Bool
  enable_initial_admin_signup : Bool
  default_user_role : Role

inductive Phase where
  | waiting
  | gated (has_users : Bool)
  | admitted
  | unknown
  | ready (role : Role)
  | inserted
  | promoting
  | closing
  | registered
  | refused
deriving DecidableEq

/-- A row of the user table, with the registration that has put it there for its id. -/
structure User where
  id : Nat
  email : String
  role : Role

/-- The user table in the order of insertion, `ui.enable_signup`, and the registrations. -/
structure System where
  users : List User
  enable_signup : Bool
  phase : Nat → Phase

namespace System

def empty (enable_signup : Bool) : System := ⟨[], enable_signup, fun _ => .waiting⟩

def setPhase (system : System) (id : Nat) (phase : Phase) : System :=
  { system with phase := Function.update system.phase id phase }

def has_users (system : System) : Bool := !system.users.isEmpty

def get_num_users (system : System) : Nat := system.users.length

def get_user_by_email (system : System) (email : String) : Option User :=
  system.users.find? (fun user => decide (user.email = email))

def update_user_role_by_id (system : System) (id : Nat) (role : Role) : System :=
  { system with
    users := system.users.map (fun user => if user.id = id then { user with role := role } else user) }

section Step

variable (settings : Settings) (requests : Nat → Request)

/-- Whether `signup` lets a request pass, with or without users. -/
def admits (has_users enable_signup : Bool) : Bool :=
  if settings.webui_auth then
    if has_users then enable_signup && settings.enable_login_form
    else settings.enable_login_form || settings.enable_initial_admin_signup
  else !has_users

def lookup (system : System) (id : Nat) : System :=
  match system.get_user_by_email (requests id).email with
  | some _ => system.setPhase id .refused
  | none => system.setPhase id .unknown

/-- `get_user_role` for a user to be: the first user gets the default role too, and is promoted
only after the insert. -/
def get_user_role (user_count : Nat) : Role :=
  if user_count = 0 then settings.default_user_role
  -- no role management
  else settings.default_user_role

def newRole (system : System) (path : Path) : Role :=
  match path with
  | .oauth => get_user_role settings system.get_num_users
  | _ => settings.default_user_role

def insert_new_auth (system : System) (id : Nat) (role : Role) : System :=
  match system.get_user_by_email (requests id).email with
  | some _ => system.setPhase id .refused
  | none =>
    let user : User := ⟨id, (requests id).email, role⟩
    { system with users := system.users ++ [user] }.setPhase id .inserted

/-- What follows a promotion: `signup_handler` switches further sign-ups off. -/
def afterPromotion (path : Path) : Phase :=
  match path with
  | .password => .closing
  | .trusted_header => .closing
  | _ => .registered

def step (system : System) (id : Nat) : Option System :=
  match system.phase id with
  | .waiting =>
    if (requests id).path = .password then some (system.setPhase id (.gated system.has_users))
    else some (lookup requests system id)
  | .gated has_users =>
    some (system.setPhase id
      (if admits settings has_users system.enable_signup then .admitted else .refused))
  | .admitted => some (lookup requests system id)
  | .unknown => some (system.setPhase id (.ready (newRole settings system (requests id).path)))
  | .ready role => some (insert_new_auth requests system id role)
  | .inserted =>
    some (system.setPhase id (if system.get_num_users = 1 then .promoting else .registered))
  | .promoting =>
    some ((system.update_user_role_by_id id .admin).setPhase id
      (afterPromotion (requests id).path))
  | .closing => some ({ system with enable_signup := false }.setPhase id .registered)
  | .registered => none
  | .refused => none

abbrev run (system : System) (events : List Nat) : Option System :=
  events.foldlM (step settings requests) system

end Step

end System

end OpenWebui.Signup
