import Mathlib.Data.Rat.Floor
import OpenWebui.Base.Expiring

/-! Session tokens: how they are made, and how they are revoked one by one and for a whole user.
Times are in seconds since the epoch, where `int` rounds down. -/

namespace OpenWebui.Auth

abbrev Jti := Nat

structure UserId where
  id : String
  filled : id ≠ ""
deriving DecidableEq

/-- What a token says; any claim may be missing from a token of an older version. -/
structure Payload where
  id : Option String
  jti : Option Jti
  iat : Option Int
  exp : Option Int
deriving DecidableEq

def Payload.expired (payload : Payload) (now : ℚ) : Bool :=
  match payload.exp with
  | some exp => decide ((exp : ℚ) ≤ now)
  | none => false

/-- `jwt.encode` and `jwt.decode` with the secret of the sessions: a token decodes to what was
encoded as long as its claims have not run out. -/
structure Jwt (Token : Type) where
  encode : Payload → Token
  decode : Token → ℚ → Option Payload
  decode_encode : ∀ payload now, (∀ iat, payload.iat = some iat → (iat : ℚ) ≤ now) →
    decode (encode payload) now = if payload.expired now then none else some payload

inductive RedisKey where
  | token (jti : Jti)
  | user (user_id : String)
deriving DecidableEq

abbrev Redis := Expiring RedisKey Int

section Tokens

variable {Token : Type} (jwt : Jwt Token)

/-- The claims that `create_token` puts into a token; a delta of zero counts as none. -/
def claims (user_id : UserId) (expires_delta : Option ℚ) (jti : Jti) (now : ℚ) : Payload where
  id := some user_id.id
  jti := some jti
  iat := some ⌊now⌋
  exp := (expires_delta.filter (fun delta => decide (delta ≠ 0))).map (fun delta => ⌊now + delta⌋)

def create_token (user_id : UserId) (expires_delta : Option ℚ) (jti : Jti) (now : ℚ) : Token :=
  jwt.encode (claims user_id expires_delta jti now)

def decode_token (token : Token) (now : ℚ) : Option Payload := jwt.decode token now

/-- A token without `iat` cannot be checked against the logout of its user. -/
def issuedBefore (iat : Option Int) (revoked_at : Int) : Bool :=
  match iat with
  | some iat => decide (iat ≤ revoked_at)
  | none => true

def is_valid_token (decoded : Payload) (redis : Redis) (now : ℚ) : Bool :=
  let token_revoked :=
    match decoded.jti with
    | some jti => (redis.get? (.token jti) now).isSome
    | none => false
  let user_revoked :=
    match decoded.id with
    | some user_id =>
      if user_id = "" then false
      else
        match redis.get? (.user user_id) now with
        | some revoked_at => issuedBefore decoded.iat revoked_at
        | none => false
    | none => false
  !token_revoked && !user_revoked

def invalidate_token (token : Token) (redis : Redis) (now : ℚ) : Redis :=
  match decode_token jwt token now with
  | none => redis
  | some decoded =>
    match decoded.jti, decoded.exp with
    | some jti, some exp =>
      let ttl := exp - ⌊now⌋
      if exp ≠ 0 ∧ 0 < ttl then redis.set (.token jti) 1 now ttl else redis
    | _, _ => redis

def revocationLifetime : ℚ := 60 * 60 * 24 * 30

/-- The revocation that `handle_backchannel_logout` stores for a user it logs out. -/
def revokeUser (user_id : UserId) (redis : Redis) (now : ℚ) : Redis :=
  redis.set (.user user_id.id) ⌊now⌋ now revocationLifetime

def accepted (token : Token) (redis : Redis) (now : ℚ) : Bool :=
  match decode_token jwt token now with
  | some decoded => is_valid_token decoded redis now
  | none => false

end Tokens

end OpenWebui.Auth
