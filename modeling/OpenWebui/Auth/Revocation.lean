import OpenWebui.Auth.Tokens
import OpenWebui.Base.Runs

/-! Logins, sign-outs and logouts over time, and when a token that was revoked stays revoked. -/

namespace OpenWebui.Auth

structure Login where
  user_id : UserId
  expires_delta : Option ℚ
  iat : ℚ
  jti : Jti

def Login.payload (login : Login) : Payload :=
  claims login.user_id login.expires_delta login.jti login.iat

/-- Redis, the tokens issued so far, what was signed out, the logouts of the users with the
latest first, and the time of the last of these events. -/
structure State where
  redis : Redis
  issued : List Login
  signed_out : List Jti
  logouts : List (UserId × ℚ)
  clock : ℚ

section State

variable {Token : Type} (jwt : Jwt Token)

def Login.token (login : Login) : Token :=
  create_token jwt login.user_id login.expires_delta login.jti login.iat

namespace State

def start : State := ⟨.empty, [], [], [], 0⟩

def login (state : State) (user_id : UserId) (expires_delta : Option ℚ) (now : ℚ) : State :=
  { state with
    issued := state.issued ++ [⟨user_id, expires_delta, now, state.issued.length⟩]
    clock := now }

def signout (state : State) (login : Login) (now : ℚ) : State :=
  { state with
    redis := invalidate_token jwt (login.token jwt) state.redis now
    signed_out := login.jti :: state.signed_out
    clock := now }

def handle_backchannel_logout (state : State) (user_id : UserId) (now : ℚ) : State :=
  { state with
    redis := revokeUser user_id state.redis now
    logouts := (user_id, now) :: state.logouts
    clock := now }

end State

/-- The events come at times that do not decrease. -/
inductive Step : State → State → Prop where
  | login (state : State) (user_id : UserId) (expires_delta : Option ℚ) (now : ℚ)
      (later : state.clock ≤ now) : Step state (state.login user_id expires_delta now)
  | signout (state : State) (login : Login) (now : ℚ) (later : state.clock ≤ now)
      (known : login ∈ state.issued) : Step state (state.signout jwt login now)
  | backchannel_logout (state : State) (user_id : UserId) (now : ℚ) (later : state.clock ≤ now) :
      Step state (state.handle_backchannel_logout user_id now)

/-- The token was signed out, or was issued no later than a logout of its user. -/
def Revoked (state : State) (login : Login) : Prop :=
  login.jti ∈ state.signed_out ∨ ∃ logout, (login.user_id, logout) ∈ state.logouts ∧
    login.iat ≤ logout

/-- The token was never signed out, and was issued at least a second after every logout of its
user. -/
def Fresh (state : State) (login : Login) : Prop :=
  login.jti ∉ state.signed_out ∧ ∀ logout, (login.user_id, logout) ∈ state.logouts →
    logout + 1 ≤ login.iat

/-- Whatever events follow, the token is not accepted at any later time. -/
def NeverAgain (state : State) (login : Login) : Prop :=
  ∀ final now, Steps.Run (Step jwt) state final → final.clock ≤ now →
    accepted jwt (login.token jwt) final.redis now = false

/-- A revoked token is never accepted again, and a fresh one is until it expires. -/
def Permanent (state : State) (login : Login) : Prop :=
  (Revoked state login → NeverAgain jwt state login) ∧
    (Fresh state login → ∀ now, state.clock ≤ now →
      accepted jwt (login.token jwt) state.redis now = !login.payload.expired now)

/-- The token has an expiry, and was signed out itself, or expires no later than the revocation
that the last logout of its user has stored, or has expired by now. -/
def Lasting (state : State) (login : Login) : Prop :=
  ∃ exp, login.payload.exp = some exp ∧
    (login.jti ∈ state.signed_out ∨ (exp : ℚ) ≤ state.clock ∨
      ∃ logout, state.logouts.lookup login.user_id = some logout ∧
        (exp : ℚ) ≤ logout + revocationLifetime)

/-- What holds between any two events. -/
structure Inv (state : State) : Prop where
  epoch : 0 ≤ state.clock
  place : ∀ login ∈ state.issued, state.issued[login.jti]? = some login
  past : ∀ login ∈ state.issued, login.iat ≤ state.clock
  logout_past : ∀ user_id logout, (user_id, logout) ∈ state.logouts → logout ≤ state.clock
  latest : ∀ user_id logout, (user_id, logout) ∈ state.logouts →
    ∃ last, state.logouts.lookup user_id = some last ∧ logout ≤ last
  user : ∀ user_id : UserId, state.redis.entries.get? (.user user_id.id) =
    (state.logouts.lookup user_id).map (fun logout => (⌊logout⌋, logout + revocationLifetime))
  signed_out : ∀ login ∈ state.issued, login.jti ∈ state.signed_out → ∀ exp,
    login.payload.exp = some exp → (exp : ℚ) ≤ state.clock ∨
      ∃ until_, state.redis.entries.get? (.token login.jti) = some (1, until_) ∧ (exp : ℚ) ≤ until_
  unmarked : ∀ jti, (jti ∈ state.signed_out → ∀ login, state.issued[jti]? = some login →
    login.payload.exp = none) → state.redis.entries.get? (.token jti) = none
  known : ∀ jti ∈ state.signed_out, jti < state.issued.length

section Login

variable {login : Login} {now : ℚ}

theorem decode_login (issued : login.iat ≤ now) :
    decode_token jwt (login.token jwt) now =
      if login.payload.expired now then none else some login.payload := by
  refine jwt.decode_encode login.payload now ?_
  intro iat same
  obtain rfl := Option.some.inj same
  exact (Int.floor_le login.iat).trans issued

theorem expired_iff {exp : Int} (expiry : login.payload.exp = some exp) :
    login.payload.expired now = true ↔ (exp : ℚ) ≤ now := by
  rw [Payload.expired, expiry]
  exact decide_eq_true_iff

theorem invalidate_endless (issued : login.iat ≤ now) (endless : login.payload.exp = none)
    (redis : Redis) : invalidate_token jwt (login.token jwt) redis now = redis := by
  have live : login.payload.expired now = false := by rw [Payload.expired, endless]
  rw [invalidate_token, decode_login jwt issued, live]
  simp [endless]

theorem invalidate_expired (issued : login.iat ≤ now) (expired : login.payload.expired now = true)
    (redis : Redis) : invalidate_token jwt (login.token jwt) redis now = redis := by
  rw [invalidate_token, decode_login jwt issued, expired, if_pos rfl]

theorem invalidate_live {exp : Int} (epoch : 0 ≤ now) (issued : login.iat ≤ now)
    (expiry : login.payload.exp = some exp) (before : now < exp) (redis : Redis) :
    invalidate_token jwt (login.token jwt) redis now =
      redis.set (.token login.jti) 1 now ((exp - ⌊now⌋ : Int) : ℚ) := by
  have live : login.payload.expired now ≠ true :=
    fun expired => absurd ((expired_iff expiry).mp expired) (not_le.mpr before)
  have floor : ⌊now⌋ < exp := Int.floor_lt.mpr before
  have positive : 0 ≤ ⌊now⌋ := Int.floor_nonneg.mpr epoch
  have named : login.payload.jti = some login.jti := rfl
  rw [invalidate_token, decode_login jwt issued, if_neg live]
  simp only [named, expiry]
  exact if_pos ⟨by omega, by omega⟩

end Login

theorem inv_start : Inv State.start where
  epoch := le_refl _
  place := by simp [State.start]
  past := by simp [State.start]
  logout_past := by simp [State.start]
  latest := by simp [State.start]
  user := by simp [State.start]
  signed_out := by simp [State.start]
  unmarked := by simp [State.start]
  known := by simp [State.start]

theorem Inv.login {state : State} (inv : Inv state) (user_id : UserId) (expires_delta : Option ℚ)
    {now : ℚ} (later : state.clock ≤ now) : Inv (state.login user_id expires_delta now) where
  epoch := inv.epoch.trans later
  place := by
    intro login member
    rcases List.mem_append.mp member with old | new
    · exact (List.getElem?_append_left (List.getElem?_eq_some_iff.mp (inv.place login old)).1).trans
        (inv.place login old)
    · obtain rfl := List.mem_singleton.mp new
      simp [State.login]
  past := by
    intro login member
    rcases List.mem_append.mp member with old | new
    · exact (inv.past login old).trans later
    · obtain rfl := List.mem_singleton.mp new
      exact le_refl _
  logout_past := fun user_id logout member => (inv.logout_past user_id logout member).trans later
  latest := inv.latest
  user := inv.user
  signed_out := by
    intro login member out exp expiry
    rcases List.mem_append.mp member with old | new
    · exact (inv.signed_out login old out exp expiry).imp_left (fun expired => expired.trans later)
    · obtain rfl := List.mem_singleton.mp new
      exact absurd (inv.known _ out) (lt_irrefl _)
  unmarked := by
    intro jti endless
    refine inv.unmarked jti (fun out login there => endless out login ?_)
    exact (List.getElem?_append_left (List.getElem?_eq_some_iff.mp there).1).trans there
  known := by
    intro jti out
    have before := inv.known jti out
    rw [State.login, List.length_append]
    exact before.trans (Nat.lt_succ_self _)

theorem lookup_logout (state : State) (user_id other : UserId) (now : ℚ) :
    (state.handle_backchannel_logout user_id now).logouts.lookup other =
      if other = user_id then some now else state.logouts.lookup other := by
  rw [State.handle_backchannel_logout, List.lookup_cons]
  by_cases same : other = user_id
  · simp [same]
  · simp [same, beq_false_of_ne same]

theorem Inv.backchannel_logout {state : State} (inv : Inv state) (user_id : UserId) {now : ℚ}
    (later : state.clock ≤ now) : Inv (state.handle_backchannel_logout user_id now) where
  epoch := inv.epoch.trans later
  place := inv.place
  past := fun login member => (inv.past login member).trans later
  logout_past := by
    intro other logout member
    rcases List.mem_cons.mp member with new | old
    · obtain ⟨rfl, rfl⟩ := Prod.mk.inj new
      exact le_refl _
    · exact (inv.logout_past other logout old).trans later
  latest := by
    intro other logout member
    by_cases same : other = user_id
    · subst same
      refine ⟨now, by rw [lookup_logout, if_pos rfl], ?_⟩
      rcases List.mem_cons.mp member with new | old
      · exact (Prod.mk.inj new).2.le
      · exact (inv.logout_past other logout old).trans later
    · have old : (other, logout) ∈ state.logouts := by
        simpa [State.handle_backchannel_logout, same] using member
      obtain ⟨last, found, before⟩ := inv.latest other logout old
      exact ⟨last, by rw [lookup_logout, if_neg same]; exact found, before⟩
  user := by
    intro other
    rw [lookup_logout]
    by_cases same : other = user_id
    · subst same
      simp [State.handle_backchannel_logout, revokeUser]
    · have differ : user_id.id ≠ other.id := by
        intro equal
        cases other
        cases user_id
        simp_all
      simpa [State.handle_backchannel_logout, revokeUser, same, differ] using inv.user other
  signed_out := by
    intro login member out exp expiry
    rcases inv.signed_out login member out exp expiry with expired | ⟨until_, stored, lasts⟩
    · exact .inl (expired.trans later)
    · exact .inr ⟨until_, by simpa [State.handle_backchannel_logout, revokeUser] using stored, lasts⟩
  unmarked := by
    intro jti endless
    simpa [State.handle_backchannel_logout, revokeUser] using inv.unmarked jti endless
  known := inv.known

theorem Inv.signout {state : State} (inv : Inv state) {login : Login} {now : ℚ}
    (later : state.clock ≤ now) (member : login ∈ state.issued) :
    Inv (state.signout jwt login now) := by
  have issued : login.iat ≤ now := (inv.past login member).trans later
  have epoch : 0 ≤ now := inv.epoch.trans later
  have effect : ∀ key, (state.signout jwt login now).redis.entries.get? key =
      state.redis.entries.get? key ∨ key = .token login.jti ∧ ∃ exp : Int,
        login.payload.exp = some exp ∧ now < exp ∧
          (state.signout jwt login now).redis.entries.get? key =
            some (1, now + ((exp - ⌊now⌋ : Int) : ℚ)) := by
    intro key
    cases expiry : login.payload.exp with
    | none => exact .inl (by rw [State.signout, invalidate_endless jwt issued expiry])
    | some exp =>
      by_cases expired : (exp : ℚ) ≤ now
      · refine .inl ?_
        rw [State.signout, invalidate_expired jwt issued ((expired_iff expiry).mpr expired)]
      · have live := invalidate_live jwt epoch issued expiry (not_le.mp expired) state.redis
        by_cases same : RedisKey.token login.jti = key
        · exact .inr ⟨same.symm, exp, rfl, not_le.mp expired, by simp [State.signout, live, same]⟩
        · exact .inl (by simp [State.signout, live, same])
  refine ⟨epoch, inv.place, fun other there => (inv.past other there).trans later, ?_, inv.latest,
    ?_, ?_, ?_, ?_⟩
  case refine_1 =>
    exact fun user_id logout there => (inv.logout_past user_id logout there).trans later
  case refine_2 =>
    intro user_id
    rcases effect (.user user_id.id) with same | ⟨other, _⟩
    · exact same.trans (inv.user user_id)
    · cases other
  case refine_3 =>
    intro other there out exp expiry
    by_cases same : other.jti = login.jti
    · obtain rfl : other = login := by
        have place := inv.place other there
        rw [same, inv.place login member] at place
        exact (Option.some.inj place).symm
      by_cases expired : (exp : ℚ) ≤ now
      · exact .inl expired
      · have live := invalidate_live jwt epoch issued expiry (not_le.mp expired) state.redis
        refine .inr ⟨now + ((exp - ⌊now⌋ : Int) : ℚ), by simp [State.signout, live], ?_⟩
        have floor := Int.floor_le now
        push_cast
        linarith
    · have before : other.jti ∈ state.signed_out := (List.mem_cons.mp out).resolve_left same
      rcases inv.signed_out other there before exp expiry with expired | ⟨until_, stored, lasts⟩
      · exact .inl (expired.trans later)
      · rcases effect (.token other.jti) with kept | ⟨clash, _⟩
        · exact .inr ⟨until_, kept.trans stored, lasts⟩
        · exact absurd (RedisKey.token.inj clash) same
  case refine_4 =>
    intro jti endless
    rcases effect (.token jti) with kept | ⟨same, exp, expiry, _⟩
    · refine kept.trans (inv.unmarked jti ?_)
      exact fun out other there => endless (List.mem_cons_of_mem _ out) other there
    · obtain rfl := RedisKey.token.inj same
      rw [endless List.mem_cons_self login (inv.place login member)] at expiry
      cases expiry
  case refine_5 =>
    intro jti out
    rcases List.mem_cons.mp out with rfl | before
    · exact (List.getElem?_eq_some_iff.mp (inv.place login member)).1
    · exact inv.known jti before

theorem Inv.step {old new : State} (inv : Inv old) (step : Step jwt old new) : Inv new := by
  cases step with
  | login user_id expires_delta now later => exact inv.login user_id expires_delta later
  | signout login now later known => exact inv.signout jwt later known
  | backchannel_logout user_id now later => exact inv.backchannel_logout user_id later

theorem Inv.run {old new : State} (inv : Inv old) (run : Steps.Run (Step jwt) old new) : Inv new :=
  Steps.invariant Inv (fun _ _ kept step => kept.step jwt step) run inv

/-- Histories only grow. -/
structure Grows (old new : State) : Prop where
  clock : old.clock ≤ new.clock
  issued : ∀ login ∈ old.issued, login ∈ new.issued
  signed_out : ∀ jti ∈ old.signed_out, jti ∈ new.signed_out
  logouts : ∀ logout ∈ old.logouts, logout ∈ new.logouts

theorem Grows.step {start old new : State} (grows : Grows start old) (step : Step jwt old new) :
    Grows start new := by
  obtain ⟨clock, issued, signed_out, logouts⟩ := grows
  cases step with
  | login user_id expires_delta now later =>
    exact ⟨clock.trans later, fun login there => List.mem_append_left _ (issued login there),
      signed_out, logouts⟩
  | signout login now later known =>
    exact ⟨clock.trans later, issued, fun jti out => List.mem_cons_of_mem _ (signed_out jti out),
      logouts⟩
  | backchannel_logout user_id now later =>
    exact ⟨clock.trans later, issued, signed_out,
      fun logout there => List.mem_cons_of_mem _ (logouts logout there)⟩

theorem grows_run {old new : State} (run : Steps.Run (Step jwt) old new) : Grows old new :=
  Steps.invariant (Grows old) (fun _ _ kept step => kept.step jwt step) run
    ⟨le_refl _, fun _ there => there, fun _ there => there, fun _ there => there⟩

section Accepted

variable {state : State} {login : Login} {now : ℚ}

theorem accepted_iff (inv : Inv state) (member : login ∈ state.issued) (later : state.clock ≤ now) :
    accepted jwt (login.token jwt) state.redis now = true ↔
      login.payload.expired now = false ∧ state.redis.get? (.token login.jti) now = none ∧
        ∀ logout, state.logouts.lookup login.user_id = some logout →
          now < logout + revocationLifetime → ⌊logout⌋ < ⌊login.iat⌋ := by
  have filled := login.user_id.filled
  rw [accepted, decode_login jwt ((inv.past login member).trans later)]
  cases expired : login.payload.expired now with
  | true => simp
  | false =>
    have marker := inv.user login.user_id
    simp only [Bool.false_eq_true, ↓reduceIte, true_and]
    simp only [is_valid_token, Login.payload, claims, filled, ↓reduceIte, Bool.and_eq_true,
      Bool.not_eq_eq_eq_not, Bool.not_true, Option.isSome_eq_false_iff, Option.isNone_iff_eq_none]
    refine and_congr_right fun _ => ?_
    cases found : state.logouts.lookup login.user_id with
    | none =>
      rw [found] at marker
      simp [Expiring.get?_of_missing marker]
    | some logout =>
      rw [found] at marker
      by_cases before : now < logout + revocationLifetime
      · rw [Expiring.get?_of_before marker before]
        simp [issuedBefore, before]
      · rw [Expiring.get?_of_after marker (not_lt.mp before)]
        simp [before]

theorem rejected_of_expired (inv : Inv state) (member : login ∈ state.issued)
    (later : state.clock ≤ now) (expired : login.payload.expired now = true) :
    accepted jwt (login.token jwt) state.redis now = false := by
  rw [Bool.eq_false_iff, ne_eq, accepted_iff jwt inv member later, expired]
  simp

theorem rejected_of_signed_out (inv : Inv state) (member : login ∈ state.issued)
    (later : state.clock ≤ now) {exp : Int} (expiry : login.payload.exp = some exp)
    (out : login.jti ∈ state.signed_out) :
    accepted jwt (login.token jwt) state.redis now = false := by
  by_cases expired : (exp : ℚ) ≤ now
  · exact rejected_of_expired jwt inv member later ((expired_iff expiry).mpr expired)
  · rw [Bool.eq_false_iff, ne_eq, accepted_iff jwt inv member later]
    rintro ⟨_, unmarked, _⟩
    rcases inv.signed_out login member out exp expiry with past | ⟨until_, stored, lasts⟩
    · exact expired (past.trans later)
    · rw [Expiring.get?_of_before stored ((not_le.mp expired).trans_le lasts)] at unmarked
      cases unmarked

theorem rejected_of_logout (inv : Inv state) (member : login ∈ state.issued)
    (later : state.clock ≤ now) {logout : ℚ}
    (last : state.logouts.lookup login.user_id = some logout) (issued : login.iat ≤ logout)
    (before : now < logout + revocationLifetime) :
    accepted jwt (login.token jwt) state.redis now = false := by
  rw [Bool.eq_false_iff, ne_eq, accepted_iff jwt inv member later]
  rintro ⟨_, _, passes⟩
  exact absurd (passes logout last before) (not_lt.mpr (Int.floor_le_floor issued))

theorem accepted_of_fresh (inv : Inv state) (member : login ∈ state.issued)
    (later : state.clock ≤ now) (fresh : Fresh state login) :
    accepted jwt (login.token jwt) state.redis now = !login.payload.expired now := by
  obtain ⟨kept, apart⟩ := fresh
  have unmarked : state.redis.get? (.token login.jti) now = none :=
    Expiring.get?_of_missing (inv.unmarked _ (fun out => absurd out kept)) now
  cases expired : login.payload.expired now with
  | true => exact rejected_of_expired jwt inv member later expired
  | false =>
    refine (accepted_iff jwt inv member later).mpr ⟨expired, unmarked, ?_⟩
    intro logout last _
    have second := Int.floor_le_floor (apart logout (Assoc.mem_of_lookup last))
    rw [Int.floor_add_one] at second
    omega

end Accepted

section Permanent

variable {state : State} {login : Login}

theorem never_again_of_lasting (inv : Inv state) (member : login ∈ state.issued)
    (revoked : Revoked state login) (lasting : Lasting state login) :
    NeverAgain jwt state login := by
  intro final now run later
  have inv' := inv.run jwt run
  have grows := grows_run jwt run
  have member' := grows.issued login member
  obtain ⟨exp, expiry, out | past | ⟨logout, last, covers⟩⟩ := lasting
  · exact rejected_of_signed_out jwt inv' member' later expiry (grows.signed_out _ out)
  · refine rejected_of_expired jwt inv' member' later ((expired_iff expiry).mpr ?_)
    exact past.trans (grows.clock.trans later)
  · by_cases expired : (exp : ℚ) ≤ now
    · exact rejected_of_expired jwt inv' member' later ((expired_iff expiry).mpr expired)
    · rcases revoked with out | ⟨earlier, there, issued⟩
      · exact rejected_of_signed_out jwt inv' member' later expiry (grows.signed_out _ out)
      · obtain ⟨first, same, before⟩ := inv.latest _ _ there
        obtain rfl := Option.some.inj (same.symm.trans last)
        have still := grows.logouts _ (Assoc.mem_of_lookup last)
        obtain ⟨final_logout, found, after⟩ := inv'.latest _ _ still
        refine rejected_of_logout jwt inv' member' later found
          (issued.trans (before.trans after)) ?_
        have live := not_le.mp expired
        linarith

theorem accepted_after_marker (inv : Inv state) (member : login ∈ state.issued)
    (fleeting : ¬ Lasting state login) : ∃ now, state.clock ≤ now ∧
      accepted jwt (login.token jwt) state.redis now = true := by
  have unmarked : state.redis.entries.get? (.token login.jti) = none := by
    refine inv.unmarked _ ?_
    intro out other there
    obtain rfl := Option.some.inj ((inv.place login member).symm.trans there)
    cases expiry : login.payload.exp with
    | none => rfl
    | some exp => exact absurd ⟨exp, expiry, .inl out⟩ fleeting
  obtain ⟨now, later, gone, live⟩ : ∃ now, state.clock ≤ now ∧
      (∀ logout, state.logouts.lookup login.user_id = some logout →
        logout + revocationLifetime ≤ now) ∧ login.payload.expired now = false := by
    have alive : ∀ now : ℚ, (∀ exp : Int, login.payload.exp = some exp → now < exp) →
        login.payload.expired now = false := by
      intro now before
      cases expiry : login.payload.exp with
      | none => rw [Payload.expired, expiry]
      | some exp =>
        rw [Bool.eq_false_iff, ne_eq, expired_iff expiry, not_le]
        exact before exp expiry
    cases last : state.logouts.lookup login.user_id with
    | none =>
      refine ⟨state.clock, le_refl _, fun _ there => (by cases there), alive _ ?_⟩
      intro exp expiry
      by_contra past
      exact fleeting ⟨exp, expiry, .inr (.inl (not_lt.mp past))⟩
    | some logout =>
      refine ⟨max state.clock (logout + revocationLifetime), le_max_left _ _, ?_, alive _ ?_⟩
      · intro other same
        obtain rfl := Option.some.inj same
        exact le_max_right _ _
      · intro exp expiry
        rw [max_lt_iff]
        constructor
        · by_contra past
          exact fleeting ⟨exp, expiry, .inr (.inl (not_lt.mp past))⟩
        · by_contra covers
          exact fleeting ⟨exp, expiry, .inr (.inr ⟨logout, last, not_lt.mp covers⟩)⟩
  refine ⟨now, later, (accepted_iff jwt inv member later).mpr
    ⟨live, Expiring.get?_of_missing unmarked now, ?_⟩⟩
  intro logout last before
  exact absurd before (not_lt.mpr (gone logout last))

/-- Revocation is permanent exactly where the marker outlives the token. -/
theorem revocation_permanent_iff (run : Steps.Run (Step jwt) State.start state)
    (issued : login ∈ state.issued) :
    Permanent jwt state login ↔ (Revoked state login → Lasting state login) := by
  have inv := inv_start.run jwt run
  constructor
  · rintro ⟨never, _⟩ revoked
    by_contra fleeting
    obtain ⟨now, later, passes⟩ := accepted_after_marker jwt inv issued fleeting
    rw [never revoked state now .refl later] at passes
    cases passes
  · intro lasting
    exact ⟨fun revoked => never_again_of_lasting jwt inv issued revoked (lasting revoked),
      fun fresh now later => accepted_of_fresh jwt inv issued later fresh⟩

end Permanent

def plainJwt : Jwt Payload where
  encode := id
  decode token now := if token.expired now then none else some token
  decode_encode := fun _ _ _ => rfl

def alice : UserId := ⟨"alice", by decide⟩

def aliceLogin (expires_delta : Option ℚ) : Login := ⟨alice, expires_delta, 0, 0⟩

def issuedState (expires_delta : Option ℚ) : State := State.start.login alice expires_delta 0

theorem run_issuedState (expires_delta : Option ℚ) :
    Steps.Run (Step plainJwt) State.start (issuedState expires_delta) :=
  .single (.login State.start alice expires_delta 0 (le_refl _))

def signedOutState : State :=
  (issuedState (some 3600)).signout plainJwt (aliceLogin (some 3600)) 60

theorem run_signedOutState : Steps.Run (Step plainJwt) State.start signedOutState :=
  .tail (run_issuedState _) (.signout _ _ 60 (by decide) List.mem_cons_self)

theorem signedOutState_permanent :
    (Revoked signedOutState (aliceLogin (some 3600)) ∧
      Lasting signedOutState (aliceLogin (some 3600))) ∧
      Permanent plainJwt signedOutState (aliceLogin (some 3600)) := by
  have lasting : Lasting signedOutState (aliceLogin (some 3600)) :=
    ⟨3600, by decide +kernel, .inl List.mem_cons_self⟩
  exact ⟨⟨.inl List.mem_cons_self, lasting⟩,
    (revocation_permanent_iff plainJwt run_signedOutState List.mem_cons_self).mpr
      (fun _ => lasting)⟩

def endlessState : State := (issuedState none).signout plainJwt (aliceLogin none) 60

def longState : State := (issuedState (some 4838400)).handle_backchannel_logout alice 60

/-- A token without an expiry outlives its sign-out, and a token of eight weeks the logout of its
user by thirty-one days. -/
theorem revocation_not_permanent :
    (Steps.Run (Step plainJwt) State.start endlessState ∧
      aliceLogin none ∈ endlessState.issued ∧ Revoked endlessState (aliceLogin none) ∧
        accepted plainJwt ((aliceLogin none).token plainJwt) endlessState.redis 61 = true) ∧
      Steps.Run (Step plainJwt) State.start longState ∧
        aliceLogin (some 4838400) ∈ longState.issued ∧
          Revoked longState (aliceLogin (some 4838400)) ∧
            accepted plainJwt ((aliceLogin (some 4838400)).token plainJwt) longState.redis
              (31 * 24 * 60 * 60) = true := by
  refine ⟨⟨?_, List.mem_cons_self, .inl List.mem_cons_self, by decide +kernel⟩, ?_,
    List.mem_cons_self, .inr ⟨60, List.mem_cons_self, by decide +kernel⟩, by decide +kernel⟩
  · exact .tail (run_issuedState _) (.signout _ _ 60 (by decide +kernel) List.mem_cons_self)
  · exact .tail (run_issuedState _) (.backchannel_logout _ alice 60 (by decide +kernel))

end State

end OpenWebui.Auth
