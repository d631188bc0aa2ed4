import LampLight.Auth.Invitations
import LampLight.Tenancy.Resolve

/-!
# The authentication library

Better Auth is not part of the repository. `BetterAuth` is the part of it that the program calls, as
functions on the global identity tables, and `BetterAuth.Documented` is what it promises under the
options the program sets: passwords are enabled, sign-up is not disabled, and an unverified address
cannot sign in.

Beside the tables, `AuthWorld` keeps what has been mailed and how every password came to be set.
Nothing in the program reads these; they are there to state what a password proves.

## Main definitions

* `BetterAuth`, `BetterAuth.Documented`
* `AuthWorld`, `AuthWorld.absorb`, `PasswordOrigin`
-/

namespace LampLight

open Js

/-! ### Requests and effects -/

/-- A request as the mounted handler sees it. -/
structure AuthRequest where
  path : String
  query : List (String × String)
  cookie : Option String
  body : Json

/-- The tokens a request carries, in its body or in its query. -/
def AuthRequest.secrets (r : AuthRequest) : List String :=
  ((r.body.get? "token").bind Json.string?).toList ++ (r.query.lookup "token").toList

/-- What the library draws during one call. `generateId` makes its ids uuids. -/
structure AuthDraw where
  id : Uuid
  token : String
  now : Instant
deriving DecidableEq

/-- What the library hands to `sendResetPassword`. -/
structure ResetMail where
  user : UserRow
  token : String
deriving DecidableEq

/-- The tables after a call, whose password the call set, and the reset it wants mailed. -/
structure AuthEffect where
  identity : Identity
  passwordsSet : List Uuid := []
  resetMail : Option ResetMail := none

/-- What the library's own sign-up takes. -/
structure SignUpEmailBody where
  email : String
  password : String
  name : String
deriving DecidableEq

/-- The surface of the library. `signUpEmail` may throw, and what it returns may lack a user. -/
structure BetterAuth where
  handler : AuthRequest → AuthDraw → Identity → AuthEffect
  signUpEmail : SignUpEmailBody → AuthDraw → Identity → Except String (Option Uuid) × AuthEffect
  requestPasswordReset : String → AuthDraw → Identity → AuthEffect
  getSession : Option String → Instant → Identity → Option UserRow

/-! ### What the library promises -/

/-- What identifies a user. -/
def UserRow.standing (u : UserRow) : Uuid × String × Bool := (u.id, u.email, u.emailVerified)

/-- What a call may do to the tables, when it may set the passwords of the `licensed` users and
create a user whose address satisfies `address`. -/
structure Effects (before : Identity) (draw : AuthDraw) (licensed : Uuid → Prop)
    (address : String → Prop) (e : AuthEffect) : Prop where
  /-- Nobody's address or verification changes; at most one user is created, unverified. -/
  users : ∃ created : Option UserRow,
    e.identity.users.map UserRow.standing
        = before.users.map UserRow.standing ++ created.toList.map UserRow.standing ∧
      ∀ u ∈ created, u.id = draw.id ∧ u.emailVerified = false ∧ address u.email
  passwords : ∀ id ∈ e.passwordsSet, id = draw.id ∨ licensed id
  passwords_user : ∀ id ∈ e.passwordsSet, ∃ u ∈ e.identity.users, u.id = id
  accounts : ∀ a ∈ e.identity.accounts, a ∈ before.accounts ∨ a.userId ∈ e.passwordsSet
  /-- Only a verified user can sign in. -/
  sessions : ∀ x ∈ e.identity.sessions,
    x ∈ before.sessions ∨ ∃ u ∈ before.users, u.id = x.userId ∧ u.emailVerified = true
  verifications : ∀ v ∈ e.identity.verifications,
    v ∈ before.verifications ∨ v.token = draw.token ∧ ∃ u ∈ before.users, u.id = v.userId
  /-- A reset is mailed to the user whose reset it is. -/
  resetMail : ∀ m ∈ e.resetMail, m.token = draw.token ∧
    ∀ v ∈ e.identity.verifications, v.token = draw.token →
      ∀ u ∈ before.users, u.id = v.userId → u.email = m.user.email

/-- The library as documented. -/
structure BetterAuth.Documented (lib : BetterAuth) : Prop where
  /-- A request sets the password of a new user, of one whose reset token it carries, or of the one
  signed in. Addresses are stored in lower case. -/
  handler : ∀ r draw before, Effects before draw
    (fun id => (∃ v ∈ before.verifications, v.token ∈ r.secrets ∧ v.userId = id) ∨
      ∃ u, lib.getSession r.cookie draw.now before = some u ∧ u.id = id)
    (fun email => toLowerCase email.toList = email.toList) (lib.handler r draw before)
  signUpEmail : ∀ body draw before, Effects before draw (fun _ => False)
    (fun email => email.toList = toLowerCase body.email.toList) (lib.signUpEmail body draw before).2
  /-- The id returned is new, also when the address turns out to be taken. -/
  signUpEmail_id : ∀ body draw before id,
    (lib.signUpEmail body draw before).1 = .ok (some id) → id = draw.id
  requestPasswordReset : ∀ email draw before, Effects before draw (fun _ => False) (fun _ => False)
    (lib.requestPasswordReset email draw before)
  getSession : ∀ cookie now before u, lib.getSession cookie now before = some u →
    u ∈ before.users ∧ ∃ x ∈ before.sessions, x.userId = u.id

theorem UserRow.standing_eq {u v : UserRow} (h : v.standing = u.standing) :
    v.id = u.id ∧ v.email = u.email ∧ v.emailVerified = u.emailVerified := by
  simpa [UserRow.standing] using h

/-- A user after a call is one from before or the one it created. -/
theorem Effects.user_cases {before : Identity} {draw : AuthDraw} {licensed : Uuid → Prop}
    {address : String → Prop} {e : AuthEffect} (he : Effects before draw licensed address e)
    {u : UserRow} (hu : u ∈ e.identity.users) :
    (∃ v ∈ before.users, v.standing = u.standing) ∨
      u.id = draw.id ∧ u.emailVerified = false ∧ address u.email := by
  obtain ⟨created, hmap, hcreated⟩ := he.users
  have hmem : u.standing ∈ e.identity.users.map UserRow.standing := List.mem_map_of_mem hu
  rw [hmap, List.mem_append] at hmem
  rcases hmem with hold | hnew
  · left
    obtain ⟨v, hv, heq⟩ := List.mem_map.mp hold
    exact ⟨v, hv, heq⟩
  · right
    obtain ⟨n, hn, heq⟩ := List.mem_map.mp hnew
    have hprops := hcreated n (Option.mem_toList.mp hn)
    simp only [UserRow.standing, Prod.mk.injEq] at heq
    rw [← heq.1, ← heq.2.1, ← heq.2.2]
    exact hprops

section Ids

variable {before : Identity} {draw : AuthDraw} {licensed : Uuid → Prop} {address : String → Prop}
  {e : AuthEffect} {drawn : List Uuid}

/-- The users after a call have ids that were drawn before, or in it. -/
theorem Effects.users_drawn (he : Effects before draw licensed address e)
    (hdrawn : ∀ u ∈ before.users, u.id ∈ drawn) {u : UserRow} (hu : u ∈ e.identity.users) :
    u.id ∈ draw.id :: drawn := by
  rcases he.user_cases hu with ⟨v, hv, hstanding⟩ | ⟨hnew, -⟩
  · rw [← (UserRow.standing_eq hstanding).1]
    exact List.mem_cons_of_mem _ (hdrawn v hv)
  · rw [hnew]
    exact List.mem_cons_self ..

/-- The ids are those from before and a fresh one. -/
theorem Effects.users_key (he : Effects before draw licensed address e)
    (hdrawn : ∀ u ∈ before.users, u.id ∈ drawn) (hfresh : draw.id ∉ drawn)
    (hkey : (before.users.map (·.id)).Nodup) : (e.identity.users.map (·.id)).Nodup := by
  obtain ⟨created, hmap, hcreated⟩ := he.users
  have hids : e.identity.users.map (·.id)
      = before.users.map (·.id) ++ created.toList.map (·.id) := by
    have := congrArg (List.map Prod.fst) hmap
    simpa [UserRow.standing, Function.comp_def] using this
  rw [hids]
  cases created with
  | none => simpa using hkey
  | some n =>
    have hn : n.id = draw.id := (hcreated n rfl).1
    refine List.Nodup.append hkey (by simp) ?_
    intro id hold hnew
    obtain ⟨u, hu, rfl⟩ := List.mem_map.mp hold
    have hid : u.id = draw.id := by simpa [hn] using hnew
    exact hfresh (hid ▸ hdrawn u hu)

end Ids

/-! ### What a password proves -/

/-- A mail to an address with a secret in it. -/
structure Letter where
  address : String
  secret : String
deriving DecidableEq

/-- How a password came to be set. -/
inductive PasswordOrigin
  /-- By a request that carried a secret which had been mailed to the user's address. -/
  | mailedSecret (secret : String)
  /-- While the address was verified. -/
  | verifiedAddress
  /-- By a request that proved nothing about an address nobody had verified. -/
  | unproven
deriving DecidableEq

/-- What setting a password says about its user, when the request carries `secrets`. -/
def originOf (mails : List Letter) (secrets : List String) (u : UserRow) : PasswordOrigin :=
  if u.emailVerified then .verifiedAddress
  else
    match secrets.find? fun s => ⟨u.email, s⟩ ∈ mails with
    | some s => .mailedSecret s
    | none => .unproven

theorem originOf_ne_unproven {mails : List Letter} {secrets : List String} {u : UserRow} :
    originOf mails secrets u ≠ .unproven ↔
      u.emailVerified = true ∨ ∃ s ∈ secrets, (⟨u.email, s⟩ : Letter) ∈ mails := by
  rw [originOf]
  by_cases hv : u.emailVerified = true
  · simp [hv]
  · rw [if_neg hv]
    cases hfind : secrets.find? fun s => (⟨u.email, s⟩ : Letter) ∈ mails with
    | none =>
      have hnone := List.find?_eq_none.mp hfind
      simpa [hv] using hnone
    | some s =>
      have hs := List.find?_some hfind
      simp only [decide_eq_true_eq] at hs
      simp only [ne_eq, reduceCtorEq, not_false_eq_true, true_iff]
      exact Or.inr ⟨s, List.mem_of_find?_eq_some hfind, hs⟩

/-- The world with what is known about secrets: which were mailed, and who set which password. -/
structure AuthWorld extends World where
  /-- The mails that have gone out. -/
  mails : List Letter := []
  /-- Every secret written down for an address, mailed or not. -/
  minted : List Letter := []
  /-- The ids the library has drawn. -/
  drawn : List Uuid := []
  /-- How each user's password came to be set. -/
  origin : Uuid → Option PasswordOrigin := fun _ => none

namespace AuthWorld

/-- The world after a call of the library for a request that carries `secrets`. -/
@[simps db mails minted drawn origin]
def absorb (w : AuthWorld) (secrets : List String) (draw : AuthDraw) (e : AuthEffect) :
    AuthWorld where
  db := { w.db with toIdentity := e.identity }
  zone := w.zone
  recorded := w.recorded
  mails := w.mails
  minted := w.minted
  drawn := draw.id :: w.drawn
  origin id :=
    if id ∈ e.passwordsSet then
      (e.identity.users.find? fun u => u.id = id).map (originOf w.mails secrets)
    else w.origin id

/-- A secret is written down. -/
def mint (w : AuthWorld) (letter : Letter) : AuthWorld :=
  { w with minted := letter :: w.minted }

/-- A mail goes out. -/
def post (w : AuthWorld) (letter : Letter) : AuthWorld :=
  { w with mails := letter :: w.mails }

end AuthWorld

/-! ### Around the library -/

/-- What a lookup by address finds of an account. -/
structure GlobalAccount where
  id : Uuid
  emailVerified : Bool
deriving DecidableEq

/-- The account holding an address, anywhere on the platform. -/
def findAccountByEmail (db : Database) (email : String) : Option GlobalAccount :=
  (db.users.find? fun u => u.email = normalizeEmail email).map fun u => ⟨u.id, u.emailVerified⟩

/-- The institute a piece of mail is sent on behalf of. -/
structure SendingInstitute where
  host : String
  name : String
deriving DecidableEq

/-- The callback. Without an institute there is nowhere to point a link at, and nothing is sent. -/
def sendResetPassword (institute : Option SendingInstitute) (mail : ResetMail) : Option Letter :=
  institute.map fun _ => ⟨mail.user.email, mail.token⟩

/-- What a route answers. -/
structure RouteResponse where
  code : ℕ
  status : String
  message : Option String := none
  errors : List (String × String) := []
deriving DecidableEq

/-- An exception nobody caught. -/
def RouteResponse.uncaught : RouteResponse where
  code := 500
  status := ""

/-- `request.json()` followed by a property access: unreadable text is refused, and `null` has no
properties. -/
def readBody (refused : RouteResponse) : Option Json → Except RouteResponse Json
  | none => .error refused
  | some .null => .error .uncaught
  | some body => .ok body

/-- `typeof body[key] === 'string' ? body[key] : ''`. -/
def textField (body : Json) (key : String) : String :=
  ((body.get? key).bind Json.string?).getD ""

end LampLight
