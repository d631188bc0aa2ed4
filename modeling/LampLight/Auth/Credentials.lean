import LampLight.Auth.Activation
import LampLight.Auth.SignUp

/-!
# What passwords prove

`AuthWorld.Sound` is what holds of the identity tables, the invitations and the mails of a platform
whose accounts nobody has hijacked: the password of a verified user was set by somebody who had the
user's mail, and a secret belongs to the address it was written down for.

Three kinds of step keep it: a call of the library (`Sound.absorb`), the writing of an invitation
(`Sound.invites`), and the completion of an activation whose user has a proven password
(`Sound.completed`).

## Main definitions

* `AuthWorld.Proven`, `AuthWorld.Sound`
* `AuthWorld.FreshDraw`, `AuthWorld.Unguessed` — what is assumed of random choices
* `AuthWorld.Evolves` — what no step of anybody takes away
-/

namespace LampLight

open Js

namespace AuthWorld

/-- The password of this user, if there is one, was set by a request that carried a secret mailed to
the user's address, or while the address was verified. -/
def Proven (w : AuthWorld) (userId : Uuid) : Prop :=
  ∀ a ∈ w.db.accounts, a.userId = userId → ∃ o ∈ w.origin userId, o ≠ .unproven

variable (hashToken : String → String)

/-- What every reachable state of the accounts satisfies. -/
structure Sound (w : AuthWorld) : Prop where
  users_key : (w.db.users.map (·.id)).Nodup
  users_drawn : ∀ u ∈ w.db.users, u.id ∈ w.drawn
  accounts_drawn : ∀ a ∈ w.db.accounts, a.userId ∈ w.drawn
  accounts_origin : ∀ a ∈ w.db.accounts, ∃ o, w.origin a.userId = some o
  sessions_drawn : ∀ x ∈ w.db.sessions, x.userId ∈ w.drawn
  verifications_drawn : ∀ v ∈ w.db.verifications, v.userId ∈ w.drawn
  verified_proven : ∀ u ∈ w.db.users, u.emailVerified = true → w.Proven u.id
  sessions_verified : ∀ x ∈ w.db.sessions, ∀ u ∈ w.db.users, u.id = x.userId →
    u.emailVerified = true
  mails_minted : w.mails ⊆ w.minted
  minted_invitations : ∀ l ∈ w.minted, ∀ i ∈ w.db.signupInvitations,
    hashToken l.secret = i.tokenHash → i.email = l.address
  minted_verifications : ∀ l ∈ w.minted, ∀ v ∈ w.db.verifications, l.secret = v.token →
    ∀ u ∈ w.db.users, u.id = v.userId → u.email = l.address
  invitations_normal : ∀ i ∈ w.db.signupInvitations, normalizeEmail i.email = i.email
  invitations_tenant : ∀ i ∈ w.db.signupInvitations, ∃ t ∈ w.db.tenants, t.id = i.tenantId

/-! ### Random choices -/

/-- A token that has not been in use. -/
structure FreshSecret (w : AuthWorld) (token : String) : Prop where
  minted : ∀ l ∈ w.minted, hashToken l.secret ≠ hashToken token
  invitations : ∀ i ∈ w.db.signupInvitations, i.tokenHash ≠ hashToken token
  verifications : ∀ v ∈ w.db.verifications, v.token ≠ token

/-- An id and a token that have not been in use. -/
def FreshDraw (w : AuthWorld) (draw : AuthDraw) : Prop :=
  draw.id ∉ w.drawn ∧ w.FreshSecret hashToken draw.token

/-- Whoever sends a token that works has it from a mail. -/
def Unguessed (w : AuthWorld) (secrets : List String) : Prop :=
  ∀ t ∈ secrets,
    ((∃ v ∈ w.db.verifications, v.token = t) ∨
        ∃ i ∈ w.db.signupInvitations, i.tokenHash = hashToken t) →
      ∃ l ∈ w.mails, l.secret = t

/-! ### What stays -/

/-- Between two states of the world nothing mailed, written down or drawn is lost, and no password
that was proven stops being so. -/
structure Evolves (w w' : AuthWorld) : Prop where
  mails : w.mails ⊆ w'.mails
  minted : w.minted ⊆ w'.minted
  drawn : w.drawn ⊆ w'.drawn
  proven : ∀ id ∈ w.drawn, w.Proven id → w'.Proven id

theorem Evolves.refl (w : AuthWorld) : Evolves w w where
  mails := fun _ h => h
  minted := fun _ h => h
  drawn := fun _ h => h
  proven := fun _ _ h => h

/-! ### Calls of the library -/

section Absorb

variable {hashToken} {w : AuthWorld} {secrets : List String} {draw : AuthDraw}
  {licensed : Uuid → Prop} {address : String → Prop} {e : AuthEffect}

/-- What the request may set the password of, it may also prove an address of. -/
def Licenses (w : AuthWorld) (secrets : List String) (licensed : Uuid → Prop) : Prop :=
  ∀ id, licensed id → ∀ u ∈ w.db.users, u.id = id → originOf w.mails secrets u ≠ .unproven

/-- A user from before keeps its id and is not the one a fresh id is for. -/
theorem FreshDraw.old_user (hfresh : w.FreshDraw hashToken draw)
    (he : Effects w.db.toIdentity draw licensed address e) {u : UserRow}
    (hu : u ∈ e.identity.users) (hid : u.id ∈ w.drawn) :
    ∃ v ∈ w.db.users, v.standing = u.standing := by
  rcases he.user_cases hu with hold | ⟨hnew, -⟩
  · exact hold
  · rw [hnew] at hid
    exact absurd hid hfresh.1

/-- A call proves the password of everybody it sets one for, the new user apart. -/
theorem FreshDraw.set_origin (hfresh : w.FreshDraw hashToken draw)
    (he : Effects w.db.toIdentity draw licensed address e) (hl : w.Licenses secrets licensed)
    {id : Uuid} (hset : id ∈ e.passwordsSet) :
    ∃ o, (w.absorb secrets draw e).origin id = some o ∧ (id ∈ w.drawn → o ≠ .unproven) := by
  obtain ⟨u₀, hu₀, hid₀⟩ := he.passwords_user id hset
  rw [absorb_origin, if_pos hset]
  cases hfind : e.identity.users.find? fun u => u.id = id with
  | none =>
    have := List.find?_eq_none.mp hfind u₀ hu₀
    simp [hid₀] at this
  | some u =>
    have hu : u ∈ e.identity.users := List.mem_of_find?_eq_some hfind
    have hid : u.id = id := by simpa using List.find?_some hfind
    refine ⟨originOf w.mails secrets u, rfl, fun hdrawn => ?_⟩
    obtain ⟨v, hv, hstanding⟩ := hfresh.old_user he hu (by rw [hid]; exact hdrawn)
    obtain ⟨hvid, hvemail, hvverified⟩ := UserRow.standing_eq hstanding
    have hlicensed : licensed id := by
      rcases he.passwords id hset with hnew | hlicensed
      · rw [hnew] at hdrawn
        exact absurd hdrawn hfresh.1
      · exact hlicensed
    have hproves := originOf_ne_unproven.mp (hl id hlicensed v hv (hvid.trans hid))
    rw [originOf_ne_unproven, ← hvverified, ← hvemail]
    exact hproves

theorem FreshDraw.absorb_evolves (hfresh : w.FreshDraw hashToken draw)
    (he : Effects w.db.toIdentity draw licensed address e) (hl : w.Licenses secrets licensed) :
    Evolves w (w.absorb secrets draw e) where
  mails := fun _ h => h
  minted := fun _ h => h
  drawn := fun _ h => List.mem_cons_of_mem _ h
  proven := by
    intro id hid hproven a ha haid
    by_cases hset : id ∈ e.passwordsSet
    · obtain ⟨o, ho, hne⟩ := hfresh.set_origin he hl hset
      exact ⟨o, ho, hne hid⟩
    · rw [absorb_origin, if_neg hset]
      rcases he.accounts a ha with hold | hset'
      · exact hproven a hold haid
      · rw [haid] at hset'
        exact absurd hset' hset

/-- A call of the library keeps the platform sound. -/
theorem Sound.absorb (hw : w.Sound hashToken) (hfresh : w.FreshDraw hashToken draw)
    (he : Effects w.db.toIdentity draw licensed address e) (hl : w.Licenses secrets licensed) :
    (w.absorb secrets draw e).Sound hashToken := by
  have hevolves := hfresh.absorb_evolves he hl
  have husers : ∀ u ∈ e.identity.users, u.id ∈ draw.id :: w.drawn :=
    fun u hu => he.users_drawn hw.users_drawn hu
  have hset : ∀ id ∈ e.passwordsSet, id ∈ draw.id :: w.drawn := by
    intro id hid
    obtain ⟨u, hu, rfl⟩ := he.passwords_user id hid
    exact husers u hu
  refine
    { hw with
      users_key := ?_
      users_drawn := husers
      accounts_drawn := ?_
      accounts_origin := ?_
      sessions_drawn := ?_
      verifications_drawn := ?_
      verified_proven := ?_
      sessions_verified := ?_
      minted_verifications := ?_ }
  · exact he.users_key hw.users_drawn hfresh.1 hw.users_key
  · intro a ha
    rcases he.accounts a ha with hold | hset'
    · exact List.mem_cons_of_mem _ (hw.accounts_drawn a hold)
    · exact hset _ hset'
  · intro a ha
    by_cases hset' : a.userId ∈ e.passwordsSet
    · obtain ⟨o, ho, -⟩ := hfresh.set_origin he hl hset'
      exact ⟨o, ho⟩
    · rw [absorb_origin, if_neg hset']
      exact hw.accounts_origin a ((he.accounts a ha).resolve_right hset')
  · intro x hx
    rcases he.sessions x hx with hold | ⟨u, hu, hid, -⟩
    · exact List.mem_cons_of_mem _ (hw.sessions_drawn x hold)
    · rw [← hid]
      exact List.mem_cons_of_mem _ (hw.users_drawn u hu)
  · intro v hv
    rcases he.verifications v hv with hold | ⟨-, u, hu, hid⟩
    · exact List.mem_cons_of_mem _ (hw.verifications_drawn v hold)
    · rw [← hid]
      exact List.mem_cons_of_mem _ (hw.users_drawn u hu)
  · intro u hu hverified
    rcases he.user_cases hu with ⟨v, hv, hstanding⟩ | ⟨-, hunverified, -⟩
    · obtain ⟨hid, -, hvv⟩ := UserRow.standing_eq hstanding
      rw [← hid]
      exact hevolves.proven _ (hw.users_drawn v hv) (hw.verified_proven v hv (hvv.trans hverified))
    · rw [hunverified] at hverified
      exact absurd hverified Bool.false_ne_true
  · intro x hx u hu hid
    have hdrawn : u.id ∈ w.drawn := by
      rw [hid]
      rcases he.sessions x hx with hold | ⟨v, hv, hvid, -⟩
      · exact hw.sessions_drawn x hold
      · rw [← hvid]
        exact hw.users_drawn v hv
    obtain ⟨v, hv, hstanding⟩ := hfresh.old_user he hu hdrawn
    obtain ⟨hvid, -, hvv⟩ := UserRow.standing_eq hstanding
    rw [← hvv]
    rcases he.sessions x hx with hold | ⟨v', hv', hvid', hverified⟩
    · exact hw.sessions_verified x hold v hv (hvid.trans hid)
    · have hsame : v = v' :=
        Table.eq_of_key_eq hw.users_key hv hv' (hvid.trans (hid.trans hvid'.symm))
      rw [hsame]
      exact hverified
  · intro l hl' v hv htoken u hu hid
    rcases he.verifications v hv with hold | ⟨hnew, -⟩
    · have hdrawn : u.id ∈ w.drawn := by
        rw [hid]
        exact hw.verifications_drawn v hold
      obtain ⟨u', hu', hstanding⟩ := hfresh.old_user he hu hdrawn
      obtain ⟨hid', hemail, -⟩ := UserRow.standing_eq hstanding
      rw [← hemail]
      exact hw.minted_verifications l hl' v hold htoken u' hu' (hid'.trans hid)
    · exact absurd (congrArg hashToken (htoken.trans hnew)) (hfresh.2.minted l hl')

end Absorb

/-! ### Which calls prove an address -/

section Calls

variable {hashToken} {w : AuthWorld} {lib : BetterAuth}

/-- A request to the handler may set the password of somebody it carries a mailed token of, or of
somebody signed in, whose address is verified. -/
theorem Sound.licenses_handler (hw : w.Sound hashToken) (hlib : lib.Documented) {r : AuthRequest}
    {now : Instant} (hunguessed : w.Unguessed hashToken r.secrets) :
    w.Licenses r.secrets fun id =>
      (∃ v ∈ w.db.verifications, v.token ∈ r.secrets ∧ v.userId = id) ∨
        ∃ u, lib.getSession r.cookie now w.db.toIdentity = some u ∧ u.id = id := by
  intro id hlicensed u hu hid
  rw [originOf_ne_unproven]
  rcases hlicensed with ⟨v, hv, hsecret, hvid⟩ | ⟨u', hsession, hid'⟩
  · right
    obtain ⟨l, hl, htoken⟩ := hunguessed v.token hsecret (Or.inl ⟨v, hv, rfl⟩)
    have hemail : u.email = l.address :=
      hw.minted_verifications l (hw.mails_minted hl) v hv htoken u hu (hid.trans hvid.symm)
    refine ⟨v.token, hsecret, ?_⟩
    rw [hemail, ← htoken]
    exact hl
  · left
    obtain ⟨-, x, hx, hxid⟩ := hlib.getSession _ _ _ u' hsession
    exact hw.sessions_verified x hx u hu (hid.trans (hid'.symm.trans hxid.symm))

theorem licenses_nobody (secrets : List String) : w.Licenses secrets fun _ => False := by
  intro id hlicensed
  exact hlicensed.elim

/-- The account of an invitation gets its password from the bearer of the invitation. -/
theorem Sound.proven_signUpEmail (hw : w.Sound hashToken) (hlib : lib.Documented)
    {body : SignUpEmailBody} {draw : AuthDraw} {token : String} {userId : Uuid}
    (hfresh : w.FreshDraw hashToken draw)
    (hnormal : normalizeEmail body.email = body.email)
    (hmailed : (⟨body.email, token⟩ : Letter) ∈ w.mails)
    (hreturned : (lib.signUpEmail body draw w.db.toIdentity).1 = .ok (some userId)) :
    (w.absorb [token] draw (lib.signUpEmail body draw w.db.toIdentity).2).Proven userId := by
  have he := hlib.signUpEmail body draw w.db.toIdentity
  have hid : userId = draw.id := hlib.signUpEmail_id body draw _ userId hreturned
  intro a ha haid
  have hset : userId ∈ (lib.signUpEmail body draw w.db.toIdentity).2.passwordsSet := by
    rcases he.accounts a ha with hold | hset
    · have hdrawn := hw.accounts_drawn a hold
      rw [haid, hid] at hdrawn
      exact absurd hdrawn hfresh.1
    · rw [← haid]
      exact hset
  obtain ⟨o, ho, -⟩ := hfresh.set_origin he (licenses_nobody [token]) hset
  refine ⟨o, ho, ?_⟩
  rw [absorb_origin, if_pos hset] at ho
  obtain ⟨u, hu, rfl⟩ := Option.map_eq_some_iff.mp ho
  have huid : u.id = userId := by simpa using List.find?_some hu
  have hemail : u.email = body.email := by
    rcases he.user_cases (List.mem_of_find?_eq_some hu) with ⟨v, hv, hstanding⟩ | ⟨-, -, haddress⟩
    · have hdrawn := hw.users_drawn v hv
      rw [(UserRow.standing_eq hstanding).1, huid, hid] at hdrawn
      exact absurd hdrawn hfresh.1
    · have hlower := toLowerCase_normalizeEmail body.email
      rw [hnormal] at hlower
      exact String.toList_inj.mp (haddress.trans hlower)
  rw [originOf_ne_unproven]
  right
  refine ⟨token, List.mem_singleton.mpr rfl, ?_⟩
  rw [hemail]
  exact hmailed

end Calls

/-! ### Invitations and mails -/

section Invitations

variable {hashToken} {w : AuthWorld} {letter : Letter}

theorem Sound.invites {db' : Database} {email token : String} (hw : w.Sound hashToken)
    (hfresh : w.FreshSecret hashToken token) (hnormal : normalizeEmail email = email)
    (hi : Invites hashToken w.db db' email token) : Sound hashToken { w with db := db' } := by
  have hdb' : db' = { db' with toIdentity := w.db.toIdentity } := by rw [← hi.identity]
  rw [hdb']
  refine
    { hw with
      minted_invitations := ?_
      invitations_normal := ?_
      invitations_tenant := ?_ }
  · intro l hl i hmem htoken
    rcases hi.invitations i hmem with hold | ⟨-, hnew, -⟩
    · exact hw.minted_invitations l hl i hold htoken
    · exact absurd (htoken.trans hnew) (hfresh.minted l hl)
  · intro i hmem
    rcases hi.invitations i hmem with hold | ⟨hemail, -⟩
    · exact hw.invitations_normal i hold
    · rw [hemail]
      exact hnormal
  · intro i hmem
    rcases hi.invitations i hmem with hold | ⟨-, -, htenant⟩
    · obtain ⟨t, ht, hid⟩ := hw.invitations_tenant i hold
      exact ⟨t, hi.tenants ht, hid⟩
    · exact htenant

theorem Sound.fewer_invitations {kept : List SignupInvitationRow} (hw : w.Sound hashToken)
    (hkept : kept ⊆ w.db.signupInvitations) :
    Sound hashToken { w with db := { w.db with signupInvitations := kept } } :=
  { hw with
    minted_invitations := fun l hl i hi => hw.minted_invitations l hl i (hkept hi)
    invitations_normal := fun i hi => hw.invitations_normal i (hkept hi)
    invitations_tenant := fun i hi => hw.invitations_tenant i (hkept hi) }

theorem evolves_of_identity {db' : Database} (h : db'.toIdentity = w.db.toIdentity) :
    Evolves w { w with db := db' } where
  mails := fun _ h => h
  minted := fun _ h => h
  drawn := fun _ h => h
  proven := by
    intro id _ hproven a ha
    have haccounts : db'.accounts = w.db.accounts := congrArg Identity.accounts h
    exact hproven a (haccounts ▸ ha)

/-- Writing down a secret that only its own address has rows for. -/
theorem Sound.mint (hw : w.Sound hashToken)
    (hi : ∀ i ∈ w.db.signupInvitations, hashToken letter.secret = i.tokenHash →
      i.email = letter.address)
    (hv : ∀ v ∈ w.db.verifications, letter.secret = v.token →
      ∀ u ∈ w.db.users, u.id = v.userId → u.email = letter.address) :
    (w.mint letter).Sound hashToken := by
  refine
    { hw with
      mails_minted := fun l hl => List.mem_cons_of_mem _ (hw.mails_minted hl)
      minted_invitations := ?_
      minted_verifications := ?_ }
  · intro l hl
    rcases List.mem_cons.mp hl with rfl | hold
    · exact hi
    · exact hw.minted_invitations l hold
  · intro l hl
    rcases List.mem_cons.mp hl with rfl | hold
    · exact hv
    · exact hw.minted_verifications l hold

/-- The letter of an invitation that has just been written. -/
theorem Sound.mint_invites {db' : Database} {email token : String} (hw : w.Sound hashToken)
    (hfresh : w.FreshSecret hashToken token) (hnormal : normalizeEmail email = email)
    (hi : Invites hashToken w.db db' email token) :
    (AuthWorld.mint { w with db := db' } ⟨email, token⟩).Sound hashToken := by
  refine (hw.invites hfresh hnormal hi).mint ?_ ?_
  · intro i hmem htoken
    rcases hi.invitations i hmem with hold | ⟨hemail, -⟩
    · exact absurd htoken.symm (hfresh.invitations i hold)
    · exact hemail
  · intro v hv htoken
    have hold : v ∈ w.db.verifications := congrArg Identity.verifications hi.identity ▸ hv
    exact absurd htoken.symm (hfresh.verifications v hold)

/-- The letter of a reset that has just been asked for. -/
theorem Sound.mint_reset {secrets : List String} {draw : AuthDraw} {licensed : Uuid → Prop}
    {address : String → Prop} {e : AuthEffect} {mail : ResetMail} (hw : w.Sound hashToken)
    (hfresh : w.FreshDraw hashToken draw)
    (he : Effects w.db.toIdentity draw licensed address e) (hl : w.Licenses secrets licensed)
    (hmail : mail ∈ e.resetMail) :
    ((w.absorb secrets draw e).mint ⟨mail.user.email, mail.token⟩).Sound hashToken := by
  obtain ⟨htoken, hwhose⟩ := he.resetMail mail hmail
  refine (hw.absorb hfresh he hl).mint ?_ ?_
  · intro i hi hhash
    exact absurd (hhash.symm.trans (congrArg hashToken htoken)) (hfresh.2.invitations i hi)
  · intro v hv hvtoken u hu hid
    have hnew : v.token = draw.token := hvtoken.symm.trans htoken
    rcases he.verifications v hv with hold | ⟨-, u₀, hu₀, hid₀⟩
    · exact absurd hnew (hfresh.2.verifications v hold)
    · have hdrawn : u.id ∈ w.drawn := by
        rw [hid, ← hid₀]
        exact hw.users_drawn u₀ hu₀
      obtain ⟨u', hu', hstanding⟩ := hfresh.old_user he hu hdrawn
      obtain ⟨hid', hemail, -⟩ := UserRow.standing_eq hstanding
      rw [← hemail]
      exact hwhose v hv hnew u' hu' (hid'.trans hid)

theorem Sound.post (hw : w.Sound hashToken) (hl : letter ∈ w.minted) :
    (w.post letter).Sound hashToken :=
  { hw with mails_minted := List.cons_subset.mpr ⟨hl, hw.mails_minted⟩ }

theorem evolves_post (w : AuthWorld) (letter : Letter) : Evolves w (w.post letter) where
  mails := fun _ h => List.mem_cons_of_mem _ h
  minted := fun _ h => h
  drawn := fun _ h => h
  proven := fun _ _ h => h

end Invitations

/-! ### Completed activations -/

section Completed

variable {hashToken} {w : AuthWorld} {tenantId invitationId userId : Uuid} {now : Instant}
  {done : Bool} {db' : Database}

theorem evolves_completed
    (h : completeActivation w.db tenantId invitationId userId now = .ok (done, db')) :
    Evolves w { w with db := db' } := by
  rcases completeActivation_ok h with ⟨-, rfl⟩ | ⟨row, -, -, -, spent, ms, -, -, rfl⟩
  · exact Evolves.refl w
  · exact ⟨fun _ h => h, fun _ h => h, fun _ h => h, fun _ _ h => h⟩

/-- Completing keeps the platform sound when the user has a proven password. -/
theorem Sound.completed (hw : w.Sound hashToken)
    (h : completeActivation w.db tenantId invitationId userId now = .ok (done, db'))
    (hproven : done = true → ∀ u ∈ w.db.users, u.id = userId → w.Proven userId) :
    Sound hashToken { w with db := db' } := by
  rcases completeActivation_ok h with ⟨-, rfl⟩ | ⟨row, -, -, hdone, spent, ms, hspent, -, rfl⟩
  · exact hw
  · have hold : ∀ u ∈ Table.update (fun u => u.id = userId) row.provenUser w.db.users,
        ∃ v ∈ w.db.users, v.id = u.id ∧ v.email = u.email ∧
          (v.emailVerified = true → u.emailVerified = true) ∧
          (u.emailVerified = true → v.emailVerified = true ∨ v.id = userId) := by
      intro u hu
      rcases Table.mem_update.mp hu with ⟨hu, -⟩ | ⟨v, hv, hid, rfl⟩
      · exact ⟨u, hu, rfl, rfl, id, Or.inl⟩
      · have hvid : v.id = userId := of_decide_eq_true hid
        exact ⟨v, hv, (provenUser_id row v).symm, (provenUser_email row v).symm,
          fun _ => provenUser_emailVerified row v, fun _ => Or.inr hvid⟩
    refine
      { hw with
        users_key := ?_
        users_drawn := ?_
        verified_proven := ?_
        sessions_verified := ?_
        minted_invitations := ?_
        minted_verifications := ?_
        invitations_normal := ?_
        invitations_tenant := ?_ }
    · show ((Table.update _ row.provenUser w.db.users).map (·.id)).Nodup
      rw [Table.map_update (provenUser_id row)]
      exact hw.users_key
    · intro u hu
      obtain ⟨v, hv, hid, -⟩ := hold u hu
      rw [← hid]
      exact hw.users_drawn v hv
    · intro u hu hverified
      obtain ⟨v, hv, hid, -, -, hwhy⟩ := hold u hu
      rw [← hid]
      rcases hwhy hverified with hv' | hvid
      · exact hw.verified_proven v hv hv'
      · rw [hvid]
        exact hproven hdone v hv hvid
    · intro x hx u hu hid
      obtain ⟨v, hv, hvid, -, hkeeps, -⟩ := hold u hu
      exact hkeeps (hw.sessions_verified x hx v hv (hvid.trans hid))
    · intro l hl i hi htoken
      obtain ⟨j, hj, -, hemail, hhash⟩ := hspent i hi
      rw [← hemail]
      exact hw.minted_invitations l hl j hj (htoken.trans hhash.symm)
    · intro l hl v hv htoken u hu hid
      obtain ⟨u', hu', hid', hemail, -⟩ := hold u hu
      rw [← hemail]
      exact hw.minted_verifications l hl v hv htoken u' hu' (hid'.trans hid)
    · intro i hi
      obtain ⟨j, hj, -, hemail, -⟩ := hspent i hi
      rw [← hemail]
      exact hw.invitations_normal j hj
    · intro i hi
      obtain ⟨j, hj, htenant, -⟩ := hspent i hi
      obtain ⟨t, ht, hid⟩ := hw.invitations_tenant j hj
      exact ⟨t, ht, hid.trans htenant⟩

end Completed

end AuthWorld

end LampLight
