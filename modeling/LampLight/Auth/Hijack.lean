import LampLight.Auth.Processes
import LampLight.Domains.Lifecycle

/-!
# Who holds an account

The owner of an address is the one who reads its mail. An account is safe when, at the moment its
address becomes verified or it joins an institute, the password on it was set by somebody who held a
secret mailed to that address, or while the address was verified already.

The catch-all route lets anybody create an unverified account with a password of their choice, and
the third case of activation resumes such an account with the password it has. That is the one way
to go wrong: `noHijack_iff` says that a run of any requests in any order is safe exactly when no
activation resumes an account whose password was set by a request that proved nothing.

## Main results

* `noHijack_iff` — exactly when a run is safe
* `account_hijacked` — a run that is not
-/

namespace LampLight

open AuthWorld

/-! ### What is assumed and what is asked -/

section Statements

variable (hashToken : String → String)

/-- The random choices of a step are fresh, and the tokens its request carries are not guessed. -/
def Unpredictable (call : AuthCall) (phase : AuthPhase) (w : AuthWorld) : Prop :=
  match call, phase with
  | .handler request draw, .start =>
    w.FreshDraw hashToken draw ∧ w.Unguessed hashToken request.secrets
  | .signUp _ _ draw _, .start => w.FreshSecret hashToken draw.token
  | .invite _ _ _ draws _, .inviting (email :: _) => w.FreshSecret hashToken (draws email).token
  | .provision call, .start => w.FreshSecret hashToken call.invitation.token
  | .resetRequest _ _ _ draw _, .start => w.FreshDraw hashToken draw
  | .activate call, .start => w.Unguessed hashToken [call.token]
  | .activate call, .activation (.creating _ _) => w.FreshDraw hashToken call.draw
  | _, _ => True

/-- A user becomes verified, or a member of an institute. -/
def Joins (w w' : AuthWorld) (u : UserRow) : Prop :=
  (u.emailVerified = true ∧ ∀ v ∈ w.db.users, v.id = u.id → v.emailVerified = false) ∨
    ∃ m ∈ w'.db.memberships, m.userId = u.id ∧
      ∀ n ∈ w.db.memberships, ¬ (n.tenantId = m.tenantId ∧ n.userId = m.userId)

/-- Whoever becomes verified or joins has a proven password. -/
def NoHijack (w w' : AuthWorld) : Prop :=
  ∀ u ∈ w'.db.users, Joins w w' u → w'.Proven u.id

/-- An activation that is about to resume an account does not find a password on it that was set by
a request which proved nothing. -/
def ResumesProven (call : AuthCall) (phase : AuthPhase) (w : AuthWorld) : Prop :=
  match call, phase with
  | .activate call, .activation (.finishing tenantId invitationId userId .resumed) =>
    call.fault = none → (∃ i ∈ w.db.signupInvitations, claimable tenantId invitationId i) →
      ∀ u ∈ w.db.users, u.id = userId → u.emailVerified = false →
        ∀ a ∈ w.db.accounts, a.userId = userId → w.origin userId ≠ some .unproven
  | _, _ => True

/-- A platform before its first account. -/
structure AuthWorld.Untouched (w : AuthWorld) : Prop where
  identity : w.db.toIdentity = {}
  invitations : w.db.signupInvitations = []
  mails : w.mails = []
  minted : w.minted = []

instance (w w' : AuthWorld) (u : UserRow) : Decidable (Joins w w' u) :=
  inferInstanceAs (Decidable (_ ∨ _))

instance (w : AuthWorld) (userId : Uuid) : Decidable (w.Proven userId) :=
  inferInstanceAs (Decidable (∀ a ∈ w.db.accounts, a.userId = userId →
    ∃ o ∈ w.origin userId, o ≠ .unproven))

instance (w w' : AuthWorld) : Decidable (NoHijack w w') :=
  inferInstanceAs (Decidable (∀ u ∈ w'.db.users, Joins w w' u → w'.Proven u.id))

instance (w : AuthWorld) (token : String) : Decidable (w.FreshSecret hashToken token) :=
  decidable_of_iff ((∀ l ∈ w.minted, hashToken l.secret ≠ hashToken token) ∧
      (∀ i ∈ w.db.signupInvitations, i.tokenHash ≠ hashToken token) ∧
      ∀ v ∈ w.db.verifications, v.token ≠ token)
    ⟨fun h => ⟨h.1, h.2.1, h.2.2⟩, fun h => ⟨h.minted, h.invitations, h.verifications⟩⟩

instance (w : AuthWorld) (draw : AuthDraw) : Decidable (w.FreshDraw hashToken draw) :=
  inferInstanceAs (Decidable (_ ∧ _))

instance (w : AuthWorld) (secrets : List String) : Decidable (w.Unguessed hashToken secrets) :=
  inferInstanceAs (Decidable (∀ t ∈ secrets,
    ((∃ v ∈ w.db.verifications, v.token = t) ∨
        ∃ i ∈ w.db.signupInvitations, i.tokenHash = hashToken t) →
      ∃ l ∈ w.mails, l.secret = t))

instance (call : AuthCall) (phase : AuthPhase) (w : AuthWorld) :
    Decidable (Unpredictable hashToken call phase w) := by
  rw [Unpredictable.eq_def]
  split <;> infer_instance

instance : ∀ (call : AuthCall) (phase : AuthPhase) (w : AuthWorld),
    Decidable (ResumesProven call phase w)
  | .activate call, .activation (.finishing tenantId invitationId userId .resumed), w =>
    inferInstanceAs (Decidable (call.fault = none →
      (∃ i ∈ w.db.signupInvitations, claimable tenantId invitationId i) →
        ∀ u ∈ w.db.users, u.id = userId → u.emailVerified = false →
          ∀ a ∈ w.db.accounts, a.userId = userId → w.origin userId ≠ some .unproven))
  | .activate _, .activation (.finishing _ _ _ .created), _
  | .activate _, .activation (.finishing _ _ _ .signedIn), _
  | .activate _, .activation .start, _ | .activate _, .activation (.invited ..), _
  | .activate _, .activation (.creating ..), _ | .activate _, .activation (.known ..), _
  | .activate _, .activation (.answered _), _ | .activate _, .start, _
  | .activate _, .inviting _, _ | .activate _, .posting .., _ | .activate _, .done, _
  | .handler .., _, _ | .signUp .., _, _ | .invite .., _, _ | .provision _, _, _
  | .resetRequest .., _, _ | .sweep .., _, _ => .isTrue trivial

end Statements

/-! ### What each process has established -/

section Phases

/-- The bearer of an invitation has it from the mailbox it was sent to. -/
structure Bears (w : AuthWorld) (token : String) (invitation : PendingInvitation) : Prop where
  mailed : (⟨invitation.email, token⟩ : Letter) ∈ w.mails
  normal : normalizeEmail invitation.email = invitation.email

/-- What an activation relies on while it waits. -/
def ActivationHolds (call : ActivationCall) (w : AuthWorld) : ActivationPhase → Prop
  | .start => False
  | .invited _ invitation => Bears w call.token invitation
  | .creating _ invitation => Bears w call.token invitation
  | .known _ invitation _ => Bears w call.token invitation
  | .finishing _ _ userId how => how ≠ .resumed → userId ∈ w.drawn ∧ w.Proven userId
  | _ => True

/-- What a request relies on while it waits. -/
def Holds (call : AuthCall) (phase : AuthPhase) (w : AuthWorld) : Prop :=
  match phase with
  | .inviting todo => ∀ email ∈ todo, normalizeEmail email = email
  | .posting letter todo => letter ∈ w.minted ∧ ∀ email ∈ todo, normalizeEmail email = email
  | .activation phase =>
    match call with
    | .activate call => ActivationHolds call w phase
    | _ => True
  | _ => True

variable {w w' : AuthWorld}

/-- Nobody takes from a process what it has established. -/
theorem Holds.stable {call : AuthCall} {phase : AuthPhase} (hG : Evolves w w')
    (h : Holds call phase w) : Holds call phase w' := by
  cases phase with
  | start => trivial
  | done => trivial
  | inviting todo => exact h
  | posting letter todo => exact ⟨hG.minted h.1, h.2⟩
  | activation phase =>
    cases call with
    | activate call =>
      cases phase with
      | start => exact h
      | answered response => trivial
      | invited _ invitation => exact ⟨hG.mails h.mailed, h.normal⟩
      | creating _ invitation => exact ⟨hG.mails h.mailed, h.normal⟩
      | known _ invitation _ => exact ⟨hG.mails h.mailed, h.normal⟩
      | finishing _ _ userId how =>
        intro hhow
        obtain ⟨hdrawn, hproven⟩ := h hhow
        exact ⟨hG.drawn hdrawn, hG.proven userId hdrawn hproven⟩
    | _ => trivial

end Phases

/-! ### Safe steps -/

section Safe

variable {hashToken : String → String} {w w' : AuthWorld}

/-- A step that keeps the platform sound, takes nothing from anybody and hijacks no account. -/
structure Safe (hashToken : String → String) (w w' : AuthWorld) : Prop where
  sound : w'.Sound hashToken
  evolves : Evolves w w'
  noHijack : NoHijack w w'

/-- Nobody joins in a step that leaves verifications and memberships alone. -/
theorem noHijack_of_unchanged
    (husers : ∀ u ∈ w'.db.users, u.emailVerified = true →
      ∃ v ∈ w.db.users, v.id = u.id ∧ v.emailVerified = true)
    (hmembers : w'.db.memberships = w.db.memberships) : NoHijack w w' := by
  intro u hu hjoins
  rcases hjoins with ⟨hverified, hnew⟩ | ⟨m, hm, -, hnew⟩
  · obtain ⟨v, hv, hid, hvv⟩ := husers u hu hverified
    rw [hnew v hv hid] at hvv
    exact absurd hvv Bool.false_ne_true
  · rw [hmembers] at hm
    exact absurd ⟨rfl, rfl⟩ (hnew m hm)

theorem Safe.refl (hw : w.Sound hashToken) : Safe hashToken w w where
  sound := hw
  evolves := .refl w
  noHijack := noHijack_of_unchanged (fun u hu hv => ⟨u, hu, rfl, hv⟩) rfl

theorem Safe.mint {letter : Letter} (h : Safe hashToken w w')
    (hsound : (w'.mint letter).Sound hashToken) : Safe hashToken w (w'.mint letter) where
  sound := hsound
  evolves :=
    { mails := h.evolves.mails
      minted := fun _ hl => List.mem_cons_of_mem _ (h.evolves.minted hl)
      drawn := h.evolves.drawn
      proven := h.evolves.proven }
  noHijack := h.noHijack

/-- A step whose letter, if it wants one sent, is going to its own address. -/
theorem Safe.hand {call : AuthCall} {letter : Option Letter} {todo : List String}
    (h : Safe hashToken w w') (hletter : ∀ l ∈ letter, (w'.mint l).Sound hashToken)
    (htodo : ∀ email ∈ todo, normalizeEmail email = email) :
    Safe hashToken w (w'.hand letter todo).2 ∧
      Holds call (w'.hand letter todo).1 (w'.hand letter todo).2 := by
  cases letter with
  | none => exact ⟨h, htodo⟩
  | some letter => exact ⟨h.mint (hletter letter rfl), List.mem_cons_self .., htodo⟩

theorem safe_absorb {secrets : List String} {draw : AuthDraw} {licensed : Uuid → Prop}
    {address : String → Prop} {e : AuthEffect} (hw : w.Sound hashToken)
    (hfresh : w.FreshDraw hashToken draw) (he : Effects w.db.toIdentity draw licensed address e)
    (hl : w.Licenses secrets licensed) : Safe hashToken w (w.absorb secrets draw e) where
  sound := hw.absorb hfresh he hl
  evolves := hfresh.absorb_evolves he hl
  noHijack := by
    refine noHijack_of_unchanged ?_ rfl
    intro u hu hverified
    rcases he.user_cases hu with ⟨v, hv, hstanding⟩ | ⟨-, hunverified, -⟩
    · obtain ⟨hid, -, hvv⟩ := UserRow.standing_eq hstanding
      exact ⟨v, hv, hid, hvv.trans hverified⟩
    · rw [hunverified] at hverified
      exact absurd hverified Bool.false_ne_true

theorem safe_invites {db' : Database} {email token : String} (hw : w.Sound hashToken)
    (hfresh : w.FreshSecret hashToken token) (hnormal : normalizeEmail email = email)
    (hi : Invites hashToken w.db db' email token) : Safe hashToken w { w with db := db' } where
  sound := hw.invites hfresh hnormal hi
  evolves := evolves_of_identity hi.identity
  noHijack := by
    have husers : db'.users = w.db.users := congrArg Identity.users hi.identity
    refine noHijack_of_unchanged ?_ hi.memberships
    intro u hu hverified
    exact ⟨u, husers ▸ hu, rfl, hverified⟩

/-- Completing hijacks nobody when the user's password is proven, and somebody otherwise. -/
theorem safe_completed {tenantId invitationId userId : Uuid} {now : Instant} {done : Bool}
    {db' : Database} (hw : w.Sound hashToken)
    (h : completeActivation w.db tenantId invitationId userId now = .ok (done, db'))
    (hproven : done = true → ∀ u ∈ w.db.users, u.id = userId → w.Proven userId) :
    Safe hashToken w { w with db := db' } where
  sound := hw.completed h hproven
  evolves := evolves_completed h
  noHijack := by
    rcases completeActivation_ok h with ⟨-, rfl⟩ | ⟨row, -, -, hdone, spent, ms, -, hms, rfl⟩
    · exact (Safe.refl hw).noHijack
    · intro u hu hjoins
      have hself : u.id = userId → w.Proven u.id := by
        intro hid
        rw [hid]
        rcases Table.mem_update.mp hu with ⟨hu, -⟩ | ⟨v, hv, hvid, -⟩
        · exact hproven hdone u hu hid
        · exact hproven hdone v hv (of_decide_eq_true hvid)
      show w.Proven u.id
      rcases hjoins with ⟨hverified, hnew⟩ | ⟨m, hm, hmid, hnew⟩
      · rcases Table.mem_update.mp hu with ⟨hu, -⟩ | ⟨v, hv, hvid, rfl⟩
        · rw [hnew u hu rfl] at hverified
          exact absurd hverified Bool.false_ne_true
        · exact hself (by rw [provenUser_id]; exact of_decide_eq_true hvid)
      · rcases hms m hm with ⟨n, hn, hkey⟩ | hmuser
        · exact absurd hkey (hnew n hn)
        · exact hself (hmid.symm.trans hmuser)

end Safe

/-! ### One step of each process -/

section Step

variable {lib : BetterAuth} {env : Env} {hashToken : String → String} {w : AuthWorld}

theorem safe_startCall (hlib : lib.Documented) (hw : w.Sound hashToken) {call : AuthCall}
    (ha : Unpredictable hashToken call .start w) :
    Safe hashToken w (startCall lib env hashToken w call).2 ∧
      Holds call (startCall lib env hashToken w call).1 (startCall lib env hashToken w call).2 := by
  have hnil : ∀ email ∈ ([] : List String), normalizeEmail email = email :=
    fun _ h => absurd h List.not_mem_nil
  cases call with
  | handler request draw =>
    have heffects := hlib.handler request draw w.db.toIdentity
    have hnone : ∀ mail : Option ResetMail, mail.bind (sendResetPassword none) = none := by
      intro mail
      cases mail <;> rfl
    refine (safe_absorb hw ha.1 heffects (hw.licenses_handler hlib ha.2)).hand ?_ hnil
    intro letter hletter
    rw [hnone] at hletter
    exact absurd hletter (by simp)
  | signUp tenant body draw _ =>
    obtain ⟨email, hnormal, hinvites, hletter⟩ :=
      signUp_invites env hashToken w.db tenant body draw
    refine (safe_invites hw ha hnormal hinvites).hand ?_ hnil
    intro letter hmem
    rw [hletter letter hmem]
    exact hw.mint_invites ha hnormal hinvites
  | invite tenant roleInput emails draws _ =>
    simp only [startCall]
    split
    · exact ⟨Safe.refl hw, trivial⟩
    · next candidates hread =>
      exact ⟨Safe.refl hw, fun email hemail => normalizeEmail_of_mem_readInvites hread hemail⟩
  | provision call =>
    have hinvites := provisionTenant_invites env hashToken w.toWorld call
    have hadmin := @provisionTenant_adminEmail env hashToken w.toWorld call
    have hnormal := normalizeEmail_idem call.adminEmail
    simp only [startCall]
    generalize provisionTenant env hashToken w.toWorld call = result at hinvites hadmin
    refine (safe_invites hw ha hnormal hinvites).hand ?_ hnil
    intro letter hmem
    split at hmem
    · next hprovisioned =>
      rw [hadmin hprovisioned] at hmem
      obtain rfl := Option.some.inj hmem
      exact hw.mint_invites ha hnormal hinvites
    · exact absurd hmem (by simp)
  | resetRequest tenant body suppressed draw _ =>
    simp only [startCall]
    rcases resetRequest_cases lib w tenant body suppressed draw with
      ⟨response, hnothing⟩ | ⟨institute, email, hasked⟩
    · rw [hnothing]
      exact ⟨Safe.refl hw, hnil⟩
    · rw [hasked]
      have heffects := hlib.requestPasswordReset email draw w.db.toIdentity
      have hnobody := licenses_nobody (w := w) []
      refine (safe_absorb hw ha heffects hnobody).hand ?_ hnil
      intro letter hmem
      obtain ⟨mail, hmail, hsent⟩ := Option.bind_eq_some_iff.mp hmem
      obtain rfl := Option.some.inj hsent
      exact hw.mint_reset ha heffects hnobody hmail
  | activate call =>
    simp only [startCall]
    rcases openActivation_cases hashToken call w.db with
      ⟨response, hanswered⟩ | ⟨tenantId, invitation, hinvited, hfind⟩
    · rw [hanswered]
      exact ⟨Safe.refl hw, trivial⟩
    · rw [hinvited]
      obtain ⟨row, hrow, -, hhash, -, -, -, hemail⟩ := findPendingInvitation_some hfind
      obtain ⟨letter, hletter, hsecret⟩ :=
        ha call.token (List.mem_singleton.mpr rfl) (Or.inr ⟨row, hrow, hhash⟩)
      have haddress : row.email = letter.address :=
        hw.minted_invitations letter (hw.mails_minted hletter) row hrow
          (by rw [hsecret]; exact hhash.symm)
      refine ⟨Safe.refl hw, ?_, ?_⟩
      · rw [hemail, haddress, ← hsecret]
        exact hletter
      · rw [hemail]
        exact hw.invitations_normal row hrow
  | sweep tenantId now =>
    have hkept : (sweepInvitations w.db tenantId now).2.signupInvitations
        ⊆ w.db.signupInvitations := fun i hi =>
      (Table.mem_delete.mp (Table.mem_delete.mp hi).1).1
    refine ⟨⟨hw.fewer_invitations hkept, evolves_of_identity rfl, ?_⟩, trivial⟩
    exact noHijack_of_unchanged (fun u hu hv => ⟨u, hu, rfl, hv⟩) rfl

theorem safe_inviteNext (hw : w.Sound hashToken) {call : AuthCall} {email : String}
    {todo : List String} (hholds : Holds call (.inviting (email :: todo)) w)
    (ha : Unpredictable hashToken call (.inviting (email :: todo)) w) :
    Safe hashToken w (inviteNext hashToken call email todo w).2 ∧
      Holds call (inviteNext hashToken call email todo w).1
        (inviteNext hashToken call email todo w).2 := by
  cases call with
  | invite tenant roleInput emails draws _ =>
    have hnormal : normalizeEmail email = email := hholds email (List.mem_cons_self ..)
    simp only [inviteNext]
    split
    · exact ⟨Safe.refl hw, trivial⟩
    · next letter db hinvite =>
      obtain ⟨hinvites, hletter⟩ := inviteOne_invites hnormal hinvite
      refine (safe_invites hw ha hnormal hinvites).hand ?_
        fun e he => hholds e (List.mem_cons_of_mem _ he)
      intro l hl
      rw [hletter l hl]
      exact hw.mint_invites ha hnormal hinvites
  | _ => exact ⟨Safe.refl hw, trivial⟩

/-- An activation is safe when the accounts it resumes have proven passwords. -/
theorem safe_activationStep (hlib : lib.Documented) (hw : w.Sound hashToken)
    {call : ActivationCall} {phase : ActivationPhase}
    (hholds : ActivationHolds call w phase)
    (ha : Unpredictable hashToken (.activate call) (.activation phase) w)
    (hresumes : ResumesProven (.activate call) (.activation phase) w) :
    Safe hashToken w (activationStep lib hashToken call phase w).2 ∧
      ActivationHolds call (activationStep lib hashToken call phase w).2
        (activationStep lib hashToken call phase w).1 := by
  cases phase with
  | start => exact hholds.elim
  | answered response => exact ⟨Safe.refl hw, trivial⟩
  | invited tenantId invitation =>
    refine ⟨Safe.refl hw, ?_⟩
    show ActivationHolds call w (lookUpAccount call tenantId invitation w.db)
    rcases lookUpAccount_cases call tenantId invitation w.db with
      ⟨response, heq⟩ | heq | ⟨account, heq, -⟩
    · rw [heq]
      trivial
    · rw [heq]
      exact hholds
    · rw [heq]
      exact hholds
  | creating tenantId invitation =>
    show Safe hashToken w (createAccount lib call tenantId invitation w).2 ∧ ActivationHolds call
      (createAccount lib call tenantId invitation w).2
      (createAccount lib call tenantId invitation w).1
    obtain ⟨body, hemail, hworld, hwhere⟩ := createAccount_cases lib call tenantId invitation w
    rw [hworld]
    have heffects := hlib.signUpEmail body call.draw w.db.toIdentity
    refine ⟨safe_absorb hw ha heffects (licenses_nobody _), ?_⟩
    rcases hwhere with ⟨response, heq⟩ | ⟨userId, hreturned, heq⟩
    · rw [heq]
      trivial
    · rw [heq]
      refine fun _ => ⟨?_, ?_⟩
      · rw [hlib.signUpEmail_id body call.draw _ userId hreturned]
        exact List.mem_cons_self ..
      · exact hw.proven_signUpEmail hlib ha (by rw [hemail]; exact hholds.normal)
          (by rw [hemail]; exact hholds.mailed) hreturned
  | known tenantId invitation account =>
    refine ⟨Safe.refl hw, ?_⟩
    show ActivationHolds call w (chooseCase lib call tenantId invitation account w.db)
    rcases chooseCase_cases lib call tenantId invitation account w.db with
      ⟨response, heq⟩ | ⟨user, hsession, -, heq⟩ | ⟨-, heq⟩
    · rw [heq]
      trivial
    · rw [heq]
      obtain ⟨hmem, x, hx, hid⟩ := hlib.getSession _ _ _ user hsession
      have hverified : user.emailVerified = true := hw.sessions_verified x hx user hmem hid.symm
      exact fun _ => ⟨hw.users_drawn user hmem, hw.verified_proven user hmem hverified⟩
    · rw [heq]
      exact fun hhow => absurd rfl hhow
  | finishing tenantId invitationId userId how =>
    show Safe hashToken w (finish call tenantId invitationId userId how w).2 ∧ ActivationHolds call
      (finish call tenantId invitationId userId how w).2
      (finish call tenantId invitationId userId how w).1
    obtain ⟨response, hanswered, hworld⟩ := finish_cases call tenantId invitationId userId how w
    rw [hanswered]
    refine ⟨?_, trivial⟩
    rcases hworld with heq | ⟨hfault, done, db, hdone, heq⟩
    · rw [heq]
      exact Safe.refl hw
    · rw [heq]
      refine safe_completed hw hdone fun htrue u hu hid => ?_
      by_cases hhow : how = .resumed
      · by_cases hverified : u.emailVerified = true
        · rw [← hid]
          exact hw.verified_proven u hu hverified
        · subst hhow
          have hclaim : ∃ i ∈ w.db.signupInvitations, claimable tenantId invitationId i := by
            rcases completeActivation_ok hdone with ⟨hfalse, -⟩ | ⟨row, hrow, hclaim, -⟩
            · rw [hfalse] at htrue
              exact absurd htrue Bool.false_ne_true
            · exact ⟨row, hrow, hclaim⟩
          intro a ha haid
          obtain ⟨o, ho⟩ := hw.accounts_origin a ha
          rw [haid] at ho
          refine ⟨o, ho, fun hbad => ?_⟩
          rw [hbad] at ho
          exact hresumes hfault hclaim u hu hid (by simpa using hverified) a ha haid ho
      · exact (hholds hhow).2

/-- The step that resumes an account with an unproven password hijacks it. -/
theorem resumesProven_of_noHijack (hw : w.Sound hashToken) {call : ActivationCall}
    {phase : ActivationPhase} (h : NoHijack w (activationStep lib hashToken call phase w).2) :
    ResumesProven (.activate call) (.activation phase) w := by
  cases phase with
  | finishing tenantId invitationId userId how =>
    cases how with
    | resumed =>
      rintro hfault ⟨row, hrow, hclaim⟩ u hu hid hunverified a ha haid horigin
      obtain ⟨t, ht, htid⟩ := hw.invitations_tenant row hrow
      obtain ⟨db, hdone⟩ := completeActivation_isOk call.finishedAt hrow hclaim
        ⟨t, ht, htid.trans hclaim.1⟩ ⟨u, hu, hid⟩
      have hworld : (activationStep lib hashToken call
          (.finishing tenantId invitationId userId .resumed) w).2 = { w with db := db } := by
        simp only [activationStep, finish, hfault, hdone]
      rw [hworld] at h
      rcases completeActivation_ok hdone with ⟨hfalse, -⟩ | ⟨row', -, -, -, spent, ms, -, -, rfl⟩
      · exact Bool.false_ne_true hfalse.symm
      · have hmem : row'.provenUser u ∈
            Table.update (fun u => u.id = userId) row'.provenUser w.db.users :=
          Table.mem_update.mpr (Or.inr ⟨u, hu, by simpa using hid, rfl⟩)
        have hnew : ∀ v ∈ w.db.users, v.id = (row'.provenUser u).id → v.emailVerified = false := by
          intro v hv hvid
          rw [provenUser_id] at hvid
          have hsame : v = u := Table.eq_of_key_eq hw.users_key hv hu hvid
          rw [hsame]
          exact hunverified
        have hproven := h _ hmem (Or.inl ⟨provenUser_emailVerified row' u, hnew⟩)
        rw [provenUser_id, hid] at hproven
        obtain ⟨o, ho, hne⟩ := hproven a ha haid
        exact hne (Option.some.inj (horigin.symm.trans ho)).symm
    | created => trivial
    | signedIn => trivial
  | _ => trivial

/-- Every other step is safe, and activations are when they meet the condition. -/
theorem safe_authStep (hlib : lib.Documented) (hw : w.Sound hashToken) {call : AuthCall}
    {phase : AuthPhase} (hholds : Holds call phase w) (ha : Unpredictable hashToken call phase w)
    (hresumes : ResumesProven call phase w) :
    Safe hashToken w (authStep lib env hashToken call phase w).2 ∧
      Holds call (authStep lib env hashToken call phase w).1
        (authStep lib env hashToken call phase w).2 := by
  cases phase with
  | start => exact safe_startCall hlib hw ha
  | done => exact ⟨Safe.refl hw, trivial⟩
  | inviting todo =>
    cases todo with
    | nil => exact ⟨Safe.refl hw, trivial⟩
    | cons email todo => exact safe_inviteNext hw hholds ha
  | posting letter todo =>
    simp only [authStep]
    split_ifs
    · have hevolves := evolves_post w letter
      exact ⟨⟨hw.post hholds.1, hevolves,
        noHijack_of_unchanged (fun u hu hv => ⟨u, hu, rfl, hv⟩) rfl⟩, hholds.2⟩
    · exact ⟨Safe.refl hw, trivial⟩
  | activation phase =>
    cases call with
    | activate call =>
      exact safe_activationStep hlib hw hholds ha hresumes
    | _ => exact ⟨Safe.refl hw, trivial⟩

theorem resumesProven_of_authStep (hw : w.Sound hashToken) {call : AuthCall} {phase : AuthPhase}
    (h : NoHijack w (authStep lib env hashToken call phase w).2) :
    ResumesProven call phase w := by
  cases call with
  | activate call =>
    cases phase with
    | activation phase => exact resumesProven_of_noHijack hw h
    | _ => trivial
  | _ => trivial

theorem AuthWorld.Untouched.sound (h : w.Untouched) : w.Sound hashToken := by
  have husers : w.db.users = [] := congrArg Identity.users h.identity
  have haccounts : w.db.accounts = [] := congrArg Identity.accounts h.identity
  have hsessions : w.db.sessions = [] := congrArg Identity.sessions h.identity
  have hverifications : w.db.verifications = [] := congrArg Identity.verifications h.identity
  constructor <;>
    simp [husers, haccounts, hsessions, hverifications, h.invitations, h.mails, h.minted]

end Step

/-! ### Runs -/

section Runs

variable {ι : Type*} [DecidableEq ι] {lib : BetterAuth} {env : Env} {hashToken : String → String}
  {calls : ι → AuthCall} {w : AuthWorld}

/-- **Hijacking.** Whatever is requested and in whatever order it is served, every account that
becomes verified or joins an institute has a password its owner set, if and only if no activation
resumes an account whose password was set by a request that proved nothing. -/
theorem noHijack_iff (hlib : lib.Documented) (hw : w.Untouched) {schedule : List ι}
    (hassumed : Machine.Meets (authTurn lib env hashToken calls)
      (fun c i => Unpredictable hashToken (calls i) (c.phase i) c.shared) w.opened schedule) :
    Machine.Meets (authTurn lib env hashToken calls)
        (fun c i => NoHijack c.shared (authTurn lib env hashToken calls c i).shared)
        w.opened schedule ↔
      Machine.Meets (authTurn lib env hashToken calls)
        (fun c i => ResumesProven (calls i) (c.phase i) c.shared) w.opened schedule := by
  have hstart : ∀ i, Holds (calls i) .start w := fun _ => trivial
  refine Machine.Meets.iff_of_invariant
    (I := fun c => c.shared.Sound hashToken ∧ ∀ i, Holds (calls i) (c.phase i) c.shared)
    ?_ ?_ ⟨hw.sound, hstart⟩ hassumed
  · rintro c i ⟨hsound, hholds⟩ ha hresumes
    obtain ⟨hsafe, hown⟩ := @safe_authStep lib env hashToken c.shared hlib hsound (calls i)
      (c.phase i) (hholds i) ha hresumes
    refine ⟨hsafe.sound, ?_⟩
    exact Interleave.turn_invariant (J := fun i p w => Holds (calls i) p w) hown
      (fun j p hp => hp.stable hsafe.evolves) hholds
  · rintro c i ⟨hsound, hholds⟩ ha
    constructor
    · exact resumesProven_of_authStep hsound
    · intro hresumes
      exact (safe_authStep hlib hsound (hholds i) ha hresumes).1.noHijack

end Runs

/-! ### A library that does what is documented -/

section Library

open Js

/-- Nothing happens. -/
theorem effects_refl (before : Identity) (draw : AuthDraw) (licensed : Uuid → Prop)
    (address : String → Prop) : Effects before draw licensed address { identity := before } where
  users := ⟨none, by simp, fun _ h => nomatch h⟩
  passwords := fun _ h => absurd h List.not_mem_nil
  passwords_user := fun _ h => absurd h List.not_mem_nil
  accounts := fun _ h => Or.inl h
  sessions := fun _ h => Or.inl h
  verifications := fun _ h => Or.inl h
  resetMail := fun _ h => nomatch h

/-- An unverified user with the password given, when the address is free. -/
def plainSignUp (body : SignUpEmailBody) (draw : AuthDraw) (before : Identity) :
    Except String (Option Uuid) × AuthEffect :=
  let email := String.ofList (toLowerCase body.email.toList)
  if Js.length body.password.toList < MIN_PASSWORD_LENGTH then
    (.error "Password too short", { identity := before })
  else if before.users.any fun u => u.email = email then
    (.error "User already exists", { identity := before })
  else
    (.ok (some draw.id),
      { identity :=
          { before with
            users := before.users ++ [{ id := draw.id, email := email, name := body.name,
                                        firstName := "", lastName := "", emailVerified := false }]
            accounts := before.accounts ++ [⟨draw.id, body.password⟩] }
        passwordsSet := [draw.id] })

/-- A session, for a verified user and the right password. -/
def plainSignIn (email password : String) (draw : AuthDraw) (before : Identity) : AuthEffect :=
  match before.users.find? fun u => u.email.toList = toLowerCase email.toList && u.emailVerified &&
      before.accounts.any fun a => a.userId = u.id && a.password = password with
  | none => { identity := before }
  | some u =>
    { identity := { before with sessions := before.sessions ++ [⟨draw.token, u.id⟩] } }

/-- The mounted handler, as far as signing up and in goes, with sessions read by their token. -/
def plainAuth : BetterAuth where
  handler r draw before :=
    match r.path with
    | "/sign-up/email" =>
      (plainSignUp ⟨textField r.body "email", textField r.body "password",
        textField r.body "name"⟩ draw before).2
    | "/sign-in/email" =>
      plainSignIn (textField r.body "email") (textField r.body "password") draw before
    | _ => { identity := before }
  signUpEmail := plainSignUp
  requestPasswordReset _ _ before := { identity := before }
  getSession cookie _ before :=
    (before.sessions.find? fun x => some x.token = cookie).bind fun x =>
      before.users.find? fun u => u.id = x.userId

theorem effects_plainSignUp (body : SignUpEmailBody) (draw : AuthDraw) (before : Identity)
    (licensed : Uuid → Prop) :
    Effects before draw licensed (fun email => email.toList = toLowerCase body.email.toList)
      (plainSignUp body draw before).2 := by
  simp only [plainSignUp]
  split_ifs
  · exact effects_refl _ _ _ _
  · exact effects_refl _ _ _ _
  · refine ⟨⟨some _, by rw [List.map_append]; rfl, ?_⟩, ?_, ?_, ?_, ?_, ?_, ?_⟩
    · intro u hu
      obtain rfl := Option.some.inj hu
      exact ⟨rfl, rfl, String.toList_ofList⟩
    · exact fun id hid => Or.inl (List.mem_singleton.mp hid)
    · intro id hid
      exact ⟨_, List.mem_append_right _ (List.mem_singleton.mpr rfl),
        (List.mem_singleton.mp hid).symm⟩
    · intro a ha
      rcases List.mem_append.mp ha with ha | ha
      · exact Or.inl ha
      · right
        rw [List.mem_singleton.mp ha]
        exact List.mem_singleton.mpr rfl
    · exact fun _ h => Or.inl h
    · exact fun _ h => Or.inl h
    · exact fun _ h => nomatch h

theorem effects_plainSignIn (email password : String) (draw : AuthDraw) (before : Identity)
    (licensed : Uuid → Prop) (address : String → Prop) :
    Effects before draw licensed address (plainSignIn email password draw before) := by
  rw [plainSignIn]
  split
  · exact effects_refl _ _ _ _
  · next u hu =>
    have hp := List.find?_some hu
    simp only [Bool.and_eq_true] at hp
    refine { effects_refl before draw licensed address with sessions := ?_ }
    intro x hx
    rcases List.mem_append.mp hx with hx | hx
    · exact Or.inl hx
    · right
      rw [List.mem_singleton.mp hx]
      exact ⟨u, List.mem_of_find?_eq_some hu, rfl, hp.1.2⟩

theorem documented_plainAuth : plainAuth.Documented where
  handler := by
    intro r draw before
    simp only [plainAuth]
    split
    · refine { effects_plainSignUp _ draw before _ with users := ?_ }
      obtain ⟨created, hmap, hcreated⟩ := (effects_plainSignUp ⟨textField r.body "email",
        textField r.body "password", textField r.body "name"⟩ draw before fun _ => True).users
      refine ⟨created, hmap, fun u hu => ?_⟩
      obtain ⟨hid, hunverified, haddress⟩ := hcreated u hu
      refine ⟨hid, hunverified, ?_⟩
      show toLowerCase u.email.toList = u.email.toList
      rw [haddress, toLowerCase_idem]
    · exact effects_plainSignIn _ _ _ _ _ _
    · exact effects_refl _ _ _ _
  signUpEmail := fun body draw before => effects_plainSignUp body draw before _
  signUpEmail_id := by
    intro body draw before id h
    simp only [plainAuth, plainSignUp] at h
    split_ifs at h
    exact (Option.some.inj (Except.ok.inj h)).symm
  requestPasswordReset := fun _ draw before => effects_refl before draw _ _
  getSession := by
    intro cookie now before u h
    obtain ⟨x, hx, hu⟩ := Option.bind_eq_some_iff.mp h
    have hid : u.id = x.userId := by simpa using List.find?_some hu
    exact ⟨List.mem_of_find?_eq_some hu, x, List.mem_of_find?_eq_some hx, hid.symm⟩

end Library

/-! ### Somebody else's password -/

section Example

/-- An institute whose office is about to invite somebody. -/
def openHouse : AuthWorld where
  db := { tenants := [⟨1, "grace", "Grace", .active, 0⟩] }

/-- An institute on its subdomain. -/
def graceHost : TenantContext where
  id := 1
  slug := "grace"
  name := "Grace"
  host := "grace.lamplight.school"

/-- Anybody signs up at the handler under an address that is not theirs. -/
def foreignSignUp : AuthCall :=
  .handler
    { path := "/sign-up/email"
      query := []
      cookie := none
      body := .obj [("email", .str "ada@example.edu"), ("password", .str "chosen by mallory"),
        ("name", .str "Ada")] }
    { id := 9, token := "unused", now := 0 }

/-- The office invites Ada. -/
def inviteAda : AuthCall :=
  .invite graceHost "student" "ada@example.edu"
    (fun _ => { id := 20, token := "secret", mintedAt := 1, checkedAt := 1, createdAt := 1 })
    fun _ => true

/-- The owner of the address follows the link in her mail. -/
def followLink : AuthCall :=
  .activate
    { tenant := some graceHost
      body := some (.obj [("token", .str "secret"), ("password", .str "chosen by ada")])
      cookie := none
      draw := { id := 8, token := "also unused", now := 2 }
      foundAt := 2
      finishedAt := 3 }

/-- A stranger signs up under Ada's address, the office invites her, and she follows the link. -/
def adasRequests : ℕ → AuthCall
  | 0 => foreignSignUp
  | 1 => inviteAda
  | _ => followLink

/-- Nobody signs up in her place: she activates with her own password, and a sign-up under her
address that comes after that changes nothing. -/
theorem noHijack_iff_invited :
    Machine.Meets (authTurn plainAuth lamplightEnv id adasRequests)
      (fun c i => NoHijack c.shared (authTurn plainAuth lamplightEnv id adasRequests c i).shared)
      openHouse.opened [1, 1, 1, 2, 2, 2, 2, 0] :=
  (noHijack_iff documented_plainAuth ⟨rfl, rfl, rfl, rfl⟩ (by decide +kernel)).mpr
    (by decide +kernel)

/-- Signing up first is enough: when she follows her link she becomes a member of the institute with
the password the other has chosen. -/
theorem account_hijacked :
    Machine.Meets (authTurn plainAuth lamplightEnv id adasRequests)
        (fun c i => Unpredictable id (adasRequests i) (c.phase i) c.shared)
        openHouse.opened [0, 1, 1, 1, 2, 2, 2, 2] ∧
      ¬ Machine.Meets (authTurn plainAuth lamplightEnv id adasRequests)
        (fun c i => NoHijack c.shared (authTurn plainAuth lamplightEnv id adasRequests c i).shared)
        openHouse.opened [0, 1, 1, 1, 2, 2, 2, 2] := by
  decide +kernel

end Example

end LampLight
