import LampLight.Auth.Hijack

/-!
# Provisioning again

The link of a first admin is mailed after the commit, so a tenant can be there whose admin never had
a link that worked. The form is then sent a second time. A tenant that exists stays, whatever the
accounts go through in the meantime (`tenants_run`), and the second call looks for the slug before
it does anything else.

## Main results

* `provisionTenant_taken` — a slug that is taken ends the call
* `not_reissued_run` — no second call mails a link
-/

namespace LampLight

open Machine (run)

variable {lib : BetterAuth} {env : Env} {hashToken : String → String}

/-! ### Tenants stay -/

theorem Invites.tenants_hand {w : AuthWorld} {db' : Database} {email token : String}
    (h : Invites hashToken w.db db' email token) (letter : Option Letter) (todo : List String) :
    w.db.tenants ⊆ (AuthWorld.hand { w with db := db' } letter todo).2.db.tenants := by
  cases letter <;> exact h.tenants

/-- A call of the library does not touch the tenants. -/
theorem tenants_hand_absorb (w : AuthWorld) (secrets : List String) (draw : AuthDraw)
    (e : AuthEffect) (letter : Option Letter) (todo : List String) :
    w.db.tenants ⊆ ((w.absorb secrets draw e).hand letter todo).2.db.tenants := by
  cases letter <;> exact fun _ h => h

theorem tenants_startCall (w : AuthWorld) (call : AuthCall) :
    w.db.tenants ⊆ (startCall lib env hashToken w call).2.db.tenants := by
  cases call with
  | handler request draw => exact tenants_hand_absorb w _ _ _ _ _
  | signUp tenant body draw _ =>
    obtain ⟨email, -, hinvites, -⟩ := signUp_invites env hashToken w.db tenant body draw
    exact hinvites.tenants_hand _ _
  | invite tenant roleInput emails draws _ =>
    simp only [startCall]
    split <;> exact fun _ h => h
  | provision call =>
    have hinvites := provisionTenant_invites env hashToken w.toWorld call
    simp only [startCall]
    generalize provisionTenant env hashToken w.toWorld call = result at hinvites
    exact hinvites.tenants_hand _ _
  | resetRequest tenant body suppressed draw _ =>
    simp only [startCall]
    rcases resetRequest_cases lib w tenant body suppressed draw with
      ⟨response, hnothing⟩ | ⟨institute, email, hasked⟩
    · rw [hnothing]
      exact fun _ h => h
    · rw [hasked]
      exact tenants_hand_absorb w _ _ _ _ _
  | activate call => exact fun _ h => h
  | sweep tenantId now => exact fun _ h => h

theorem tenants_inviteNext (w : AuthWorld) (call : AuthCall) (email : String)
    (todo : List String) :
    w.db.tenants ⊆ (inviteNext hashToken call email todo w).2.db.tenants := by
  cases call with
  | invite tenant roleInput emails draws _ =>
    simp only [inviteNext]
    split
    · exact fun _ h => h
    · next letter db hinvite =>
      have htenants : w.db.tenants ⊆ db.tenants := by
        rw [inviteOne] at hinvite
        split_ifs at hinvite
        · obtain ⟨issued, hissue, heq⟩ := Machine.map_eq_ok.mp hinvite
          obtain ⟨-, rfl⟩ := Prod.mk.inj heq
          exact (issueInvitation_invites hissue).tenants
        · obtain ⟨-, rfl⟩ := Prod.mk.inj (Except.ok.inj hinvite)
          exact fun _ h => h
      cases letter <;> exact htenants
  | _ => exact fun _ h => h

theorem tenants_activationStep (w : AuthWorld) (call : ActivationCall) (phase : ActivationPhase) :
    w.db.tenants ⊆ (activationStep lib hashToken call phase w).2.db.tenants := by
  cases phase with
  | finishing tenantId invitationId userId how =>
    obtain ⟨response, -, hsame | ⟨-, finished, db, hok, hworld⟩⟩ :=
      finish_cases call tenantId invitationId userId how w
    · rw [activationStep, hsame]
      exact fun _ h => h
    · rw [activationStep, hworld]
      rcases completeActivation_ok hok with ⟨-, rfl⟩ | ⟨_, _, _, _, _, _, _, _, rfl⟩
      · exact fun _ h => h
      · exact fun _ h => h
  | _ => exact fun _ h => h

/-- No step of any process removes a tenant. -/
theorem tenants_authStep (w : AuthWorld) (call : AuthCall) (phase : AuthPhase) :
    w.db.tenants ⊆ (authStep lib env hashToken call phase w).2.db.tenants := by
  cases phase with
  | start => exact tenants_startCall w call
  | inviting todo =>
    cases todo with
    | nil => exact fun _ h => h
    | cons email todo => exact tenants_inviteNext w call email todo
  | posting letter todo =>
    simp only [authStep]
    split_ifs <;> exact fun _ h => h
  | activation phase =>
    cases call with
    | activate call => exact tenants_activationStep w call phase
    | _ => exact fun _ h => h
  | done => exact fun _ h => h

variable {ι : Type*} [DecidableEq ι]

/-- A tenant that is there stays there. -/
theorem tenants_run (calls : ι → AuthCall) (c : Interleave.Config ι AuthPhase AuthWorld)
    (schedule : List ι) :
    c.shared.db.tenants
      ⊆ (run (authTurn lib env hashToken calls) c schedule).shared.db.tenants :=
  Machine.run_invariant
    (I := fun d : Interleave.Config ι AuthPhase AuthWorld =>
      c.shared.db.tenants ⊆ d.shared.db.tenants)
    (fun d i hd => List.Subset.trans hd (tenants_authStep d.shared (calls i) (d.phase i)))
    (List.Subset.refl _) schedule

/-! ### The second call -/

/-- A slug that is taken ends the call, with an error and nothing written. -/
theorem provisionTenant_taken {w : World} {call : ProvisionCall}
    (h : ∃ t ∈ w.db.tenants, t.slug = call.slugText) :
    ∃ message, provisionTenant env hashToken w call = (.ok (.error message), w) := by
  have htaken : (w.db.tenants.any fun t => t.slug = call.slugText) = true := by
    simpa using h
  rw [provisionTenant]
  split_ifs <;> exact ⟨_, rfl⟩

/-- A provisioning call from the form to the mail, with nobody in between: the transaction, the
letter, and the end. -/
def provisionThrough (lib : BetterAuth) (env : Env) (hashToken : String → String) (w : AuthWorld)
    (call : ProvisionCall) : AuthPhase × AuthWorld :=
  (Function.uncurry (authStep lib env hashToken (.provision call)))^[3] (.start, w)

theorem provisionThrough_taken {w : AuthWorld} {call : ProvisionCall}
    (h : ∃ t ∈ w.db.tenants, t.slug = call.slugText) :
    provisionThrough lib env hashToken w call = (.done, w) := by
  obtain ⟨message, hanswer⟩ : ∃ message,
      provisionTenant env hashToken w.toWorld call = (.ok (.error message), w.toWorld) :=
    provisionTenant_taken h
  have hstart : startCall lib env hashToken w (.provision call) = (.inviting [], w) := by
    simp only [startCall, hanswer]
    rfl
  have hend : Function.uncurry (authStep lib env hashToken (.provision call)) (.inviting [], w)
      = (.done, w) := rfl
  have hrest : Function.uncurry (authStep lib env hashToken (.provision call)) (.done, w)
      = (.done, w) := rfl
  rw [provisionThrough, Function.iterate_succ_apply, Function.uncurry_apply_pair, authStep, hstart,
    Function.iterate_succ_apply, hend, Function.iterate_one, hrest]

/-- A pending invitation of this address as an admin of this tenant. -/
def isPendingAdmin (tenantId : Uuid) (email : String) (i : SignupInvitationRow) : Bool :=
  i.tenantId = tenantId && i.email = email && i.role = .admin && i.consumedAt.isNone

/-- What a second call is to come to: the tenants are the same, one admin invitation is pending for
the address, and its link has been mailed. -/
structure Reissued (hashToken : String → String) (w w' : AuthWorld) (tenantId : Uuid)
    (email : String) : Prop where
  tenants : w'.db.tenants = w.db.tenants
  invited : ∃ row token, w'.db.signupInvitations.filter (isPendingAdmin tenantId email) = [row] ∧
    row.tokenHash = hashToken token ∧ w'.mails = ⟨email, token⟩ :: w.mails

theorem not_reissued_refl (w : AuthWorld) (tenantId : Uuid) (email : String) :
    ¬ Reissued hashToken w w tenantId email := by
  rintro ⟨-, row, token, -, -, hmails⟩
  exact List.cons_ne_self _ _ hmails.symm

/-- **Provisioning again reissues nothing.** Once a call has committed its tenant, and whatever
happens to accounts and invitations after that, a call with the same slug leaves everything as it
was and mails nothing. -/
theorem not_reissued_run (lib : BetterAuth) (env : Env) (hashToken : String → String)
    (calls : ι → AuthCall) (w : AuthWorld) (before after : List ι) (first retry : ProvisionCall)
    (hcommitted : tenantRow first
      ∈ (run (authTurn lib env hashToken calls) w.opened before).shared.db.tenants)
    (hslug : retry.slugText = first.slugText) :
    let now := (run (authTurn lib env hashToken calls) w.opened (before ++ after)).shared
    ¬ Reissued hashToken now (provisionThrough lib env hashToken now retry).2 first.tenantId
      (normalizeEmail retry.adminEmail) := by
  intro now
  have hkept : tenantRow first ∈ now.db.tenants := by
    have happend : run (authTurn lib env hashToken calls) w.opened (before ++ after)
        = run (authTurn lib env hashToken calls)
          (run (authTurn lib env hashToken calls) w.opened before) after :=
      Machine.run_append _ _ _ _
    simp only [now, happend]
    exact tenants_run calls _ after hcommitted
  have htaken : ∃ t ∈ now.db.tenants, t.slug = retry.slugText := ⟨_, hkept, hslug.symm⟩
  rw [provisionThrough_taken htaken]
  exact not_reissued_refl now _ _

/-! ### A mail that never left -/

section Example

/-- A platform with its operator. -/
def newPlatform : AuthWorld where
  db := { users := [operator] }

/-- The mail server refuses the letter, after the commit. -/
def undelivered : ProvisionCall :=
  { provisionCall "grace" "Grace" 1 11 with mailSent := false }

/-- The same form a day later, with a mail server that works. -/
def secondAttempt : ProvisionCall := provisionCall "grace" "Grace" 2 12

/-- The institute is there, its admin has no membership, and no link was ever mailed. The second
attempt does not mail one. -/
theorem undelivered_not_reissued :
    let now := (run (authTurn plainAuth lamplightEnv id fun _ : Unit => .provision undelivered)
      newPlatform.opened [(), ()]).shared
    (provisionTenant lamplightEnv id newPlatform.toWorld undelivered).1 = .error .mail ∧
      tenantRow undelivered ∈ now.db.tenants ∧ now.db.memberships.length = 0 ∧ now.mails = [] ∧
      ¬ Reissued id now (provisionThrough plainAuth lamplightEnv id now secondAttempt).2 1
        "admin@example.org" := by
  refine ⟨by decide, by decide, by decide, by decide, ?_⟩
  have htaken : ∃ t ∈ (run (authTurn plainAuth lamplightEnv id fun _ : Unit =>
      .provision undelivered) newPlatform.opened [(), ()]).shared.db.tenants,
      t.slug = secondAttempt.slugText := by
    decide
  rw [provisionThrough_taken htaken]
  exact not_reissued_refl _ _ _

theorem not_reissued_run_undelivered :
    let now := (run (authTurn plainAuth lamplightEnv id fun _ : Unit => .provision undelivered)
      newPlatform.opened ([(), ()] ++ [()])).shared
    ¬ Reissued id now (provisionThrough plainAuth lamplightEnv id now secondAttempt).2 1
      (normalizeEmail secondAttempt.adminEmail) :=
  not_reissued_run plainAuth lamplightEnv id (fun _ : Unit => .provision undelivered) newPlatform
    [(), ()] [()] undelivered secondAttempt (by decide) (by decide)

end Example

end LampLight
