import LampLight.Auth.Hijack

/-!
# An invitation is spent once

The last transaction of an activation consumes the invitation, writes the membership and marks the
address as verified. Whatever else goes on, it is for the user the invitation is addressed to, it
does all three or none, and no invitation is spent twice: the tokens that requests carry do not
matter for this, only that ids are never drawn again.

A run is watched: beside the world stand the ids that invitations have ever had and, one entry for
each time, the ids of those that were consumed.

## Main definitions

* `Spends`, `SpendsNothing` — what a step may do to invitations, memberships and verifications
* `Watched`, `watchTurn` — the processes with the record of what was consumed

## Main results

* `spending_run` — every step spends one invitation properly or nothing, and none is spent twice
-/

namespace LampLight

open Js

/-! ### Spending -/

/-- The pending invitations that are consumed between two states. -/
def consumedBetween (db db' : Database) : List Uuid :=
  (db.signupInvitations.filter fun i => i.consumedAt.isNone &&
    db'.signupInvitations.any fun j => j.id = i.id && j.consumedAt.isSome).map (·.id)

/-- The invitation is consumed, the membership of its addressee in its tenant is written, and the
address is verified; no other invitation, membership or user changes. -/
structure Spends (db db' : Database) (row : SignupInvitationRow) (u : UserRow) : Prop where
  row_mem : row ∈ db.signupInvitations
  pending : row.consumedAt = none
  user_mem : u ∈ db.users
  addressee : u.email = row.email
  consumed : ∃ now, { row with consumedAt := some now } ∈ db'.signupInvitations
  invitations : ∀ i, i.id ≠ row.id → (i ∈ db'.signupInvitations ↔ i ∈ db.signupInvitations)
  invitation_ids : db'.signupInvitations.map (·.id) = db.signupInvitations.map (·.id)
  member : ∃! m, m ∈ db'.memberships ∧ m.tenantId = row.tenantId ∧ m.userId = u.id
  memberships : ∀ m, ¬ (m.tenantId = row.tenantId ∧ m.userId = u.id) →
    (m ∈ db'.memberships ↔ m ∈ db.memberships)
  verified : row.provenUser u ∈ db'.users
  users : ∀ v, v.id ≠ u.id → (v ∈ db'.users ↔ v ∈ db.users)
  user_ids : db'.users.map (·.id) = db.users.map (·.id)

/-- No invitation is consumed, no membership written and nobody verified. -/
structure SpendsNothing (db db' : Database) : Prop where
  consumed : consumedBetween db db' = []
  memberships : db'.memberships = db.memberships
  users : ∀ v ∈ db'.users, v.emailVerified = true →
    ∃ u ∈ db.users, u.id = v.id ∧ u.emailVerified = true

/-- A step spends one invitation, with everything that goes with it, or nothing. -/
def SpendsOnce (db db' : Database) : Prop :=
  SpendsNothing db db' ∨ ∃ row u, consumedBetween db db' = [row.id] ∧ Spends db db' row u

/-! ### Watching a run -/

/-- The world, with a record of the invitations that were issued and consumed. -/
structure Watched where
  world : AuthWorld
  /-- The ids that invitations have had. -/
  issued : List Uuid
  /-- The invitations that were consumed, one entry for each time. -/
  spent : List Uuid

/-- The record starts with the invitations that are there. -/
def Watched.opened (w : AuthWorld) : Watched where
  world := w
  issued := w.db.signupInvitations.map (·.id)
  spent := []

/-- The record after a step. -/
def Watched.next (w : Watched) (world : AuthWorld) : Watched where
  world := world
  issued := world.db.signupInvitations.map (·.id) ++ w.issued
  spent := consumedBetween w.world.db world.db ++ w.spent

section Machine

variable (lib : BetterAuth) (env : Env) (hashToken : String → String)

/-- The next step of a request, with the record kept. -/
def watchStep (call : AuthCall) (phase : AuthPhase) (w : Watched) : AuthPhase × Watched :=
  let result := authStep lib env hashToken call phase w.world
  (result.1, w.next result.2)

variable {ι : Type*} [DecidableEq ι]

/-- The platform with all its requests, none of which has begun. -/
def Watched.config (w : Watched) : Interleave.Config ι AuthPhase Watched where
  phase _ := .start
  shared := w

/-- The request `i` moves, with the record kept. -/
def watchTurn (calls : ι → AuthCall) :
    Interleave.Config ι AuthPhase Watched → ι → Interleave.Config ι AuthPhase Watched :=
  Interleave.turn fun i => watchStep lib env hashToken (calls i)

/-- Watching changes nothing: under the record runs the platform. -/
theorem watchTurn_world (calls : ι → AuthCall) (c : Interleave.Config ι AuthPhase Watched) (i : ι) :
    let c' := watchTurn lib env hashToken calls c i
    (⟨c'.phase, c'.shared.world⟩ : Interleave.Config ι AuthPhase AuthWorld)
      = authTurn lib env hashToken calls ⟨c.phase, c.shared.world⟩ i := rfl

end Machine

/-- Ids are drawn once: those of users and those of invitations. -/
def FreshIds (call : AuthCall) (phase : AuthPhase) (w : Watched) : Prop :=
  match call, phase with
  | .handler _ draw, .start => draw.id ∉ w.world.drawn
  | .signUp _ _ draw _, .start => draw.id ∉ w.issued
  | .invite _ _ _ draws _, .inviting (email :: _) => (draws email).id ∉ w.issued
  | .provision call, .start => call.invitation.id ∉ w.issued
  | .resetRequest _ _ _ draw _, .start => draw.id ∉ w.world.drawn
  | .activate call, .activation (.creating _ _) => call.draw.id ∉ w.world.drawn
  | _, _ => True

instance : ∀ (call : AuthCall) (phase : AuthPhase) (w : Watched),
    Decidable (FreshIds call phase w)
  | .handler _ draw, .start, w => inferInstanceAs (Decidable (draw.id ∉ w.world.drawn))
  | .signUp _ _ draw _, .start, w => inferInstanceAs (Decidable (draw.id ∉ w.issued))
  | .invite _ _ _ draws _, .inviting (email :: _), w =>
    inferInstanceAs (Decidable ((draws email).id ∉ w.issued))
  | .provision call, .start, w => inferInstanceAs (Decidable (call.invitation.id ∉ w.issued))
  | .resetRequest _ _ _ draw _, .start, w => inferInstanceAs (Decidable (draw.id ∉ w.world.drawn))
  | .activate call, .activation (.creating _ _), w =>
    inferInstanceAs (Decidable (call.draw.id ∉ w.world.drawn))
  | .handler .., .inviting _, _ | .handler .., .posting .., _ | .handler .., .activation _, _
  | .handler .., .done, _ | .signUp .., .inviting _, _ | .signUp .., .posting .., _
  | .signUp .., .activation _, _ | .signUp .., .done, _ | .provision _, .inviting _, _
  | .provision _, .posting .., _ | .provision _, .activation _, _ | .provision _, .done, _
  | .resetRequest .., .inviting _, _ | .resetRequest .., .posting .., _
  | .resetRequest .., .activation _, _ | .resetRequest .., .done, _ | .invite .., .start, _
  | .invite .., .inviting [], _ | .invite .., .posting .., _ | .invite .., .activation _, _
  | .invite .., .done, _ | .activate _, .start, _ | .activate _, .inviting _, _
  | .activate _, .posting .., _ | .activate _, .done, _ | .activate _, .activation .start, _
  | .activate _, .activation (.invited ..), _ | .activate _, .activation (.known ..), _
  | .activate _, .activation (.finishing ..), _ | .activate _, .activation (.answered _), _
  | .sweep .., _, _ => .isTrue trivial

/-! ### What every state satisfies -/

/-- The part of a watched world that spending is about. -/
structure Ledger where
  db : Database
  drawn : List Uuid
  issued : List Uuid
  spent : List Uuid

/-- What the record and the tables say together. -/
def Watched.ledger (w : Watched) : Ledger := ⟨w.world.db, w.world.drawn, w.issued, w.spent⟩

/-- The ledger after a step. -/
def Ledger.next (l : Ledger) (db : Database) (drawn : List Uuid) : Ledger where
  db := db
  drawn := drawn
  issued := db.signupInvitations.map (·.id) ++ l.issued
  spent := consumedBetween l.db db ++ l.spent

/-- Keys, foreign keys and the form of addresses, as the schema and the library keep them, and a
record that agrees with the table of invitations. -/
structure InOrder (l : Ledger) : Prop where
  users_key : (l.db.users.map (·.id)).Nodup
  users_drawn : ∀ u ∈ l.db.users, u.id ∈ l.drawn
  users_lower : ∀ u ∈ l.db.users, toLowerCase u.email.toList = u.email.toList
  memberships_key : (l.db.memberships.map fun m => (m.tenantId, m.userId)).Nodup
  memberships_user : ∀ m ∈ l.db.memberships, ∃ u ∈ l.db.users, u.id = m.userId
  invitations_key : (l.db.signupInvitations.map (·.id)).Nodup
  invitations_issued : ∀ i ∈ l.db.signupInvitations, i.id ∈ l.issued
  invitations_normal : ∀ i ∈ l.db.signupInvitations, normalizeEmail i.email = i.email
  spent_issued : l.spent ⊆ l.issued
  spent_consumed : ∀ id ∈ l.spent, ∀ i ∈ l.db.signupInvitations, i.id = id → i.consumedAt ≠ none
  spent_nodup : l.spent.Nodup

/-- Nobody's address changes, and an id that has been drawn stays with its user or its
invitation. -/
structure Lasting (l l' : Ledger) : Prop where
  drawn : l.drawn ⊆ l'.drawn
  issued : l.issued ⊆ l'.issued
  users : ∀ u' ∈ l'.db.users, u'.id ∈ l.drawn → ∃ u ∈ l.db.users, u.id = u'.id ∧ u.email = u'.email
  invitations : ∀ i' ∈ l'.db.signupInvitations, i'.id ∈ l.issued →
    ∃ i ∈ l.db.signupInvitations, i.id = i'.id ∧ i.email = i'.email

/-- The invitation that a call holds is one that was issued, to this address. -/
structure Names (l : Ledger) (invitation : PendingInvitation) : Prop where
  issued : invitation.id ∈ l.issued
  normal : normalizeEmail invitation.email = invitation.email
  email : ∀ i ∈ l.db.signupInvitations, i.id = invitation.id → i.email = invitation.email

/-- What an activation has established about whom it is for. -/
def ActivationNames (l : Ledger) : ActivationPhase → Prop
  | .invited _ invitation => Names l invitation
  | .creating _ invitation => Names l invitation
  | .known _ invitation account => Names l invitation ∧ account.id ∈ l.drawn ∧
      ∀ u ∈ l.db.users, u.id = account.id → u.email = invitation.email
  | .finishing _ invitationId userId _ => invitationId ∈ l.issued ∧ userId ∈ l.drawn ∧
      ∀ i ∈ l.db.signupInvitations, i.id = invitationId →
        ∀ u ∈ l.db.users, u.id = userId → u.email = i.email
  | _ => True

/-- What a waiting request names is in the ledger. -/
def PhaseNames (l : Ledger) : AuthPhase → Prop
  | .activation phase => ActivationNames l phase
  | _ => True

section Stable

variable {l l' : Ledger}

theorem Names.stable {invitation : PendingInvitation} (hG : Lasting l l')
    (h : Names l invitation) : Names l' invitation where
  issued := hG.issued h.issued
  normal := h.normal
  email := by
    intro i' hi' hid
    obtain ⟨i, hi, hsame, hemail⟩ := hG.invitations i' hi' (hid ▸ h.issued)
    rw [← hemail]
    exact h.email i hi (hsame.trans hid)

/-- Nobody takes from an activation what it has established. -/
theorem ActivationNames.stable {phase : ActivationPhase} (hG : Lasting l l')
    (h : ActivationNames l phase) : ActivationNames l' phase := by
  cases phase with
  | start => trivial
  | answered response => trivial
  | invited tenantId invitation => exact Names.stable hG h
  | creating tenantId invitation => exact Names.stable hG h
  | known tenantId invitation account =>
    obtain ⟨hnames, hdrawn, haccount⟩ := h
    refine ⟨hnames.stable hG, hG.drawn hdrawn, fun u' hu' hid => ?_⟩
    obtain ⟨u, hu, hsame, hemail⟩ := hG.users u' hu' (hid ▸ hdrawn)
    rw [← hemail]
    exact haccount u hu (hsame.trans hid)
  | finishing tenantId invitationId userId how =>
    obtain ⟨hissued, hdrawn, hfor⟩ := h
    refine ⟨hG.issued hissued, hG.drawn hdrawn, fun i' hi' hid u' hu' huid => ?_⟩
    obtain ⟨i, hi, hsame, hemail⟩ := hG.invitations i' hi' (hid ▸ hissued)
    obtain ⟨u, hu, husame, huemail⟩ := hG.users u' hu' (huid ▸ hdrawn)
    rw [← hemail, ← huemail]
    exact hfor i hi (hsame.trans hid) u hu (husame.trans huid)

theorem PhaseNames.stable {phase : AuthPhase} (hG : Lasting l l') (h : PhaseNames l phase) :
    PhaseNames l' phase := by
  cases phase with
  | activation phase => exact ActivationNames.stable hG h
  | _ => trivial

end Stable

/-! ### What a step does -/

/-- A step that keeps the order, takes nothing from anybody and spends at most once. -/
structure Proper (l : Ledger) (db : Database) (drawn : List Uuid) : Prop where
  inOrder : InOrder (l.next db drawn)
  lasting : Lasting l (l.next db drawn)
  spends : SpendsOnce l.db db

section Steps

variable {l : Ledger} {db' : Database}

/-- Nothing is consumed when what was pending still is. -/
theorem consumedBetween_eq_nil {db : Database}
    (h : ∀ i ∈ db.signupInvitations, i.consumedAt = none →
      ∀ j ∈ db'.signupInvitations, j.id = i.id → j.consumedAt = none) :
    consumedBetween db db' = [] := by
  rw [consumedBetween, List.map_eq_nil_iff, List.filter_eq_nil_iff]
  intro i hi hconsumed
  simp only [Bool.and_eq_true, Option.isNone_iff_eq_none, List.any_eq_true, decide_eq_true_eq]
    at hconsumed
  obtain ⟨hpending, j, hj, hid, hsome⟩ := hconsumed
  rw [h i hi hpending j hj hid] at hsome
  cases hsome

/-- Invitations are withdrawn, and at most one is written, under an id none has had. -/
theorem proper_invitations (hl : InOrder l) (hidentity : db'.toIdentity = l.db.toIdentity)
    (hmembers : db'.memberships = l.db.memberships) {kept : List SignupInvitationRow}
    {new : Option SignupInvitationRow} (hkept : kept.Sublist l.db.signupInvitations)
    (hrows : db'.signupInvitations = kept ++ new.toList)
    (hnew : ∀ row ∈ new, row.id ∉ l.issued ∧ row.consumedAt = none ∧
      normalizeEmail row.email = row.email) : Proper l db' l.drawn := by
  have husers : db'.users = l.db.users := congrArg Identity.users hidentity
  -- A row is one from before, or the new one.
  have hcases : ∀ i ∈ db'.signupInvitations, i ∈ l.db.signupInvitations ∨ i ∈ new := by
    intro i hi
    rw [hrows] at hi
    rcases List.mem_append.mp hi with hi | hi
    · exact Or.inl (hkept.subset hi)
    · exact Or.inr (Option.mem_toList.mp hi)
  have hold : ∀ i ∈ db'.signupInvitations, i.id ∈ l.issued → i ∈ l.db.signupInvitations := by
    intro i hi hissued
    rcases hcases i hi with hi | hi
    · exact hi
    · exact absurd hissued (hnew i hi).1
  have hnothing : consumedBetween l.db db' = [] := by
    refine consumedBetween_eq_nil fun i hi hpending j hj hid => ?_
    have hjold := hold j hj (hid ▸ hl.invitations_issued i hi)
    rw [Table.eq_of_key_eq hl.invitations_key hjold hi hid]
    exact hpending
  have hspent : (l.next db' l.drawn).spent = l.spent := by
    show consumedBetween l.db db' ++ l.spent = l.spent
    rw [hnothing, List.nil_append]
  refine ⟨?_, ?_, Or.inl
    ⟨hnothing, hmembers, fun v hv hverified => ⟨v, husers ▸ hv, rfl, hverified⟩⟩⟩
  · refine ⟨?_, ?_, ?_, ?_, ?_, ?_, ?_, ?_, ?_, ?_, ?_⟩
    · show (db'.users.map (·.id)).Nodup
      rw [husers]
      exact hl.users_key
    · intro u hu
      exact hl.users_drawn u (husers ▸ hu)
    · intro u hu
      exact hl.users_lower u (husers ▸ hu)
    · show (db'.memberships.map fun m => (m.tenantId, m.userId)).Nodup
      rw [hmembers]
      exact hl.memberships_key
    · intro m hm
      show ∃ u ∈ db'.users, u.id = m.userId
      rw [husers]
      exact hl.memberships_user m (hmembers ▸ hm)
    · show (db'.signupInvitations.map (·.id)).Nodup
      rw [hrows, List.map_append, List.nodup_append]
      refine ⟨hl.invitations_key.sublist (hkept.map _), ?_, ?_⟩
      · cases new <;> simp
      · rintro _ hk _ hn rfl
        obtain ⟨i, hi, hid⟩ := List.mem_map.mp hk
        obtain ⟨n, hn, hnid⟩ := List.mem_map.mp hn
        have hissued := hl.invitations_issued i (hkept.subset hi)
        rw [hid, ← hnid] at hissued
        exact (hnew n (Option.mem_toList.mp hn)).1 hissued
    · intro i hi
      exact List.mem_append_left _ (List.mem_map_of_mem hi)
    · intro i hi
      rcases hcases i hi with hi | hi
      · exact hl.invitations_normal i hi
      · exact (hnew i hi).2.2
    · rw [hspent]
      exact fun x hx => List.mem_append_right _ (hl.spent_issued hx)
    · rw [hspent]
      intro x hx i hi hid
      exact hl.spent_consumed x hx i (hold i hi (hid ▸ hl.spent_issued hx)) hid
    · rw [hspent]
      exact hl.spent_nodup
  · refine ⟨fun _ h => h, fun _ h => List.mem_append_right _ h, ?_, ?_⟩
    · intro u hu _
      exact ⟨u, husers ▸ hu, rfl, rfl⟩
    · intro i hi hissued
      exact ⟨i, hold i hi hissued, rfl, rfl⟩

theorem proper_issues {id : Uuid} (hl : InOrder l) (hfresh : id ∉ l.issued)
    (h : Issues l.db db' id) : Proper l db' l.drawn := by
  obtain ⟨hidentity, hmembers, kept, new, hkept, hrows, hnew⟩ := h
  refine proper_invitations hl hidentity hmembers hkept hrows fun row hrow => ?_
  obtain ⟨hid, hpending, hnormal⟩ := hnew row hrow
  exact ⟨hid ▸ hfresh, hpending, hnormal⟩

theorem proper_fewer (hl : InOrder l) {kept : List SignupInvitationRow}
    (hkept : kept.Sublist l.db.signupInvitations) :
    Proper l { l.db with signupInvitations := kept } l.drawn := by
  have hrows : kept = kept ++ (none : Option SignupInvitationRow).toList :=
    (List.append_nil kept).symm
  exact proper_invitations hl rfl rfl hkept hrows fun _ h => nomatch h

theorem proper_refl (hl : InOrder l) : Proper l l.db l.drawn :=
  proper_fewer hl (List.Sublist.refl _)

/-- A call of the library. -/
theorem proper_absorb {draw : AuthDraw} {licensed : Uuid → Prop} {address : String → Prop}
    {e : AuthEffect} (hl : InOrder l) (hfresh : draw.id ∉ l.drawn)
    (he : Effects l.db.toIdentity draw licensed address e)
    (haddress : ∀ email, address email → toLowerCase email.toList = email.toList) :
    Proper l { l.db with toIdentity := e.identity } (draw.id :: l.drawn) := by
  have hnothing : consumedBetween l.db { l.db with toIdentity := e.identity } = [] := by
    refine consumedBetween_eq_nil fun i hi hpending j hj hid => ?_
    rw [Table.eq_of_key_eq hl.invitations_key hj hi hid]
    exact hpending
  have hspent : (l.next { l.db with toIdentity := e.identity } (draw.id :: l.drawn)).spent
      = l.spent := by
    show consumedBetween l.db _ ++ l.spent = l.spent
    rw [hnothing, List.nil_append]
  refine ⟨⟨?_, ?_, ?_, hl.memberships_key, ?_, hl.invitations_key, ?_, hl.invitations_normal, ?_,
    ?_, ?_⟩, ⟨?_, ?_, ?_, ?_⟩, Or.inl ⟨hnothing, rfl, ?_⟩⟩
  · exact he.users_key hl.users_drawn hfresh hl.users_key
  · exact fun u hu => he.users_drawn hl.users_drawn hu
  · intro u hu
    rcases he.user_cases hu with ⟨v, hv, hstanding⟩ | ⟨-, -, hnew⟩
    · rw [← (UserRow.standing_eq hstanding).2.1]
      exact hl.users_lower v hv
    · exact haddress _ hnew
  · intro m hm
    obtain ⟨u, hu, hid⟩ := hl.memberships_user m hm
    obtain ⟨created, hmap, -⟩ := he.users
    have hstays : u.standing ∈ e.identity.users.map UserRow.standing := by
      rw [hmap]
      exact List.mem_append_left _ (List.mem_map_of_mem hu)
    obtain ⟨v, hv, hstanding⟩ := List.mem_map.mp hstays
    exact ⟨v, hv, (UserRow.standing_eq hstanding).1.trans hid⟩
  · exact fun i hi => List.mem_append_right _ (hl.invitations_issued i hi)
  · rw [hspent]
    exact fun x hx => List.mem_append_right _ (hl.spent_issued hx)
  · rw [hspent]
    exact hl.spent_consumed
  · rw [hspent]
    exact hl.spent_nodup
  · exact List.subset_cons_self _ _
  · exact fun _ h => List.mem_append_right _ h
  · intro u hu hid
    rcases he.user_cases hu with ⟨v, hv, hstanding⟩ | ⟨hnew, -⟩
    · obtain ⟨hvid, hvemail, -⟩ := UserRow.standing_eq hstanding
      exact ⟨v, hv, hvid, hvemail⟩
    · rw [hnew] at hid
      exact absurd hid hfresh
  · exact fun i hi _ => ⟨i, hi, rfl, rfl⟩
  · intro u hu hverified
    rcases he.user_cases hu with ⟨v, hv, hstanding⟩ | ⟨-, hunverified, -⟩
    · obtain ⟨hvid, -, hvv⟩ := UserRow.standing_eq hstanding
      exact ⟨v, hv, hvid, hvv.trans hverified⟩
    · rw [hunverified] at hverified
      exact absurd hverified Bool.false_ne_true

/-- The membership that is written, and that nothing else is. -/
theorem attachMembership_writes {db db' : Database} {tenantId userId : Uuid}
    {invitation : SignupInvitationRow}
    (hkey : (db.memberships.map fun m => (m.tenantId, m.userId)).Nodup)
    (huser : ∀ m ∈ db.memberships, ∃ u ∈ db.users, u.id = m.userId)
    (h : attachMembership db tenantId userId invitation = .ok db') :
    ∃ ms, db' = { db with memberships := ms } ∧
      (ms.map fun m => (m.tenantId, m.userId)).Nodup ∧
      (∃ u ∈ db.users, u.id = userId) ∧
      (∃ m ∈ ms, m.tenantId = tenantId ∧ m.userId = userId) ∧
      ∀ m, ¬ (m.tenantId = tenantId ∧ m.userId = userId) → (m ∈ ms ↔ m ∈ db.memberships) := by
  simp only [attachMembership] at h
  split_ifs at h with hany
  · obtain rfl := Except.ok.inj h
    obtain ⟨m, hm, hmkey⟩ := List.any_eq_true.mp hany
    simp only [Bool.and_eq_true, decide_eq_true_eq] at hmkey
    obtain ⟨u, hu, huid⟩ := huser m hm
    refine ⟨_, rfl, ?_, ⟨u, hu, huid.trans hmkey.2⟩, ?_, fun n hn => ?_⟩
    · rw [Table.map_update]
      · exact hkey
      · exact fun _ => rfl
    · exact ⟨_, Table.mem_update.mpr (Or.inr ⟨m, hm, by simpa using hmkey, rfl⟩), hmkey⟩
    · rw [Table.mem_update]
      constructor
      · rintro (⟨hold, -⟩ | ⟨o, -, ho, rfl⟩)
        · exact hold
        · exact absurd (by simpa using ho) hn
      · intro hold
        refine Or.inl ⟨hold, ?_⟩
        simpa using hn
  · obtain ⟨hchecks, rfl⟩ := Database.checked_ok.mp h
    have hnoUser : db.noUser userId = false :=
      hchecks _ (List.mem_cons_of_mem _ (List.mem_cons_self ..))
    refine ⟨_, rfl, ?_, by simpa [Database.noUser] using hnoUser, ?_, fun n hn => ?_⟩
    · rw [List.map_append, List.nodup_append]
      refine ⟨hkey, by simp, ?_⟩
      rintro x hx _ hy rfl
      obtain ⟨m, hm, rfl⟩ := List.mem_map.mp hx
      simp only [List.map_cons, List.map_nil, List.mem_singleton, Prod.mk.injEq] at hy
      exact hany (List.any_eq_true.mpr ⟨m, hm, by simpa using hy⟩)
    · exact ⟨_, List.mem_append_right _ (List.mem_singleton.mpr rfl), rfl, rfl⟩
    · rw [List.mem_append, List.mem_singleton]
      constructor
      · rintro (hold | rfl)
        · exact hold
        · exact absurd ⟨rfl, rfl⟩ hn
      · exact Or.inl

/-- Completing an invitation spends it for its user. -/
theorem spends_completed {tenantId invitationId userId : Uuid} {now : Instant} (hl : InOrder l)
    (h : completeActivation l.db tenantId invitationId userId now = .ok (true, db'))
    (hfor : ∀ i ∈ l.db.signupInvitations, i.id = invitationId →
      ∀ u ∈ l.db.users, u.id = userId → u.email = i.email) :
    ∃ row u, Spends l.db db' row u ∧ consumedBetween l.db db' = [row.id] ∧
      (db'.memberships.map fun m => (m.tenantId, m.userId)).Nodup := by
  simp only [completeActivation] at h
  split at h
  · cases (Prod.mk.inj (Except.ok.inj h)).1
  next row hrow =>
  obtain ⟨db₁, hattach, heq⟩ := Machine.map_eq_ok.mp h
  obtain ⟨-, rfl⟩ := Prod.mk.inj heq
  obtain ⟨ms, rfl, hmskey, ⟨u, hu, huid⟩, ⟨m, hm, hmkey⟩, hothers⟩ :=
    attachMembership_writes (by exact hl.memberships_key) (by exact hl.memberships_user) hattach
  have hmem : row ∈ l.db.signupInvitations := List.mem_of_find?_eq_some hrow
  have hclaim := List.find?_some hrow
  simp only [Bool.and_eq_true, decide_eq_true_eq, Option.isNone_iff_eq_none] at hclaim
  obtain ⟨⟨htenant, hid⟩, hpending⟩ := hclaim
  have hu : u ∈ l.db.users := hu
  subst huid hid htenant
  -- The keys leave one row and one user to update.
  have hrows : ∀ i, i ∈ Table.update (fun i : SignupInvitationRow => i.tenantId = row.tenantId &&
      i.id = row.id && i.consumedAt.isNone) (fun i => { i with consumedAt := some now })
      l.db.signupInvitations ↔
        (i ∈ l.db.signupInvitations ∧ i ≠ row) ∨ i = { row with consumedAt := some now } := by
    intro i
    refine Table.mem_update_of_unique hmem fun j hj => ?_
    simp only [Bool.and_eq_true, decide_eq_true_eq, Option.isNone_iff_eq_none]
    constructor
    · rintro ⟨⟨-, hjid⟩, -⟩
      exact Table.eq_of_key_eq hl.invitations_key hj hmem hjid
    · rintro rfl
      exact ⟨⟨rfl, rfl⟩, hpending⟩
  have husers : ∀ v, v ∈ Table.update (fun v : UserRow => v.id = u.id) row.provenUser l.db.users ↔
      (v ∈ l.db.users ∧ v ≠ u) ∨ v = row.provenUser u := by
    intro v
    refine Table.mem_update_of_unique hu fun w hw => ?_
    rw [decide_eq_true_iff]
    constructor
    · exact fun hwid => Table.eq_of_key_eq hl.users_key hw hu hwid
    · rintro rfl
      rfl
  refine ⟨row, u, ?_, ?_, hmskey⟩
  · refine ⟨hmem, hpending, hu, hfor row hmem rfl u hu rfl, ⟨now, (hrows _).mpr (Or.inr rfl)⟩, ?_,
      ?_, ⟨m, ⟨hm, hmkey⟩, ?_⟩, hothers, (husers _).mpr (Or.inr rfl), ?_, ?_⟩
    · intro i hi
      refine (hrows i).trans ⟨?_, fun hold => Or.inl ⟨hold, fun h => hi (h ▸ rfl)⟩⟩
      rintro (⟨hold, -⟩ | rfl)
      · exact hold
      · exact absurd rfl hi
    · refine Table.map_update
        (f := fun i : SignupInvitationRow => { i with consumedAt := some now })
        ?_ _
      exact fun _ => rfl
    · rintro n ⟨hn, hnkey⟩
      refine Table.eq_of_key_eq hmskey hn hm ?_
      rw [hnkey.1, hnkey.2, hmkey.1, hmkey.2]
    · intro v hv
      refine (husers v).trans ⟨?_, fun hold => Or.inl ⟨hold, fun h => hv (h ▸ rfl)⟩⟩
      rintro (⟨hold, -⟩ | rfl)
      · exact hold
      · exact absurd (provenUser_id row u) hv
    · exact Table.map_update (provenUser_id row) _
  · rw [consumedBetween, Table.filter_eq_singleton hl.invitations_key.of_map hmem fun i hi => ?_]
    · rfl
    · simp only [Bool.and_eq_true, Option.isNone_iff_eq_none, List.any_eq_true, decide_eq_true_eq]
      constructor
      · rintro ⟨hipending, j, hj, hjid, hjsome⟩
        rcases (hrows j).mp hj with ⟨hold, -⟩ | rfl
        · rw [Table.eq_of_key_eq hl.invitations_key hold hi hjid, hipending] at hjsome
          cases hjsome
        · exact Table.eq_of_key_eq hl.invitations_key hi hmem hjid.symm
      · rintro rfl
        exact ⟨hpending, _, (hrows _).mpr (Or.inr rfl), rfl, rfl⟩

/-- After an invitation is spent, its row is the consumed one. -/
theorem Spends.row_cases {row : SignupInvitationRow} {u : UserRow} (hl : InOrder l)
    (h : Spends l.db db' row u) {i : SignupInvitationRow} (hi : i ∈ db'.signupInvitations) :
    i ∈ l.db.signupInvitations ∧ i.id ≠ row.id ∨
      ∃ now, i = { row with consumedAt := some now } := by
  by_cases hid : i.id = row.id
  · obtain ⟨now, hnow⟩ := h.consumed
    have hkey : (db'.signupInvitations.map (·.id)).Nodup := h.invitation_ids ▸ hl.invitations_key
    exact Or.inr ⟨now, Table.eq_of_key_eq hkey hi hnow hid⟩
  · exact Or.inl ⟨(h.invitations i hid).mp hi, hid⟩

theorem Spends.user_cases {row : SignupInvitationRow} {u v : UserRow} (hl : InOrder l)
    (h : Spends l.db db' row u) (hv : v ∈ db'.users) :
    v ∈ l.db.users ∧ v.id ≠ u.id ∨ v = row.provenUser u := by
  by_cases hid : v.id = u.id
  · have hkey : (db'.users.map (·.id)).Nodup := h.user_ids ▸ hl.users_key
    exact Or.inr (Table.eq_of_key_eq hkey hv h.verified (hid.trans (provenUser_id row u).symm))
  · exact Or.inl ⟨(h.users v hid).mp hv, hid⟩

theorem proper_spends {row : SignupInvitationRow} {u : UserRow} (hl : InOrder l)
    (h : Spends l.db db' row u) (hconsumed : consumedBetween l.db db' = [row.id])
    (hkey : (db'.memberships.map fun m => (m.tenantId, m.userId)).Nodup) :
    Proper l db' l.drawn := by
  -- Users and invitations are, up to the writes, the ones from before.
  have husers : ∀ v ∈ db'.users, ∃ v' ∈ l.db.users, v'.id = v.id ∧ v'.email = v.email := by
    intro v hv
    rcases h.user_cases hl hv with ⟨hold, -⟩ | rfl
    · exact ⟨v, hold, rfl, rfl⟩
    · exact ⟨u, h.user_mem, (provenUser_id row u).symm, (provenUser_email row u).symm⟩
  have hrows : ∀ i ∈ db'.signupInvitations, ∃ i' ∈ l.db.signupInvitations, i'.id = i.id ∧
      i'.email = i.email := by
    intro i hi
    rcases h.row_cases hl hi with ⟨hold, -⟩ | ⟨now, rfl⟩
    · exact ⟨i, hold, rfl, rfl⟩
    · exact ⟨row, h.row_mem, rfl, rfl⟩
  have hspent : (l.next db' l.drawn).spent = row.id :: l.spent := by
    show consumedBetween l.db db' ++ l.spent = _
    rw [hconsumed]
    rfl
  have hissued : row.id ∈ l.issued := hl.invitations_issued row h.row_mem
  refine ⟨⟨?_, ?_, ?_, hkey, ?_, ?_, ?_, ?_, ?_, ?_, ?_⟩, ⟨fun _ h => h, ?_, ?_, ?_⟩,
    Or.inr ⟨row, u, hconsumed, h⟩⟩
  · show (db'.users.map (·.id)).Nodup
    rw [h.user_ids]
    exact hl.users_key
  · intro v hv
    obtain ⟨v', hv', hid, -⟩ := husers v hv
    exact hid ▸ hl.users_drawn v' hv'
  · intro v hv
    obtain ⟨v', hv', -, hemail⟩ := husers v hv
    exact hemail ▸ hl.users_lower v' hv'
  · intro m hm
    have hid : m.userId ∈ l.db.users.map (·.id) := by
      by_cases hmkey : m.tenantId = row.tenantId ∧ m.userId = u.id
      · exact hmkey.2 ▸ List.mem_map_of_mem h.user_mem
      · obtain ⟨v, hv, hvid⟩ := hl.memberships_user m ((h.memberships m hmkey).mp hm)
        exact hvid ▸ List.mem_map_of_mem hv
    rw [← h.user_ids] at hid
    exact List.mem_map.mp hid
  · show (db'.signupInvitations.map (·.id)).Nodup
    rw [h.invitation_ids]
    exact hl.invitations_key
  · exact fun i hi => List.mem_append_left _ (List.mem_map_of_mem hi)
  · intro i hi
    obtain ⟨i', hi', -, hemail⟩ := hrows i hi
    exact hemail ▸ hl.invitations_normal i' hi'
  · rw [hspent]
    intro x hx
    refine List.mem_append_right _ ?_
    rcases List.mem_cons.mp hx with rfl | hx
    · exact hissued
    · exact hl.spent_issued hx
  · rw [hspent]
    intro x hx i hi hid
    rcases h.row_cases hl hi with ⟨hold, hne⟩ | ⟨now, rfl⟩
    · rcases List.mem_cons.mp hx with rfl | hx
      · exact absurd hid hne
      · exact hl.spent_consumed x hx i hold hid
    · exact fun hnone => nomatch hnone
  · rw [hspent]
    exact List.nodup_cons.mpr
      ⟨fun hmem => hl.spent_consumed row.id hmem row h.row_mem rfl h.pending, hl.spent_nodup⟩
  · exact fun _ h => List.mem_append_right _ h
  · exact fun v hv _ => husers v hv
  · exact fun i hi _ => hrows i hi

/-- The last transaction of an activation whose user and whose invitation have the same address. -/
theorem proper_completed {tenantId invitationId userId : Uuid} {now : Instant} {done : Bool}
    (hl : InOrder l)
    (h : completeActivation l.db tenantId invitationId userId now = .ok (done, db'))
    (hfor : ∀ i ∈ l.db.signupInvitations, i.id = invitationId →
      ∀ u ∈ l.db.users, u.id = userId → u.email = i.email) : Proper l db' l.drawn := by
  cases done with
  | true =>
    obtain ⟨row, u, hspends, hconsumed, hkey⟩ := spends_completed hl h hfor
    exact proper_spends hl hspends hconsumed hkey
  | false =>
    rcases completeActivation_ok h with ⟨-, rfl⟩ | ⟨_, -, -, hdone, -⟩
    · exact proper_refl hl
    · cases hdone

end Steps

/-! ### One step of each process -/

section Calls

variable {lib : BetterAuth} {env : Env} {hashToken : String → String} {w : Watched}

/-- What a step has to show: the world it leaves, and what its process has established then. -/
def Keeps (w : Watched) (result : AuthPhase × AuthWorld) : Prop :=
  Proper w.ledger result.2.db result.2.drawn ∧
    PhaseNames (w.ledger.next result.2.db result.2.drawn) result.1

theorem keeps_hand {world : AuthWorld} (h : Proper w.ledger world.db world.drawn)
    (letter : Option Letter) (todo : List String) : Keeps w (world.hand letter todo) := by
  cases letter with
  | none => exact ⟨h, trivial⟩
  | some letter => exact ⟨h, trivial⟩

/-- A step that only learns something. -/
theorem keeps_refl (hl : InOrder w.ledger) {phase : AuthPhase} (h : PhaseNames w.ledger phase) :
    Keeps w (phase, w.world) :=
  ⟨proper_refl hl, h.stable (proper_refl hl).lasting⟩

theorem names_of_find {l : Ledger} (hl : InOrder l) {tenantId : Uuid} {token : String}
    {now : Instant} {invitation : PendingInvitation}
    (h : findPendingInvitation hashToken l.db tenantId token now = some invitation) :
    Names l invitation := by
  obtain ⟨row, hrow, -, -, -, -, hid, hemail⟩ := findPendingInvitation_some h
  refine ⟨hid ▸ hl.invitations_issued row hrow, hemail ▸ hl.invitations_normal row hrow, ?_⟩
  intro i hi hiid
  rw [Table.eq_of_key_eq hl.invitations_key hi hrow (hiid.trans hid), hemail]

/-- A user who stands for an id stands for it alone. -/
theorem InOrder.email_of_id {l : Ledger} (hl : InOrder l) {user : UserRow}
    (huser : user ∈ l.db.users)
    {email : String} (hemail : user.email = email) :
    ∀ u ∈ l.db.users, u.id = user.id → u.email = email := by
  intro u hu hid
  rw [Table.eq_of_key_eq hl.users_key hu huser hid, hemail]

theorem names_openActivation {l : Ledger} (hl : InOrder l) (hashToken : String → String)
    (call : ActivationCall) : ActivationNames l (openActivation hashToken call l.db) := by
  rcases openActivation_cases hashToken call l.db with
    ⟨response, hanswered⟩ | ⟨tenantId, invitation, hinvited, hfind⟩
  · rw [hanswered]
    trivial
  · rw [hinvited]
    exact names_of_find hl hfind

theorem keeps_startCall (hlib : lib.Documented) (hl : InOrder w.ledger) {call : AuthCall}
    (hfresh : FreshIds call .start w) :
    Keeps w (startCall lib env hashToken w.world call) := by
  cases call with
  | handler request draw =>
    have heffects := hlib.handler request draw w.world.db.toIdentity
    exact keeps_hand (proper_absorb hl hfresh heffects fun _ h => h) _ _
  | signUp tenant body draw _ =>
    have hproper := proper_issues hl hfresh
      (signUp_issues env hashToken w.world.db tenant body draw)
    exact @keeps_hand w { w.world with db := _ } hproper _ _
  | invite tenant roleInput emails draws _ =>
    simp only [startCall]
    split
    · exact keeps_refl hl trivial
    · exact keeps_refl hl trivial
  | provision call =>
    have hproper := proper_issues hl hfresh
      (provisionTenant_issues env hashToken w.world.toWorld call)
    simp only [startCall]
    generalize provisionTenant env hashToken w.world.toWorld call = result at hproper
    exact @keeps_hand w { w.world with db := result.2.db } hproper _ _
  | resetRequest tenant body suppressed draw _ =>
    simp only [startCall]
    rcases resetRequest_cases lib w.world tenant body suppressed draw with
      ⟨response, hnothing⟩ | ⟨institute, email, hasked⟩
    · rw [hnothing]
      exact keeps_hand (proper_refl hl) _ _
    · rw [hasked]
      have heffects := hlib.requestPasswordReset email draw w.world.db.toIdentity
      exact keeps_hand (proper_absorb hl hfresh heffects fun _ h => h.elim) _ _
  | activate call =>
    exact keeps_refl hl (names_openActivation hl hashToken call)
  | sweep tenantId now =>
    refine ⟨proper_fewer hl ?_, trivial⟩
    exact (Table.delete_sublist _ _).trans (Table.delete_sublist _ _)

theorem keeps_inviteNext (hl : InOrder w.ledger) {call : AuthCall} {email : String}
    {todo : List String} (hfresh : FreshIds call (.inviting (email :: todo)) w) :
    Keeps w (inviteNext hashToken call email todo w.world) := by
  cases call with
  | invite tenant roleInput emails draws _ =>
    simp only [inviteNext]
    split
    · exact keeps_refl hl trivial
    · next letter db hinvite =>
      have hproper := proper_issues hl hfresh (inviteOne_issues hinvite)
      exact @keeps_hand w { w.world with db := db } hproper _ _
  | _ => exact keeps_refl hl trivial

theorem keeps_createAccount (hlib : lib.Documented) (hl : InOrder w.ledger) {call : ActivationCall}
    {tenantId : Uuid} {invitation : PendingInvitation} (hnames : Names w.ledger invitation)
    (hfresh : call.draw.id ∉ w.world.drawn) :
    Proper w.ledger (createAccount lib call tenantId invitation w.world).2.db
        (createAccount lib call tenantId invitation w.world).2.drawn ∧
      ActivationNames (w.ledger.next (createAccount lib call tenantId invitation w.world).2.db
        (createAccount lib call tenantId invitation w.world).2.drawn)
        (createAccount lib call tenantId invitation w.world).1 := by
  obtain ⟨body, hemail, hworld, hwhere⟩ := createAccount_cases lib call tenantId invitation w.world
  rw [hworld]
  have heffects := hlib.signUpEmail body call.draw w.world.db.toIdentity
  have hproper : Proper w.ledger
      { w.world.db with
        toIdentity := (lib.signUpEmail body call.draw w.world.db.toIdentity).2.identity }
      (call.draw.id :: w.world.drawn) := by
    refine proper_absorb hl hfresh heffects fun email haddress => ?_
    rw [haddress, toLowerCase_idem]
  refine ⟨hproper, ?_⟩
  rcases hwhere with ⟨response, heq⟩ | ⟨userId, hreturned, heq⟩
  · rw [heq]
    trivial
  · rw [heq]
    obtain rfl : userId = call.draw.id := hlib.signUpEmail_id body call.draw _ userId hreturned
    refine ⟨List.mem_append_right _ hnames.issued, List.mem_cons_self .., ?_⟩
    intro i hi hid u hu huid
    rw [hnames.email i hi hid]
    rcases heffects.user_cases hu with ⟨v, hv, hstanding⟩ | ⟨-, -, hnew⟩
    · refine absurd (hl.users_drawn v hv) ?_
      rw [(UserRow.standing_eq hstanding).1, huid]
      exact hfresh
    · rw [hemail, ← hnames.normal, toLowerCase_normalizeEmail, hnames.normal] at hnew
      exact String.toList_inj.mp hnew

theorem names_lookUpAccount {l : Ledger} (hl : InOrder l) (call : ActivationCall) {tenantId : Uuid}
    {invitation : PendingInvitation} (hnames : Names l invitation) :
    ActivationNames l (lookUpAccount call tenantId invitation l.db) := by
  rcases lookUpAccount_cases call tenantId invitation l.db with
    ⟨response, heq⟩ | heq | ⟨account, heq, hfind⟩
  · rw [heq]
    trivial
  · rw [heq]
    exact hnames
  · rw [heq]
    obtain ⟨user, huser, rfl⟩ := Option.map_eq_some_iff.mp hfind
    have hmem : user ∈ l.db.users := List.mem_of_find?_eq_some huser
    have hemail : user.email = normalizeEmail invitation.email := by
      simpa using List.find?_some huser
    rw [hnames.normal] at hemail
    exact ⟨hnames, hl.users_drawn user hmem, hl.email_of_id hmem hemail⟩

theorem names_chooseCase (hlib : lib.Documented) {l : Ledger} (hl : InOrder l)
    (call : ActivationCall) {tenantId : Uuid} {invitation : PendingInvitation}
    {account : GlobalAccount} (h : ActivationNames l (.known tenantId invitation account)) :
    ActivationNames l (chooseCase lib call tenantId invitation account l.db) := by
  obtain ⟨hnames, hdrawn, haccount⟩ := h
  rcases chooseCase_cases lib call tenantId invitation account l.db with
    ⟨response, heq⟩ | ⟨user, hsession, haddress, heq⟩ | ⟨-, heq⟩
  · rw [heq]
    trivial
  · rw [heq]
    obtain ⟨hmem, -⟩ := hlib.getSession _ _ _ user hsession
    rw [hl.users_lower user hmem, String.toList_inj] at haddress
    refine ⟨hnames.issued, hl.users_drawn user hmem, fun i hi hid => ?_⟩
    rw [hnames.email i hi hid]
    exact hl.email_of_id hmem haddress
  · rw [heq]
    refine ⟨hnames.issued, hdrawn, fun i hi hid => ?_⟩
    rw [hnames.email i hi hid]
    exact haccount

/-- A step of an activation. -/
theorem keeps_activationStep (hlib : lib.Documented) (hl : InOrder w.ledger) {call : ActivationCall}
    {phase : ActivationPhase} (hnames : ActivationNames w.ledger phase)
    (hfresh : FreshIds (.activate call) (AuthPhase.activation phase) w) :
    Keeps w (activateNext lib hashToken (.activate call) phase w.world) := by
  cases phase with
  | start => exact keeps_refl hl (names_openActivation hl hashToken call)
  | answered response => exact keeps_refl hl trivial
  | invited tenantId invitation => exact keeps_refl hl (names_lookUpAccount hl call hnames)
  | creating tenantId invitation => exact keeps_createAccount hlib hl hnames hfresh
  | known tenantId invitation account => exact keeps_refl hl (names_chooseCase hlib hl call hnames)
  | finishing tenantId invitationId userId how =>
    obtain ⟨-, -, hfor⟩ := hnames
    obtain ⟨response, hanswered, hworld⟩ :=
      finish_cases call tenantId invitationId userId how w.world
    simp only [Keeps, activateNext, activationStep, hanswered]
    rcases hworld with heq | ⟨-, done, db, hdone, heq⟩
    · rw [heq]
      exact ⟨proper_refl hl, trivial⟩
    · rw [heq]
      exact ⟨proper_completed hl hdone hfor, trivial⟩

theorem keeps_authStep (hlib : lib.Documented) (hl : InOrder w.ledger) {call : AuthCall}
    {phase : AuthPhase} (hnames : PhaseNames w.ledger phase) (hfresh : FreshIds call phase w) :
    Keeps w (authStep lib env hashToken call phase w.world) := by
  cases phase with
  | start => exact keeps_startCall hlib hl hfresh
  | done => exact keeps_refl hl trivial
  | inviting todo =>
    cases todo with
    | nil => exact keeps_refl hl trivial
    | cons email todo => exact keeps_inviteNext hl hfresh
  | posting letter todo =>
    simp only [authStep]
    split_ifs
    · exact ⟨proper_refl hl, trivial⟩
    · exact keeps_refl hl trivial
  | activation phase =>
    cases call with
    | activate call => exact keeps_activationStep hlib hl hnames hfresh
    | _ => exact keeps_refl hl trivial

end Calls

/-! ### Runs -/

section Runs

variable {ι : Type*} [DecidableEq ι]

/-- **Spent once, and for its addressee.** Whatever is requested with whatever tokens, and in
whatever order it is served, every step spends one invitation for the user it is addressed to, with
the membership and the verification that go with it, or nothing at all; and no invitation is spent
twice. -/
theorem spending_run (lib : BetterAuth) (hlib : lib.Documented) (env : Env)
    (hashToken : String → String) (calls : ι → AuthCall) (w : AuthWorld)
    (hw : InOrder (Watched.opened w).ledger) (schedule : List ι)
    (hfresh : Machine.Meets (watchTurn lib env hashToken calls)
      (fun c i => FreshIds (calls i) (c.phase i) c.shared) (Watched.opened w).config schedule) :
    Machine.Meets (watchTurn lib env hashToken calls)
        (fun c i => SpendsOnce c.shared.world.db
          (watchTurn lib env hashToken calls c i).shared.world.db)
        (Watched.opened w).config schedule ∧
      (Machine.run (watchTurn lib env hashToken calls) (Watched.opened w).config
        schedule).shared.spent.Nodup := by
  have hstart : ∀ i : ι, PhaseNames (Watched.opened w).ledger .start := fun _ => trivial
  have hpres : Machine.Preserves (watchTurn lib env hashToken calls)
      (fun c i => FreshIds (calls i) (c.phase i) c.shared)
      fun c => InOrder c.shared.ledger ∧ ∀ i, PhaseNames c.shared.ledger (c.phase i) := by
    rintro c i hstep ⟨horder, hnames⟩
    have hkeeps : Keeps c.shared
        (authStep lib env hashToken (calls i) (c.phase i) c.shared.world) :=
      keeps_authStep hlib horder (hnames i) hstep
    refine ⟨hkeeps.1.inOrder, ?_⟩
    exact Interleave.turn_invariant (J := fun _ p (w : Watched) => PhaseNames w.ledger p) hkeeps.2
      (fun j p hp => hp.stable hkeeps.1.lasting) hnames
  constructor
  · refine Machine.Meets.of_invariant hpres ?_ ⟨hw, hstart⟩ hfresh
    rintro c i ⟨horder, hnames⟩ hstep
    have hkeeps : Keeps c.shared
        (authStep lib env hashToken (calls i) (c.phase i) c.shared.world) :=
      keeps_authStep hlib horder (hnames i) hstep
    exact hkeeps.1.spends
  · exact (hpres.run ⟨hw, hstart⟩ hfresh).1.spent_nodup

/-- Two requests race with the same link, one creating the account and the other resuming it. -/
theorem spending_run_raced :
    Machine.Meets (watchTurn plainAuth lamplightEnv id adasRequests)
        (fun c i => SpendsOnce c.shared.world.db
          (watchTurn plainAuth lamplightEnv id adasRequests c i).shared.world.db)
        (Watched.opened openHouse).config [1, 1, 1, 2, 3, 2, 2, 3, 3, 2, 3] ∧
      (Machine.run (watchTurn plainAuth lamplightEnv id adasRequests)
        (Watched.opened openHouse).config
          [1, 1, 1, 2, 3, 2, 2, 3, 3, 2, 3]).shared.spent.Nodup := by
  have horder : InOrder (Watched.opened openHouse).ledger := by
    constructor <;> simp [Watched.opened, Watched.ledger, openHouse]
  exact spending_run plainAuth documented_plainAuth lamplightEnv id adasRequests openHouse horder
    [1, 1, 1, 2, 3, 2, 2, 3, 3, 2, 3] (by decide +kernel)

end Runs

end LampLight
