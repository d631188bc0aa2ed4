import LampLight.Auth.Invitations
import LampLight.Domains.Service

/-!
# Provisioning a tenant

The operator's action: a tenant, its subdomain and the invitation of its first admin in one
transaction, and the mail after the commit. The subdomain row is active and primary from the start.
-/

namespace LampLight

open Js

/-- What the operator is told. -/
inductive ProvisionResult where
  | ok (slug host adminEmail : String)
  | error (message : String)
deriving DecidableEq

/-- One submission of the form by an operator, with what the environment decides during it. -/
structure ProvisionCall where
  operatorId : Uuid
  slug : String
  name : String
  adminEmail : String
  tenantId : Uuid
  domainId : Uuid
  invitation : InvitationDraw
  verifiedAt : Instant
  createdAt : Instant
  mailSent : Bool

/-- `String(value).trim().toLowerCase()`. -/
def ProvisionCall.slugText (call : ProvisionCall) : String :=
  String.ofList (toLowerCase (trim call.slug.toList))

/-- The name as it is stored. -/
def ProvisionCall.nameText (call : ProvisionCall) : String :=
  String.ofList (trim call.name.toList)

/-- The host of the new tenant, with the root as the environment spells it. -/
def ProvisionCall.host (env : Env) (call : ProvisionCall) : String :=
  call.slugText ++ "." ++ env.tenantSubdomainRoot

namespace Database

/-- `insert into tenants`. -/
def insertTenant (db : Database) (row : TenantRow) : Except DbError Database :=
  checked
    [(.uniqueViolation "tenants_pkey", db.tenants.any fun t => t.id = row.id),
      (.uniqueViolation "tenants_slug_unique", db.tenants.any fun t => t.slug = row.slug)]
    { db with tenants := db.tenants ++ [row] }

/-- `insert into tenant_settings`. -/
def insertTenantSettings (db : Database) (row : TenantSettingsRow) : Except DbError Database :=
  checked
    [(.uniqueViolation "tenant_settings_pkey",
        db.tenantSettings.any fun s => s.tenantId = row.tenantId),
      (.foreignKeyViolation "tenant_settings_tenant_id_tenants_id_fk", db.noTenant row.tenantId)]
    { db with tenantSettings := db.tenantSettings ++ [row] }

end Database

/-- The row of a tenant's own subdomain. -/
def subdomainRow (env : Env) (call : ProvisionCall) : TenantDomainRow where
  id := call.domainId
  tenantId := call.tenantId
  hostname := call.host env
  isPrimary := true
  verificationStatus := .active
  cfHostnameId := none
  dnsRecords := []
  claimExpiresAt := none
  lastError := none
  verifiedAt := some call.verifiedAt
  createdAt := call.createdAt

/-- The row of a new institute. -/
def tenantRow (call : ProvisionCall) : TenantRow where
  id := call.tenantId
  slug := call.slugText
  name := call.nameText
  status := .active
  createdAt := call.createdAt

/-- Everything that comes with a new tenant, in one transaction. -/
def insertInstitute (env : Env) (hashToken : String → String) (db : Database)
    (call : ProvisionCall) : Except DbError Database := do
  let minted := mintInvitationToken hashToken call.invitation.token call.invitation.mintedAt
  let db ← db.insertTenant (tenantRow call)
  let db ← db.insertTenantSettings
    { tenantId := call.tenantId
      legalName := some call.nameText
      signupMode := .closed
      signupQuestionsJson := .arr [] }
  let db ← db.insertTenantDomain (subdomainRow env call)
  let db ← db.insertSignupInvitation
    { id := call.invitation.id
      tenantId := call.tenantId
      email := normalizeEmail call.adminEmail
      firstName := ""
      lastName := ""
      answersJson := []
      role := .admin
      tokenHash := minted.tokenHash
      expiresAt := minted.expiresAt
      consumedAt := none
      createdAt := call.invitation.createdAt }
  db.insertAuditLog
    { tenantId := call.tenantId
      actorUserId := some call.operatorId
      action := "tenant.provisioned"
      targetType := "tenant"
      targetId := some call.tenantId
      metadataJson := [("slug", .str call.slugText), ("host", .str (call.host env)),
        ("adminEmail", .str (normalizeEmail call.adminEmail))] }

/-- `provisionTenant`: an institute, its settings, its subdomain and its first admin. -/
def provisionTenant (env : Env) (hashToken : String → String) (w : World)
    (call : ProvisionCall) : Except Thrown ProvisionResult × World :=
  if !isValidSlug call.slugText then
    (.ok (.error "Slug must be lowercase letters, digits, and hyphens."), w)
  else if Js.length call.nameText.toList < 2 then (.ok (.error "Name is required."), w)
  else if '@' ∉ (normalizeEmail call.adminEmail).toList then
    (.ok (.error "A valid admin email is required."), w)
  else if w.db.tenants.any fun t => t.slug = call.slugText then
    (.ok (.error ("The slug \"" ++ call.slugText ++ "\" is already taken.")), w)
  else
    match insertInstitute env hashToken w.db call with
    | .error e => (.error (.db e), w)
    | .ok db =>
      -- The mail goes out after the commit; its failure leaves the tenant in place.
      if !call.mailSent then (.error .mail, { w with db := db })
      else
        (.ok (.ok call.slugText (call.host env) (normalizeEmail call.adminEmail)),
          { w with db := db })

/-- The invitation of the first admin. -/
def adminInvitation (hashToken : String → String) (call : ProvisionCall) : SignupInvitationRow :=
  let minted := mintInvitationToken hashToken call.invitation.token call.invitation.mintedAt
  { id := call.invitation.id
    tenantId := call.tenantId
    email := normalizeEmail call.adminEmail
    firstName := ""
    lastName := ""
    answersJson := []
    role := .admin
    tokenHash := minted.tokenHash
    expiresAt := minted.expiresAt
    consumedAt := none
    createdAt := call.invitation.createdAt }

/-- What a committed transaction found, and what it wrote. -/
structure InstituteInserted (env : Env) (hashToken : String → String) (db db' : Database)
    (call : ProvisionCall) : Prop where
  newTenant : ∀ t ∈ db.tenants, t.id ≠ call.tenantId
  newSlug : ∀ t ∈ db.tenants, t.slug ≠ call.slugText
  newDomain : ∀ d ∈ db.tenantDomains, d.id ≠ call.domainId
  active : (activeHostnames db'.tenantDomains).Nodup
  written : ∃ settings audit, db' = { db with
    tenants := db.tenants ++ [tenantRow call]
    tenantSettings := settings
    tenantDomains := db.tenantDomains ++ [subdomainRow env call]
    signupInvitations := db.signupInvitations ++ [adminInvitation hashToken call]
    auditLog := audit }

theorem insertInstitute_inserted {env : Env} {hashToken : String → String} {db db' : Database}
    {call : ProvisionCall} (h : insertInstitute env hashToken db call = .ok db') :
    InstituteInserted env hashToken db db' call := by
  obtain ⟨db₁, h₁, h⟩ := Machine.bind_eq_ok.mp h
  obtain ⟨db₂, h₂, h⟩ := Machine.bind_eq_ok.mp h
  obtain ⟨db₃, h₃, h⟩ := Machine.bind_eq_ok.mp h
  obtain ⟨db₄, h₄, h₅⟩ := Machine.bind_eq_ok.mp h
  obtain ⟨hnew, rfl⟩ := Database.checked_ok.mp h₁
  obtain ⟨-, rfl⟩ := Database.checked_ok.mp h₂
  have hrow := Database.insertTenantDomain_ok h₃
  obtain ⟨-, rfl⟩ := Database.checked_ok.mp h₃
  obtain ⟨-, rfl⟩ := insertSignupInvitation_ok h₄
  obtain rfl := Database.insertAuditLog_ok h₅
  simp only [List.mem_cons, List.not_mem_nil, or_false, forall_eq_or_imp, forall_eq,
    List.any_eq_false, decide_eq_true_eq] at hnew
  exact ⟨hnew.1, hnew.2, hrow.fresh, hrow.active, _, _, rfl⟩

/-- Provisioning invites the admin, and creates no account. -/
theorem insertInstitute_invites {env : Env} {hashToken : String → String} {db db' : Database}
    {call : ProvisionCall} (h : insertInstitute env hashToken db call = .ok db') :
    Invites hashToken db db' (normalizeEmail call.adminEmail) call.invitation.token := by
  obtain ⟨settings, audit, rfl⟩ := (insertInstitute_inserted h).written
  refine ⟨rfl, rfl, List.subset_append_left _ _, fun i hi => ?_⟩
  rcases List.mem_append.mp hi with hi | hi
  · exact Or.inl hi
  · right
    rw [List.mem_singleton.mp hi]
    exact ⟨rfl, rfl, tenantRow call, List.mem_append_right _ (List.mem_singleton.mpr rfl), rfl⟩

theorem insertInstitute_issues {env : Env} {hashToken : String → String} {db db' : Database}
    {call : ProvisionCall} (h : insertInstitute env hashToken db call = .ok db') :
    Issues db db' call.invitation.id := by
  obtain ⟨settings, audit, rfl⟩ := (insertInstitute_inserted h).written
  refine ⟨rfl, rfl, db.signupInvitations, some _, List.Sublist.refl _, rfl, ?_⟩
  rintro row ⟨⟩
  exact ⟨rfl, rfl, normalizeEmail_idem _⟩

/-- The tenant is new, and so is the invitation it comes with. -/
theorem insertInstitute_rows {env : Env} {hashToken : String → String} {db db' : Database}
    {call : ProvisionCall} (h : insertInstitute env hashToken db call = .ok db') :
    ∃ row : SignupInvitationRow, row.tenantId = call.tenantId ∧
      (∀ t ∈ db.tenants, t.id ≠ call.tenantId) ∧
      db'.signupInvitations = db.signupInvitations ++ [row] ∧
      db.tenants ⊆ db'.tenants ∧ ∃ t ∈ db'.tenants, t.id = call.tenantId := by
  have hinserted := insertInstitute_inserted h
  obtain ⟨settings, audit, rfl⟩ := hinserted.written
  exact ⟨_, rfl, hinserted.newTenant, rfl, List.subset_append_left _ _, tenantRow call,
    List.mem_append_right _ (List.mem_singleton.mpr rfl), rfl⟩

theorem provisionTenant_invites (env : Env) (hashToken : String → String) (w : World)
    (call : ProvisionCall) :
    Invites hashToken w.db (provisionTenant env hashToken w call).2.db
      (normalizeEmail call.adminEmail) call.invitation.token := by
  rw [provisionTenant]
  cases hinsert : insertInstitute env hashToken w.db call with
  | error e => split_ifs <;> exact Invites.refl _ _ _
  | ok db =>
    have hinvites := insertInstitute_invites hinsert
    split_ifs <;> first | exact Invites.refl _ _ _ | exact hinvites

theorem provisionTenant_issues (env : Env) (hashToken : String → String) (w : World)
    (call : ProvisionCall) :
    Issues w.db (provisionTenant env hashToken w call).2.db call.invitation.id := by
  rw [provisionTenant]
  cases hinsert : insertInstitute env hashToken w.db call with
  | error e => split_ifs <;> exact Issues.refl _ _
  | ok db =>
    have hissues := insertInstitute_issues hinsert
    split_ifs <;> first | exact Issues.refl _ _ | exact hissues

/-- A success reports the slug, the host and the address it has written down. -/
theorem provisionTenant_ok {env : Env} {hashToken : String → String} {w : World}
    {call : ProvisionCall} {slug host adminEmail : String}
    (h : (provisionTenant env hashToken w call).1 = .ok (.ok slug host adminEmail)) :
    slug = call.slugText ∧ host = call.host env ∧ adminEmail = normalizeEmail call.adminEmail ∧
      isValidSlug call.slugText = true ∧ ∃ db, insertInstitute env hashToken w.db call = .ok db ∧
        (provisionTenant env hashToken w call).2 = { w with db := db } := by
  rw [provisionTenant] at h ⊢
  cases hinsert : insertInstitute env hashToken w.db call with
  | error e =>
    rw [hinsert] at h
    split_ifs at h <;> simp at h
  | ok db =>
    rw [hinsert] at h
    split_ifs at h ⊢ with hvalid hname hemail htaken hmail <;> simp at h
    obtain ⟨rfl, rfl, rfl⟩ := h
    exact ⟨rfl, rfl, rfl, by simpa using hvalid, db, rfl, rfl⟩

theorem provisionTenant_adminEmail {env : Env} {hashToken : String → String} {w : World}
    {call : ProvisionCall} {slug host adminEmail : String}
    (h : (provisionTenant env hashToken w call).1 = .ok (.ok slug host adminEmail)) :
    adminEmail = normalizeEmail call.adminEmail :=
  (provisionTenant_ok h).2.2.1

/-- Provisioning never speaks to Cloudflare. -/
theorem provisionTenant_zone (env : Env) (hashToken : String → String) (w : World)
    (call : ProvisionCall) : (provisionTenant env hashToken w call).2.zone = w.zone := by
  rw [provisionTenant]
  cases insertInstitute env hashToken w.db call with
  | error e => split_ifs <;> rfl
  | ok db => split_ifs <;> rfl

end LampLight
