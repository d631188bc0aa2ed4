import LampLight.Foundation.JsText

/-!
# Boot-time configuration

`parseEnv` drops blank variables, checks the rest against the schema and applies three checks across
variables. The schema library is not part of the repository; what the schema asks of each variable
is written out here, except for URLs and numbers, whose parsers are parameters. Its error texts are
the library's, so a schema failure lists the offending variables only.

Variables no modelled function reads are left out, and with them their checks.
-/

namespace LampLight

open Js (trim)

/-- `process.env`. -/
abbrev ProcessEnv := String → Option String

/-- Many institutes on one instance, or one. -/
inductive TenancyMode | platform | single
deriving DecidableEq

/-- How mail leaves the instance. -/
inductive MailTransport | auto | smtp | console | memory
deriving DecidableEq

/-- The configuration of an instance. -/
structure Env where
  databaseUrl : String
  databaseAdminUrl : String
  tenancyMode : TenancyMode
  platformApexDomain : String
  tenantSubdomainRoot : String
  singleTenantSlug : Option String
  selfServeSignup : Bool
  mailTransport : MailTransport
  smtpHost : Option String
  mailFrom : Option String
  cloudflareApiToken : Option String
  cloudflareZoneId : Option String
  cloudflareSaasFallbackOrigin : Option String
  domainSweepSecret : Option String
  s3Endpoint : Option String
  s3Bucket : Option String
  s3AccessKeyId : Option String
  s3SecretAccessKey : Option String
  signedUrlTtlSeconds : ℕ
deriving DecidableEq

/-- The parsers of the schema library: URLs, and positive whole numbers written as text. -/
structure SchemaParsers where
  url : String → Bool
  positiveInt : String → Option ℕ

/-- Why a configuration is refused: keys of the wrong shape, or keys that do not go together. -/
inductive EnvError where
  | schema (names : List String)
  | message (text : String)
deriving DecidableEq

/-- Blank variables read as absent. -/
def withoutBlanks (source : ProcessEnv) : ProcessEnv := fun key =>
  (source key).filter fun value => trim value.toList ≠ []

/-- `postgres://` or `postgresql://`. -/
def isPostgresUrl (value : String) : Bool :=
  "postgres://".toList.isPrefixOf value.toList || "postgresql://".toList.isPrefixOf value.toList

/-- `TENANCY_MODE`. -/
def parseTenancyMode : String → Option TenancyMode
  | "platform" => some .platform
  | "single" => some .single
  | _ => none

/-- `MAIL_TRANSPORT`. -/
def parseMailTransport : String → Option MailTransport
  | "auto" => some .auto
  | "smtp" => some .smtp
  | "console" => some .console
  | "memory" => some .memory
  | _ => none

/-- A switch that is `true` or `false`. -/
def parseFlag : String → Option Bool
  | "true" => some true
  | "false" => some false
  | _ => none

/-- A variable with a default: absent is the default, malformed is an issue. -/
def withDefault {α : Type} (parse : String → Option α) (default : α) : Option String → Option α
  | none => some default
  | some value => parse value

/-- The variables the schema would report, in the order in which it declares them. -/
def schemaIssues (parsers : SchemaParsers) (env : ProcessEnv) : List String :=
  ([("DATABASE_URL", (env "DATABASE_URL").any isPostgresUrl),
    ("DATABASE_ADMIN_URL", (env "DATABASE_ADMIN_URL").any isPostgresUrl),
    ("TENANCY_MODE", (withDefault parseTenancyMode .platform (env "TENANCY_MODE")).isSome),
    ("SELF_SERVE_SIGNUP", (withDefault parseFlag true (env "SELF_SERVE_SIGNUP")).isSome),
    ("MAIL_TRANSPORT", (withDefault parseMailTransport .auto (env "MAIL_TRANSPORT")).isSome),
    ("DOMAIN_SWEEP_SECRET", (env "DOMAIN_SWEEP_SECRET").all fun v => 16 ≤ Js.length v.toList),
    ("S3_ENDPOINT", (env "S3_ENDPOINT").all parsers.url),
    ("SIGNED_URL_TTL_SECONDS",
      (withDefault parsers.positiveInt 300 (env "SIGNED_URL_TTL_SECONDS")).isSome)].filter
        fun check => !check.2).map (·.1)

/-- What the schema makes of variables without issues. -/
def envOf (parsers : SchemaParsers) (env : ProcessEnv) : Env where
  databaseUrl := (env "DATABASE_URL").getD ""
  databaseAdminUrl := (env "DATABASE_ADMIN_URL").getD ""
  tenancyMode := (withDefault parseTenancyMode .platform (env "TENANCY_MODE")).getD .platform
  platformApexDomain := (env "PLATFORM_APEX_DOMAIN").getD "lamplight.school"
  tenantSubdomainRoot := (env "TENANT_SUBDOMAIN_ROOT").getD "lamplight.school"
  singleTenantSlug := env "SINGLE_TENANT_SLUG"
  selfServeSignup := (withDefault parseFlag true (env "SELF_SERVE_SIGNUP")).getD true
  mailTransport := (withDefault parseMailTransport .auto (env "MAIL_TRANSPORT")).getD .auto
  smtpHost := env "SMTP_HOST"
  mailFrom := env "MAIL_FROM"
  cloudflareApiToken := env "CLOUDFLARE_API_TOKEN"
  cloudflareZoneId := env "CLOUDFLARE_ZONE_ID"
  cloudflareSaasFallbackOrigin := env "CLOUDFLARE_SAAS_FALLBACK_ORIGIN"
  domainSweepSecret := env "DOMAIN_SWEEP_SECRET"
  s3Endpoint := env "S3_ENDPOINT"
  s3Bucket := env "S3_BUCKET"
  s3AccessKeyId := env "S3_ACCESS_KEY_ID"
  s3SecretAccessKey := env "S3_SECRET_ACCESS_KEY"
  signedUrlTtlSeconds :=
    (withDefault parsers.positiveInt 300 (env "SIGNED_URL_TTL_SECONDS")).getD 300

/-- Reads the configuration from the environment, or refuses it. -/
def parseEnv (parsers : SchemaParsers) (source : ProcessEnv) : Except EnvError Env :=
  let env := withoutBlanks source
  let value := envOf parsers env
  if schemaIssues parsers env ≠ [] then .error (.schema (schemaIssues parsers env))
  else if value.tenancyMode = .single ∧ value.singleTenantSlug = none then
    .error (.message ("Invalid environment configuration:\n" ++
      "  SINGLE_TENANT_SLUG: required when TENANCY_MODE is \"single\""))
  else if value.mailTransport = .smtp ∧ value.smtpHost = none then
    .error (.message ("Invalid environment configuration:\n" ++
      "  SMTP_HOST: required when MAIL_TRANSPORT is \"smtp\""))
  else if value.databaseUrl = value.databaseAdminUrl then
    .error (.message ("Invalid environment configuration:\n" ++
      "  DATABASE_URL must not equal DATABASE_ADMIN_URL. The application role\n" ++
      "  must be a distinct role without BYPASSRLS."))
  else .ok value

/-- Whether the platform is configured to manage custom hostnames at all. -/
def customHostnamesConfigured (env : Env) : Bool :=
  env.tenancyMode = .platform && env.cloudflareZoneId.isSome && env.cloudflareApiToken.isSome
    && env.cloudflareSaasFallbackOrigin.isSome

/-- Reads a variable that is optional in the schema and required where it is used. -/
def requireEnv (key : String) (value : Option String) : Except String String :=
  match value.filter fun v => v ≠ "" with
  | some v => .ok v
  | none => .error ("Missing required environment variable " ++ key ++ ". " ++
      "See .env.example for the expected value.")

/-- Whether object storage is configured at all. -/
def storageConfigured (env : Env) : Bool :=
  (env.s3Bucket.any fun v => v ≠ "") && (env.s3AccessKeyId.any fun v => v ≠ "") &&
    env.s3SecretAccessKey.any fun v => v ≠ ""

theorem requireEnv_of_any (key : String) {value : Option String}
    (h : (value.any fun v => v ≠ "") = true) : ∃ v, requireEnv key value = .ok v := by
  cases value with
  | none => cases h
  | some v =>
    have hv : v ≠ "" := by simpa using h
    have hkept : (some v).filter (fun v => v ≠ "") = some v := by simp [Option.filter, hv]
    exact ⟨v, by rw [requireEnv, hkept]⟩

/-! ### Accepted configurations -/

variable {parsers : SchemaParsers} {source : ProcessEnv} {env : Env}

/-- A configuration that was accepted passed every check, and is what the schema makes of it. -/
theorem parseEnv_ok (h : parseEnv parsers source = .ok env) :
    schemaIssues parsers (withoutBlanks source) = [] ∧ env = envOf parsers (withoutBlanks source) ∧
      env.databaseUrl ≠ env.databaseAdminUrl := by
  simp only [parseEnv] at h
  split_ifs at h with hissues hslug hsmtp hurls
  obtain rfl := Except.ok.inj h
  exact ⟨not_not.mp hissues, rfl, hurls⟩

/-- A variable that is read has text in it. -/
theorem withoutBlanks_eq_some {key value : String} :
    withoutBlanks source key = some value ↔ source key = some value ∧ trim value.toList ≠ [] := by
  simp [withoutBlanks, Option.filter_eq_some_iff]

theorem parseTenancyMode_eq_single {value : String} :
    parseTenancyMode value = some .single ↔ value = "single" := by
  by_cases hplatform : value = "platform"
  · simp [parseTenancyMode, hplatform]
  · by_cases hsingle : value = "single"
    · simp [parseTenancyMode, hsingle]
    · simp [parseTenancyMode, hsingle]

/-- The mode is `single` when the variable says so, letter for letter. -/
theorem tenancyMode_of_parseEnv (h : parseEnv parsers source = .ok env) :
    env.tenancyMode = .single ↔ source "TENANCY_MODE" = some "single" := by
  obtain ⟨hissues, rfl, -⟩ := parseEnv_ok h
  have hmode : (withDefault parseTenancyMode .platform
      (withoutBlanks source "TENANCY_MODE")).isSome = true := by
    rw [schemaIssues, List.map_eq_nil_iff, List.filter_eq_nil_iff] at hissues
    have hcheck := hissues ("TENANCY_MODE", (withDefault parseTenancyMode .platform
      (withoutBlanks source "TENANCY_MODE")).isSome) (by simp)
    exact Option.isSome_iff_ne_none.mpr (by simpa using hcheck)
  obtain ⟨mode, hmode⟩ := Option.isSome_iff_exists.mp hmode
  have henv : (envOf parsers (withoutBlanks source)).tenancyMode = mode := by
    simp only [envOf, hmode, Option.getD_some]
  have hnotBlank : trim "single".toList ≠ [] := by decide
  rw [henv]
  cases hread : withoutBlanks source "TENANCY_MODE" with
  | none =>
    obtain rfl : .platform = mode := by simpa [hread, withDefault] using hmode
    constructor
    · exact fun habsurd => TenancyMode.noConfusion habsurd
    · intro hsource
      rw [withoutBlanks_eq_some.mpr ⟨hsource, hnotBlank⟩] at hread
      exact absurd hread (by simp)
  | some value =>
    rw [hread, withDefault] at hmode
    rw [(withoutBlanks_eq_some.mp hread).1, Option.some.injEq, ← parseTenancyMode_eq_single, hmode,
      Option.some.injEq]

end LampLight
