import LampLight.Tenancy.Resolve
import LampLight.Tenancy.Spelling

/-!
# Three readers of one header

A request passes three places that ask what its host is: the middleware, which normalises the header
and forwards the result; the guards of the platform's own pages, which read what was forwarded; and
resolution, which normalises what was forwarded once more. `ReadAlike` says that they come to the
same answer.

They do as long as a second pass changes nothing, that is unless the header ends in two dots, and as
long as all of them go by the same root. The middleware reads the root from the process, where a
variable that is set and blank is not absent; the others read it from the configuration, where it
is.

## Main definitions

* `middleware`, `getRequestHost`, `isApexRequest` — the source's
* `middlewareReading`, `guardReading`, `resolverReading` — what each of them takes the host for

## Main results

* `readAlike_iff` — exactly when the header is read alike, and comes out clean
-/

namespace LampLight

open Js

/-! ### The middleware -/

/-- The headers of a request that tenancy reads or sets: `host`, `x-lamplight-host`,
`x-lamplight-slug-hint` and `x-lamplight-path`. -/
structure Headers where
  host : Option String
  tenantHost : Option String
  tenantSlugHint : Option String
  tenantPath : Option String
deriving DecidableEq

/-- A request as the middleware sees it. -/
structure NextRequest where
  headers : Headers
  pathname : String
  search : String

/-- What becomes of a request: it goes on as it is, or onto another path. Both take the headers. -/
inductive NextResponse where
  | next (headers : Headers)
  | rewrite (pathname search : String) (headers : Headers)
deriving DecidableEq

/-- The headers that the page behind it sees. -/
def NextResponse.headers : NextResponse → Headers
  | .next headers => headers
  | .rewrite _ _ headers => headers

/-- The headers that are sent on, before the host is looked at. -/
def forwardedHeaders (request : NextRequest) : Headers :=
  { request.headers with
    tenantHost := normalizeHost request.headers.host
    tenantSlugHint := none
    tenantPath := some (request.pathname ++ request.search) }

/-- Sends requests for the platform's own hosts to its pages, and all others on. -/
def middleware (source : ProcessEnv) (request : NextRequest) : NextResponse :=
  let apex := (source "TENANT_SUBDOMAIN_ROOT").getD "lamplight.school"
  let headers := forwardedHeaders request
  if source "TENANCY_MODE" = some "single" then .next headers
  else
    match normalizeHost request.headers.host with
    | none => .next headers
    | some host =>
      match classifyHost host apex with
      | .subdomain slug => .next { headers with tenantSlugHint := some slug }
      | .apex =>
        if request.pathname = "/" then .rewrite "/platform-home" request.search headers
        else .next headers
      | .foreign _ => .next headers

/-- The host the middleware forwarded, or the raw one for what bypassed it. -/
def getRequestHost (headers : Headers) : Option String :=
  headers.tenantHost.or (normalizeHost headers.host)

/-- Whether the request arrived on the platform apex. -/
def isApexRequest (env : Env) (headers : Headers) : Bool :=
  match env.tenancyMode with
  | .single => false
  | .platform =>
    match (getRequestHost headers).filter fun host => host ≠ "" with
    | none => false
    | some host => classifyHost host env.tenantSubdomainRoot = .apex

/-- The tenant of a request, from its headers. -/
def getTenant (env : Env) (db : Database) (headers : Headers) : Option TenantContext :=
  resolveTenant env db (getRequestHost headers)

/-! ### Readings -/

/-- What a host is taken for, under a root. Nothing is, where one tenant has every host, and where
there is no host. -/
def reading (single : Bool) (root : String) (host : Option String) : Option HostClassification :=
  if single then none else host.map fun host => classifyHost host root

/-- How the middleware reads a request. -/
def middlewareReading (source : ProcessEnv) (request : NextRequest) : Option HostClassification :=
  reading (source "TENANCY_MODE" = some "single")
    ((source "TENANT_SUBDOMAIN_ROOT").getD "lamplight.school") (normalizeHost request.headers.host)

/-- How the guard of the platform's pages reads it. -/
def guardReading (env : Env) (headers : Headers) : Option HostClassification :=
  reading (env.tenancyMode = .single) env.tenantSubdomainRoot
    ((getRequestHost headers).filter fun host => host ≠ "")

/-- How the resolver reads it. -/
def resolverReading (env : Env) (rawHost : Option String) : Option HostClassification :=
  reading (env.tenancyMode = .single) env.tenantSubdomainRoot (normalizeHost rawHost)

variable {source : ProcessEnv} {request : NextRequest} {env : Env} {headers : Headers}
  {rawHost : Option String} {db : Database}

/-- The rewrite is for the apex, the hint for subdomains. -/
theorem middleware_eq (source : ProcessEnv) (request : NextRequest) : middleware source request =
    match middlewareReading source request with
    | some .apex =>
      if request.pathname = "/" then
        .rewrite "/platform-home" request.search (forwardedHeaders request)
      else .next (forwardedHeaders request)
    | some (.subdomain slug) => .next { forwardedHeaders request with tenantSlugHint := some slug }
    | _ => .next (forwardedHeaders request) := by
  by_cases hsingle : source "TENANCY_MODE" = some "single"
  · simp [middleware, middlewareReading, reading, hsingle]
  · simp only [middleware, middlewareReading, reading, hsingle, decide_false, if_false,
      Bool.false_eq_true]
    cases normalizeHost request.headers.host with
    | none => rfl
    | some host =>
      dsimp only [Option.map_some]
      cases classifyHost host ((source "TENANT_SUBDOMAIN_ROOT").getD "lamplight.school") <;> rfl

/-- Whatever a client sent along, what is forwarded is the normalised header. -/
theorem middleware_headers (source : ProcessEnv) (request : NextRequest) :
    (middleware source request).headers.host = request.headers.host ∧
      (middleware source request).headers.tenantHost = normalizeHost request.headers.host := by
  rw [middleware_eq]
  rcases middlewareReading source request with _ | _ | _ | _
  · exact ⟨rfl, rfl⟩
  · dsimp only
    split_ifs <;> exact ⟨rfl, rfl⟩
  · exact ⟨rfl, rfl⟩
  · exact ⟨rfl, rfl⟩

theorem isApexRequest_iff :
    isApexRequest env headers = true ↔ guardReading env headers = some .apex := by
  rw [isApexRequest, guardReading, reading]
  cases hmode : env.tenancyMode with
  | single => simp
  | platform =>
    cases hhost : (getRequestHost headers).filter fun host => host ≠ "" with
    | none => simp
    | some host => simp

/-- What resolution does with a host, going by what it takes it for. -/
def lookupRead (db : Database) (host : String) : HostClassification → Option ResolvedTenant
  | .apex => none
  | .subdomain slug =>
    (lookupTenantByHost db host).or (if isValidSlug slug then lookupTenantBySlug db slug else none)
  | .foreign _ => lookupTenantByHost db host

/-- Resolution goes by its reading of the host. -/
theorem resolveTenant_eq (hmode : env.tenancyMode = .platform) : resolveTenant env db rawHost =
    (normalizeHost rawHost).bind fun host =>
      ((resolverReading env rawHost).bind (lookupRead db host)).map fun t =>
        ({ t with host := host } : TenantContext) := by
  simp only [resolveTenant, resolverReading, reading, hmode]
  cases normalizeHost rawHost with
  | none => rfl
  | some host =>
    have hlookup : lookupUncached db host env.tenantSubdomainRoot
        = lookupRead db host (classifyHost host env.tenantSubdomainRoot) := by
      rw [lookupUncached]
      cases classifyHost host env.tenantSubdomainRoot with
      | apex => rfl
      | foreign _ => rfl
      | subdomain slug => cases hbyHost : lookupTenantByHost db host <;> simp [lookupRead, hbyHost]
    show (lookupUncached db host env.tenantSubdomainRoot).map _ = _
    rw [hlookup]
    rfl

/-- The three readers take the header for the same. -/
def ReadAlike (source : ProcessEnv) (env : Env) (request : NextRequest) : Prop :=
  middlewareReading source request = guardReading env (middleware source request).headers ∧
    guardReading env (middleware source request).headers
      = resolverReading env (getRequestHost (middleware source request).headers)

/-! ### When they do -/

/-- The header does not end in exactly two dots. -/
def NotInTwoDots (header : Option String) : Prop := ∀ raw ∈ header, ¬ EndsInTwoDots raw.toList

/-- The process has the variable of the root, with nothing in it. -/
def BlankRoot (source : ProcessEnv) : Prop :=
  ∃ value, source "TENANT_SUBDOMAIN_ROOT" = some value ∧ trim value.toList = []

/-- The header spells neither the root that stands in for an absent one, nor a name one label under
it. -/
def SpellsNoDefault (header : Option String) : Prop :=
  ∀ raw ∈ header, ∀ name, Spells raw.toList name →
    ¬ IsPlatformName "lamplight.school".toList name

variable {parsers : SchemaParsers}

/-- A blank root is absent from the configuration. -/
theorem tenantSubdomainRoot_of_blankRoot (h : parseEnv parsers source = .ok env)
    (hblank : BlankRoot source) : env.tenantSubdomainRoot = "lamplight.school" := by
  obtain ⟨-, rfl, -⟩ := parseEnv_ok h
  obtain ⟨value, hvalue, htrim⟩ := hblank
  have hread : withoutBlanks source "TENANT_SUBDOMAIN_ROOT" = none := by
    simp [withoutBlanks, hvalue, htrim]
  simp only [envOf, hread, Option.getD_none]

theorem tenantSubdomainRoot_of_not_blankRoot (h : parseEnv parsers source = .ok env)
    (hblank : ¬ BlankRoot source) :
    (source "TENANT_SUBDOMAIN_ROOT").getD "lamplight.school" = env.tenantSubdomainRoot := by
  obtain ⟨-, rfl, -⟩ := parseEnv_ok h
  have hread : withoutBlanks source "TENANT_SUBDOMAIN_ROOT" = source "TENANT_SUBDOMAIN_ROOT" := by
    cases hvalue : source "TENANT_SUBDOMAIN_ROOT" with
    | none => simp [withoutBlanks, hvalue]
    | some value =>
      exact withoutBlanks_eq_some.mpr ⟨hvalue, fun htrim => hblank ⟨value, hvalue, htrim⟩⟩
  simp only [envOf, hread]

variable {host : String}

theorem ne_nil_of_clean {s : List Char} (h : IsLiteral s ∨ CleanName s) : s ≠ [] := by
  rcases h with ⟨body, rfl, -⟩ | h
  · exact List.cons_ne_nil _ _
  · exact h.ne_nil

theorem IsLiteral.getLast?_eq {s : List Char} (h : IsLiteral s) : s.getLast? = some ']' := by
  obtain ⟨body, rfl, -⟩ := h
  rw [← List.cons_append, List.getLast?_concat]

/-- An address is nobody's name. -/
theorem IsLiteral.not_isPlatformName {root s : List Char} (h : IsLiteral s)
    (hroot : ('.' :: root).getLast? ≠ some ']') : ¬ IsPlatformName root s := by
  intro hplatform
  refine hroot ?_
  rw [← hplatform.getLast?_eq, List.getLast?_cons_of_ne_nil (ne_nil_of_clean (Or.inl h))]
  exact h.getLast?_eq

/-- Under a blank root every host is somebody else's. -/
theorem classifyHost_of_blank {root : String} (hroot : trim root.toList = [])
    (hclean : IsLiteral host.toList ∨ CleanName host.toList) :
    classifyHost host root = .foreign host := by
  rw [classifyHost_eq_foreign, hroot, show toLowerCase [] = [] from rfl]
  intro hplatform
  have hlast := hplatform.getLast?_eq
  rw [List.getLast?_cons_of_ne_nil (ne_nil_of_clean hclean)] at hlast
  rcases hclean with hliteral | hname
  · exact absurd (hliteral.getLast?_eq.symm.trans hlast) (by decide)
  · exact hname.noTrailing hlast

/-- With a host that stays as it is, the roots decide. -/
theorem readAlike_of_fixed (h : parseEnv parsers source = .ok env)
    (hhost : normalizeHost request.headers.host = some host)
    (hfixed : normalizeHost (some host) = some host) (hne : host ≠ "") :
    ReadAlike source env request ↔ (source "TENANCY_MODE" ≠ some "single" →
      classifyHost host ((source "TENANT_SUBDOMAIN_ROOT").getD "lamplight.school")
        = classifyHost host env.tenantSubdomainRoot) := by
  have hsent : getRequestHost (middleware source request).headers = some host := by
    rw [getRequestHost, (middleware_headers source request).2, hhost, Option.some_or]
  have hkept : (some host).filter (fun host => host ≠ "") = some host := by
    simp [Option.filter, hne]
  simp only [ReadAlike, middlewareReading, guardReading, resolverReading, hsent, hkept, hhost,
    hfixed, tenancyMode_of_parseEnv h, reading, decide_eq_true_eq, and_true, Option.map_some]
  by_cases hsingle : source "TENANCY_MODE" = some "single"
  · simp [hsingle]
  · simp [hsingle]

theorem readAlike_of_none (hhost : normalizeHost request.headers.host = none) :
    ReadAlike source env request := by
  have hsent : getRequestHost (middleware source request).headers = none := by
    rw [getRequestHost, (middleware_headers source request).1,
      (middleware_headers source request).2, hhost, Option.none_or]
  have hnothing : ∀ single root, reading single root none = none := fun single root => by
    cases single <;> rfl
  constructor
  · rw [middlewareReading, guardReading, hsent, hhost, Option.filter_none, hnothing, hnothing]
  · rw [resolverReading, guardReading, hsent, Option.filter_none,
      show normalizeHost none = none from rfl]

/-- Which names of the default root a header spells shows in what it is normalised to. -/
theorem spellsNoDefault_iff {raw : String} {name : List Char}
    (hchars : normalizeChars raw.toList = some name) (hdots : ¬ EndsInTwoDots raw.toList) :
    SpellsNoDefault (some raw) ↔ ¬ IsPlatformName "lamplight.school".toList name := by
  constructor
  · intro hnone
    rcases normalizeChars_cases hchars with hliteral | hspells | hends
    · exact hliteral.not_isPlatformName (by decide)
    · exact hnone raw rfl name hspells
    · exact absurd hends hdots
  · rintro hnot raw' hraw other hspells
    obtain rfl : raw = raw' := Option.some.inj hraw
    obtain rfl : name = other :=
      Option.some.inj (hchars.symm.trans (normalizeChars_spells hspells))
    exact hnot

theorem normalizeHost_eq {raw : String} {name : List Char}
    (hchars : normalizeChars raw.toList = some name) :
    normalizeHost (some raw) = some (String.ofList name) := by
  rw [normalizeHost, Option.bind_some, hchars, Option.map_some]

/-- The roots agree on a clean host unless the process has a blank one and the other claims the
host. -/
theorem classifyHost_roots (h : parseEnv parsers source = .ok env)
    (hclean : IsLiteral host.toList ∨ CleanName host.toList) :
    classifyHost host ((source "TENANT_SUBDOMAIN_ROOT").getD "lamplight.school")
        = classifyHost host env.tenantSubdomainRoot ↔
      (BlankRoot source → ¬ IsPlatformName "lamplight.school".toList host.toList) := by
  by_cases hblank : BlankRoot source
  · have hroot := tenantSubdomainRoot_of_blankRoot h hblank
    obtain ⟨value, hvalue, htrim⟩ := hblank
    have hname : IsHostName "lamplight.school".toList := by decide
    rw [hroot, hvalue, Option.getD_some, classifyHost_of_blank htrim hclean, eq_comm,
      classifyHost_eq_foreign, hname.trim_eq, hname.toLowerCase_eq]
    exact ⟨fun hnot _ => hnot, fun himp => himp ⟨value, hvalue, htrim⟩⟩
  · rw [tenantSubdomainRoot_of_not_blankRoot h hblank]
    exact iff_of_true rfl fun habsurd => absurd habsurd hblank

theorem normalizeHost_ofList {name : List Char} :
    normalizeHost (some (String.ofList name)) = some (String.ofList name) ↔
      normalizeChars name = some name := by
  rw [normalizeHost, Option.bind_some, String.toList_ofList]
  constructor
  · intro h
    simpa [Function.comp_def] using congrArg (Option.map String.toList) h
  · intro h
    rw [h, Option.map_some]

/-- The case of a header that is normalised to something. -/
theorem readAlike_some (h : parseEnv parsers source = .ok env) {raw : String} {name : List Char}
    (hheader : request.headers.host = some raw) (hchars : normalizeChars raw.toList = some name) :
    (normalizeHost (some (String.ofList name)) = some (String.ofList name) ∧
      (IsLiteral name ∨ CleanName name) ∧ ReadAlike source env request) ↔
    ¬ EndsInTwoDots raw.toList ∧ (BlankRoot source → source "TENANCY_MODE" ≠ some "single" →
      SpellsNoDefault (some raw)) := by
  have hagain := normalizeChars_again hchars
  rw [normalizeHost_ofList, ← and_assoc, hagain]
  refine and_congr_right fun hends => ?_
  obtain ⟨hfixed, hclean⟩ := hagain.mpr hends
  have hhost : normalizeHost request.headers.host = some (String.ofList name) := by
    rw [hheader, normalizeHost_eq hchars]
  have hlist : (String.ofList name).toList = name := String.toList_ofList
  have hcleanHost : IsLiteral (String.ofList name).toList ∨
      CleanName (String.ofList name).toList := by
    rw [hlist]
    exact hclean
  have hne : String.ofList name ≠ "" := fun heq =>
    ne_nil_of_clean hcleanHost (by rw [heq]; rfl)
  rw [readAlike_of_fixed h hhost (normalizeHost_ofList.mpr hfixed) hne,
    classifyHost_roots h hcleanHost, spellsNoDefault_iff hchars hends, hlist]
  exact ⟨fun hroots hblank hmode => hroots hmode hblank,
    fun hroots hmode hblank => hroots hblank hmode⟩

/-- **Three readers of one header.** A host that is normalised once is normalised for good and
clean, and the middleware, the guards and resolution read it alike, exactly when the header does not
end in two dots and, where the process has a blank root, spells none of the names of the default
one. -/
theorem readAlike_iff (h : parseEnv parsers source = .ok env) (request : NextRequest) :
    (normalizeHost (normalizeHost request.headers.host) = normalizeHost request.headers.host ∧
      (∀ host, normalizeHost request.headers.host = some host →
        IsLiteral host.toList ∨ CleanName host.toList) ∧
      ReadAlike source env request) ↔
    NotInTwoDots request.headers.host ∧
      (BlankRoot source → source "TENANCY_MODE" ≠ some "single" →
        SpellsNoDefault request.headers.host) := by
  cases hheader : request.headers.host with
  | none =>
    refine iff_of_true ⟨rfl, fun host hhost => absurd hhost (by simp [normalizeHost]), ?_⟩
      ⟨fun raw hraw => absurd hraw (by simp), fun _ _ raw hraw => absurd hraw (by simp)⟩
    exact readAlike_of_none (by rw [hheader]; rfl)
  | some raw =>
    have hdots : NotInTwoDots (some raw) ↔ ¬ EndsInTwoDots raw.toList :=
      ⟨fun h => h raw rfl, by rintro h raw' ⟨⟩; exact h⟩
    cases hchars : normalizeChars raw.toList with
    | none =>
      have hnone : normalizeHost (some raw) = none := by
        rw [normalizeHost, Option.bind_some, hchars, Option.map_none]
      rw [hnone, hdots]
      refine iff_of_true ⟨rfl, fun host hhost => absurd hhost (by simp), ?_⟩ ⟨?_, ?_⟩
      · exact readAlike_of_none (by rw [hheader, hnone])
      · intro hends
        obtain ⟨name, hname⟩ := normalizeChars_endsInTwoDots hends
        exact absurd (hchars.symm.trans hname) (by simp)
      · rintro - - raw' ⟨⟩ name hspells
        exact absurd (hchars.symm.trans (normalizeChars_spells hspells)) (by simp)
    | some name =>
      have hclean : (∀ host, some (String.ofList name) = some host →
          IsLiteral host.toList ∨ CleanName host.toList) ↔ IsLiteral name ∨ CleanName name := by
        constructor
        · exact fun h => by simpa using h _ rfl
        · rintro h host ⟨⟩
          simpa using h
      rw [normalizeHost_eq hchars, hdots, hclean]
      exact readAlike_some h hheader hchars

/-! ### A header with two dots -/

/-- A process with nothing but its databases. -/
def bareSource : ProcessEnv := fun key =>
  [("DATABASE_URL", "postgres://app@db/lamplight"),
    ("DATABASE_ADMIN_URL", "postgres://admin@db/lamplight")].lookup key

/-- What is configured when nothing is. -/
def bareEnv : Env where
  databaseUrl := "postgres://app@db/lamplight"
  databaseAdminUrl := "postgres://admin@db/lamplight"
  tenancyMode := .platform
  platformApexDomain := "lamplight.school"
  tenantSubdomainRoot := "lamplight.school"
  singleTenantSlug := none
  selfServeSignup := true
  mailTransport := .auto
  smtpHost := none
  mailFrom := none
  cloudflareApiToken := none
  cloudflareZoneId := none
  cloudflareSaasFallbackOrigin := none
  domainSweepSecret := none
  s3Endpoint := none
  s3Bucket := none
  s3AccessKeyId := none
  s3SecretAccessKey := none
  signedUrlTtlSeconds := 300

theorem parseEnv_bareSource (parsers : SchemaParsers) :
    parseEnv parsers bareSource = .ok bareEnv := by
  have hissues : schemaIssues parsers (withoutBlanks bareSource) = [] := rfl
  have henv : envOf parsers (withoutBlanks bareSource) = bareEnv := rfl
  rw [parseEnv, hissues, henv]
  rfl

/-- A request for the front page under a header. -/
def frontPage (header : String) : NextRequest where
  headers := ⟨some header, none, none, none⟩
  pathname := "/"
  search := ""

theorem readAlike_iff_port :
    (∀ parsers : SchemaParsers, parseEnv parsers bareSource = .ok bareEnv) ∧
      ((normalizeHost (normalizeHost (some "Grace.Lamplight.School.:443"))
            = normalizeHost (some "Grace.Lamplight.School.:443") ∧
          (∀ host, normalizeHost (some "Grace.Lamplight.School.:443") = some host →
            IsLiteral host.toList ∨ CleanName host.toList) ∧
          ReadAlike bareSource bareEnv (frontPage "Grace.Lamplight.School.:443")) ↔
        NotInTwoDots (some "Grace.Lamplight.School.:443") ∧
          (BlankRoot bareSource → bareSource "TENANCY_MODE" ≠ some "single" →
            SpellsNoDefault (some "Grace.Lamplight.School.:443"))) :=
  ⟨parseEnv_bareSource, readAlike_iff
    (parseEnv_bareSource { url := fun _ => true, positiveInt := fun _ => none })
    (frontPage "Grace.Lamplight.School.:443")⟩

/-- With two dots the middleware and the guards see a stranger's host, and resolution an
institute's: the page is the institute's, its address nobody's. -/
theorem two_dots_read_differently :
    (∀ parsers : SchemaParsers, parseEnv parsers bareSource = .ok bareEnv) ∧
      normalizeHost (some "grace.lamplight.school..") = some "grace.lamplight.school." ∧
      normalizeHost (some "grace.lamplight.school.") = some "grace.lamplight.school" ∧
      middlewareReading bareSource (frontPage "grace.lamplight.school..")
        = some (.foreign "grace.lamplight.school.") ∧
      resolverReading bareEnv (getRequestHost
          (middleware bareSource (frontPage "grace.lamplight.school..")).headers)
        = some (.subdomain "grace") ∧
      ¬ ReadAlike bareSource bareEnv (frontPage "grace.lamplight.school..") :=
  ⟨parseEnv_bareSource, by decide, by decide, by decide, by decide,
    fun halike => absurd (halike.1.trans halike.2) (by decide)⟩

end LampLight
