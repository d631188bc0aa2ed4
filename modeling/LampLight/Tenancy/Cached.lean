import LampLight.Cache.TtlCache
import LampLight.Domains.Lifecycle

/-!
# Resolution through the cache

In platform mode a server keeps what it has resolved in a bounded cache, found hosts for a minute
and unknown ones for a few seconds. A call reads the cache; on a miss it asks the database, in one
or two statements, and writes what it was told into the cache. Between these steps anything may
happen: other calls, changes of the database, invalidations.

A call in flight carries the sightings its statements have read, and the server keeps every sighting
and every lookup that was finished. Nothing reads this record; it is what statements about answers
are stated over.

## Main definitions

* `Server`, `ServerAction`, `serve` — the machine
* `OnRecord` — every entry of the cache was written by a lookup on record

## Main results

* `onRecord_serve`, `onRecord_run` — the invariant of every run
* `bounded_run` — how old an answer may be
* `renamed_answer` — two statements may say what no state did
-/

namespace LampLight

open Cloudflare (Client TransportResult)
open Machine (run Meets)

/-! ### The cache -/

/-- What is remembered of a host: its tenant, or that it has none. -/
inductive CacheEntry where
  | tenant (context : TenantContext)
  | miss
deriving DecidableEq

/-- How many hosts are remembered. -/
def CACHE_MAX_ENTRIES : ℕ := 1000

/-- How long a tenant is remembered. -/
def HIT_TTL_MS : ℤ := 60000

/-- Misses are remembered for less: a miss is what changes when an institute finishes onboarding. -/
def MISS_TTL_MS : ℤ := 5000

/-- `cached === 'miss' ? null : cached`. -/
def CacheEntry.tenant? : CacheEntry → Option TenantContext
  | .tenant context => some context
  | .miss => none

/-- Forgets one host, or all of them. -/
def invalidateTenantCache (cache : TtlCache String CacheEntry) (host : Option String) :
    TtlCache String CacheEntry :=
  match host.filter fun host => host ≠ "" with
  | none => cache.clear
  | some host =>
    match normalizeHost (some host) with
    | some normalized => cache.delete normalized
    | none => cache

/-! ### Lookups -/

/-- The lookup when its two statements see different states. -/
def lookupAcross (first second : Database) (host root : String) : Option ResolvedTenant :=
  match classifyHost host root with
  | .apex => none
  | .subdomain slug =>
    match lookupTenantByHost first host with
    | some byHost => some byHost
    | none => if isValidSlug slug then lookupTenantBySlug second slug else none
  | .foreign _ => lookupTenantByHost first host

/-- An active row in front of a subdomain belongs to the tenant whose slug the subdomain is. -/
def SlugRows (root : String) (db : Database) : Prop :=
  ∀ host slug found, classifyHost host root = .subdomain slug → isValidSlug slug = true →
    lookupTenantByHost db host = some found → lookupTenantBySlug db slug = some found

/-- Where rows and slugs agree, two statements say what one state says. -/
theorem lookupAcross_eq {first second : Database} {root : String} (h : SlugRows root second)
    (host : String) :
    lookupAcross first second host root = lookupUncached first host root ∨
      lookupAcross first second host root = lookupUncached second host root := by
  simp only [lookupAcross, lookupUncached]
  cases hclass : classifyHost host root with
  | apex => exact Or.inl rfl
  | foreign host' => exact Or.inl rfl
  | subdomain slug =>
    dsimp only
    cases hfirst : lookupTenantByHost first host with
    | some byHost => exact Or.inl rfl
    | none =>
      cases hsecond : lookupTenantByHost second host with
      | none => exact Or.inr rfl
      | some byHost =>
        dsimp only
        split_ifs with hvalid
        · exact Or.inr (h host slug byHost hclass hvalid hsecond)
        · exact Or.inl rfl

/-- The database at an instant, and how many changes it has seen. -/
structure Sighting where
  time : Instant
  version : ℕ
  db : Database

/-- A call that has gone past the cache. `late` says that it began after the writer returned. -/
structure ResolveCall where
  rawHost : Option String
  host : String
  startedAt : Instant
  late : Bool

/-- A lookup that knows its result, with the sightings its statements read. -/
structure Lookup extends ResolveCall where
  result : Option ResolvedTenant
  first : Sighting
  second : Sighting

/-- What a lookup answers. -/
def Lookup.context (l : Lookup) : Option TenantContext :=
  l.result.map fun t => { t with host := l.host }

/-- What the lookup writes into the cache, and for how long. -/
def Lookup.entry (l : Lookup) : CacheEntry :=
  match l.context with
  | some context => .tenant context
  | none => .miss

/-- How long an answer is remembered. -/
def ttlOf (answer : Option TenantContext) : ℤ := if answer.isSome then HIT_TTL_MS else MISS_TTL_MS

theorem ttlOf_nonneg (answer : Option TenantContext) : 0 ≤ ttlOf answer := by
  rw [ttlOf, HIT_TTL_MS, MISS_TTL_MS]
  split_ifs <;> omega

/-- Where a call is. -/
inductive Flight where
  | idle
  | asked (call : ResolveCall)
  | unmatched (call : ResolveCall) (slug : String) (first : Sighting)
  | found (lookup : Lookup)

/-- A lookup that has answered, and when. -/
structure FinishedLookup extends Lookup where
  finishedAt : Instant

/-! ### The writer -/

/-- The operations that invalidate one host when they are done. -/
inductive DomainWrite where
  | remove (tenantId domainId : Uuid) (answer : TransportResult)
  | refresh (tenantId domainId : Uuid) (answer : TransportResult) (now : Instant)

/-- `latest.status === 'active' && current.status !== 'active'`, of a check that asked. -/
def becameActive (env : Env) (client : Client) (current : DomainRecord)
    (answer : TransportResult) : Bool :=
  recordOf current.cfHostnameId ≠ none && customHostnamesConfigured env &&
    current.status ≠ .active &&
      match Cloudflare.get client answer with
      | .ok latest => latest.status = .active
      | .error _ => false

/-- The host to invalidate and the world after, when the operation gets that far. -/
def DomainWrite.commit (env : Env) (client : Client) (w : World) :
    DomainWrite → Option (String × World)
  | .remove tenantId domainId answer =>
    match findDomain w.db tenantId domainId, removeDomain env client w tenantId domainId answer with
    | some domain, (.ok (), w') => some (domain.hostname, w')
    | _, _ => none
  | .refresh tenantId domainId answer now =>
    match findDomain w.db tenantId domainId,
        refreshDomain env client w tenantId domainId answer now with
    | some current, (.ok _, w') =>
      if becameActive env client current answer then some (current.hostname, w') else none
    | _, _ => none

/-- How far a change of domains has come. -/
inductive Writer where
  | pending
  | committed (host : String) (version : ℕ)
  | returned (host : String) (version : ℕ)
deriving DecidableEq

/-- The change is over, the cache included. -/
def Writer.hasReturned : Writer → Bool
  | .returned _ _ => true
  | _ => false

/-! ### The machine -/

/-- One server: its clock, the database, its cache and the lookups under way. -/
structure Server where
  now : Instant
  version : ℕ := 0
  world : World
  cache : TtlCache String CacheEntry := .empty CACHE_MAX_ENTRIES HIT_TTL_MS
  flights : ℕ → Flight := fun _ => .idle
  writer : Writer := .pending
  past : List Sighting := []
  finished : List FinishedLookup := []

/-- What a lookup that reads now would see. -/
def Server.sighting (s : Server) : Sighting := ⟨s.now, s.version, s.world.db⟩

/-- The state goes on record. -/
def Server.recorded (s : Server) : Server := { s with past := s.sighting :: s.past }

/-- A server that has just started. -/
def Server.boot (world : World) (now : Instant) : Server :=
  Server.recorded { now := now, world := world }

/-- What happens on a server. -/
inductive ServerAction where
  | tick (ms : ℕ)
  | change (world : World)
  | invalidate (host : Option String)
  | start (i : ℕ) (rawHost : Option String)
  | read (i : ℕ)
  | write (i : ℕ)
  | commit (op : DomainWrite)
  | finish

variable (env : Env) (client : Client)

/-- The beginning of a call: a hit ends it, a miss sends it to the database. -/
def startCallAt (s : Server) (i : ℕ) (rawHost : Option String) : Server :=
  match s.flights i, normalizeHost rawHost with
  | .idle, some host =>
    match s.cache.get s.now host with
    | (some _, cache) => { s with cache := cache }
    | (none, cache) =>
      { s with
        cache := cache
        flights := Function.update s.flights i
          (.asked ⟨rawHost, host, s.now, s.writer.hasReturned⟩) }
  | _, _ => s

/-- Starting a call touches the cache and the flight, nothing else. -/
theorem startCallAt_frame (s : Server) (i : ℕ) (rawHost : Option String) :
    ∃ cache flights, startCallAt s i rawHost = { s with cache := cache, flights := flights } := by
  rw [startCallAt]
  split
  · split
    · exact ⟨_, _, rfl⟩
    · exact ⟨_, _, rfl⟩
  · exact ⟨_, _, rfl⟩

/-- One statement of a lookup. -/
def readFlight (root : String) (here : Sighting) : Flight → Flight
  | .asked call =>
    match classifyHost call.host root with
    | .apex => .found ⟨call, none, here, here⟩
    | .subdomain slug =>
      match lookupTenantByHost here.db call.host with
      | some byHost => .found ⟨call, some byHost, here, here⟩
      | none =>
        if isValidSlug slug then .unmatched call slug here
        else .found ⟨call, none, here, here⟩
    | .foreign _ => .found ⟨call, lookupTenantByHost here.db call.host, here, here⟩
  | .unmatched call slug first => .found ⟨call, lookupTenantBySlug here.db slug, first, here⟩
  | flight => flight

/-- The end of a lookup: its result is cached, and answered. -/
def writeLookup (s : Server) (i : ℕ) (l : Lookup) : Server :=
  { s with
    cache :=
      match l.context with
      | none => s.cache.set s.now l.host .miss (some MISS_TTL_MS)
      | some context => s.cache.set s.now l.host (.tenant context) none
    flights := Function.update s.flights i .idle
    finished := ⟨l, s.now⟩ :: s.finished }

/-- The server after it. -/
def serveStep (s : Server) : ServerAction → Server
  | .tick ms => { s with now := s.now + ms }
  | .change world => { s with world := world, version := s.version + 1 }
  | .invalidate host => { s with cache := invalidateTenantCache s.cache host }
  | .start i rawHost => startCallAt s i rawHost
  | .read i =>
    { s with
      flights := Function.update s.flights i
        (readFlight env.tenantSubdomainRoot s.sighting (s.flights i)) }
  | .write i =>
    match s.flights i with
    | .found l => writeLookup s i l
    | _ => s
  | .commit op =>
    match s.writer, op.commit env client s.world with
    | .pending, some (host, world) =>
      { s with
        world := world
        version := s.version + 1
        writer := .committed host (s.version + 1) }
    | _, _ => s
  | .finish =>
    match s.writer with
    | .committed host version =>
      { s with
        cache := invalidateTenantCache s.cache (some host)
        writer := .returned host version }
    | _ => s

/-- The server after it, with what was there to be seen written down. -/
def serve (s : Server) (a : ServerAction) : Server := (serveStep env client s a).recorded

/-- What a request was answered, and whether another one was waiting for it. -/
structure Answer where
  rawHost : Option String
  tenant : Option TenantContext
  late : Bool
deriving DecidableEq

/-- What an action answers, if it is one that ends a call. -/
def answered (s : Server) : ServerAction → Option Answer
  | .start i rawHost =>
    match s.flights i, normalizeHost rawHost with
    | .idle, none => some ⟨rawHost, none, s.writer.hasReturned⟩
    | .idle, some host =>
      (s.cache.get s.now host).1.map fun entry => ⟨rawHost, entry.tenant?, s.writer.hasReturned⟩
    | _, _ => none
  | .write i =>
    match s.flights i with
    | .found l => some ⟨l.rawHost, l.context, l.late⟩
    | _ => none
  | _ => none

/-! ### What is on record -/

/-- A call asks for the normalised form of its host. -/
structure ResolveCall.Ok (c : ResolveCall) (now : Instant) : Prop where
  host : normalizeHost c.rawHost = some c.host
  started : c.startedAt ≤ now

/-- The statements of a lookup were put to states on record, after its call began, and its result is
what they said. -/
structure Lookup.Read (root : String) (past : List Sighting) (now : Instant) (l : Lookup) :
    Prop where
  call : l.toResolveCall.Ok now
  first : l.first ∈ past
  second : l.second ∈ past
  started : l.startedAt ≤ l.first.time
  ordered : l.first.time ≤ l.second.time
  ended : l.second.time ≤ now
  result : l.result = lookupAcross l.first.db l.second.db l.host root

/-- What a call in flight has established. -/
def Flight.Ok (root : String) (past : List Sighting) (now : Instant) : Flight → Prop
  | .idle => True
  | .asked c => c.Ok now
  | .unmatched c slug first => c.Ok now ∧ classifyHost c.host root = .subdomain slug ∧
      isValidSlug slug = true ∧ first ∈ past ∧ c.startedAt ≤ first.time ∧ first.time ≤ now ∧
      lookupTenantByHost first.db c.host = none
  | .found l => l.Read root past now

/-- The entry was written by this lookup. -/
structure FinishedLookup.Wrote (f : FinishedLookup) (x : String × TtlEntry CacheEntry) : Prop where
  host : f.host = x.1
  value : x.2.value = f.entry
  deadline : x.2.expiresAt = f.finishedAt + ttlOf f.context

/-- Every call in flight and every entry of the cache is accounted for by the record. -/
structure OnRecord (root : String) (s : Server) : Prop where
  here : s.sighting ∈ s.past
  ttl : s.cache.ttlMs = HIT_TTL_MS
  flights : ∀ i, (s.flights i).Ok root s.past s.now
  finished : ∀ f ∈ s.finished, f.Read root s.past f.finishedAt ∧ f.finishedAt ≤ s.now
  entries : ∀ x ∈ s.cache.entries, ∃ f ∈ s.finished, f.Wrote x

section Record

variable {root : String} {past past' : List Sighting} {now now' : Instant}

theorem ResolveCall.Ok.mono {c : ResolveCall} (h : c.Ok now) (hle : now ≤ now') : c.Ok now' :=
  ⟨h.host, h.started.trans hle⟩

theorem Lookup.Read.mono {l : Lookup} (h : l.Read root past now) (hsub : past ⊆ past')
    (hle : now ≤ now') : l.Read root past' now' where
  call := h.call.mono hle
  first := hsub h.first
  second := hsub h.second
  started := h.started
  ordered := h.ordered
  ended := h.ended.trans hle
  result := h.result

theorem Flight.Ok.mono {flight : Flight} (h : flight.Ok root past now) (hsub : past ⊆ past')
    (hle : now ≤ now') : flight.Ok root past' now' := by
  cases flight with
  | idle => trivial
  | asked c => exact ResolveCall.Ok.mono h hle
  | unmatched c slug first =>
    obtain ⟨hc, hclass, hvalid, hfirst, hstarted, htime, hnone⟩ := h
    exact ⟨hc.mono hle, hclass, hvalid, hsub hfirst, hstarted, htime.trans hle, hnone⟩
  | found l => exact Lookup.Read.mono h hsub hle

/-- One statement, put to the state there is. -/
theorem Flight.Ok.readFlight {flight : Flight} {here : Sighting} (h : flight.Ok root past now)
    (hhere : here ∈ past) (htime : here.time = now) :
    (readFlight root here flight).Ok root past now := by
  have hle : here.time ≤ now := htime.le
  cases flight with
  | idle => trivial
  | found l => exact h
  | asked c =>
    have hstarted : c.startedAt ≤ here.time := htime ▸ h.started
    have hread : ∀ result, result = lookupUncached here.db c.host root →
        Lookup.Read root past now ⟨c, result, here, here⟩ :=
      fun result hresult => ⟨h, hhere, hhere, hstarted, le_rfl, hle, hresult⟩
    simp only [LampLight.readFlight]
    cases hclass : classifyHost c.host root with
    | apex =>
      refine hread none ?_
      simp only [lookupUncached, hclass]
    | foreign host' =>
      refine hread _ ?_
      simp only [lookupUncached, hclass]
    | subdomain slug =>
      dsimp only
      cases hby : lookupTenantByHost here.db c.host with
      | some byHost =>
        refine hread _ ?_
        simp only [lookupUncached, hclass, hby]
      | none =>
        dsimp only
        split_ifs with hvalid
        · exact ⟨h, hclass, hvalid, hhere, hstarted, hle, hby⟩
        · refine hread none ?_
          simp only [lookupUncached, hclass, hby, if_neg hvalid]
  | unmatched c slug first =>
    obtain ⟨hc, hclass, hvalid, hfirst, hstarted, hfirstTime, hnone⟩ := h
    refine ⟨hc, hfirst, hhere, hstarted, hfirstTime.trans htime.ge, hle, ?_⟩
    simp only [lookupAcross, hclass, hnone, if_pos hvalid]

/-- Time passing and the database changing leave calls and entries what they were. -/
theorem OnRecord.later {s s' : Server} (h : OnRecord root s) (hnow : s.now ≤ s'.now)
    (hpast : s'.past = s.past) (hcache : s'.cache = s.cache) (hflights : s'.flights = s.flights)
    (hfinished : s'.finished = s.finished) : OnRecord root s'.recorded where
  here := List.mem_cons_self ..
  ttl := by
    show s'.cache.ttlMs = _
    rw [hcache]
    exact h.ttl
  flights := by
    intro i
    show (s'.flights i).Ok root (s'.sighting :: s'.past) s'.now
    rw [hflights, hpast]
    exact (h.flights i).mono (List.subset_cons_self _ _) hnow
  finished := by
    intro f hf
    have hf : f ∈ s.finished := hfinished ▸ hf
    obtain ⟨hread, htime⟩ := h.finished f hf
    refine ⟨hread.mono ?_ le_rfl, htime.trans hnow⟩
    show s.past ⊆ s'.sighting :: s'.past
    rw [hpast]
    exact List.subset_cons_self _ _
  entries := by
    intro x hx
    show ∃ f ∈ s'.finished, f.Wrote x
    rw [hfinished]
    exact h.entries x (hcache ▸ hx)

/-- So does a cache with fewer entries. -/
theorem OnRecord.fewer {s : Server} (h : OnRecord root s) {cache : TtlCache String CacheEntry}
    (hsub : cache.entries ⊆ s.cache.entries) (httl : cache.ttlMs = s.cache.ttlMs) :
    OnRecord root { s with cache := cache } :=
  { h with
    ttl := httl.trans h.ttl
    entries := fun x hx => h.entries x (hsub hx) }

theorem OnRecord.flight {s : Server} (h : OnRecord root s) (i : ℕ) {flight : Flight}
    (hflight : flight.Ok root s.past s.now) :
    OnRecord root { s with flights := Function.update s.flights i flight } :=
  { h with
    flights := by
      intro j
      show (Function.update s.flights i flight j).Ok root s.past s.now
      by_cases hij : j = i
      · subst hij
        rw [Function.update_self]
        exact hflight
      · rw [Function.update_of_ne hij]
        exact h.flights j }

theorem OnRecord.recorded {s : Server} (h : OnRecord root s) : OnRecord root s.recorded :=
  h.later le_rfl rfl rfl rfl rfl

theorem invalidateTenantCache_entries (cache : TtlCache String CacheEntry) (host : Option String) :
    (invalidateTenantCache cache host).entries ⊆ cache.entries ∧
      (invalidateTenantCache cache host).ttlMs = cache.ttlMs := by
  rw [invalidateTenantCache]
  split
  · exact ⟨List.nil_subset _, rfl⟩
  · split
    · exact ⟨fun x hx => (TtlCache.mem_delete.mp hx).1, rfl⟩
    · exact ⟨List.Subset.refl _, rfl⟩

/-- Nothing about an invalidated host is left. -/
theorem invalidateTenantCache_gone {cache : TtlCache String CacheEntry} {host key : String}
    (hkey : normalizeHost (some host) = some key) {x : String × TtlEntry CacheEntry}
    (hx : x ∈ (invalidateTenantCache cache (some host)).entries) : x.1 ≠ key := by
  rw [invalidateTenantCache] at hx
  split at hx
  · cases hx
  · next host' hfilter =>
    have hhost : some host = some host' := (Option.filter_eq_some_iff.mp hfilter).1
    cases hhost
    rw [hkey] at hx
    exact (TtlCache.mem_delete.mp hx).2

theorem OnRecord.invalidate {s : Server} (h : OnRecord root s) (host : Option String) :
    OnRecord root { s with cache := invalidateTenantCache s.cache host } :=
  h.fewer (invalidateTenantCache_entries s.cache host).1
    (invalidateTenantCache_entries s.cache host).2

theorem OnRecord.start {s : Server} (h : OnRecord root s) (i : ℕ) (rawHost : Option String) :
    OnRecord root (startCallAt s i rawHost) := by
  rw [startCallAt]
  split
  · next host hidle hhost =>
    have hread : OnRecord root { s with cache := (s.cache.get s.now host).2 } :=
      h.fewer (fun x hx => TtlCache.mem_get hx) TtlCache.get_ttlMs
    split
    · next entry cache hget =>
      rw [hget] at hread
      exact hread
    · next cache hget =>
      rw [hget] at hread
      have hasked : Flight.Ok root s.past s.now
          (.asked ⟨rawHost, host, s.now, s.writer.hasReturned⟩) := ⟨hhost, le_rfl⟩
      exact hread.flight i hasked
  · exact h

theorem Lookup.entry_tenant? (l : Lookup) : l.entry.tenant? = l.context := by
  rw [Lookup.entry]
  split
  · next context hcontext => exact hcontext.symm
  · next hcontext => exact hcontext.symm

/-- The entry that a lookup leaves. -/
theorem mem_writeLookup {s : Server} (httl : s.cache.ttlMs = HIT_TTL_MS) {i : ℕ} {l : Lookup}
    {x : String × TtlEntry CacheEntry} (hx : x ∈ (writeLookup s i l).cache.entries) :
    FinishedLookup.Wrote ⟨l, s.now⟩ x ∨ x ∈ s.cache.entries ∧ x.1 ≠ l.host := by
  simp only [writeLookup] at hx
  split at hx
  · next hmiss =>
    rcases TtlCache.mem_set hx with rfl | hold
    · refine Or.inl ⟨rfl, ?_, ?_⟩
      · simp only [Lookup.entry, hmiss]
      · simp [ttlOf, hmiss]
    · exact Or.inr hold
  · next context hfound =>
    rcases TtlCache.mem_set hx with rfl | hold
    · refine Or.inl ⟨rfl, ?_, ?_⟩
      · simp only [Lookup.entry, hfound]
      · simp [ttlOf, hfound, httl]
    · exact Or.inr hold

theorem OnRecord.write {s : Server} (h : OnRecord root s) {i : ℕ} {l : Lookup}
    (hflight : s.flights i = .found l) : OnRecord root (writeLookup s i l) := by
  have hread : l.Read root s.past s.now := by
    have := h.flights i
    rwa [hflight] at this
  have hidle : OnRecord root { s with flights := Function.update s.flights i .idle } :=
    h.flight i trivial
  exact
    { here := h.here
      ttl := by
        simp only [writeLookup]
        split <;> exact h.ttl
      flights := hidle.flights
      finished := by
        intro f hf
        rcases List.mem_cons.mp hf with rfl | hf
        · exact ⟨hread, le_rfl⟩
        · exact h.finished f hf
      entries := by
        intro x hx
        rcases mem_writeLookup h.ttl hx with hnew | ⟨hold, -⟩
        · exact ⟨_, List.mem_cons_self .., hnew⟩
        · obtain ⟨f, hf, hwrote⟩ := h.entries x hold
          exact ⟨f, List.mem_cons_of_mem _ hf, hwrote⟩ }

end Record

variable {env client}

/-- Whatever happens keeps the record complete. -/
theorem onRecord_serve {s : Server} (h : OnRecord env.tenantSubdomainRoot s) (a : ServerAction) :
    OnRecord env.tenantSubdomainRoot (serve env client s a) := by
  rw [serve]
  cases a with
  | tick ms =>
    have hle : s.now ≤ s.now + ms := Int.le_add_of_nonneg_right (Int.natCast_nonneg ms)
    exact h.later hle rfl rfl rfl rfl
  | change world => exact h.later le_rfl rfl rfl rfl rfl
  | invalidate host => exact (h.invalidate host).recorded
  | start i rawHost => exact (h.start i rawHost).recorded
  | read i => exact (h.flight i ((h.flights i).readFlight h.here rfl)).recorded
  | write i =>
    simp only [serveStep]
    split
    · next l hflight => exact (h.write hflight).recorded
    · exact h.recorded
  | commit op =>
    simp only [serveStep]
    split
    · exact h.later le_rfl rfl rfl rfl rfl
    · exact h.recorded
  | finish =>
    simp only [serveStep]
    split
    · next host version _ => exact (h.invalidate (some host)).later le_rfl rfl rfl rfl rfl
    · exact h.recorded

theorem onRecord_boot (root : String) (world : World) (now : Instant) :
    OnRecord root (Server.boot world now) where
  here := List.mem_cons_self ..
  ttl := rfl
  flights := fun _ => trivial
  finished := fun _ hf => nomatch hf
  entries := fun _ hx => nomatch hx

theorem onRecord_run (world : World) (now : Instant) (as : List ServerAction) :
    OnRecord env.tenantSubdomainRoot (run (serve env client) (Server.boot world now) as) :=
  Machine.run_invariant (I := OnRecord env.tenantSubdomainRoot)
    (fun _ a h => onRecord_serve h a) (onRecord_boot _ world now) as

/-! ### How old an answer may be -/

/-- The answer is what a lookup of the normalised host was told, by one statement or two, at
instants that are at most the lifetime of its entry and the duration of the lookup ago. -/
def Bounded (root : String) (s : Server) (answer : Answer) : Prop :=
  match normalizeHost answer.rawHost with
  | none => answer.tenant = none
  | some host => ∃ f ∈ s.finished, f.host = host ∧ answer.tenant = f.context ∧
      f.Read root s.past f.finishedAt ∧ f.finishedAt ≤ s.now ∧
      s.now - ttlOf answer.tenant - (f.finishedAt - f.startedAt) ≤ f.first.time

/-- A hit was written by a lookup that finished less than its lifetime ago. -/
theorem bounded_hit {root : String} {s : Server} (h : OnRecord root s) {host : String}
    {entry : CacheEntry} (hget : (s.cache.get s.now host).1 = some entry) :
    ∃ f ∈ s.finished, f.host = host ∧ entry.tenant? = f.context ∧
      f.Read root s.past f.finishedAt ∧ f.finishedAt ≤ s.now ∧
      s.now < f.finishedAt + ttlOf f.context := by
  obtain ⟨e, he, hvalue, hlive⟩ := TtlCache.get_eq_some hget
  obtain ⟨f, hf, hwrote⟩ := h.entries _ he
  obtain ⟨hread, htime⟩ := h.finished f hf
  refine ⟨f, hf, hwrote.host, ?_, hread, htime, ?_⟩
  · rw [← hvalue, hwrote.value, Lookup.entry_tenant?]
  · rw [← hwrote.deadline]
    exact hlive

/-- An entry that is still live was read no longer ago than its lifetime and its lookup's
duration. -/
theorem read_within {now finishedAt startedAt readAt ttl : ℤ} (hlive : now ≤ finishedAt + ttl)
    (hstarted : startedAt ≤ readAt) : now - ttl - (finishedAt - startedAt) ≤ readAt := by
  omega

theorem bounded_serve {s : Server} (h : OnRecord env.tenantSubdomainRoot s) {a : ServerAction}
    {answer : Answer} (hanswer : answered s a = some answer) :
    Bounded env.tenantSubdomainRoot (serve env client s a) answer := by
  cases a with
  | start i rawHost =>
    simp only [answered] at hanswer
    split at hanswer
    · next hidle hnone =>
      cases hanswer
      simp only [Bounded, hnone]
    · next host hidle hhost =>
      obtain ⟨entry, hget, rfl⟩ := Option.map_eq_some_iff.mp hanswer
      obtain ⟨f, hf, hfhost, htenant, hread, htime, hlive⟩ := bounded_hit h hget
      obtain ⟨cache, flights, hstart⟩ := startCallAt_frame s i rawHost
      simp only [Bounded, hhost, serve, serveStep, hstart]
      refine ⟨f, hf, hfhost, htenant, hread.mono (List.subset_cons_self _ _) le_rfl, htime, ?_⟩
      rw [htenant]
      exact read_within hlive.le hread.started
    · cases hanswer
  | write i =>
    simp only [answered] at hanswer
    split at hanswer
    · next l hflight =>
      cases hanswer
      have hread : l.Read env.tenantSubdomainRoot s.past s.now := by
        have := h.flights i
        rwa [hflight] at this
      simp only [Bounded, hread.call.host, serve, serveStep, hflight]
      refine ⟨⟨l, s.now⟩, List.mem_cons_self .., rfl, rfl,
        hread.mono (List.subset_cons_self _ _) le_rfl, le_rfl, ?_⟩
      have hnow : s.now ≤ s.now + ttlOf l.context :=
        Int.le_add_of_nonneg_right (ttlOf_nonneg l.context)
      exact read_within hnow hread.started
    · cases hanswer
  | _ => cases hanswer

/-- The answer is that of the uncached lookup of the normalised host at one instant that is no
further back than that. -/
def BoundedAt (root : String) (s : Server) (answer : Answer) : Prop :=
  match normalizeHost answer.rawHost with
  | none => answer.tenant = none
  | some host => ∃ f ∈ s.finished, ∃ seen ∈ s.past, f.host = host ∧ answer.tenant = f.context ∧
      f.result = lookupUncached seen.db host root ∧ seen.time ≤ s.now ∧
      s.now - ttlOf answer.tenant - (f.finishedAt - f.startedAt) ≤ seen.time

instance (root : String) (s : Server) (answer : Answer) : Decidable (BoundedAt root s answer) := by
  rw [BoundedAt]
  split <;> infer_instance

theorem Bounded.at {root : String} {s : Server} {answer : Answer} (h : Bounded root s answer)
    (hrows : ∀ seen ∈ s.past, SlugRows root seen.db) : BoundedAt root s answer := by
  rw [Bounded] at h
  rw [BoundedAt]
  split
  · next hnone => simpa only [hnone] using h
  · next host hhost =>
    simp only [hhost] at h
    obtain ⟨f, hf, rfl, htenant, hread, htime, hage⟩ := h
    rcases lookupAcross_eq (hrows _ hread.second) f.host with hfirst | hsecond
    · exact ⟨f, hf, f.first, hread.first, rfl, htenant, hread.result.trans hfirst,
        hread.ordered.trans (hread.ended.trans htime), hage⟩
    · exact ⟨f, hf, f.second, hread.second, rfl, htenant, hread.result.trans hsecond,
        hread.ended.trans htime, hage.trans hread.ordered⟩

/-- **Bounded staleness.** Whatever happens on a server, every answer is what the lookup of the
normalised host was told at instants no further back than the lifetime of the answer's entry and the
duration of that lookup, and where rows and slugs agreed all along, what it would have been told at
one such instant. -/
theorem bounded_run (env : Env) (client : Client) (world : World) (now : Instant)
    (as : List ServerAction) :
    Meets (serve env client) (fun s a => ∀ answer, answered s a = some answer →
        Bounded env.tenantSubdomainRoot (serve env client s a) answer ∧
          ((∀ seen ∈ (serve env client s a).past, SlugRows env.tenantSubdomainRoot seen.db) →
            BoundedAt env.tenantSubdomainRoot (serve env client s a) answer))
      (Server.boot world now) as := by
  have hpres : Machine.Preserves (serve env client) (fun _ _ => True)
      (OnRecord env.tenantSubdomainRoot) := fun _ a _ h => onRecord_serve h a
  refine Machine.Meets.of_invariant hpres ?_ (onRecord_boot _ world now)
    (Machine.meets_true _ _ _)
  intro s a h _ answer hanswer
  have hbounded := @bounded_serve env client s h a answer hanswer
  exact ⟨hbounded, hbounded.at⟩

/-! ### A renaming -/

/-- Institutes with their slugs, and the one whose row `ada.lamplight.school` is. -/
def schools (slugs : List (Uuid × String)) (rowOf : Option Uuid) : World where
  db :=
    { tenants := slugs.map fun x => ⟨x.1, x.2, "", .active, 0⟩
      tenantDomains := rowOf.toList.map fun tenantId =>
        ⟨11, tenantId, "ada.lamplight.school", true, .active, none, [], none, none, none, 0⟩ }

/-- While a lookup runs, institute 2 is provisioned, then gives up its slug to institute 1. -/
def renameRun : List ServerAction :=
  [.start 0 (some "ada.lamplight.school"), .read 0,
    .change (schools [(1, "grace"), (2, "ada")] (some 2)),
    .change (schools [(1, "ada"), (2, "byron")] (some 2)), .read 0]

/-- The lookup that spans a renaming answers what no state ever said. -/
theorem renamed_answer :
    let s := run (serve lamplight.env lamplight.client)
      (Server.boot (schools [(1, "grace")] none) 0) renameRun
    ∃ answer, answered s (.write 0) = some answer ∧
      ¬ BoundedAt lamplight.env.tenantSubdomainRoot
        (serve lamplight.env lamplight.client s (.write 0)) answer :=
  ⟨⟨some "ada.lamplight.school", some ⟨⟨1, "ada", ""⟩, "ada.lamplight.school"⟩, false⟩,
    by decide +kernel⟩

end LampLight
