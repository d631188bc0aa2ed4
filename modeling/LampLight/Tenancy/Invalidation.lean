import LampLight.Tenancy.Cached

/-!
# A lookup that outlives an invalidation

`removeDomain` and `refreshDomain` drop the host from the cache once their change is committed, so
that the next call asks the database again. A lookup that read the database before the change and
writes its result after the invalidation puts the old answer back, for as long as its entry lives.
Calls that begin after the operation has returned are then answered from before the change; they are
not when no lookup of that host does this.

## Main definitions

* `FreshAnswer` — an answer to a call after the operation comes from after the change
* `NoStaleWrite` — no lookup writes what it read before the change after the operation returned

## Main results

* `freshAnswer_run` — every answer is fresh when no write is stale
* `removed_host_still_served` — a stale write, and the removed host still resolves
-/

namespace LampLight

open Cloudflare (Client)
open Machine (run Meets Preserves)

/-- Once the operation has returned, a call for its host that began afterwards is answered with what
a lookup was told by the database after the change. -/
def FreshAnswer (root : String) (s : Server) (answer : Answer) : Prop :=
  match s.writer with
  | .returned host version =>
    answer.late = true → ∀ key, normalizeHost (some host) = some key →
      normalizeHost answer.rawHost = some key →
        ∃ f ∈ s.finished, f.host = key ∧ answer.tenant = f.context ∧
          f.Read root s.past f.finishedAt ∧ version ≤ f.first.version ∧
          version ≤ f.second.version
  | _ => True

/-- What a lookup of the operation's host writes after the operation returned, it began to read
after the change. -/
def NoStaleWrite (s : Server) : ServerAction → Prop
  | .write i =>
    match s.writer, s.flights i with
    | .returned host version, .found l =>
      normalizeHost (some host) = some l.host → version ≤ l.first.version
    | _, _ => True
  | _ => True

instance (s : Server) (a : ServerAction) : Decidable (NoStaleWrite s a) := by
  rw [NoStaleWrite.eq_def]
  split
  · split <;> infer_instance
  · infer_instance

/-! ### What the operation leaves behind -/

/-- The operation has returned, and its change is among the first `n`. -/
def Writer.DoneBy (writer : Writer) (n : ℕ) : Prop :=
  ∃ host version, writer = .returned host version ∧ version ≤ n

theorem Writer.DoneBy.mono {writer : Writer} {n n' : ℕ} (h : writer.DoneBy n) (hle : n ≤ n') :
    writer.DoneBy n' := by
  obtain ⟨host, version, hwriter, hversion⟩ := h
  exact ⟨host, version, hwriter, hversion.trans hle⟩

/-- A late call reads after the change. -/
def Flight.After (writer : Writer) (n : ℕ) : Flight → Prop
  | .idle => True
  | .asked c => c.late = true → writer.DoneBy n
  | .unmatched c _ first => first.version ≤ n ∧ (c.late = true → writer.DoneBy first.version)
  | .found l => l.first.version ≤ l.second.version ∧ (l.late = true → writer.DoneBy l.first.version)

/-- What holds on a server whose lookups write nothing stale. -/
structure AfterReturn (s : Server) : Prop where
  writer : ∀ host version, s.writer = .committed host version ∨ s.writer = .returned host version →
    version ≤ s.version
  flights : ∀ i, (s.flights i).After s.writer s.version
  entries : ∀ host version key, s.writer = .returned host version →
    normalizeHost (some host) = some key → ∀ x ∈ s.cache.entries, x.1 = key →
      ∃ f ∈ s.finished, f.Wrote x ∧ version ≤ f.first.version ∧
        f.first.version ≤ f.second.version

section Steps

variable {writer writer' : Writer} {n n' : ℕ} {s : Server}

theorem Flight.After.mono {flight : Flight} (h : flight.After writer n) (hle : n ≤ n')
    (hwriter : ∀ k, writer.DoneBy k → writer'.DoneBy k) : flight.After writer' n' := by
  cases flight with
  | idle => trivial
  | asked c => exact fun hlate => (hwriter _ (h hlate)).mono hle
  | unmatched c slug first => exact ⟨h.1.trans hle, fun hlate => hwriter _ (h.2 hlate)⟩
  | found l => exact ⟨h.1, fun hlate => hwriter _ (h.2 hlate)⟩

theorem Flight.After.readFlight {root : String} {here : Sighting} {flight : Flight}
    (h : flight.After writer here.version) :
    (readFlight root here flight).After writer here.version := by
  cases flight with
  | idle => trivial
  | found l => exact h
  | unmatched c slug first => exact h
  | asked c =>
    have hread : ∀ result, Flight.After writer here.version (.found ⟨c, result, here, here⟩) :=
      fun result => ⟨le_rfl, h⟩
    simp only [LampLight.readFlight]
    cases classifyHost c.host root with
    | apex => exact hread _
    | foreign host => exact hread _
    | subdomain slug =>
      dsimp only
      cases lookupTenantByHost here.db c.host with
      | some byHost => exact hread _
      | none =>
        dsimp only
        split_ifs
        · exact ⟨le_rfl, h⟩
        · exact hread _

theorem AfterReturn.recorded (h : AfterReturn s) : AfterReturn s.recorded :=
  ⟨h.writer, h.flights, h.entries⟩

theorem AfterReturn.fewer (h : AfterReturn s) {cache : TtlCache String CacheEntry}
    (hsub : cache.entries ⊆ s.cache.entries) : AfterReturn { s with cache := cache } :=
  { h with
    entries := fun host version key hwriter hkey x hx =>
      h.entries host version key hwriter hkey x (hsub hx) }

theorem AfterReturn.flight (h : AfterReturn s) (i : ℕ) {flight : Flight}
    (hflight : flight.After s.writer s.version) :
    AfterReturn { s with flights := Function.update s.flights i flight } :=
  { h with
    flights := by
      intro j
      show (Function.update s.flights i flight j).After s.writer s.version
      by_cases hij : j = i
      · subst hij
        rw [Function.update_self]
        exact hflight
      · rw [Function.update_of_ne hij]
        exact h.flights j }

theorem AfterReturn.change (h : AfterReturn s) (world : World) :
    AfterReturn { s with world := world, version := s.version + 1 } where
  writer := fun host version hwriter => (h.writer host version hwriter).trans (Nat.le_succ _)
  flights := fun i => (h.flights i).mono (Nat.le_succ _) fun _ hk => hk
  entries := h.entries

theorem AfterReturn.start (h : AfterReturn s) (i : ℕ) (rawHost : Option String) :
    AfterReturn (startCallAt s i rawHost) := by
  rw [startCallAt]
  split
  · next host hidle hhost =>
    have hread : AfterReturn { s with cache := (s.cache.get s.now host).2 } :=
      h.fewer fun x hx => TtlCache.mem_get hx
    split
    · next entry cache hget =>
      rw [hget] at hread
      exact hread
    · next cache hget =>
      rw [hget] at hread
      have hasked : Flight.After s.writer s.version
          (.asked ⟨rawHost, host, s.now, s.writer.hasReturned⟩) := by
        intro hlate
        cases hwriter : s.writer with
        | returned host version => exact ⟨host, version, rfl, h.writer _ _ (Or.inr hwriter)⟩
        | pending => simp [hwriter, Writer.hasReturned] at hlate
        | committed host version => simp [hwriter, Writer.hasReturned] at hlate
      exact hread.flight i hasked
  · exact h

theorem AfterReturn.write (h : AfterReturn s) (httl : s.cache.ttlMs = HIT_TTL_MS) {i : ℕ}
    {l : Lookup} (hflight : s.flights i = .found l) (hfresh : NoStaleWrite s (.write i)) :
    AfterReturn (writeLookup s i l) := by
  have hl : Flight.After s.writer s.version (.found l) := hflight ▸ h.flights i
  have hidle : AfterReturn { s with flights := Function.update s.flights i .idle } :=
    h.flight i trivial
  refine ⟨h.writer, hidle.flights, ?_⟩
  intro host version key hwriter hkey x hx hxkey
  have hwriter : s.writer = .returned host version := hwriter
  rcases mem_writeLookup httl hx with hnew | ⟨hold, -⟩
  · have hhost : l.host = x.1 := hnew.host
    simp only [NoStaleWrite, hwriter, hflight] at hfresh
    exact ⟨⟨l, s.now⟩, List.mem_cons_self .., hnew, hfresh (by rw [hkey, hhost, hxkey]), hl.1⟩
  · obtain ⟨f, hf, hrest⟩ := h.entries host version key hwriter hkey x hold hxkey
    exact ⟨f, List.mem_cons_of_mem _ hf, hrest⟩

/-- The change: nothing has returned yet. -/
theorem AfterReturn.commit (h : AfterReturn s) (hpending : s.writer = .pending) (host : String)
    (world : World) :
    AfterReturn { s with
      world := world
      version := s.version + 1
      writer := .committed host (s.version + 1) } where
  writer := by
    rintro host' version (hwriter | hwriter)
    · cases hwriter
      exact le_rfl
    · cases hwriter
  flights := by
    intro i
    refine (h.flights i).mono (Nat.le_succ _) ?_
    rintro k ⟨host', version, hwriter, -⟩
    rw [hpending] at hwriter
    cases hwriter
  entries := by
    intro host' version key hwriter
    cases hwriter

/-- The invalidation: no entry is left that it would have to be about. -/
theorem AfterReturn.finish (h : AfterReturn s) {host : String} {version : ℕ}
    (hcommitted : s.writer = .committed host version) :
    AfterReturn { s with
      cache := invalidateTenantCache s.cache (some host)
      writer := .returned host version } where
  writer := by
    rintro host' version' (hwriter | hwriter)
    · cases hwriter
    · cases hwriter
      exact h.writer host version (Or.inl hcommitted)
  flights := by
    intro i
    refine (h.flights i).mono le_rfl ?_
    rintro k ⟨host', version', hwriter, -⟩
    rw [hcommitted] at hwriter
    cases hwriter
  entries := by
    intro host' version' key hwriter hkey x hx hxkey
    cases hwriter
    exact absurd hxkey (invalidateTenantCache_gone hkey hx)

end Steps

/-! ### Every run -/

variable {env : Env} {client : Client}

theorem afterReturn_boot (world : World) (now : Instant) : AfterReturn (Server.boot world now) where
  writer := by
    rintro host version (hwriter | hwriter) <;> cases hwriter
  flights := fun _ => trivial
  entries := fun _ _ _ _ _ _ hx => nomatch hx

/-- A step that writes nothing stale. -/
theorem afterReturn_serve {s : Server} (hrecord : OnRecord env.tenantSubdomainRoot s)
    (h : AfterReturn s) {a : ServerAction} (hfresh : NoStaleWrite s a) :
    AfterReturn (serve env client s a) := by
  rw [serve]
  refine AfterReturn.recorded ?_
  cases a with
  | tick ms => exact ⟨h.writer, h.flights, h.entries⟩
  | change world => exact h.change world
  | invalidate host => exact h.fewer (invalidateTenantCache_entries s.cache host).1
  | start i rawHost => exact h.start i rawHost
  | read i =>
    have hflight : (s.flights i).After s.writer s.sighting.version := h.flights i
    exact h.flight i hflight.readFlight
  | write i =>
    simp only [serveStep]
    split
    · next l hflight => exact h.write hrecord.ttl hflight hfresh
    · exact h
  | commit op =>
    simp only [serveStep]
    split
    · next host world hpending _ => exact h.commit hpending host world
    · exact h
  | finish =>
    simp only [serveStep]
    split
    · next host version hcommitted => exact h.finish hcommitted
    · exact h

theorem freshAnswer_serve {s : Server} (hrecord : OnRecord env.tenantSubdomainRoot s)
    (h : AfterReturn s) {a : ServerAction} {answer : Answer}
    (hanswer : answered s a = some answer) :
    FreshAnswer env.tenantSubdomainRoot (serve env client s a) answer := by
  cases a with
  | start i rawHost =>
    simp only [answered] at hanswer
    split at hanswer
    · next hidle hnone =>
      cases hanswer
      rw [FreshAnswer]
      split
      · intro _ key _ hkey
        cases hnone.symm.trans hkey
      · trivial
    · next host hidle hhost =>
      obtain ⟨entry, hget, rfl⟩ := Option.map_eq_some_iff.mp hanswer
      obtain ⟨e, he, hvalue, -⟩ := TtlCache.get_eq_some hget
      obtain ⟨cache, flights, hstart⟩ := startCallAt_frame s i rawHost
      simp only [FreshAnswer, serve, serveStep, hstart]
      split
      · next host' version hwriter =>
        have hwriter : s.writer = .returned host' version := hwriter
        intro _ key hkey hraw
        obtain rfl : host = key := Option.some.inj (hhost.symm.trans hraw)
        obtain ⟨f, hf, hwrote, hfirst, hsecond⟩ :=
          h.entries host' version host hwriter hkey _ he rfl
        refine ⟨f, hf, hwrote.host, ?_, ?_, hfirst, hfirst.trans hsecond⟩
        · rw [← hvalue, hwrote.value, Lookup.entry_tenant?]
        · exact (hrecord.finished f hf).1.mono (List.subset_cons_self _ _) le_rfl
      · trivial
    · cases hanswer
  | write i =>
    simp only [answered] at hanswer
    split at hanswer
    · next l hflight =>
      cases hanswer
      have hread : l.Read env.tenantSubdomainRoot s.past s.now := by
        have := hrecord.flights i
        rwa [hflight] at this
      have hafter : Flight.After s.writer s.version (.found l) := hflight ▸ h.flights i
      simp only [FreshAnswer, serve, serveStep, hflight]
      split
      · next host version hwriter =>
        have hwriter : s.writer = .returned host version := hwriter
        intro hlate key _ hraw
        obtain ⟨host', version', hwriter', hversion⟩ := hafter.2 hlate
        cases hwriter.symm.trans hwriter'
        refine ⟨⟨l, s.now⟩, List.mem_cons_self .., ?_, rfl,
          hread.mono (List.subset_cons_self _ _) le_rfl, hversion, hversion.trans hafter.1⟩
        exact Option.some.inj (hread.call.host.symm.trans hraw)
      · trivial
    · cases hanswer
  | _ => cases hanswer

/-- **An invalidation holds while no write is stale.** In a run none of whose lookups writes after
the operation's return what it began to read before its change, every call for the operation's host
that begins after the return is answered from after the change. -/
theorem freshAnswer_run (env : Env) (client : Client) (world : World) (now : Instant)
    (as : List ServerAction) (hfresh : Meets (serve env client) NoStaleWrite
      (Server.boot world now) as) :
    Meets (serve env client) (fun s a => ∀ answer, answered s a = some answer →
        FreshAnswer env.tenantSubdomainRoot (serve env client s a) answer)
      (Server.boot world now) as := by
  have hpres : Preserves (serve env client) NoStaleWrite
      (fun s => OnRecord env.tenantSubdomainRoot s ∧ AfterReturn s) :=
    fun s a hstep h => ⟨onRecord_serve h.1 a, afterReturn_serve h.1 h.2 hstep⟩
  refine Machine.Meets.of_invariant hpres ?_
    ⟨onRecord_boot _ world now, afterReturn_boot world now⟩ hfresh
  intro s a h _ answer hanswer
  exact freshAnswer_serve h.1 h.2 hanswer

/-! ### A removal -/

/-- Institute 1 with its hostname. -/
def learnServer : Server := Server.boot (run (step lamplight) (initial [operator]) learnRun) 20

/-- A domain of an institute's own. -/
def learnHost : String := "learn.institute.edu"

/-- Its hostname is removed. -/
def removal : List ServerAction :=
  [.commit (.remove 1 12 (answerAbout "cf-1" "learn.institute.edu" "deleted" "deleted")), .finish]

theorem freshAnswer_run_removal :
    let as := [.start 0 (some learnHost), .read 0, .write 0] ++ removal ++
      [.start 1 (some learnHost), .read 1, .write 1, .start 2 (some learnHost)]
    Meets (serve lamplight.env lamplight.client) (fun s a => ∀ answer, answered s a = some answer →
        FreshAnswer lamplight.env.tenantSubdomainRoot (serve lamplight.env lamplight.client s a)
          answer) learnServer as :=
  freshAnswer_run lamplight.env lamplight.client
    (run (step lamplight) (initial [operator]) learnRun) 20 _ (by decide +kernel)

/-- The lookup reads before the removal and writes after it: the next visitor is served by a tenant
that no database has named for this host since. -/
theorem removed_host_still_served :
    let s := run (serve lamplight.env lamplight.client) learnServer
      ([.start 0 (some learnHost), .read 0] ++ removal ++ [.write 0])
    let answer : Answer := ⟨some learnHost, some ⟨⟨1, "grace", "Grace"⟩, learnHost⟩, true⟩
    s.writer = .returned learnHost 1 ∧
      (∀ seen ∈ s.past, 1 ≤ seen.version →
        lookupUncached seen.db learnHost lamplight.env.tenantSubdomainRoot = none) ∧
      answered s (.start 1 (some learnHost)) = some answer ∧
      ¬ FreshAnswer lamplight.env.tenantSubdomainRoot
        (serve lamplight.env lamplight.client s (.start 1 (some learnHost))) answer := by
  intro s answer
  let after : Server := serve lamplight.env lamplight.client s (.start 1 (some learnHost))
  -- One evaluation of the run: what it leaves, and what the next lookup leaves.
  have hrun : (s.writer = .returned learnHost 1 ∧
      (∀ seen ∈ s.past, 1 ≤ seen.version →
        lookupUncached seen.db learnHost lamplight.env.tenantSubdomainRoot = none) ∧
      answered s (.start 1 (some learnHost)) = some answer) ∧
      (∀ f ∈ after.finished, ¬ 1 ≤ f.first.version) ∧ after.writer = .returned learnHost 1 := by
    decide +kernel
  obtain ⟨⟨hreturned, hpast, hanswered⟩, hstale, hwriter⟩ := hrun
  refine ⟨hreturned, hpast, hanswered, fun h => ?_⟩
  simp only [FreshAnswer, show (serve lamplight.env lamplight.client s
    (.start 1 (some learnHost))).writer = .returned learnHost 1 from hwriter] at h
  have hkey : normalizeHost (some learnHost) = some learnHost := by decide +kernel
  obtain ⟨f, hf, -, -, -, hfirst, -⟩ := h rfl learnHost hkey hkey
  exact hstale f hf hfirst

end LampLight
