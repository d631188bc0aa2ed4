import LampLight.Auth.Hijack
import LampLight.Cache.Refinement
import LampLight.Storage.Keys

/-!
# How often a reset can be asked for

The form for a password reset mails an address that whoever fills it in need not own. So the route
remembers, for some minutes, which address was asked for at which institute, and asks the library
once for each. The memory is a `TtlCache`, of one process, and no request waits between reading it
and writing it.

## Main definitions

* `ResetServer`, `resetPOST` — the route with its memory
* `suppresses` — a request is answered and goes no further

## Main results

* `reset_cooldown` — which requests are suppressed, after any requests at any institutes
-/

namespace LampLight

open Js (Json)
open Machine (run)

/-- How long an address waits between two reset mails of one institute. -/
def COOLDOWN_MS : ℤ := 5 * 60 * 1000

/-- How many addresses are remembered. -/
def RECENT_ENTRIES : ℕ := 10000

/-- A request to `POST /api/tenant/reset-request`, with what the library draws for it. -/
structure ResetRequest where
  tenant : Option TenantContext
  body : Option Json
  draw : AuthDraw
  now : Instant

/-- The institute and the address of a request that has both. -/
def ResetRequest.asks (r : ResetRequest) : Option (Uuid × String) :=
  match r.tenant with
  | none => none
  | some tenant =>
    match readBody invalidRequest r.body with
    | .error _ => none
    | .ok body =>
      let email := normalizeEmail (textField body "email")
      if '@' ∉ email.toList then none else some (tenant.id, email)

/-- The key of the memory, which has the institute in it as well as the address. -/
def cooldownKey (who : Uuid × String) : String := uuidText who.1 ++ ":" ++ who.2

/-- What the route reads and writes: the world, and its memory of recent requests. -/
structure ResetServer where
  world : AuthWorld
  recent : TtlCache String Bool

namespace ResetServer

/-- A process that has just been started. -/
def started (world : AuthWorld) : ResetServer := ⟨world, .empty RECENT_ENTRIES COOLDOWN_MS⟩

/-- The cooldown of an address runs. -/
def suppresses (s : ResetServer) (now : Instant) (who : Uuid × String) : Bool :=
  (s.recent.get now (cooldownKey who)).1.getD false

end ResetServer

/-- The memory after a request. -/
def visit (recent : TtlCache String Bool) (now : Instant) (who : Uuid × String) :
    TtlCache String Bool :=
  let hit := recent.get now (cooldownKey who)
  if hit.1.getD false then hit.2 else hit.2.set now (cooldownKey who) true none

/-- `POST /api/tenant/reset-request` with its cooldown, and the letter it wants sent. -/
def resetPOST (lib : BetterAuth) (s : ResetServer) (r : ResetRequest) :
    RouteResponse × Option Letter × ResetServer :=
  match r.asks with
  | none =>
    let result := resetRequest lib s.world r.tenant r.body false r.draw
    (result.1, result.2.1, { s with world := result.2.2 })
  | some who =>
    let result := resetRequest lib s.world r.tenant r.body (s.suppresses r.now who) r.draw
    (result.1, result.2.1, { world := result.2.2, recent := visit s.recent r.now who })

/-- Requests, and whatever else happens to the world. -/
inductive ResetAction
  | request (r : ResetRequest)
  | elsewhere (world : AuthWorld)

/-- One request, or whatever else happens in between. -/
def resetStep (lib : BetterAuth) (s : ResetServer) : ResetAction → ResetServer
  | .request r => (resetPOST lib s r).2.2
  | .elsewhere world => { s with world := world }

/-- Whom an action asks for, and when. -/
def ResetAction.asks : ResetAction → Option (Instant × (Uuid × String))
  | .request r => r.asks.map fun who => (r.now, who)
  | .elsewhere _ => none

/-- The requests of a run that ask for somebody. -/
def visits (actions : List ResetAction) : List (Instant × (Uuid × String)) :=
  actions.filterMap ResetAction.asks

/-! ### The key -/

theorem cooldownKey_injective : Function.Injective cooldownKey := by
  rintro ⟨t, email⟩ ⟨t', email'⟩ h
  have htext := congrArg String.toList h
  simp only [cooldownKey, String.toList_append, List.append_assoc] at htext
  obtain ⟨huuid, hrest⟩ := List.append_inj htext
    ((length_uuidText t).trans (length_uuidText t').symm)
  have hemail := (List.append_inj hrest rfl).2
  rw [uuidText_toList_inj huuid, String.toList_inj.mp hemail]

/-! ### The memory alone -/

section Memory

variable {c : TtlCache String Bool} {now at_ : Instant} {who : Uuid × String}
  {vs : List (Instant × (Uuid × String))}

/-- What a visit does to the memory. -/
def visitOps (c : TtlCache String Bool) (v : Instant × (Uuid × String)) :
    List (ℤ × CacheOp String Bool) :=
  (v.1, .get (cooldownKey v.2)) ::
    if (c.get v.1 (cooldownKey v.2)).1.getD false then []
    else [(v.1, .set (cooldownKey v.2) true none)]

/-- What a list of visits does. -/
def visitsOps : TtlCache String Bool → List (Instant × (Uuid × String)) →
    List (ℤ × CacheOp String Bool)
  | _, [] => []
  | c, v :: vs => visitOps c v ++ visitsOps (visit c v.1 v.2) vs

/-- The memory after a list of visits. -/
def visited (c : TtlCache String Bool) (vs : List (Instant × (Uuid × String))) :
    TtlCache String Bool :=
  run (fun c v => visit c v.1 v.2) c vs

theorem run_visitOps (c : TtlCache String Bool) (v : Instant × (Uuid × String)) :
    run TtlCache.step c (visitOps c v) = visit c v.1 v.2 := by
  rw [visitOps, visit]
  split_ifs with hhit
  · rfl
  · rfl

theorem run_visitsOps (c : TtlCache String Bool) (vs : List (Instant × (Uuid × String))) :
    run TtlCache.step c (visitsOps c vs) = visited c vs := by
  induction vs generalizing c with
  | nil => rfl
  | cons v vs ih => rw [visitsOps, Machine.run_append, run_visitOps, ih, visited, visited,
      Machine.run_cons]

/-- Every entry says `true`. -/
def Marks (c : TtlCache String Bool) : Prop := ∀ x ∈ c.entries, x.2.value = true

theorem Marks.getD_get (h : Marks c) (key : String) :
    (c.get now key).1.getD false = (c.get now key).1.isSome := by
  cases hget : (c.get now key).1 with
  | none => rfl
  | some value =>
    obtain ⟨e, he, rfl, -⟩ := TtlCache.get_eq_some hget
    exact h _ he

theorem Marks.visit (h : Marks c) : Marks (visit c now who) := by
  have hread : Marks (c.get now (cooldownKey who)).2 := fun x hx => h x (TtlCache.mem_get hx)
  rw [LampLight.visit]
  split_ifs
  · exact hread
  · intro x hx
    rcases TtlCache.mem_set hx with rfl | ⟨hold, -⟩
    · rfl
    · exact hread x hold

/-- Every visit uses its own key and no other. -/
theorem uses_visitsOps (h : Marks c) (vs : List (Instant × (Uuid × String))) :
    c.uses (visitsOps c vs) = vs.map fun v => cooldownKey v.2 := by
  have happend : ∀ (c : TtlCache String Bool) (ops more : List (ℤ × CacheOp String Bool)),
      c.uses (ops ++ more) = c.uses ops ++ (run TtlCache.step c ops).uses more := by
    intro c ops more
    induction ops generalizing c with
    | nil => rfl
    | cons op ops ih =>
      rw [List.cons_append, TtlCache.uses, ih, TtlCache.uses, List.append_assoc]
      rfl
  induction vs generalizing c with
  | nil => rfl
  | cons v vs ih =>
    have hone : c.uses (visitOps c v) = [cooldownKey v.2] := by
      have hhit : (c.get v.1 (cooldownKey v.2)).1.getD false
          = (c.get v.1 (cooldownKey v.2)).1.isSome := h.getD_get _
      rw [visitOps, hhit]
      cases hget : (c.get v.1 (cooldownKey v.2)).1 with
      | none => simp [TtlCache.uses, TtlCache.used, hget]
      | some value => simp [TtlCache.uses, TtlCache.used, hget]
    rw [visitsOps, happend, hone, run_visitOps, ih h.visit]
    rfl

theorem visitsOps_append (c : TtlCache String Bool) (vs ws : List (Instant × (Uuid × String))) :
    visitsOps c (vs ++ ws) = visitsOps c vs ++ visitsOps (visited c vs) ws := by
  induction vs generalizing c with
  | nil => rfl
  | cons v vs ih =>
    rw [List.cons_append, visitsOps, ih, visitsOps, List.append_assoc]
    rfl

/-- What is set is set by a visit that was not suppressed. -/
theorem mem_visitsOps_set {key : String} {value : Bool} {ttl : Option ℤ}
    (h : (at_, .set key value ttl) ∈ visitsOps c vs) :
    value = true ∧ ttl = none ∧ ∃ pre who post, vs = pre ++ (at_, who) :: post ∧
      key = cooldownKey who ∧
      ((visited c pre).get at_ (cooldownKey who)).1.getD false = false := by
  induction vs generalizing c with
  | nil => cases h
  | cons v vs ih =>
    rcases List.mem_append.mp h with hhere | hlater
    · rw [visitOps, List.mem_cons] at hhere
      rcases hhere with hget | hset
      · cases hget
      · split_ifs at hset with hhit
        · cases hset
        · obtain ⟨rfl, heq⟩ := Prod.mk.inj (List.mem_singleton.mp hset)
          obtain ⟨rfl, rfl, rfl⟩ := CacheOp.set.inj heq
          exact ⟨rfl, rfl, [], v.2, vs, rfl, rfl, by simpa [visited] using hhit⟩
    · obtain ⟨hvalue, httl, pre, who, post, rfl, hkey, hmiss⟩ := ih hlater
      exact ⟨hvalue, httl, v :: pre, who, post, rfl, hkey, hmiss⟩

/-- A visit that was not suppressed sets its key. -/
theorem set_mem_visitsOps {pre post : List (Instant × (Uuid × String))}
    (hmiss : ((visited c pre).get at_ (cooldownKey who)).1.getD false = false) :
    (at_, .set (cooldownKey who) true none) ∈ visitsOps c (pre ++ (at_, who) :: post) := by
  rw [visitsOps_append]
  refine List.mem_append_right _ (List.mem_append_left _ ?_)
  rw [visitOps, hmiss]
  exact List.mem_cons_of_mem _ (List.mem_singleton_self _)

/-- A visit reads its key, and may set it. -/
theorem mem_visitsOps {op : ℤ × CacheOp String Bool} (h : op ∈ visitsOps c vs) :
    ∃ v ∈ vs, op = (v.1, .get (cooldownKey v.2)) ∨
      op = (v.1, .set (cooldownKey v.2) true none) := by
  induction vs generalizing c with
  | nil => cases h
  | cons v vs ih =>
    rcases List.mem_append.mp h with hhere | hlater
    · rw [visitOps, List.mem_cons] at hhere
      refine ⟨v, List.mem_cons_self .., hhere.imp_right fun hset => ?_⟩
      split_ifs at hset
      · cases hset
      · exact List.mem_singleton.mp hset
    · obtain ⟨v', hv', hop⟩ := ih hlater
      exact ⟨v', List.mem_cons_of_mem _ hv', hop⟩

theorem time_mem_of_mem_visitsOps {op : ℤ × CacheOp String Bool} (h : op ∈ visitsOps c vs) :
    op.1 ∈ vs.map Prod.fst := by
  obtain ⟨v, hv, rfl | rfl⟩ := mem_visitsOps h
  · exact List.mem_map_of_mem hv
  · exact List.mem_map_of_mem hv

theorem pairwise_visitsOps (hclock : (vs.map Prod.fst).Pairwise (· ≤ ·)) :
    ((visitsOps c vs).map Prod.fst).Pairwise (· ≤ ·) := by
  induction vs generalizing c with
  | nil => exact List.Pairwise.nil
  | cons v vs ih =>
    obtain ⟨hfirst, hrest⟩ := List.pairwise_cons.mp hclock
    have hhere : ∀ t ∈ (visitOps c v).map Prod.fst, t = v.1 := by
      intro t ht
      rw [visitOps] at ht
      split_ifs at ht <;> simpa using ht
    have hone : ((visitOps c v).map Prod.fst).Pairwise (· ≤ ·) :=
      List.pairwise_of_forall_mem_list fun a ha b hb => by rw [hhere a ha, hhere b hb]
    rw [visitsOps, List.map_append]
    refine List.pairwise_append.mpr ⟨hone, ih hrest, fun a ha b hb => ?_⟩
    obtain ⟨op, hop, rfl⟩ := List.mem_map.mp hb
    rw [hhere a ha]
    exact hfirst _ (time_mem_of_mem_visitsOps hop)

/-- A key that was set once and never taken away was set last at that time or later. -/
theorem exists_lastSet {ops : List (ℤ × CacheOp String Bool)} {key : String}
    (hsets : ∀ op ∈ ops, op.2.Ends key → op.2 = .set key true none)
    (hclock : (ops.map Prod.fst).Pairwise (· ≤ ·)) (h : (at_, .set key true none) ∈ ops) :
    ∃ last, at_ ≤ last ∧ LastSet ops key last true none := by
  induction ops using List.reverseRecOn with
  | nil => cases h
  | append_singleton ops op ih =>
    rw [List.map_append, List.pairwise_append] at hclock
    by_cases hends : op.2.Ends key
    · obtain ⟨t, op⟩ := op
      obtain rfl : op = .set key true none := hsets _ (by simp) hends
      refine ⟨t, ?_, lastSet_append_self _ _ _ _ _⟩
      rcases List.mem_append.mp h with hold | hnew
      · exact hclock.2.2 at_ (List.mem_map_of_mem hold) t (by simp)
      · exact le_of_eq (Prod.mk.inj (List.mem_singleton.mp hnew)).1
    · have hold : (at_, .set key true none) ∈ ops := by
        rcases List.mem_append.mp h with hold | hnew
        · exact hold
        · exact absurd (show op.2.Ends key by rw [← List.mem_singleton.mp hnew]; rfl) hends
      obtain ⟨last, hle, hlast⟩ :=
        ih (fun o ho => hsets o (List.mem_append_left _ ho)) hclock.1 hold
      exact ⟨last, hle, (lastSet_append_of_not_ends hends).mpr hlast⟩

/-- The memory of a process that has just been started, after a list of visits: it knows the visits
of the last `COOLDOWN_MS` that it did not answer itself, unless too many others came since. -/
theorem visited_get (who : Uuid × String)
    (hclock : (vs.map Prod.fst ++ [now]).Pairwise (· ≤ ·))
    (hc : c = .empty RECENT_ENTRIES COOLDOWN_MS) :
    (((visited c vs).get now (cooldownKey who)).1.getD false = true →
      ∃ pre t post, vs = pre ++ (t, who) :: post ∧
        ((visited c pre).get t (cooldownKey who)).1.getD false = false ∧ now < t + COOLDOWN_MS) ∧
    ∀ pre t post, vs = pre ++ (t, who) :: post →
      ((visited c pre).get t (cooldownKey who)).1.getD false = false → now < t + COOLDOWN_MS →
        post.length < RECENT_ENTRIES →
          ((visited c vs).get now (cooldownKey who)).1.getD false = true := by
  obtain ⟨hvs, hnow⟩ := List.pairwise_append.mp hclock |>.imp_right And.right
  have hops : ((visitsOps c vs).map Prod.fst ++ [now]).Pairwise (· ≤ ·) := by
    refine List.pairwise_append.mpr ⟨pairwise_visitsOps hvs, List.pairwise_singleton _ _, ?_⟩
    intro t ht
    obtain ⟨op, hop, rfl⟩ := List.mem_map.mp ht
    exact hnow _ (time_mem_of_mem_visitsOps hop)
  have hran : TtlCache.ran RECENT_ENTRIES COOLDOWN_MS (visitsOps c vs) = visited c vs := by
    rw [TtlCache.ran, ← hc, run_visitsOps]
  obtain ⟨hhit, hheld⟩ := (ttlCache_refines RECENT_ENTRIES COOLDOWN_MS _ now hops).2
    (cooldownKey who) true
  rw [hran] at hhit hheld
  constructor
  · intro h
    have hget : ((visited c vs).get now (cooldownKey who)).1 = some true := by
      cases hfound : ((visited c vs).get now (cooldownKey who)).1 with
      | none => rw [hfound] at h; cases h
      | some value => rw [hfound] at h; exact congrArg some h
    obtain ⟨t, ttl, ⟨before, after, heq, -⟩, hlive⟩ := hhit hget
    have hset : (t, .set (cooldownKey who) true ttl) ∈ visitsOps c vs := by
      rw [heq]
      exact List.mem_append_right _ (List.mem_cons_self ..)
    obtain ⟨-, rfl, pre, who', post, rfl, hkey, hmiss⟩ := mem_visitsOps_set hset
    obtain rfl := cooldownKey_injective hkey
    exact ⟨pre, t, post, rfl, hmiss, hlive⟩
  · rintro pre t post rfl hmiss hlive hfew
    have hmarks : Marks c := by
      rw [hc]
      exact fun x hx => absurd hx List.not_mem_nil
    have hsets : ∀ op ∈ visitsOps c (pre ++ (t, who) :: post), op.2.Ends (cooldownKey who) →
        op.2 = .set (cooldownKey who) true none := by
      intro op hop hends
      obtain ⟨v, -, rfl | rfl⟩ := mem_visitsOps hop
      · exact hends.elim
      · rw [show cooldownKey v.2 = cooldownKey who from hends]
    obtain ⟨last, hle, hlast⟩ :=
      exists_lastSet hsets (pairwise_visitsOps hvs) (set_mem_visitsOps hmiss)
    have huses : Recency.others (cooldownKey who)
        (TtlCache.uses (.empty RECENT_ENTRIES COOLDOWN_MS)
          (visitsOps c (pre ++ (t, who) :: post))) ≤ post.length := by
      rw [← hc, uses_visitsOps hmarks, List.map_append, List.map_cons]
      exact (Recency.others_le_length _ _ _).trans (le_of_eq (List.length_map ..))
    have hlater : now < last + COOLDOWN_MS := hlive.trans_le (add_le_add hle le_rfl)
    rw [hheld last none hlast hlater (lt_of_le_of_lt huses hfew)]
    rfl

end Memory

/-! ### The route -/

section Route

variable {r : ResetRequest} {who : Uuid × String}

/-- A request that asks for somebody is answered the same way, and is suppressed or asks the
library. -/
theorem resetPOST_eq (lib : BetterAuth) (s : ResetServer) (hasks : r.asks = some who) :
    (resetPOST lib s r).1 = RESET_RESPONSE ∧
    (resetPOST lib s r).2 = if s.suppresses r.now who then
        (none, { s with recent := visit s.recent r.now who })
      else
        let effect := lib.requestPasswordReset who.2 r.draw s.world.db.toIdentity
        (effect.resetMail.bind (sendResetPassword (r.tenant.map fun t => ⟨t.host, t.name⟩)),
          ⟨s.world.absorb [] r.draw effect, visit s.recent r.now who⟩) := by
  have hPOST : resetPOST lib s r =
      ((resetRequest lib s.world r.tenant r.body (s.suppresses r.now who) r.draw).1,
        (resetRequest lib s.world r.tenant r.body (s.suppresses r.now who) r.draw).2.1,
        ⟨(resetRequest lib s.world r.tenant r.body (s.suppresses r.now who) r.draw).2.2,
          visit s.recent r.now who⟩) := by
    rw [resetPOST, hasks]
  obtain ⟨tenant, body, draw, now⟩ := r
  rw [hPOST]
  cases tenant with
  | none => cases hasks
  | some tenant =>
    rw [ResetRequest.asks] at hasks
    cases hbody : readBody invalidRequest body with
    | error response => simp [hbody] at hasks
    | ok fields =>
      simp only [hbody] at hasks
      split_ifs at hasks with hat
      obtain rfl := Option.some.inj hasks
      simp only [resetRequest, hbody, if_neg (not_not.mpr hat)]
      split_ifs <;> exact ⟨rfl, rfl⟩

theorem visits_append (actions more : List ResetAction) :
    visits (actions ++ more) = visits actions ++ visits more :=
  List.filterMap_append ..

theorem visits_request_of_asks (hasks : r.asks = some who) (actions : List ResetAction) :
    visits (.request r :: actions) = (r.now, who) :: visits actions :=
  List.filterMap_cons_some (by rw [ResetAction.asks, hasks, Option.map_some])

theorem visits_request_of_none (hasks : r.asks = none) (actions : List ResetAction) :
    visits (.request r :: actions) = visits actions :=
  List.filterMap_cons_none (by rw [ResetAction.asks, hasks, Option.map_none])

/-- The memory of a run is that of its visits. -/
theorem recent_run (lib : BetterAuth) (s : ResetServer) (actions : List ResetAction) :
    (run (resetStep lib) s actions).recent = visited s.recent (visits actions) := by
  induction actions generalizing s with
  | nil => rfl
  | cons action actions ih =>
    rw [Machine.run_cons, ih]
    cases action with
    | elsewhere world => rfl
    | request r =>
      cases hasks : r.asks with
      | none =>
        have hsame : (resetStep lib s (.request r)).recent = s.recent := by
          rw [resetStep, resetPOST, hasks]
        rw [hsame, visits_request_of_none hasks]
      | some who =>
        have hvisit : (resetStep lib s (.request r)).recent = visit s.recent r.now who := by
          rw [resetStep, resetPOST, hasks]
        rw [hvisit, visits_request_of_asks hasks]
        rfl

/-- A visit of a run is a request of it. -/
theorem visits_eq_append {actions : List ResetAction} {pre post : List (Instant × (Uuid × String))}
    {t : Instant} (h : visits actions = pre ++ (t, who) :: post) :
    ∃ before r after, actions = before ++ .request r :: after ∧ r.asks = some who ∧ r.now = t ∧
      visits before = pre ∧ visits after = post := by
  obtain ⟨before, rest, rfl, hpre, hrest⟩ := List.filterMap_eq_append_iff.mp h
  obtain ⟨skipped, action, after, rfl, hskipped, haction, hpost⟩ :=
    List.filterMap_eq_cons_iff.mp hrest
  cases action with
  | elsewhere world => cases haction
  | request r =>
    obtain ⟨who', hasks, hwho⟩ := Option.map_eq_some_iff.mp haction
    obtain ⟨rfl, rfl⟩ := Prod.mk.inj hwho
    refine ⟨before ++ skipped, r, after, by simp, hasks, rfl, ?_, hpost⟩
    have hnobody : visits skipped = [] := List.filterMap_eq_nil_iff.mpr hskipped
    rw [visits_append, hnobody, List.append_nil]
    exact hpre

/-- **How often a reset can be asked for.** Whatever came before, on a clock that does not go back:
a request for an address is answered in one way. If it is suppressed, then it mails nobody and
changes nothing in the world, and a request for the same address at the same institute went through
within the last `COOLDOWN_MS`. And it is suppressed if there was one, unless `RECENT_ENTRIES`
requests came since. -/
theorem reset_cooldown (lib : BetterAuth) (w : AuthWorld) (before : List ResetAction)
    (r : ResetRequest) (who : Uuid × String)
    (hclock : ((visits before).map Prod.fst ++ [r.now]).Pairwise (· ≤ ·))
    (hasks : r.asks = some who) :
    (resetPOST lib (run (resetStep lib) (.started w) before) r).1 = RESET_RESPONSE ∧
    ((run (resetStep lib) (.started w) before).suppresses r.now who = true →
      (resetPOST lib (run (resetStep lib) (.started w) before) r).2.1 = none ∧
      (resetPOST lib (run (resetStep lib) (.started w) before) r).2.2.world
        = (run (resetStep lib) (.started w) before).world ∧
      ∃ pre earlier post, before = pre ++ .request earlier :: post ∧ earlier.asks = some who ∧
        (run (resetStep lib) (.started w) pre).suppresses earlier.now who = false ∧
        r.now < earlier.now + COOLDOWN_MS) ∧
    ∀ pre earlier post, before = pre ++ .request earlier :: post → earlier.asks = some who →
      (run (resetStep lib) (.started w) pre).suppresses earlier.now who = false →
        r.now < earlier.now + COOLDOWN_MS → (visits post).length < RECENT_ENTRIES →
          (run (resetStep lib) (.started w) before).suppresses r.now who = true := by
  have hsuppresses : ∀ (actions : List ResetAction) (now : Instant),
      (run (resetStep lib) (.started w) actions).suppresses now who
        = ((visited (.empty RECENT_ENTRIES COOLDOWN_MS) (visits actions)).get now
            (cooldownKey who)).1.getD false := by
    intro actions now
    rw [ResetServer.suppresses, recent_run]
    rfl
  obtain ⟨hresponse, heffect⟩ :=
    resetPOST_eq lib (run (resetStep lib) (.started w) before) hasks
  obtain ⟨hhit, hheld⟩ := visited_get who hclock rfl
  refine ⟨hresponse, fun hsupp => ?_, fun pre earlier post heq hearlier hpassed hrecent hfew => ?_⟩
  · rw [heffect, if_pos hsupp]
    rw [hsuppresses] at hsupp
    obtain ⟨pre, t, post, hvisits, hmiss, hlive⟩ := hhit hsupp
    obtain ⟨front, earlier, back, rfl, hearlier, rfl, rfl, -⟩ := visits_eq_append hvisits
    exact ⟨rfl, rfl, front, earlier, back, rfl, hearlier, by rw [hsuppresses, hmiss], hlive⟩
  · rw [hsuppresses]
    refine hheld (visits pre) earlier.now (visits post) ?_ ?_ hrecent hfew
    · rw [heq, visits_append, visits_request_of_asks hearlier]
    · rw [← hsuppresses, hpassed]

end Route

section Example

/-- Somebody fills in the form of an institute. -/
def resetForm (tenant : TenantContext) (email : String) (now : Instant) : ResetRequest where
  tenant := some tenant
  body := some (.obj [("email", .str email)])
  draw := { id := 0, token := "reset", now := now }
  now := now

/-- The same address at two institutes. -/
def twoForms : List ResetAction :=
  [.request (resetForm graceHost "ada@example.edu" 0),
    .request (resetForm { graceHost with id := 2, slug := "other" } "ada@example.edu" 1000)]

/-- Four minutes later the first institute is not asked again, however the address is written. -/
theorem reset_cooldown_twoForms :
    (run (resetStep plainAuth) (.started openHouse) twoForms).suppresses 240000
        (1, "ada@example.edu") = true ∧
      (resetPOST plainAuth (run (resetStep plainAuth) (.started openHouse) twoForms)
        (resetForm graceHost " Ada@Example.edu" 240000)).2.1 = none := by
  obtain ⟨-, hsuppressed, hwithin⟩ := reset_cooldown plainAuth openHouse twoForms
    (resetForm graceHost " Ada@Example.edu" 240000) (1, "ada@example.edu") (by decide) (by decide)
  have hhit := hwithin [] (resetForm graceHost "ada@example.edu" 0) _ rfl (by decide) (by decide)
    (by decide) (by decide)
  exact ⟨hhit, (hsuppressed hhit).1⟩

end Example

end LampLight
