import LampLight.Domains.Lifecycle
import LampLight.Foundation.Interleave
import Mathlib.Data.Fintype.Basic

/-!
# Issuing, one statement at a time

`issueInvitation` runs in a transaction of three statements, and the isolation level is read
committed: each statement sees what is committed when it runs, and what its own transaction has
done. Two such transactions for one address that have both withdrawn the older invitation before
either commits do not see each other's row, and leave two.

Everything else that touches invitations is one step here. A row that a transaction withdraws, but
that somebody consumes before it commits, stays.

## Main definitions

* `issueStep`, `rosterStep` — the statements of an issue, and the other transactions
* `OneLive` — at most one link of an address works
* `Supersedes` — an invitation that comes in is the only one of its address
* `ClearsAlone` — no two issues of one address are between withdrawal and commit

## Main results

* `issue_alone` — a transaction that is not interrupted does what `issueInvitation` does
* `oneLive_run` — one link of an address works, the latest, while issues clear alone
* `two_links` — two issues of one address, and two links that work
-/

namespace LampLight

open Machine (run Meets)

/-! ### The statements -/

/-- `eq(tenantId), eq(email), isNull(consumedAt)`. -/
def isPendingFor (tenantId : Uuid) (email : String) (i : SignupInvitationRow) : Bool :=
  i.tenantId = tenantId && i.email = email && i.consumedAt.isNone

/-- The row an issue inserts. -/
def issuedRow (hashToken : String → String) (request : InvitationRequest) (draw : InvitationDraw) :
    SignupInvitationRow :=
  let minted := mintInvitationToken hashToken draw.token draw.mintedAt
  { id := draw.id
    tenantId := request.tenantId
    email := normalizeEmail request.email
    firstName := request.firstName
    lastName := request.lastName
    answersJson := request.answers.getD []
    role := (request.role.getD .student).toMembership
    tokenHash := minted.tokenHash
    expiresAt := minted.expiresAt
    consumedAt := none
    createdAt := draw.createdAt }

/-- The database without the pending invitations that a transaction has withdrawn. -/
def Database.without (db : Database) (withdrawn : List Uuid) : Database :=
  { db with
    signupInvitations :=
      Table.delete (fun i => i.id ∈ withdrawn && i.consumedAt.isNone) db.signupInvitations }

/-- How far a transaction has come: what it has withdrawn and written is not committed yet. -/
inductive RosterPhase
  | start
  | checked
  | cleared (withdrawn : List Uuid)
  | written (withdrawn : List Uuid) (row : SignupInvitationRow)
  | done

/-- What happens to invitations. -/
inductive RosterCall
  | issue (request : InvitationRequest) (draw : InvitationDraw)
  | activate (tenantId invitationId userId : Uuid) (now : Instant)
  | sweep (tenantId : Uuid) (now : Instant)
  | provision (call : ProvisionCall)

variable (env : Env) (hashToken : String → String)

/-- The next statement of an issue. -/
def issueStep (request : InvitationRequest) (draw : InvitationDraw) (phase : RosterPhase)
    (db : Database) : RosterPhase × Database :=
  let pending := isPendingFor request.tenantId (normalizeEmail request.email)
  match phase with
  | .start =>
    if db.signupInvitations.any fun i =>
        pending i && draw.checkedAt - RESEND_COOLDOWN_MS < i.createdAt then (.done, db)
    else (.checked, db)
  | .checked => (.cleared ((db.signupInvitations.filter pending).map (·.id)), db)
  | .cleared withdrawn =>
    match (db.without withdrawn).insertSignupInvitation (issuedRow hashToken request draw) with
    | .ok _ => (.written withdrawn (issuedRow hashToken request draw), db)
    | .error _ => (.done, db)
  | .written withdrawn row =>
    -- The constraints hold against whatever has been committed by now.
    match (db.without withdrawn).insertSignupInvitation row with
    | .ok db' => (.done, db')
    | .error _ => (.done, db)
  | .done => (.done, db)

/-- A transaction of one step, which leaves the database alone when it fails. -/
def transact (r : Except DbError Database) (db : Database) : Database :=
  match r with
  | .ok db' => db'
  | .error _ => db

/-- The next statement of a call, or the whole transaction where it is one step. -/
def rosterStep (call : RosterCall) (phase : RosterPhase) (db : Database) :
    RosterPhase × Database :=
  match call with
  | .issue request draw => issueStep hashToken request draw phase db
  | .activate tenantId invitationId userId now =>
    (.done, transact
      ((completeActivation db tenantId invitationId userId now).map fun r => r.2) db)
  | .sweep tenantId now => (.done, (sweepInvitations db tenantId now).2)
  | .provision call => (.done, transact (insertInstitute env hashToken db call) db)

/-- The process `i` moves. -/
def rosterTurn {ι : Type*} [DecidableEq ι] (calls : ι → RosterCall) :
    Interleave.Config ι RosterPhase Database → ι → Interleave.Config ι RosterPhase Database :=
  Interleave.turn fun i => rosterStep env hashToken (calls i)

/-- No call has begun. -/
def Database.opened {ι : Type*} (db : Database) : Interleave.Config ι RosterPhase Database where
  phase _ := .start
  shared := db

/-! ### A transaction on its own -/

/-- With nobody in between, withdrawing by id is withdrawing by condition. -/
theorem without_pending {db : Database} (hkey : (db.signupInvitations.map (·.id)).Nodup)
    (tenantId : Uuid) (email : String) :
    db.without ((db.signupInvitations.filter (isPendingFor tenantId email)).map (·.id))
      = { db with
          signupInvitations :=
            Table.delete (isPendingFor tenantId email) db.signupInvitations } := by
  have hsame : ∀ i ∈ db.signupInvitations,
      (i.id ∈ (db.signupInvitations.filter (isPendingFor tenantId email)).map (·.id) &&
        i.consumedAt.isNone) = isPendingFor tenantId email i := by
    intro i hi
    refine Bool.eq_iff_iff.mpr ?_
    rw [Bool.and_eq_true, decide_eq_true_iff, List.mem_map]
    constructor
    · rintro ⟨⟨j, hj, hid⟩, -⟩
      obtain ⟨hj, hpending⟩ := List.mem_filter.mp hj
      rwa [Table.eq_of_key_eq hkey hj hi hid] at hpending
    · intro hpending
      refine ⟨⟨i, List.mem_filter.mpr ⟨hi, hpending⟩, rfl⟩, ?_⟩
      simp only [isPendingFor, Bool.and_eq_true] at hpending
      exact hpending.2
  have hdelete : Table.delete (fun i : SignupInvitationRow =>
      i.id ∈ (db.signupInvitations.filter (isPendingFor tenantId email)).map (·.id) &&
        i.consumedAt.isNone) db.signupInvitations
      = Table.delete (isPendingFor tenantId email) db.signupInvitations :=
    List.filter_congr fun i hi => congrArg Bool.not (hsame i hi)
  rw [Database.without, hdelete]

/-- Nobody interrupts it: the four steps do what `issueInvitation` does. -/
theorem issue_alone {db : Database} (hkey : (db.signupInvitations.map (·.id)).Nodup)
    (request : InvitationRequest) (draw : InvitationDraw) :
    (Function.uncurry (issueStep hashToken request draw))^[4] (.start, db)
      = (.done, transact ((issueInvitation hashToken db request draw).map fun r => r.2) db) := by
  simp only [Function.iterate_succ_apply, Function.iterate_zero, id_eq]
  generalize hstep : Function.uncurry (issueStep hashToken request draw) = step
  have hpair : ∀ phase db, step (phase, db) = issueStep hashToken request draw phase db :=
    fun phase db => hstep ▸ rfl
  by_cases hrecent : (db.signupInvitations.any fun i =>
      isPendingFor request.tenantId (normalizeEmail request.email) i &&
        draw.checkedAt - RESEND_COOLDOWN_MS < i.createdAt) = true
  · have hstart : step (.start, db) = (.done, db) := (hpair _ _).trans (if_pos hrecent)
    have hdone : step (.done, db) = (.done, db) := hpair _ _
    have hissue : issueInvitation hashToken db request draw = .ok (none, db) := if_pos hrecent
    rw [hstart, hdone, hdone, hdone, hissue]
    rfl
  · have hstart : step (.start, db) = (.checked, db) := (hpair _ _).trans (if_neg hrecent)
    have hchecked : step (.checked, db) = (.cleared ((db.signupInvitations.filter
        (isPendingFor request.tenantId (normalizeEmail request.email))).map (·.id)), db) :=
      hpair _ _
    have hwithout := without_pending hkey request.tenantId (normalizeEmail request.email)
    have hissue : (issueInvitation hashToken db request draw).map (fun r => r.2)
        = (db.without ((db.signupInvitations.filter
            (isPendingFor request.tenantId (normalizeEmail request.email))).map (·.id))
          ).insertSignupInvitation (issuedRow hashToken request draw) := by
      have hraw : issueInvitation hashToken db request draw
          = (({ db with
                signupInvitations :=
                  Table.delete (isPendingFor request.tenantId (normalizeEmail request.email))
                    db.signupInvitations } : Database).insertSignupInvitation
              (issuedRow hashToken request draw)).map fun db' =>
            (some { url := absoluteUrl request.host (activationPath draw.token)
                    expiresAt := draw.mintedAt + INVITATION_TTL_MS }, db') := if_neg hrecent
      rw [hraw, hwithout]
      cases Database.insertSignupInvitation _ (issuedRow hashToken request draw) <;> rfl
    rw [hstart, hchecked, hissue]
    generalize (db.signupInvitations.filter
      (isPendingFor request.tenantId (normalizeEmail request.email))).map (·.id) = withdrawn
    cases hinsert : (db.without withdrawn).insertSignupInvitation
        (issuedRow hashToken request draw) with
    | error e => simp only [hpair, issueStep, hinsert, transact]
    | ok db' => simp only [hpair, issueStep, hinsert, transact]

/-! ### One live link -/

/-- At no instant has an address of a tenant two invitations that are neither consumed nor
expired. -/
def OneLive (db : Database) : Prop :=
  ∀ (now : Instant) (tenantId : Uuid) (email : String),
    (db.signupInvitations.filter fun i =>
      isPendingFor tenantId email i && now < i.expiresAt).length ≤ 1

/-- Nor has it two that are not consumed. -/
def OnePending (db : Database) : Prop :=
  ∀ (tenantId : Uuid) (email : String),
    (db.signupInvitations.filter (isPendingFor tenantId email)).length ≤ 1

theorem exists_before (rows : List SignupInvitationRow) :
    ∃ now : Instant, ∀ i ∈ rows, now < i.expiresAt := by
  induction rows with
  | nil => exact ⟨0, fun _ h => nomatch h⟩
  | cons row rows ih =>
    obtain ⟨now, hnow⟩ := ih
    refine ⟨min now (row.expiresAt - 1), fun i hi => ?_⟩
    rcases List.mem_cons.mp hi with rfl | hi
    · exact lt_of_le_of_lt (min_le_right _ _) (Int.sub_lt_self _ Int.one_pos)
    · exact lt_of_le_of_lt (min_le_left _ _) (hnow i hi)

/-- At a time before every deadline the two say the same. -/
theorem oneLive_iff (db : Database) : OneLive db ↔ OnePending db := by
  constructor
  · intro h tenantId email
    obtain ⟨now, hnow⟩ := exists_before db.signupInvitations
    have hsame : db.signupInvitations.filter (isPendingFor tenantId email)
        = db.signupInvitations.filter fun i =>
          isPendingFor tenantId email i && now < i.expiresAt := by
      refine List.filter_congr fun i hi => ?_
      rw [decide_eq_true (hnow i hi), Bool.and_true]
    rw [hsame]
    exact h now tenantId email
  · intro h now tenantId email
    refine le_trans (List.Sublist.length_le ?_) (h tenantId email)
    refine List.monotone_filter_right _ fun i hi => ?_
    exact ((Bool.and_eq_true _ _).mp hi).1

/-- Two tokens that work for the same address of a tenant are for the same invitation. -/
theorem OneLive.link {db : Database} (h : OneLive db) {hashToken : String → String}
    {tenantId : Uuid} {token token' : String} {now : Instant}
    {invitation invitation' : PendingInvitation}
    (hfind : findPendingInvitation hashToken db tenantId token now = some invitation)
    (hfind' : findPendingInvitation hashToken db tenantId token' now = some invitation')
    (hemail : invitation.email = invitation'.email) : invitation.id = invitation'.id := by
  obtain ⟨row, hrow, htenant, -, hpending, hlive, hid, haddress⟩ := findPendingInvitation_some hfind
  obtain ⟨row', hrow', htenant', -, hpending', hlive', hid', haddress'⟩ :=
    findPendingInvitation_some hfind'
  have hmem : ∀ r ∈ db.signupInvitations, r.tenantId = tenantId → r.email = invitation.email →
      r.consumedAt = none → now < r.expiresAt → r ∈ db.signupInvitations.filter fun i =>
        isPendingFor tenantId invitation.email i && now < i.expiresAt := by
    intro r hr h₁ h₂ h₃ h₄
    exact List.mem_filter.mpr ⟨hr, by simp [isPendingFor, h₁, h₂, h₃, h₄]⟩
  have hfirst := hmem row hrow htenant haddress.symm hpending hlive
  have hsecond := hmem row' hrow' htenant' (haddress'.symm.trans hemail.symm) hpending' hlive'
  have hsame : row = row' :=
    Table.eq_of_length_le_one (h now tenantId invitation.email) hfirst hsecond
  rw [hid, hid', hsame]

/-- An invitation that comes in is stored last, and nothing else stays pending for its address.
Where none comes in, nothing is pending that was not. -/
def Supersedes (db db' : Database) : Prop :=
  (∀ tenantId email, (db'.signupInvitations.filter (isPendingFor tenantId email)).Sublist
      (db.signupInvitations.filter (isPendingFor tenantId email))) ∨
    ∃ kept row, db'.signupInvitations = kept ++ [row] ∧ kept.Sublist db.signupInvitations ∧
      ∀ tenantId email, isPendingFor tenantId email row = true →
        kept.filter (isPendingFor tenantId email) = []

/-! ### What every state satisfies -/

/-- The tenant and the address that an issue is for. -/
def RosterCall.key? : RosterCall → Option (Uuid × String)
  | .issue request _ => some (request.tenantId, normalizeEmail request.email)
  | _ => none

/-- What a transaction has withdrawn and not committed. -/
def RosterPhase.withdrawn? : RosterPhase → Option (List Uuid)
  | .cleared withdrawn => some withdrawn
  | .written withdrawn _ => some withdrawn
  | _ => none

/-- An issue for this address is between withdrawal and commit. -/
def Clearing (call : RosterCall) (phase : RosterPhase) (key : Uuid × String) : Prop :=
  call.key? = some key ∧ phase.withdrawn?.isSome = true

/-- Requests name tenants that exist. -/
def KnownTenant (call : RosterCall) (phase : RosterPhase) (db : Database) : Prop :=
  match call, phase with
  | .issue request _, .start => ∃ t ∈ db.tenants, t.id = request.tenantId
  | _, _ => True

/-- An issue withdraws when no other one for its address is between withdrawal and commit. -/
def ClearsAlone {ι : Type*} (calls : ι → RosterCall)
    (c : Interleave.Config ι RosterPhase Database) (i : ι) : Prop :=
  match calls i, c.phase i with
  | .issue request _, .checked =>
    ∀ j, j ≠ i →
      ¬ Clearing (calls j) (c.phase j) (request.tenantId, normalizeEmail request.email)
  | _, _ => True

instance (call : RosterCall) (phase : RosterPhase) (key : Uuid × String) :
    Decidable (Clearing call phase key) :=
  inferInstanceAs (Decidable (_ ∧ _))

instance (call : RosterCall) (phase : RosterPhase) (db : Database) :
    Decidable (KnownTenant call phase db) := by
  rw [KnownTenant.eq_def]
  split <;> infer_instance

instance {ι : Type*} [Fintype ι] [DecidableEq ι] (calls : ι → RosterCall)
    (c : Interleave.Config ι RosterPhase Database) (i : ι) : Decidable (ClearsAlone calls c i) := by
  rw [ClearsAlone]
  split <;> infer_instance

/-- What an issue has established. -/
structure Own (call : RosterCall) (phase : RosterPhase) (db : Database) : Prop where
  known : ∀ key, call.key? = some key → phase.withdrawn?.isSome = true ∨ phase = .checked →
    ∃ t ∈ db.tenants, t.id = key.1
  withdrawn : ∀ key withdrawn, call.key? = some key → phase.withdrawn? = some withdrawn →
    ∀ i ∈ db.signupInvitations, isPendingFor key.1 key.2 i = true → i.id ∈ withdrawn
  written : ∀ key withdrawn row, call.key? = some key → phase = .written withdrawn row →
    row.tenantId = key.1 ∧ row.email = key.2

/-- The invariant. -/
structure Tidy {ι : Type*} (calls : ι → RosterCall)
    (c : Interleave.Config ι RosterPhase Database) : Prop where
  one : OnePending c.shared
  tenants : ∀ i ∈ c.shared.signupInvitations, ∃ t ∈ c.shared.tenants, t.id = i.tenantId
  own : ∀ i, Own (calls i) (c.phase i) c.shared
  apart : ∀ i j key, i ≠ j → Clearing (calls i) (c.phase i) key →
    ¬ Clearing (calls j) (c.phase j) key

section Steps

variable {ι : Type*} [DecidableEq ι] {calls : ι → RosterCall}
  {c : Interleave.Config ι RosterPhase Database} {i : ι} {phase : RosterPhase} {db : Database}

/-- What a step has to show: that one invitation is pending still, that no tenant is lost, that
nothing becomes pending for an address that another issue is clearing, and what the issue that moves
has established. -/
theorem Tidy.move (h : Tidy calls c) (hone : OnePending db)
    (hfk : ∀ r ∈ db.signupInvitations, ∃ t ∈ db.tenants, t.id = r.tenantId)
    (htenants : c.shared.tenants ⊆ db.tenants)
    (hpending : ∀ j, j ≠ i → ∀ key, Clearing (calls j) (c.phase j) key →
      ∀ r ∈ db.signupInvitations, isPendingFor key.1 key.2 r = true →
        r ∈ c.shared.signupInvitations)
    (hown : Own (calls i) phase db)
    (hapart : ∀ j, j ≠ i → ∀ key, Clearing (calls i) phase key →
      ¬ Clearing (calls j) (c.phase j) key) :
    Tidy calls ⟨Function.update c.phase i phase, db⟩ where
  one := hone
  tenants := hfk
  own := by
    intro j
    show Own (calls j) (Function.update c.phase i phase j) db
    by_cases hji : j = i
    · subst hji
      rw [Function.update_self]
      exact hown
    · rw [Function.update_of_ne hji]
      have hj := h.own j
      refine ⟨?_, ?_, hj.written⟩
      · intro key hkey hphase
        obtain ⟨t, ht, hid⟩ := hj.known key hkey hphase
        exact ⟨t, htenants ht, hid⟩
      · intro key withdrawn hkey hphase r hr hp
        have hclearing : Clearing (calls j) (c.phase j) key := ⟨hkey, by rw [hphase]; rfl⟩
        exact hj.withdrawn key withdrawn hkey hphase r (hpending j hji key hclearing r hr hp) hp
  apart := by
    intro j k key hjk
    show Clearing (calls j) (Function.update c.phase i phase j) key →
      ¬ Clearing (calls k) (Function.update c.phase i phase k) key
    by_cases hji : j = i
    · subst hji
      rw [Function.update_self, Function.update_of_ne (Ne.symm hjk)]
      exact hapart k (Ne.symm hjk) key
    · rw [Function.update_of_ne hji]
      by_cases hki : k = i
      · subst hki
        rw [Function.update_self]
        exact fun hj hk => hapart j hji key hk hj
      · rw [Function.update_of_ne hki]
        exact h.apart j k key hjk

/-- A step that leaves the database alone. -/
theorem Tidy.stay (h : Tidy calls c) (hown : Own (calls i) phase c.shared)
    (hapart : ∀ j, j ≠ i → ∀ key, Clearing (calls i) phase key →
      ¬ Clearing (calls j) (c.phase j) key) :
    Tidy calls ⟨Function.update c.phase i phase, c.shared⟩ :=
  h.move h.one h.tenants (fun _ h => h) (fun _ _ _ _ _ hr _ => hr) hown hapart

theorem own_start (call : RosterCall) (db : Database) : Own call .start db where
  known := fun _ _ h => by rcases h with h | h <;> cases h
  withdrawn := fun _ _ _ h => nomatch h
  written := fun _ _ _ _ h => nomatch h

/-- A process that is done has nothing to show. -/
theorem own_done (call : RosterCall) (db : Database) : Own call .done db where
  known := fun _ _ h => by rcases h with h | h <;> cases h
  withdrawn := fun _ _ _ h => nomatch h
  written := fun _ _ _ _ h => nomatch h

theorem not_clearing_done {call : RosterCall} {key : Uuid × String} :
    ¬ Clearing call .done key := fun h => nomatch h.2

/-- A step that makes nothing pending ends a transaction. -/
theorem Tidy.fewer (h : Tidy calls c) (htenants : db.tenants = c.shared.tenants)
    (hfk : ∀ r ∈ db.signupInvitations, ∃ r' ∈ c.shared.signupInvitations, r'.tenantId = r.tenantId)
    (hfewer : ∀ tenantId email, (db.signupInvitations.filter (isPendingFor tenantId email)).Sublist
      (c.shared.signupInvitations.filter (isPendingFor tenantId email))) :
    Tidy calls ⟨Function.update c.phase i .done, db⟩ := by
  refine h.move ?_ ?_ ?_ ?_ (own_done _ _) fun _ _ _ hdone => absurd hdone not_clearing_done
  · exact fun tenantId email => (hfewer tenantId email).length_le.trans (h.one tenantId email)
  · intro r hr
    obtain ⟨r', hr', htenant⟩ := hfk r hr
    rw [htenants, ← htenant]
    exact h.tenants r' hr'
  · rw [htenants]
    exact fun _ h => h
  · intro j _ key _ r hr hp
    exact (List.mem_filter.mp ((hfewer key.1 key.2).subset (List.mem_filter.mpr ⟨hr, hp⟩))).1

/-- The commit: the row that is added is the only pending one of its address, and no other issue
clears that address. -/
theorem Tidy.commit (h : Tidy calls c) {key : Uuid × String} {withdrawn : List Uuid}
    {row : SignupInvitationRow} (hkey : (calls i).key? = some key)
    (hphase : c.phase i = .written withdrawn row)
    (hinsert : (c.shared.without withdrawn).insertSignupInvitation row = .ok db) :
    Tidy calls ⟨Function.update c.phase i .done, db⟩ := by
  obtain ⟨hnoTenant, rfl⟩ := insertSignupInvitation_ok hinsert
  have hown := h.own i
  obtain ⟨htenant, hemail⟩ := hown.written key withdrawn row hkey hphase
  have hwithdrawn : (c.phase i).withdrawn? = some withdrawn := by rw [hphase]; rfl
  -- What is kept of another transaction's rows was there before.
  have hkept : ∀ r ∈ (c.shared.without withdrawn).signupInvitations,
      r ∈ c.shared.signupInvitations := fun r hr => (Table.mem_delete.mp hr).1
  have hrow : ∀ tenantId email, isPendingFor tenantId email row = true →
      key = (tenantId, email) := by
    intro tenantId email hp
    simp only [isPendingFor, Bool.and_eq_true, decide_eq_true_eq] at hp
    exact Prod.ext (htenant.symm.trans hp.1.1) (hemail.symm.trans hp.1.2)
  refine h.move ?_ ?_ (fun _ h => h) ?_ (own_done _ _) fun _ _ _ hdone =>
    absurd hdone not_clearing_done
  · intro tenantId email
    show (((c.shared.without withdrawn).signupInvitations ++ [row]).filter _).length ≤ 1
    rw [List.filter_append, List.length_append]
    by_cases hp : isPendingFor tenantId email row = true
    · have hnone : (c.shared.without withdrawn).signupInvitations.filter
          (isPendingFor tenantId email) = [] := by
        refine List.filter_eq_nil_iff.mpr fun r hr hrp => ?_
        obtain ⟨hold, hstays⟩ := Table.mem_delete.mp hr
        have hid := hown.withdrawn key withdrawn hkey hwithdrawn r hold
          (hrow tenantId email hp ▸ hrp)
        have hpending : r.consumedAt.isNone = true := by
          simp only [isPendingFor, Bool.and_eq_true] at hrp
          exact hrp.2
        simp [hid, hpending] at hstays
      rw [hnone, List.filter_cons_of_pos hp]
      exact Nat.le_refl 1
    · rw [List.filter_cons_of_neg hp]
      have hsub := (Table.delete_sublist (fun i : SignupInvitationRow =>
        i.id ∈ withdrawn && i.consumedAt.isNone) c.shared.signupInvitations).filter
          (isPendingFor tenantId email)
      exact hsub.length_le.trans (h.one tenantId email)
  · intro r hr
    rcases List.mem_append.mp hr with hr | hr
    · exact h.tenants r (hkept r hr)
    · rw [List.mem_singleton.mp hr]
      exact exists_tenant_of_noTenant hnoTenant
  · intro j hji key' hclearing r hr hp
    rcases List.mem_append.mp hr with hr | hr
    · exact hkept r hr
    · rw [List.mem_singleton.mp hr] at hp
      have hsame : key = key' := hrow key'.1 key'.2 hp
      have hmine : Clearing (calls i) (c.phase i) key' := ⟨hsame ▸ hkey, by rw [hwithdrawn]; rfl⟩
      exact absurd hclearing (h.apart i j key' (Ne.symm hji) hmine)

/-- A new tenant comes with one invitation, and nothing is known of it before. -/
theorem Tidy.provision (h : Tidy calls c) {env : Env} {hashToken : String → String}
    {call : ProvisionCall}
    (hinsert : insertInstitute env hashToken c.shared call = .ok db) :
    Tidy calls ⟨Function.update c.phase i .done, db⟩ := by
  obtain ⟨row, hrow, hnew, hrows, htenants⟩ := insertInstitute_rows hinsert
  have hother : ∀ tenantId email, (∃ t ∈ c.shared.tenants, t.id = tenantId) →
      isPendingFor tenantId email row = false := by
    rintro tenantId email ⟨t, ht, hid⟩
    have hne : row.tenantId ≠ tenantId := fun heq => hnew t ht (hid.trans (heq.symm.trans hrow))
    simp [isPendingFor, hne]
  refine h.move ?_ ?_ ?_ ?_ (own_done _ _) fun _ _ _ hdone => absurd hdone not_clearing_done
  · intro tenantId email
    rw [hrows, List.filter_append, List.length_append]
    by_cases hp : isPendingFor tenantId email row = true
    · have hnone : c.shared.signupInvitations.filter (isPendingFor tenantId email) = [] := by
        refine List.filter_eq_nil_iff.mpr fun r hr hrp => ?_
        have hexists : ∃ t ∈ c.shared.tenants, t.id = tenantId := by
          obtain ⟨t, ht, hid⟩ := h.tenants r hr
          simp only [isPendingFor, Bool.and_eq_true, decide_eq_true_eq] at hrp
          exact ⟨t, ht, hid.trans hrp.1.1⟩
        rw [hother tenantId email hexists] at hp
        cases hp
      rw [hnone, List.filter_cons_of_pos hp]
      exact Nat.le_refl 1
    · rw [List.filter_cons_of_neg hp]
      exact h.one tenantId email
  · intro r hr
    rw [hrows] at hr
    rcases List.mem_append.mp hr with hr | hr
    · obtain ⟨t, ht, hid⟩ := h.tenants r hr
      exact ⟨t, htenants.1 ht, hid⟩
    · rw [List.mem_singleton.mp hr, hrow]
      exact htenants.2
  · exact htenants.1
  · intro j _ key hclearing r hr hp
    rw [hrows] at hr
    rcases List.mem_append.mp hr with hr | hr
    · exact hr
    · rw [List.mem_singleton.mp hr] at hp
      have hknown := (h.own j).known key hclearing.1 (Or.inl hclearing.2)
      rw [hother key.1 key.2 hknown] at hp
      cases hp

theorem Tidy.activate (h : Tidy calls c) (tenantId invitationId userId : Uuid) (now : Instant) :
    Tidy calls ⟨Function.update c.phase i .done,
      transact ((completeActivation c.shared tenantId invitationId userId now).map fun r => r.2)
        c.shared⟩ := by
  cases hdone : completeActivation c.shared tenantId invitationId userId now with
  | error e => exact h.stay (own_done _ _) fun _ _ _ hd => absurd hd not_clearing_done
  | ok r =>
    show Tidy calls ⟨Function.update c.phase i .done, r.2⟩
    simp only [completeActivation] at hdone
    split at hdone
    · obtain rfl := Except.ok.inj hdone
      exact h.stay (own_done _ _) fun _ _ _ hd => absurd hd not_clearing_done
    · next row hrow =>
      obtain ⟨db₁, hattach, rfl⟩ := Machine.map_eq_ok.mp hdone
      obtain ⟨ms, rfl, -⟩ := attachMembership_ok hattach
      refine h.fewer rfl ?_ ?_
      · intro r hr
        rcases Table.mem_update.mp hr with ⟨hr, -⟩ | ⟨r', hr', -, rfl⟩
        · exact ⟨r, hr, rfl⟩
        · exact ⟨r', hr', rfl⟩
      · intro tenantId' email
        refine Table.filter_update_sublist (fun a _ => ?_) _
        simp [isPendingFor]

theorem Tidy.sweep (h : Tidy calls c) (tenantId : Uuid) (now : Instant) :
    Tidy calls ⟨Function.update c.phase i .done, (sweepInvitations c.shared tenantId now).2⟩ := by
  have hsub : (sweepInvitations c.shared tenantId now).2.signupInvitations.Sublist
      c.shared.signupInvitations := (Table.delete_sublist _ _).trans (Table.delete_sublist _ _)
  refine h.fewer rfl ?_ ?_
  · exact fun r hr => ⟨r, hsub.subset hr, rfl⟩
  · exact fun tenantId' email => hsub.filter _

/-- The statements of an issue before its commit. -/
theorem Tidy.issue (h : Tidy calls c) {hashToken : String → String} {request : InvitationRequest}
    {draw : InvitationDraw} (hcall : calls i = .issue request draw)
    (hknown : KnownTenant (calls i) (c.phase i) c.shared) (halone : ClearsAlone calls c i) :
    Tidy calls ⟨Function.update c.phase i
        (issueStep hashToken request draw (c.phase i) c.shared).1,
      (issueStep hashToken request draw (c.phase i) c.shared).2⟩ := by
  have hkey : (calls i).key? = some (request.tenantId, normalizeEmail request.email) := by
    rw [hcall]
    rfl
  have hown := h.own i
  have hdone : Tidy calls ⟨Function.update c.phase i .done, c.shared⟩ :=
    h.stay (own_done _ _) fun _ _ _ hd => absurd hd not_clearing_done
  cases hphase : c.phase i with
  | done => exact hdone
  | start =>
    simp only [issueStep]
    split_ifs
    · exact hdone
    · refine h.stay ⟨?_, (fun _ _ _ hw => nomatch hw), (fun _ _ _ _ hw => nomatch hw)⟩
        fun _ _ _ hc => nomatch hc.2
      intro key hkey' _
      obtain rfl := Option.some.inj (hkey.symm.trans hkey')
      simpa only [KnownTenant, hcall, hphase] using hknown
  | checked =>
    refine h.stay ⟨?_, ?_, fun _ _ _ _ hw => nomatch hw⟩ ?_
    · exact fun key hkey' _ => hown.known key hkey' (Or.inr hphase)
    · intro key withdrawn hkey' hw r hr hp
      obtain rfl := Option.some.inj (hkey.symm.trans hkey')
      obtain rfl := Option.some.inj hw
      exact List.mem_map_of_mem (List.mem_filter.mpr ⟨hr, hp⟩)
    · rintro j hji key ⟨hkey', -⟩
      obtain rfl := Option.some.inj (hkey.symm.trans hkey')
      simp only [ClearsAlone, hcall, hphase] at halone
      exact halone j hji
  | cleared withdrawn =>
    have hmine : (c.phase i).withdrawn? = some withdrawn := by rw [hphase]; rfl
    simp only [issueStep]
    split
    · refine h.stay ⟨?_, ?_, ?_⟩ ?_
      · exact fun key hkey' _ => hown.known key hkey' (Or.inl (by rw [hmine]; rfl))
      · intro key withdrawn' hkey' hw
        exact hown.withdrawn key withdrawn' hkey' (hmine.trans hw)
      · intro key withdrawn' row hkey' hw
        obtain rfl := Option.some.inj (hkey.symm.trans hkey')
        cases hw
        exact ⟨rfl, rfl⟩
      · rintro j hji key ⟨hkey', -⟩
        exact h.apart i j key (Ne.symm hji) ⟨hkey', by rw [hmine]; rfl⟩
    · exact hdone
  | written withdrawn row =>
    simp only [issueStep]
    split
    · next db hinsert => exact h.commit hkey hphase hinsert
    · exact hdone

end Steps

/-! ### Runs -/

section Runs

variable {ι : Type*} [DecidableEq ι] {env : Env} {hashToken : String → String}
  {calls : ι → RosterCall}

theorem tidy_rosterTurn {c : Interleave.Config ι RosterPhase Database} (h : Tidy calls c) {i : ι}
    (hknown : KnownTenant (calls i) (c.phase i) c.shared) (halone : ClearsAlone calls c i) :
    Tidy calls (rosterTurn env hashToken calls c i) := by
  rw [rosterTurn, Interleave.turn]
  cases hcall : calls i with
  | issue request draw => exact h.issue hcall hknown halone
  | activate tenantId invitationId userId now => exact h.activate tenantId invitationId userId now
  | sweep tenantId now => exact h.sweep tenantId now
  | provision call =>
    have hdone : Tidy calls ⟨Function.update c.phase i .done, c.shared⟩ :=
      h.stay (own_done _ _) fun _ _ _ hd => absurd hd not_clearing_done
    simp only [rosterStep]
    cases hinsert : insertInstitute env hashToken c.shared call with
    | error e => exact hdone
    | ok db => exact h.provision hinsert

section Pending

/-- Nothing new is pending after a step, or one row that is stored last. -/
def KeepsPending (db db' : Database) : Prop :=
  (∀ tenantId email, (db'.signupInvitations.filter (isPendingFor tenantId email)).Sublist
      (db.signupInvitations.filter (isPendingFor tenantId email))) ∨
    ∃ kept row, db'.signupInvitations = kept ++ [row] ∧ kept.Sublist db.signupInvitations

theorem keepsPending_refl (db : Database) : KeepsPending db db :=
  Or.inl fun _ _ => List.Sublist.refl _

theorem keepsPending_issueStep (request : InvitationRequest) (draw : InvitationDraw)
    (phase : RosterPhase) (db : Database) :
    KeepsPending db (issueStep hashToken request draw phase db).2 := by
  cases phase with
  | start =>
    simp only [issueStep]
    split_ifs <;> exact keepsPending_refl db
  | checked => exact keepsPending_refl db
  | cleared withdrawn =>
    simp only [issueStep]
    split <;> exact keepsPending_refl db
  | written withdrawn row =>
    simp only [issueStep]
    split
    · next db' hinsert =>
      obtain ⟨-, rfl⟩ := insertSignupInvitation_ok hinsert
      exact Or.inr ⟨_, row, rfl, Table.delete_sublist _ _⟩
    · exact keepsPending_refl db
  | done => exact keepsPending_refl db

theorem keepsPending_activate (db : Database) (tenantId invitationId userId : Uuid)
    (now : Instant) :
    KeepsPending db (transact
      ((completeActivation db tenantId invitationId userId now).map fun r => r.2) db) := by
  cases hdone : completeActivation db tenantId invitationId userId now with
  | error e => exact keepsPending_refl db
  | ok r =>
    show KeepsPending db r.2
    simp only [completeActivation] at hdone
    split at hdone
    · obtain rfl := Except.ok.inj hdone
      exact keepsPending_refl db
    · obtain ⟨db₁, hattach, rfl⟩ := Machine.map_eq_ok.mp hdone
      obtain ⟨ms, rfl, -⟩ := attachMembership_ok hattach
      refine Or.inl fun tenantId' email => Table.filter_update_sublist (fun a _ => ?_) _
      simp [isPendingFor]

theorem keepsPending_rosterStep (call : RosterCall) (phase : RosterPhase) (db : Database) :
    KeepsPending db (rosterStep env hashToken call phase db).2 := by
  cases call with
  | issue request draw => exact keepsPending_issueStep request draw phase db
  | activate tenantId invitationId userId now =>
    exact keepsPending_activate db tenantId invitationId userId now
  | sweep tenantId now =>
    exact Or.inl fun _ _ => ((Table.delete_sublist _ _).trans (Table.delete_sublist _ _)).filter _
  | provision call =>
    simp only [rosterStep]
    cases hinsert : insertInstitute env hashToken db call with
    | error e => exact keepsPending_refl db
    | ok db' =>
      obtain ⟨row, -, -, hrows, -⟩ := insertInstitute_rows hinsert
      exact Or.inr ⟨_, row, hrows, List.Sublist.refl _⟩

/-- Where one is pending at most, the row that came in is the one. -/
theorem KeepsPending.supersedes {db db' : Database} (h : KeepsPending db db')
    (hone : OnePending db') : Supersedes db db' := by
  refine h.imp_right ?_
  rintro ⟨kept, row, hrows, hkept⟩
  refine ⟨kept, row, hrows, hkept, fun tenantId email hpending => ?_⟩
  have hlength := hone tenantId email
  rw [hrows, List.filter_append, List.filter_cons_of_pos hpending, List.length_append] at hlength
  exact List.length_eq_zero_iff.mp (Nat.le_zero.mp (Nat.le_of_succ_le_succ hlength))

end Pending

/-- **One live invitation.** In a run in which every issue withdraws the older invitation of its
address while no other issue of the address is between withdrawal and commit, an address of a tenant
never has two live invitations, two links that work for it are one, and every invitation that comes
in takes the place of the older one. -/
theorem oneLive_run (env : Env) (hashToken : String → String) (calls : ι → RosterCall)
    (db : Database) (hone : OneLive db)
    (htenants : ∀ i ∈ db.signupInvitations, ∃ t ∈ db.tenants, t.id = i.tenantId)
    (schedule : List ι)
    (hknown : Meets (rosterTurn env hashToken calls)
      (fun c i => KnownTenant (calls i) (c.phase i) c.shared) db.opened schedule)
    (halone : Meets (rosterTurn env hashToken calls) (ClearsAlone calls) db.opened schedule) :
    Meets (rosterTurn env hashToken calls)
      (fun c i => OneLive (rosterTurn env hashToken calls c i).shared ∧
        Supersedes c.shared (rosterTurn env hashToken calls c i).shared ∧
        ∀ tenantId token token' now invitation invitation',
          findPendingInvitation hashToken (rosterTurn env hashToken calls c i).shared tenantId token
            now = some invitation →
          findPendingInvitation hashToken
            (rosterTurn env hashToken calls c i).shared tenantId token'
            now = some invitation' →
          invitation.email = invitation'.email → invitation.id = invitation'.id)
      db.opened schedule := by
  have hstart : Tidy calls (db.opened : Interleave.Config ι RosterPhase Database) :=
    { one := (oneLive_iff db).mp hone
      tenants := htenants
      own := fun i => own_start (calls i) db
      apart := fun _ _ _ _ h => nomatch h.2 }
  have hpres : Machine.Preserves (rosterTurn env hashToken calls)
      (fun c i => KnownTenant (calls i) (c.phase i) c.shared ∧ ClearsAlone calls c i)
      (Tidy calls) := fun c i hstep h => tidy_rosterTurn h hstep.1 hstep.2
  refine Machine.Meets.of_invariant hpres ?_ hstart (hknown.and halone)
  intro c i h hstep
  have hone : OnePending (rosterTurn env hashToken calls c i).shared :=
    (tidy_rosterTurn h hstep.1 hstep.2).one
  have hlive : OneLive (rosterTurn env hashToken calls c i).shared := (oneLive_iff _).mpr hone
  refine ⟨hlive, (keepsPending_rosterStep (calls i) (c.phase i) c.shared).supersedes hone, ?_⟩
  intro tenantId token token' now invitation invitation' hfind hfind' hemail
  exact hlive.link hfind hfind' hemail

end Runs

/-! ### Two sign-ups -/

/-- An institute with sign-ups. -/
def gracesInstitute : Database where
  tenants := [⟨1, "grace", "Grace", .active, 0⟩]

/-- Ada signs up at the institute. -/
def adaSignsUp (id : Uuid) (token : String) (now : Instant) : RosterCall :=
  .issue ⟨1, "grace.lamplight.school", "ada@example.edu", "Ada", "Lovelace", none, none⟩
    ⟨id, token, now, now, now⟩

/-- Two sign-ups under one address, this much apart. -/
def signUps (gap : Instant) : Bool → RosterCall
  | false => adaSignsUp 20 "first" 0
  | true => adaSignsUp 21 "second" gap

/-- One after the other. -/
theorem oneLive_run_sequential :
    Meets (rosterTurn lamplightEnv id (signUps 1000000))
      (fun c i => OneLive (rosterTurn lamplightEnv id (signUps 1000000) c i).shared ∧
        Supersedes c.shared (rosterTurn lamplightEnv id (signUps 1000000) c i).shared ∧
        ∀ tenantId token token' now invitation invitation',
          findPendingInvitation id (rosterTurn lamplightEnv id (signUps 1000000) c i).shared
            tenantId token now = some invitation →
          findPendingInvitation id (rosterTurn lamplightEnv id (signUps 1000000) c i).shared
            tenantId token' now = some invitation' →
          invitation.email = invitation'.email → invitation.id = invitation'.id)
      gracesInstitute.opened [false, false, false, false, true, true, true, true] :=
  oneLive_run lamplightEnv id (signUps 1000000) gracesInstitute
    (fun _ _ _ => Nat.zero_le 1) (by decide) _ (by decide +kernel) (by decide +kernel)

/-- Statement by statement: each finds no invitation to withdraw, and both links work. -/
theorem two_links :
    let c := run (rosterTurn lamplightEnv id (signUps 0)) gracesInstitute.opened
      [false, true, false, true, false, true, false, true]
    (findPendingInvitation id c.shared 1 "first" 1).map (·.id) = some 20 ∧
      (findPendingInvitation id c.shared 1 "second" 1).map (·.id) = some 21 ∧
      ¬ OneLive c.shared := by
  intro c
  refine ⟨by decide +kernel, by decide +kernel, fun h => ?_⟩
  have htwo : ¬ (c.shared.signupInvitations.filter fun i =>
      isPendingFor 1 "ada@example.edu" i && (1 : Instant) < i.expiresAt).length ≤ 1 := by
    decide +kernel
  exact htwo (h 1 1 "ada@example.edu")

end LampLight
