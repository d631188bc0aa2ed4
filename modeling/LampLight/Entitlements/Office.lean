import LampLight.Access.Predicate
import LampLight.Auth.Guards
import LampLight.Entitlements.Grants
import LampLight.Foundation.Interleave
import LampLight.Storage.Keys

/-!
# The office

An admin grants and removes access on the page of a person, through two server actions. An action is
a public endpoint: anybody may call it, at any institute, with any fields. It first reads the role
of the caller, in a transaction of its own, and then does its work in another, so that anything may
happen in between, the caller's own demotion included.

The rest of the application writes every table but the enrollments, and is taken to do anything
there.

## Main definitions

* `grantAction`, `revokeAction` — what the two actions do for an admin
* `officeTurn` — one step of a process, an action or something elsewhere
* `Gives`, `Takes` — the step of an action that gives an enrollment, or takes it away
* `Traced` — an enrollment was there before and stayed, or was given and stayed

## Main results

* `mem_officeTurn` — what one step gives and takes
* `byAdmin` — who gives or takes was an admin of the institute when the action began
* `office_decides` — the enrollments are what admins have given and not taken away
-/

namespace LampLight

open Interleave (Config turn)
open Js (trim DateValue)
open Machine (Meets run)

/-! ### The actions -/

/-- What an action answers. -/
inductive OfficeReply where
  | ok (message : String)
  | error (message : String)
  /-- The ordinary 404. -/
  | notFound
  | throws
deriving DecidableEq

/-- The form of a grant as it is submitted. -/
structure GrantForm where
  userId : String
  source : String
  expiresAt : String
  reason : String

/-- The form of a revocation as it is submitted. -/
structure RevokeForm where
  enrollmentId : String
  reason : String

/-- What the actions use that is not theirs: which texts the database reads as an id, `new Date` of
a text, and how texts are compared. -/
structure Office where
  readUuid : String → Option Uuid
  parseDate : String → DateValue
  collate : Collation

/-- `text.trim()`. -/
def trimmed (text : String) : String := String.ofList (trim text.toList)

/-- `text || undefined`. -/
def orUndefined (text : String) : Option String := if text = "" then none else some text

/-- The kind of source a form names. -/
def readKind (text : String) : Option SourceKind :=
  if text = "program" then some .program else if text = "course" then some .course else none

/-- One select, one value: `program:<id>` or `course:<id>`. A kind that the enumeration does not
have is refused, and so is an empty id. -/
def readSource (source : String) : Option (SourceKind × String) :=
  match source.toList.splitOn ':' with
  | kind :: sourceId :: _ =>
    if sourceId = [] then none
    else (readKind (String.ofList kind)).map fun kind => (kind, String.ofList sourceId)
  | _ => none

/-- The end of the day that an admin names, or no end where they name none. -/
def endOfDay (parseDate : String → DateValue) (expires : String) : Option (Option Js.Date) :=
  if expires = "" then some none
  else
    match parseDate (expires ++ "T23:59:59Z") with
    | .valid date => some (some date)
    | .invalid => none

/-- `source.kind === kind && source.id === sourceId`, among what can be granted. -/
def findSource (scope : TenantScope) (collate : Collation) (db : Database) (kind : SourceKind)
    (sourceId : String) : Option Uuid :=
  ((listGrantableSources scope collate db).find? fun source =>
    source.kind = kind && uuidText source.id = sourceId).map (·.id)

/-- The transaction of a grant for a source that the institute does not have. -/
def grantNowhere (db : Database) (tenantId userId : Uuid) (draw : EnrollmentDraw) :
    Except EnrollmentFailure (GrantOutcome × Database) := do
  let membership ← statement (draw.faults .membership)
    (.ok (findMembership ⟨tenantId, draw.startedAt⟩ db userId))
  if membership = none then
    statement (draw.faults .commit)
      (.ok (.error "That person is not a member of this institute.", db))
  else
    statement (draw.faults .programs) (.ok ())
    statement (draw.faults .courses) (.ok ())
    statement (draw.faults .commit)
      (.ok (.error "That course or program does not exist here.", db))

/-- What the office is told of a grant. -/
def grantReply (db : Database) :
    Except EnrollmentFailure (GrantOutcome × Database) → OfficeReply × Database
  | .error _ => (.throws, db)
  | .ok (.error message, db') => (.error message, db')
  | .ok (.already, db') => (.ok "They already had that. Nothing changed.", db')
  | .ok (.granted _, db') => (.ok "Granted.", db')

/-- What the action asks for, once its fields are read. -/
def GrantForm.request (form : GrantForm) (viewer : Viewer) (userId : Uuid) (kind : SourceKind)
    (sourceId : Uuid) (expiresAt : Option Js.Date) : GrantRequest where
  tenantId := viewer.tenant.id
  actorUserId := viewer.userId
  userId := userId
  sourceKind := kind
  sourceId := sourceId
  expiresAt := expiresAt.map .valid
  reason := orUndefined (trimmed form.reason)

/-- `grantAction`, for somebody admitted. -/
def grantAction (office : Office) (db : Database) (viewer : Viewer) (form : GrantForm)
    (draw : EnrollmentDraw) : OfficeReply × Database :=
  match readSource form.source with
  | none => (.error "Choose a course or a program.", db)
  | some (kind, sourceId) =>
    match endOfDay office.parseDate (trimmed form.expiresAt) with
    | none => (.error "That is not a date.", db)
    | some expiresAt =>
      if isPast draw.clock (expiresAt.map .valid) then
        (.error "That expiry is in the past, so the grant would do nothing.", db)
      else
        match office.readUuid form.userId with
        -- the first statement does not get past it
        | none => (.throws, db)
        | some userId =>
          let scope : TenantScope := { tenantId := viewer.tenant.id, now := draw.startedAt }
          match findSource scope office.collate db kind sourceId with
          | none => grantReply db (grantNowhere db viewer.tenant.id userId draw)
          | some sourceId => grantReply db (grantEnrollment office.collate db
              (form.request viewer userId kind sourceId expiresAt) draw)

/-- `revokeAction`, for somebody admitted. -/
def revokeAction (office : Office) (db : Database) (viewer : Viewer) (form : RevokeForm)
    (draw : EnrollmentDraw) : OfficeReply × Database :=
  if form.enrollmentId = "" then (.error "Nothing to revoke.", db)
  else
    match office.readUuid form.enrollmentId with
    | none => (.throws, db)
    | some enrollmentId =>
      let request : RevokeRequest :=
        { tenantId := viewer.tenant.id
          actorUserId := viewer.userId
          enrollmentId := enrollmentId
          reason := orUndefined (trimmed form.reason) }
      match revokeEnrollment db request draw with
      | .error _ => (.throws, db)
      -- a row of another institute and one that never was answer the same way
      | .ok (_, db') => (.ok "Access removed.", db')

/-! ### What an action does to the enrollments -/

/-- The enrollment is the one that the form of this admin names. -/
structure GrantForm.Names (office : Office) (viewer : Viewer) (form : GrantForm)
    (draw : EnrollmentDraw) (e : EnrollmentRow) : Prop where
  id : e.id = draw.rowId
  tenant : e.tenantId = viewer.tenant.id
  person : office.readUuid form.userId = some e.userId
  source : readSource form.source = some (e.sourceKind, uuidText e.sourceId)
  expiry : (endOfDay office.parseDate (trimmed form.expiresAt)).map (Option.map Js.Date.time)
    = some e.expiresAt
  granter : e.grantedBy = some viewer.userId

/-- The enrollment is one the form of this admin names. -/
structure RevokeForm.Names (office : Office) (viewer : Viewer) (form : RevokeForm)
    (e : EnrollmentRow) : Prop where
  tenant : e.tenantId = viewer.tenant.id
  id : office.readUuid form.enrollmentId = some e.id

/-- The person belongs to the institute, and the institute has what they are enrolled in. -/
def EnrollmentRow.Founded (collate : Collation) (db : Database) (now : Instant)
    (e : EnrollmentRow) : Prop :=
  findMembership ⟨e.tenantId, now⟩ db e.userId ≠ none ∧
    sourceExists ⟨e.tenantId, now⟩ collate db e.sourceKind e.sourceId = true

section Actions

variable {office : Office} {db : Database} {viewer : Viewer} {draw : EnrollmentDraw}

theorem GrantForm.Names.eq {form : GrantForm} {e e' : EnrollmentRow}
    (h : form.Names office viewer draw e) (h' : form.Names office viewer draw e') : e = e' := by
  have hid := h.id.trans h'.id.symm
  have htenant := h.tenant.trans h'.tenant.symm
  have hperson := Option.some.inj (h.person.symm.trans h'.person)
  obtain ⟨hkind, hsource⟩ := Prod.mk.inj (Option.some.inj (h.source.symm.trans h'.source))
  have hsourceId := uuidText_injective hsource
  have hexpiry := Option.some.inj (h.expiry.symm.trans h'.expiry)
  have hgranter := h.granter.trans h'.granter.symm
  cases e
  cases e'
  congr

/-- What a grant has checked. -/
theorem founded_of_granted {collate : Collation} {request : GrantRequest} {rowId : Uuid}
    {db' : Database} (h : grantEnrollment collate db request draw = .ok (.granted rowId, db')) :
    findMembership ⟨request.tenantId, draw.startedAt⟩ db request.userId ≠ none ∧
      sourceExists ⟨request.tenantId, draw.startedAt⟩ collate db request.sourceKind
        request.sourceId = true := by
  rw [grantEnrollment] at h
  split_ifs at h with hpast
  · cases (Prod.mk.inj (Except.ok.inj h)).1
  obtain ⟨result, htransaction, hcommit⟩ := Machine.bind_eq_ok.mp h
  obtain rfl := Except.ok.inj (statement_ok hcommit)
  obtain ⟨membership, hmembership, h⟩ := Machine.bind_eq_ok.mp htransaction
  obtain rfl := Except.ok.inj (statement_ok hmembership)
  split_ifs at h with hmember
  · cases (Prod.mk.inj (Except.ok.inj h)).1
  obtain ⟨-, -, h⟩ := Machine.bind_eq_ok.mp h
  obtain ⟨found, hfound, h⟩ := Machine.bind_eq_ok.mp h
  obtain rfl := Except.ok.inj (statement_ok hfound)
  split_ifs at h with hsource
  · cases (Prod.mk.inj (Except.ok.inj h)).1
  exact ⟨hmember, by simpa using hsource⟩

theorem grantNowhere_ok {tenantId userId : Uuid} {outcome : GrantOutcome} {db' : Database}
    (h : grantNowhere db tenantId userId draw = .ok (outcome, db')) :
    (∃ message, outcome = .error message) ∧ db' = db := by
  obtain ⟨membership, -, h⟩ := Machine.bind_eq_ok.mp h
  split_ifs at h with hmember
  · obtain ⟨rfl, rfl⟩ := Prod.mk.inj (Except.ok.inj (statement_ok h))
    exact ⟨⟨_, rfl⟩, rfl⟩
  · obtain ⟨-, -, h⟩ := Machine.bind_eq_ok.mp h
    obtain ⟨-, -, h⟩ := Machine.bind_eq_ok.mp h
    obtain ⟨rfl, rfl⟩ := Prod.mk.inj (Except.ok.inj (statement_ok h))
    exact ⟨⟨_, rfl⟩, rfl⟩

/-- The source that is found is called what the form calls it. -/
theorem findSource_eq_some {scope : TenantScope} {collate : Collation} {kind : SourceKind}
    {text : String} {id : Uuid} (h : findSource scope collate db kind text = some id) :
    uuidText id = text := by
  obtain ⟨source, hsource, rfl⟩ := Option.map_eq_some_iff.mp h
  have hfound := List.find?_some hsource
  simp only [Bool.and_eq_true, decide_eq_true_eq] at hfound
  exact hfound.2

theorem storedExpiry_valid (date : Option Js.Date) :
    storedExpiry (date.map .valid) = .ok date := by
  cases date <;> rfl

/-- The action answers that it has granted when it has added the enrollment that the form names, and
otherwise it has changed nothing. -/
theorem grantAction_cases (form : GrantForm) :
    ((grantAction office db viewer form draw).1 ≠ .ok "Granted." ∧
      (grantAction office db viewer form draw).2 = db) ∨
    ∃ request expiresAt, (grantAction office db viewer form draw)
        = (.ok "Granted.", db.withGrant request draw.rowId expiresAt) ∧
      form.Names office viewer draw (grantedRow request draw.rowId expiresAt) ∧
      (grantedRow request draw.rowId expiresAt).Founded office.collate db draw.startedAt := by
  rw [grantAction]
  cases hsource : readSource form.source with
  | none => exact Or.inl ⟨by simp, rfl⟩
  | some source =>
    obtain ⟨kind, text⟩ := source
    dsimp only
    cases hexpiry : endOfDay office.parseDate (trimmed form.expiresAt) with
    | none => exact Or.inl ⟨by simp, rfl⟩
    | some expiresAt =>
      dsimp only
      split_ifs
      · exact Or.inl ⟨by simp, rfl⟩
      cases hperson : office.readUuid form.userId with
      | none => exact Or.inl ⟨by simp, rfl⟩
      | some userId =>
        dsimp only
        cases hfind : findSource ⟨viewer.tenant.id, draw.startedAt⟩ office.collate db kind text with
        | none =>
          dsimp only
          cases hnowhere : grantNowhere db viewer.tenant.id userId draw with
          | error e => exact Or.inl ⟨by simp [grantReply], rfl⟩
          | ok result =>
            obtain ⟨outcome, db'⟩ := result
            obtain ⟨⟨message, rfl⟩, rfl⟩ := grantNowhere_ok hnowhere
            exact Or.inl ⟨by simp [grantReply], rfl⟩
        | some sourceId =>
          dsimp only
          generalize hrequest : form.request viewer userId kind sourceId expiresAt = request
          cases hgrant : grantEnrollment office.collate db request draw with
          | error e => exact Or.inl ⟨by simp [grantReply], rfl⟩
          | ok result =>
            obtain ⟨outcome, db'⟩ := result
            rcases grantEnrollment_ok hgrant with ⟨message, rfl, rfl⟩ | ⟨rfl, rfl, -⟩ |
              ⟨date, hdate, -, -, rfl, rfl⟩
            · exact Or.inl ⟨by simp [grantReply], rfl⟩
            · exact Or.inl ⟨by simp [grantReply], rfl⟩
            · refine Or.inr ⟨request, date, rfl, ?_, founded_of_granted hgrant⟩
              subst hrequest
              obtain rfl := Except.ok.inj (hdate.symm.trans (storedExpiry_valid expiresAt))
              refine ⟨rfl, rfl, hperson, ?_, ?_, rfl⟩
              · rw [hsource, ← findSource_eq_some hfind]
                rfl
              · rw [hexpiry]
                rfl

/-- What a grant gives. -/
theorem mem_grantAction (form : GrantForm) (e : EnrollmentRow) :
    e ∈ (grantAction office db viewer form draw).2.enrollments ↔
      e ∈ db.enrollments ∨ (grantAction office db viewer form draw).1 = .ok "Granted." ∧
        form.Names office viewer draw e := by
  rcases @grantAction_cases office db viewer draw form with
    ⟨hreply, hdb⟩ | ⟨request, expiresAt, haction, hnames, -⟩
  · rw [hdb]
    exact ⟨Or.inl, fun h => h.resolve_right fun h => hreply h.1⟩
  · rw [haction]
    show e ∈ db.enrollments ++ [_] ↔ _
    rw [List.mem_append, List.mem_singleton]
    refine or_congr_right ⟨?_, fun h => h.2.eq hnames⟩
    rintro rfl
    exact ⟨rfl, hnames⟩

theorem founded_of_grantAction {form : GrantForm} {e : EnrollmentRow}
    (hreply : (grantAction office db viewer form draw).1 = .ok "Granted.")
    (hnames : form.Names office viewer draw e) : e.Founded office.collate db draw.startedAt := by
  rcases @grantAction_cases office db viewer draw form with
    ⟨hnot, -⟩ | ⟨request, expiresAt, -, hnames', hfounded⟩
  · exact absurd hreply hnot
  · rw [hnames.eq hnames']
    exact hfounded

/-- What a revocation takes. -/
theorem mem_revokeAction (form : RevokeForm) (e : EnrollmentRow) :
    e ∈ (revokeAction office db viewer form draw).2.enrollments ↔
      e ∈ db.enrollments ∧ ¬ ((revokeAction office db viewer form draw).1 = .ok "Access removed." ∧
        form.Names office viewer e) := by
  have hsame : ∀ reply : OfficeReply, reply ≠ .ok "Access removed." →
      (e ∈ db.enrollments ↔ e ∈ db.enrollments ∧
        ¬ (reply = .ok "Access removed." ∧ form.Names office viewer e)) :=
    fun _ hreply => ⟨fun h => ⟨h, fun hnamed => hreply hnamed.1⟩, And.left⟩
  rw [revokeAction]
  split_ifs with hempty
  · exact (and_iff_left fun h => h.1).symm
  cases hid : office.readUuid form.enrollmentId with
  | none => exact hsame .throws (by simp)
  | some enrollmentId =>
    dsimp only
    generalize hrequest : RevokeRequest.mk _ _ _ _ = request
    have hmatches : ∀ e', request.matches e' = true ↔ form.Names office viewer e' := by
      intro e'
      subst hrequest
      rw [RevokeRequest.matches, Bool.and_eq_true, decide_eq_true_eq, decide_eq_true_eq]
      constructor
      · exact fun h => ⟨h.1, hid.trans (congrArg some h.2.symm)⟩
      · exact fun h => ⟨h.tenant, Option.some.inj (h.id.symm.trans hid)⟩
    cases hrevoke : revokeEnrollment db request draw with
    | error failure => exact hsame .throws (by simp)
    | ok result =>
      obtain ⟨outcome, db'⟩ := result
      dsimp only
      rw [← hmatches, and_iff_right rfl, Bool.not_eq_true]
      rcases revokeEnrollment_ok hrevoke with ⟨-, rfl, hnone⟩ | ⟨removed, -, -, -, rfl⟩
      · exact ⟨fun h => ⟨h, hnone e h⟩, And.left⟩
      · exact Table.mem_delete

end Actions

/-! ### Processes -/

/-- The two actions of the office. -/
inductive OfficeCall
  | grant (form : GrantForm) (draw : EnrollmentDraw)
  | revoke (form : RevokeForm) (draw : EnrollmentDraw)

/-- A call of an action: at which institute, by whom, and the instant their membership is read. -/
structure OfficeVisit where
  tenant : TenantContext
  user : Option SessionUser
  checkedAt : Instant
  call : OfficeCall

/-- What one process does: a visit to the office, or something else. -/
inductive OfficeWork
  | visit (visit : OfficeVisit)
  /-- Whatever the rest of the application does. -/
  | elsewhere (change : Database → Database)

/-- How far an action has come. -/
inductive OfficePhase
  | start
  | admitted (viewer : Viewer)
  | done (reply : OfficeReply)

/-- The action that a call names. -/
def officeAction (office : Office) (db : Database) (viewer : Viewer) :
    OfficeCall → OfficeReply × Database
  | .grant form draw => grantAction office db viewer form draw
  | .revoke form draw => revokeAction office db viewer form draw

/-- The next step of a visit: its check, then its action. -/
def officeStep (office : Office) (work : OfficeWork) (phase : OfficePhase) (db : Database) :
    OfficePhase × Database :=
  match work, phase with
  | .elsewhere change, _ => (phase, { change db with enrollments := db.enrollments })
  | .visit visit, .start =>
    match requireRole .admin (getViewer db visit.tenant visit.user visit.checkedAt) with
    | some viewer => (.admitted viewer, db)
    | none => (.done .notFound, db)
  | .visit visit, .admitted viewer =>
    (.done (officeAction office db viewer visit.call).1,
      (officeAction office db viewer visit.call).2)
  | .visit _, .done _ => (phase, db)

section Processes

variable {ι : Type} (office : Office) (works : ι → OfficeWork)

/-- The next step of the process is a grant that succeeds and gives this enrollment. -/
def Gives (c : Config ι OfficePhase Database) (i : ι) (e : EnrollmentRow) : Prop :=
  ∃ visit viewer form draw, works i = .visit visit ∧ visit.call = .grant form draw ∧
    c.phase i = .admitted viewer ∧
    (grantAction office c.shared viewer form draw).1 = .ok "Granted." ∧
    form.Names office viewer draw e

/-- The next step of the process is a revocation that succeeds and takes this enrollment. -/
def Takes (c : Config ι OfficePhase Database) (i : ι) (e : EnrollmentRow) : Prop :=
  ∃ visit viewer form draw, works i = .visit visit ∧ visit.call = .revoke form draw ∧
    c.phase i = .admitted viewer ∧
    (revokeAction office c.shared viewer form draw).1 = .ok "Access removed." ∧
    form.Names office viewer e

variable {office works} {c : Config ι OfficePhase Database} {i : ι} {e : EnrollmentRow}

/-- What a call gives. -/
theorem gives_iff {visit : OfficeVisit} {viewer : Viewer} {form : GrantForm} {draw : EnrollmentDraw}
    (hwork : works i = .visit visit) (hcall : visit.call = .grant form draw)
    (hphase : c.phase i = .admitted viewer) :
    Gives office works c i e ↔
      (grantAction office c.shared viewer form draw).1 = .ok "Granted." ∧
        form.Names office viewer draw e := by
  constructor
  · rintro ⟨visit', viewer', form', draw', hwork', hcall', hphase', hgives⟩
    obtain rfl := OfficeWork.visit.inj (hwork.symm.trans hwork')
    obtain ⟨rfl, rfl⟩ := OfficeCall.grant.inj (hcall.symm.trans hcall')
    obtain rfl := OfficePhase.admitted.inj (hphase.symm.trans hphase')
    exact hgives
  · exact fun h => ⟨visit, viewer, form, draw, hwork, hcall, hphase, h⟩

/-- What a call takes. -/
theorem takes_iff {visit : OfficeVisit} {viewer : Viewer} {form : RevokeForm}
    {draw : EnrollmentDraw} (hwork : works i = .visit visit)
    (hcall : visit.call = .revoke form draw) (hphase : c.phase i = .admitted viewer) :
    Takes office works c i e ↔
      (revokeAction office c.shared viewer form draw).1 = .ok "Access removed." ∧
        form.Names office viewer e := by
  constructor
  · rintro ⟨visit', viewer', form', draw', hwork', hcall', hphase', htakes⟩
    obtain rfl := OfficeWork.visit.inj (hwork.symm.trans hwork')
    obtain ⟨rfl, rfl⟩ := OfficeCall.revoke.inj (hcall.symm.trans hcall')
    obtain rfl := OfficePhase.admitted.inj (hphase.symm.trans hphase')
    exact htakes
  · exact fun h => ⟨visit, viewer, form, draw, hwork, hcall, hphase, h⟩

/-- Only an action that has been let in gives or takes. -/
theorem admitted_of_gives_or_takes (h : Gives office works c i e ∨ Takes office works c i e) :
    ∃ visit viewer, works i = .visit visit ∧ c.phase i = .admitted viewer ∧
      viewer.tenant.id = e.tenantId := by
  rcases h with ⟨visit, viewer, form, draw, hwork, -, hphase, -, hnames⟩ |
    ⟨visit, viewer, form, draw, hwork, -, hphase, -, hnames⟩
  · exact ⟨visit, viewer, hwork, hphase, hnames.tenant.symm⟩
  · exact ⟨visit, viewer, hwork, hphase, hnames.tenant.symm⟩

variable [DecidableEq ι]

variable (office works) in
/-- The process `i` moves. -/
def officeTurn : Config ι OfficePhase Database → ι → Config ι OfficePhase Database :=
  turn fun i => officeStep office (works i)

/-- **One step.** What is there after it was there before and is not taken, or is given. -/
theorem mem_officeTurn (c : Config ι OfficePhase Database) (i : ι) (e : EnrollmentRow) :
    e ∈ (officeTurn office works c i).shared.enrollments ↔
      (e ∈ c.shared.enrollments ∧ ¬ Takes office works c i e) ∨ Gives office works c i e := by
  show e ∈ (officeStep office (works i) (c.phase i) c.shared).2.enrollments ↔ _
  have hidle : ¬ (∃ visit viewer, works i = .visit visit ∧ c.phase i = .admitted viewer) →
      (e ∈ c.shared.enrollments ↔
        (e ∈ c.shared.enrollments ∧ ¬ Takes office works c i e) ∨ Gives office works c i e) := by
    intro hnone
    have hneither : ¬ (Gives office works c i e ∨ Takes office works c i e) := by
      intro h
      obtain ⟨visit, viewer, hwork, hphase, -⟩ := admitted_of_gives_or_takes h
      exact hnone ⟨visit, viewer, hwork, hphase⟩
    obtain ⟨hgives, htakes⟩ := not_or.mp hneither
    simp [hgives, htakes]
  cases hwork : works i with
  | elsewhere change => exact hidle (by simp [hwork])
  | visit visit =>
    cases hphase : c.phase i with
    | start =>
      rw [officeStep]
      split <;> exact hidle (by simp [hphase])
    | done reply => exact hidle (by simp [hphase])
    | admitted viewer =>
      show e ∈ (officeAction office c.shared viewer visit.call).2.enrollments ↔ _
      cases hcall : visit.call with
      | grant form draw =>
        have hnone : ¬ Takes office works c i e := by
          rintro ⟨visit', viewer', form', draw', hwork', hcall', -⟩
          obtain rfl := OfficeWork.visit.inj (hwork.symm.trans hwork')
          cases hcall.symm.trans hcall'
        rw [gives_iff hwork hcall hphase, and_iff_left hnone]
        exact mem_grantAction form e
      | revoke form draw =>
        have hnone : ¬ Gives office works c i e := by
          rintro ⟨visit', viewer', form', draw', hwork', hcall', -⟩
          obtain rfl := OfficeWork.visit.inj (hwork.symm.trans hwork')
          cases hcall.symm.trans hcall'
        rw [takes_iff hwork hcall hphase, or_iff_left hnone]
        exact mem_revokeAction form e

/-! ### Runs -/

/-- Nobody has begun. -/
def Database.unvisited (db : Database) : Config ι OfficePhase Database where
  phase _ := .start
  shared := db

/-- The call that the process makes was begun by somebody who was an admin of the institute then. -/
def ByAdmin (office : Office) (works : ι → OfficeWork) (db : Database) (turns : List ι) (i : ι)
    (tenantId userId : Uuid) : Prop :=
  ∃ early late visit user, turns = early ++ i :: late ∧ works i = .visit visit ∧
    visit.tenant.id = tenantId ∧ visit.user = some user ∧ user.id = userId ∧
    findMembership ⟨tenantId, visit.checkedAt⟩
      (run (officeTurn office works) db.unvisited early).shared userId = some ⟨userId, .admin⟩

/-- No step of the run takes the enrollment away. -/
def StaysFrom (office : Office) (works : ι → OfficeWork) (c : Config ι OfficePhase Database)
    (turns : List ι) (e : EnrollmentRow) : Prop :=
  Meets (officeTurn office works) (fun c i => ¬ Takes office works c i e) c turns

/-- Where an enrollment comes from: it was there before the run and has stayed, or an action gave it
and it has stayed since. -/
def Traced (office : Office) (works : ι → OfficeWork) (db : Database) (turns : List ι)
    (e : EnrollmentRow) : Prop :=
  (e ∈ db.enrollments ∧ StaysFrom office works db.unvisited turns e) ∨
    ∃ before i after, turns = before ++ i :: after ∧
      Gives office works (run (officeTurn office works) db.unvisited before) i e ∧
      StaysFrom office works (run (officeTurn office works) db.unvisited (before ++ [i])) after e

/-- What the last branch of the predicate has found. -/
theorem entitled_of_granted {scope : TenantScope} {db : Database} {ctx : AccessContext}
    {lessonId courseId : Uuid}
    (h : decideLessonAccess scope db ctx lessonId = .granted .entitlement courseId) :
    ∃ userId, ctx.userId = some userId ∧ hasActiveEntitlement scope db userId courseId = true := by
  rw [decideLessonAccess] at h
  split at h
  · cases h
  split_ifs at h with hpreview
  · cases h
  cases huser : ctx.userId with
  | none =>
    rw [huser] at h
    cases h
  | some userId =>
    rw [huser] at h
    dsimp only at h
    split at h
    · cases h
    split_ifs at h with hadmin hinstructor hentitled
    · cases h
    · cases h
    · obtain ⟨-, rfl⟩ := AccessDecision.granted.inj h
      exact ⟨userId, rfl, hentitled⟩

/-- Who passes the guard. -/
theorem requireRole_admin {db : Database} {tenant : TenantContext} {user : Option SessionUser}
    {now : Instant} {viewer : Viewer}
    (h : requireRole .admin (getViewer db tenant user now) = some viewer) :
    viewer.tenant = tenant ∧ ∃ u, user = some u ∧ u.id = viewer.userId ∧
      findMembership ⟨tenant.id, now⟩ db viewer.userId = some ⟨viewer.userId, .admin⟩ := by
  obtain ⟨hviewer, hrank⟩ := Option.filter_eq_some_iff.mp h
  cases user with
  | none => cases hviewer
  | some u =>
    obtain ⟨membership, hmembership, rfl⟩ := Option.map_eq_some_iff.mp hviewer
    refine ⟨rfl, u, rfl, rfl, ?_⟩
    show findMembership ⟨tenant.id, now⟩ db u.id = _
    obtain ⟨row, hrow, rfl⟩ := Option.map_eq_some_iff.mp hmembership
    have hkey := List.find?_some hrow
    simp only [Bool.and_eq_true, decide_eq_true_eq] at hkey
    have hadmin : row.role = .admin := by
      cases hrole : row.role <;> simp [hrole, RANK] at hrank ⊢
    rw [hmembership, hkey.2, hadmin]

variable {db : Database}

/-- An action that is under way was let in by the guard. -/
theorem admitted_before {turns : List ι} {viewer : Viewer}
    (h : (run (officeTurn office works) db.unvisited turns).phase i = .admitted viewer) :
    ∃ early late visit, turns = early ++ i :: late ∧ works i = .visit visit ∧
      requireRole .admin (getViewer (run (officeTurn office works) db.unvisited early).shared
        visit.tenant visit.user visit.checkedAt) = some viewer := by
  let Lets (c : Config ι OfficePhase Database) (j : ι) (x : ι × Viewer) : Prop :=
    j = x.1 ∧ ∃ visit, works j = .visit visit ∧
      requireRole .admin (getViewer c.shared visit.tenant visit.user visit.checkedAt) = some x.2
  have hstep : ∀ (c : Config ι OfficePhase Database) j (x : ι × Viewer),
      (officeTurn office works c j).phase x.1 = .admitted x.2 →
        c.phase x.1 = .admitted x.2 ∨ Lets c j x := by
    rintro c j ⟨k, viewer'⟩ hphase
    replace hphase : Function.update c.phase j
        (officeStep office (works j) (c.phase j) c.shared).1 k = .admitted viewer' := hphase
    by_cases hk : k = j
    · subst hk
      rw [Function.update_self] at hphase
      cases hwork : works k with
      | elsewhere change =>
        rw [hwork] at hphase
        exact Or.inl hphase
      | visit visit =>
        cases hbefore : c.phase k with
        | start =>
          rw [hwork, hbefore, officeStep] at hphase
          split at hphase
          · next viewer hguard =>
            obtain rfl := OfficePhase.admitted.inj hphase
            exact Or.inr ⟨rfl, visit, hwork, hguard⟩
          · cases hphase
        | admitted viewer =>
          rw [hwork, hbefore] at hphase
          cases hphase
        | done reply =>
          rw [hwork, hbefore] at hphase
          cases hphase
    · rw [Function.update_of_ne hk] at hphase
      exact Or.inl hphase
  rcases Machine.held_or_put
      (H := fun (c : Config ι OfficePhase Database) (x : ι × Viewer) =>
        c.phase x.1 = .admitted x.2) hstep
      (show (run (officeTurn office works) db.unvisited turns).phase (i, viewer).1
        = .admitted (i, viewer).2 from h) with hstart | ⟨early, j, late, hturns, rfl, visit, hvisit⟩
  · cases hstart
  · exact ⟨early, late, visit, hturns, hvisit⟩

/-- **Who gives or takes was an admin of the institute when the action began.** -/
theorem byAdmin {turns : List ι} {viewer : Viewer} {tenantId : Uuid}
    (hphase : (run (officeTurn office works) db.unvisited turns).phase i = .admitted viewer)
    (htenant : viewer.tenant.id = tenantId) :
    ByAdmin office works db turns i tenantId viewer.userId := by
  obtain ⟨early, late, visit', hturns, hwork', hguard⟩ := admitted_before hphase
  obtain ⟨hinstitute, user, huser, hid, hadmin⟩ := requireRole_admin hguard
  subst htenant
  rw [hinstitute]
  exact ⟨early, late, visit', user, hturns, hwork', rfl, huser, hid, hadmin⟩

/-- **The enrollments are what admins have given and not taken away.** Whoever calls the two
actions, at whichever institutes, with whatever fields and in whatever order their steps fall, and
whatever the rest of the application does in between: the enrollments at the end are those of the
start that stayed and those that an action gave and that stayed. Each was given by somebody who was
an admin of its institute when the action began, and is recorded under their id, to a member, for
something that the institute had; and each that is gone was taken by such an admin. So nobody else's
request opens a lesson by an enrollment. -/
theorem office_decides (office : Office) (works : ι → OfficeWork) (db : Database) (turns : List ι) :
    (∀ e, e ∈ (run (officeTurn office works) db.unvisited turns).shared.enrollments ↔
      Traced office works db turns e) ∧
    (∀ i e, Gives office works (run (officeTurn office works) db.unvisited turns) i e →
      (∃ userId, e.grantedBy = some userId ∧
        ByAdmin office works db turns i e.tenantId userId) ∧
      ∃ now, e.Founded office.collate
        (run (officeTurn office works) db.unvisited turns).shared now) ∧
    (∀ i e, Takes office works (run (officeTurn office works) db.unvisited turns) i e →
      ∃ userId, ByAdmin office works db turns i e.tenantId userId) ∧
    ∀ scope ctx lessonId courseId,
      decideLessonAccess scope (run (officeTurn office works) db.unvisited turns).shared ctx
          lessonId = .granted .entitlement courseId →
      ∃ e, Traced office works db turns e ∧ e.tenantId = scope.tenantId ∧
        ctx.userId = some e.userId ∧ e.Active scope.now ∧
        e.Covers (run (officeTurn office works) db.unvisited turns).shared scope.tenantId
          courseId := by
  have htraced : ∀ e, e ∈ (run (officeTurn office works) db.unvisited turns).shared.enrollments ↔
      Traced office works db turns e :=
    fun e => Machine.held_iff
      (H := fun (c : Config ι OfficePhase Database) e => e ∈ c.shared.enrollments) mem_officeTurn
  refine ⟨htraced, ?_, ?_, ?_⟩
  · rintro i e ⟨visit, viewer, form, draw, hwork, -, hphase, hreply, hnames⟩
    exact ⟨⟨viewer.userId, hnames.granter, byAdmin hphase hnames.tenant.symm⟩,
      draw.startedAt, founded_of_grantAction hreply hnames⟩
  · rintro i e ⟨visit, viewer, form, draw, hwork, -, hphase, -, hnames⟩
    exact ⟨viewer.userId, byAdmin hphase hnames.tenant.symm⟩
  · intro scope ctx lessonId courseId haccess
    obtain ⟨userId, huser, hactive⟩ := entitled_of_granted haccess
    obtain ⟨e, he, htenant, rfl, hgood, hcovers⟩ := hasActiveEntitlement_iff.mp hactive
    exact ⟨e, (htraced e).mp he, htenant, huser, hgood, hcovers⟩

end Processes

end LampLight
