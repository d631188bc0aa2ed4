import LampLight.Auth.Guards
import LampLight.Auth.SignUp
import LampLight.Domains.Provision

/-!
# What an activation leaves of a profile

A person has a name, which is global, and in every institute the answers they gave when they joined.
Accepting an invitation writes both from the invitation: the name in place of the old one, and the
answers in place of all the old ones. An invitation that somebody signed up for carries a name and
the institute's questions, but one that the office or the operator wrote carries neither.

## Main definitions

* `Database.userOf`, `Database.answersOf` — the two halves of a profile
* `KeepsProfile` — no name becomes empty, and no answer is lost that the invitation does not give
* `Carries` — the invitation has a name wherever the profile has one, and answers all that it
  answers
* `Blank` — what the office and the operator write

## Main results

* `completeActivation_keepsProfile_iff` — an activation keeps a profile exactly when the invitation
  carries it
* `carries_blank_iff` — a blank invitation carries the empty profile only
* `inviteOne_blank`, `insertInstitute_blank` — the invitations that are blank
-/

namespace LampLight

open Js (Json)

/-- The account with an id. -/
def Database.userOf (db : Database) (userId : Uuid) : Option UserRow :=
  db.users.find? fun u => u.id = userId

/-- What a member of a tenant answered. -/
def Database.answersOf (db : Database) (tenantId userId : Uuid) : Option (List (String × Json)) :=
  (db.memberships.find? fun m => m.tenantId = tenantId && m.userId = userId).map (·.profileJson)

variable {db db' : Database} {tenantId invitationId userId : Uuid} {now : Instant}
  {invitation : SignupInvitationRow}

/-! ### The profile an activation writes -/

theorem attachMembership_answersOf
    (h : attachMembership db tenantId userId invitation = .ok db') :
    db'.answersOf tenantId userId = some invitation.answersJson := by
  simp only [attachMembership] at h
  split_ifs at h with hmember
  · obtain rfl := Except.ok.inj h
    simp only [Database.answersOf]
    rw [Table.find?_update (by intro m; rfl)]
    cases hfind : db.memberships.find? fun m => m.tenantId = tenantId && m.userId = userId with
    | none =>
      obtain ⟨m, hm, hkey⟩ := List.any_eq_true.mp hmember
      exact absurd hkey (List.find?_eq_none.mp hfind m hm)
    | some m => rfl
  · obtain ⟨-, rfl⟩ := Database.checked_ok.mp h
    have hfind : (db.memberships.find? fun m => m.tenantId = tenantId && m.userId = userId)
        = none := by
      simpa using hmember
    simp [Database.answersOf, List.find?_append, hfind]

theorem attachMembership_answersOf_of_ne {tenantId' userId' : Uuid}
    (hne : ¬ (tenantId' = tenantId ∧ userId' = userId))
    (h : attachMembership db tenantId userId invitation = .ok db') :
    db'.answersOf tenantId' userId' = db.answersOf tenantId' userId' := by
  have hother : ∀ m : MembershipRow, (m.tenantId = tenantId && m.userId = userId) = true →
      (m.tenantId = tenantId' && m.userId = userId') = false := by
    intro m hm
    simp only [Bool.and_eq_true, decide_eq_true_eq] at hm
    obtain ⟨rfl, rfl⟩ := hm
    simp only [Bool.and_eq_false_iff, decide_eq_false_iff_not]
    exact not_and_or.mp fun h => hne ⟨h.1.symm, h.2.symm⟩
  simp only [attachMembership] at h
  split_ifs at h with hmember
  · obtain rfl := Except.ok.inj h
    simp only [Database.answersOf]
    rw [Table.find?_update_of_disjoint (by exact fun m hm => ⟨hother m hm, hother m hm⟩)]
  · obtain ⟨-, rfl⟩ := Database.checked_ok.mp h
    have hnew := hother ⟨tenantId, userId, invitation.role, invitation.answersJson⟩ (by simp)
    simp [Database.answersOf, List.find?_append, hnew]

/-- What is stored of the two halves afterwards. -/
theorem completeActivation_profile
    (hrow : db.signupInvitations.find? (fun i => claimable tenantId invitationId i)
      = some invitation)
    (h : completeActivation db tenantId invitationId userId now = .ok (true, db')) :
    db'.userOf userId = (db.userOf userId).map invitation.provenUser ∧
      db'.answersOf tenantId userId = some invitation.answersJson := by
  obtain ⟨row, spent, mid, hfound, hattach, rfl⟩ := completeActivation_writes h
  obtain rfl : invitation = row := Option.some.inj (hrow.symm.trans hfound)
  have hanswers := attachMembership_answersOf hattach
  obtain ⟨ms, rfl, -⟩ := attachMembership_ok hattach
  have hid : ∀ u, decide ((invitation.provenUser u).id = userId) = decide (u.id = userId) := by
    intro u
    rw [provenUser_id]
  exact ⟨Table.find?_update hid db.users, hanswers⟩

/-- Nobody else's profile changes, and no other membership of the same person. -/
theorem completeActivation_profile_of_ne {tenantId' userId' : Uuid} {done : Bool}
    (h : completeActivation db tenantId invitationId userId now = .ok (done, db')) :
    (userId' ≠ userId → db'.userOf userId' = db.userOf userId') ∧
      (¬ (tenantId' = tenantId ∧ userId' = userId) →
        db'.answersOf tenantId' userId' = db.answersOf tenantId' userId') := by
  cases done with
  | false =>
    rcases completeActivation_ok h with ⟨-, rfl⟩ | ⟨_, _, _, hdone, _⟩
    · exact ⟨fun _ => rfl, fun _ => rfl⟩
    · cases hdone
  | true =>
    obtain ⟨row, spent, mid, -, hattach, rfl⟩ := completeActivation_writes h
    refine ⟨fun hne => ?_, fun hne => ?_⟩
    · obtain ⟨ms, rfl, -⟩ := attachMembership_ok hattach
      refine Table.find?_update_of_disjoint (fun u hu => ?_) db.users
      obtain rfl : u.id = userId := of_decide_eq_true hu
      simpa [eq_comm] using hne
    · have hanswers := attachMembership_answersOf_of_ne hne hattach
      exact hanswers

/-! ### Loss -/

/-- Neither name becomes empty, and an answer that the invitation does not replace stays. -/
structure KeepsProfile (tenantId userId : Uuid) (invitation : SignupInvitationRow)
    (db db' : Database) : Prop where
  firstName : ∀ old, db.userOf userId = some old → old.firstName ≠ "" →
    ∃ new, db'.userOf userId = some new ∧ new.firstName ≠ ""
  lastName : ∀ old, db.userOf userId = some old → old.lastName ≠ "" →
    ∃ new, db'.userOf userId = some new ∧ new.lastName ≠ ""
  answers : ∀ old, db.answersOf tenantId userId = some old → ∀ question value,
    old.lookup question = some value → invitation.answersJson.lookup question = none →
      ∃ new, db'.answersOf tenantId userId = some new ∧ new.lookup question = some value

/-- The invitation has a name wherever the person has one, and an answer to every question that the
member has answered. -/
structure Carries (db : Database) (tenantId userId : Uuid) (invitation : SignupInvitationRow) :
    Prop where
  firstName : ∀ u, db.userOf userId = some u → u.firstName ≠ "" → invitation.firstName ≠ ""
  lastName : ∀ u, db.userOf userId = some u → u.lastName ≠ "" → invitation.lastName ≠ ""
  answers : ∀ old, db.answersOf tenantId userId = some old → ∀ question,
    old.lookup question ≠ none → invitation.answersJson.lookup question ≠ none

/-- **An activation loses nothing of a profile exactly when the invitation carries it.** -/
theorem completeActivation_keepsProfile_iff
    (hrow : db.signupInvitations.find? (fun i => claimable tenantId invitationId i)
      = some invitation)
    (h : completeActivation db tenantId invitationId userId now = .ok (true, db')) :
    KeepsProfile tenantId userId invitation db db' ↔ Carries db tenantId userId invitation := by
  obtain ⟨huser, hanswers⟩ := completeActivation_profile hrow h
  constructor
  · intro hkeeps
    refine ⟨fun u hu hname => ?_, fun u hu hname => ?_, fun old hold question hasked => ?_⟩
    · obtain ⟨new, hnew, hkept⟩ := hkeeps.firstName u hu hname
      rw [huser, hu] at hnew
      obtain rfl := Option.some.inj hnew
      exact hkept
    · obtain ⟨new, hnew, hkept⟩ := hkeeps.lastName u hu hname
      rw [huser, hu] at hnew
      obtain rfl := Option.some.inj hnew
      exact hkept
    · obtain ⟨value, hvalue⟩ := Option.ne_none_iff_exists'.mp hasked
      intro hunanswered
      -- a question that is not answered would have to be in the answers that are written
      obtain ⟨new, hnew, hkept⟩ := hkeeps.answers old hold question value hvalue hunanswered
      rw [hanswers] at hnew
      obtain rfl := Option.some.inj hnew
      rw [hunanswered] at hkept
      cases hkept
  · intro hcarries
    refine ⟨fun u hu hname => ?_, fun u hu hname => ?_,
      fun old hold question value hvalue hun => ?_⟩
    · exact ⟨invitation.provenUser u, by rw [huser, hu]; rfl, hcarries.firstName u hu hname⟩
    · exact ⟨invitation.provenUser u, by rw [huser, hu]; rfl, hcarries.lastName u hu hname⟩
    · have hasked : old.lookup question ≠ none := by
        rw [hvalue]
        exact Option.some_ne_none value
      exact absurd hun (hcarries.answers old hold question hasked)

/-! ### Blank invitations -/

/-- An invitation without a name and without answers. -/
def Blank (invitation : SignupInvitationRow) : Prop :=
  invitation.firstName = "" ∧ invitation.lastName = "" ∧ invitation.answersJson = []

/-- What a blank invitation can be accepted with: no name, and no answers. -/
theorem carries_blank_iff (hblank : Blank invitation) :
    Carries db tenantId userId invitation ↔
      (∀ u, db.userOf userId = some u → u.firstName = "" ∧ u.lastName = "") ∧
        ∀ old, db.answersOf tenantId userId = some old → old = [] := by
  obtain ⟨hfirst, hlast, hanswers⟩ := hblank
  constructor
  · intro hcarries
    refine ⟨fun u hu => ⟨?_, ?_⟩, fun old hold => ?_⟩
    · by_contra hname
      exact hcarries.firstName u hu hname hfirst
    · by_contra hname
      exact hcarries.lastName u hu hname hlast
    · cases old with
      | nil => rfl
      | cons answer rest =>
        have hasked : (answer :: rest).lookup answer.1 ≠ none := by
          simp
        exact absurd (by rw [hanswers]; rfl) (hcarries.answers _ hold answer.1 hasked)
  · rintro ⟨hnames, hold⟩
    refine ⟨fun u hu hname => absurd (hnames u hu).1 hname,
      fun u hu hname => absurd (hnames u hu).2 hname, fun old hans question hasked => ?_⟩
    rw [hold old hans] at hasked
    exact absurd rfl hasked

/-- The office writes blank invitations. -/
theorem inviteOne_blank {hashToken : String → String} {tenant : TenantContext}
    {role : InvitationRole} {email : String} {draw : InvitationDraw} {letter : Letter}
    (h : inviteOne hashToken db tenant role email draw = .ok (some letter, db')) :
    ∃ row ∈ db'.signupInvitations, row.id = draw.id ∧ Blank row := by
  simp only [inviteOne] at h
  split_ifs at h
  · obtain ⟨⟨issued, db₁⟩, hissue, heq⟩ := Machine.map_eq_ok.mp h
    obtain ⟨hletter, rfl⟩ := Prod.mk.inj heq
    simp only [issueInvitation] at hissue
    split_ifs at hissue with hrecent
    · obtain ⟨rfl, -⟩ := Prod.mk.inj (Except.ok.inj hissue)
      cases hletter
    · obtain ⟨db₂, hinsert, hpair⟩ := Machine.map_eq_ok.mp hissue
      obtain ⟨-, rfl⟩ := Prod.mk.inj hpair
      obtain ⟨-, rfl⟩ := insertSignupInvitation_ok hinsert
      exact ⟨_, List.mem_append_right _ (List.mem_singleton.mpr rfl), rfl, rfl, rfl, rfl⟩
  · cases (Prod.mk.inj (Except.ok.inj h)).1

/-- So does the operator, for the first admin of an institute. -/
theorem insertInstitute_blank {env : Env} {hashToken : String → String} {call : ProvisionCall}
    (h : insertInstitute env hashToken db call = .ok db') :
    ∃ row ∈ db'.signupInvitations, row.id = call.invitation.id ∧ Blank row := by
  obtain ⟨settings, audit, rfl⟩ := (insertInstitute_inserted h).written
  exact ⟨_, List.mem_append_right _ (List.mem_singleton.mpr rfl), rfl, rfl, rfl, rfl⟩

/-! ### A student whom the office invites again -/

/-- An invitation as the office writes them. -/
def blankLink : SignupInvitationRow :=
  { studentLink with firstName := "" }

/-- The invitation of somebody who signed up again. -/
def signedUpLink : SignupInvitationRow :=
  { studentLink with lastName := "King", answersJson := [("congregation", .str "South")] }

/-- An institute with a student who has a name and one answer, and a pending invitation for them. -/
def knownStudent (invitation : SignupInvitationRow) : Database where
  users := [{ id := 2, email := "ada@example.org", name := "Ada Byron", firstName := "Ada",
              lastName := "Byron", emailVerified := true }]
  tenants := [{ id := 1, slug := "grace", name := "Grace", status := .active, createdAt := 0 }]
  memberships := [{ tenantId := 1, userId := 2, role := .student,
                    profileJson := [("congregation", .str "North")] }]
  signupInvitations := [invitation]

theorem completeActivation_keepsProfile_iff_signedUp :
    ∃ db', completeActivation (knownStudent signedUpLink) 1 3 2 5 = .ok (true, db') ∧
      (KeepsProfile 1 2 signedUpLink (knownStudent signedUpLink) db' ↔
        Carries (knownStudent signedUpLink) 1 2 signedUpLink) := by
  have hrow : (knownStudent signedUpLink).signupInvitations.find? (fun i => claimable 1 3 i)
      = some signedUpLink := rfl
  obtain ⟨db', h⟩ : ∃ db', completeActivation (knownStudent signedUpLink) 1 3 2 5
      = .ok (true, db') := ⟨_, rfl⟩
  exact ⟨db', h, completeActivation_keepsProfile_iff hrow h⟩

/-- Both names and the answer are gone. -/
theorem profile_lost :
    ∃ db' u, completeActivation (knownStudent blankLink) 1 3 2 5 = .ok (true, db') ∧
      db'.userOf 2 = some u ∧ u.firstName = "" ∧ u.lastName = "" ∧
      db'.answersOf 1 2 = some [] ∧
      ¬ KeepsProfile 1 2 blankLink (knownStudent blankLink) db' := by
  refine ⟨_, _, rfl, rfl, rfl, rfl, rfl, fun hkeeps => ?_⟩
  obtain ⟨new, hnew, hname⟩ := hkeeps.firstName _ rfl (by decide)
  obtain rfl := Option.some.inj hnew
  exact hname rfl

end LampLight
