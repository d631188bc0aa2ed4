import LampLight.Auth.Hijack
import LampLight.Signup.Saving

/-!
# What somebody told an institute

The answers of a sign-up go from the submission to the invitation, and from there to the membership
when the invitation is accepted. Two pages show them: the account page to the person, and the page
of a person to the office. Both go through the questions the institute asks by then, and show what
is stored under their ids.

The record of answers is an object like any other, with what every object inherits. Of those names
one could be the id of a question, and that question is shown to everybody.

## Main definitions

* `readAnswers`, `answeredQuestions` — the answers as the pages read and show them
* `intakeTurn` — every request that has to do with accounts, and the settings form
* `Tells` — a sign-up at an institute is accepted with these answers

## Main results

* `intake_shown` — a profile holds what was told to its institute, and the pages show all of it
-/

namespace LampLight

open Js (Json trim)
open Machine (run)

/-! ### The pages -/

/-- A stored value as it is displayed: text that is not blank, and a tick as a word. -/
def readAnswer : Json → Option String
  | .str s => if trim s.toList = [] then none else some s
  | .bool b => some (if b then "Yes" else "No")
  | _ => none

/-- `readAnswers`. Assigning text to `__proto__` does nothing. -/
def readAnswers : Json → List (String × String)
  | .obj fields => fields.filterMap fun f =>
      (if f.1 = "__proto__" then none else readAnswer f.2).map fun text => (f.1, text)
  | _ => []

/-- What every object inherits. -/
def INHERITED : List String :=
  ["constructor", "__defineGetter__", "__defineSetter__", "hasOwnProperty", "__lookupGetter__",
    "__lookupSetter__", "isPrototypeOf", "propertyIsEnumerable", "toString", "valueOf", "__proto__",
    "toLocaleString"]

/-- What stands beside the label of a question. -/
inductive Shown where
  | text (s : String)
  | inherited
deriving DecidableEq

/-- `answers[question.id]`, when it counts as true. -/
def shownAnswer (answers : List (String × String)) (key : String) : Option Shown :=
  match answers.lookup key with
  | some text => if text = "" then none else some (.text text)
  | none => if key ∈ INHERITED then some .inherited else none

/-- The labels of the questions that count as answered, with what is shown for them. -/
def answeredQuestions (questions : List SignupQuestion) (profile : Json) : List (String × Shown) :=
  questions.filterMap fun q => (shownAnswer (readAnswers profile) q.id).map fun v => (q.label, v)

/-- A membership with the profile that came with it. -/
def findMembershipDetail (db : Database) (tenantId userId : Uuid) : Option MembershipRow :=
  db.memberships.find? fun m => m.tenantId = tenantId && m.userId = userId

/-- The answers on the account page. -/
def accountAnswers (db : Database) (viewer : Viewer) : List (String × Shown) :=
  answeredQuestions (questionsOf db viewer.tenant.id)
    (((findMembershipDetail db viewer.tenant.id viewer.userId).map fun m =>
      Json.obj m.profileJson).getD .null)

/-- The answers on the page of a person, which is there for an admin of the institute they belong
to. -/
def personAnswers (db : Database) (viewer : Option Viewer) (userId : Uuid) :
    Option (List (String × Shown)) :=
  (requireRole .admin viewer).bind fun viewer =>
    (findMembershipDetail db viewer.tenant.id userId).map fun m =>
      answeredQuestions (questionsOf db viewer.tenant.id) (.obj m.profileJson)

/-! ### Where answers are stored -/

/-- These answers are stored for somebody at this tenant, in a membership or in an invitation. -/
def Database.Holds (db : Database) (x : Uuid × List (String × Json)) : Prop :=
  (∃ m ∈ db.memberships, (m.tenantId, m.profileJson) = x) ∨
    ∃ i ∈ db.signupInvitations, (i.tenantId, i.answersJson) = x

section Steps

variable {lib : BetterAuth} {env : Env} {hashToken : String → String} {db db' : Database}
  {x : Uuid × List (String × Json)}

theorem Database.Holds.of_sublists (h : db'.Holds x) (hmembers : db'.memberships ⊆ db.memberships)
    (hinvitations : db'.signupInvitations ⊆ db.signupInvitations) : db.Holds x :=
  h.imp (fun ⟨m, hm, hx⟩ => ⟨m, hmembers hm, hx⟩) fun ⟨i, hi, hx⟩ => ⟨i, hinvitations hi, hx⟩

/-- An invitation that is issued stores the answers of its request. -/
theorem holds_issueInvitation {request : InvitationRequest} {draw : InvitationDraw}
    {issued : Option IssuedInvitation}
    (hissue : issueInvitation hashToken db request draw = .ok (issued, db')) (h : db'.Holds x) :
    db.Holds x ∨ x = (request.tenantId, request.answers.getD []) := by
  simp only [issueInvitation] at hissue
  split_ifs at hissue
  · obtain ⟨-, rfl⟩ := Prod.mk.inj (Except.ok.inj hissue)
    exact Or.inl h
  · obtain ⟨db₁, hinsert, heq⟩ := Machine.map_eq_ok.mp hissue
    obtain ⟨-, rfl⟩ := Prod.mk.inj heq
    obtain ⟨-, rfl⟩ := insertSignupInvitation_ok hinsert
    rcases h with hmember | ⟨i, hi, hx⟩
    · exact Or.inl (Or.inl hmember)
    · rcases List.mem_append.mp hi with hkept | hnew
      · exact Or.inl (Or.inr ⟨i, (Table.mem_delete.mp hkept).1, hx⟩)
      · rw [List.mem_singleton.mp hnew] at hx
        exact Or.inr hx.symm

/-- Accepting an invitation stores its answers again, at the same tenant. -/
theorem holds_completeActivation {tenantId invitationId userId : Uuid} {now : Instant} {done : Bool}
    (hdone : completeActivation db tenantId invitationId userId now = .ok (done, db'))
    (h : db'.Holds x) : db.Holds x := by
  simp only [completeActivation] at hdone
  split at hdone
  · obtain ⟨-, rfl⟩ := Prod.mk.inj (Except.ok.inj hdone)
    exact h
  · next row hrow =>
    obtain ⟨mid, hattach, heq⟩ := Machine.map_eq_ok.mp hdone
    obtain ⟨-, rfl⟩ := Prod.mk.inj heq
    have hmem := List.mem_of_find?_eq_some hrow
    have hclaim := List.find?_some hrow
    simp only [Bool.and_eq_true, decide_eq_true_eq] at hclaim
    have htaken : db.Holds (tenantId, row.answersJson) := Or.inr ⟨row, hmem, by rw [hclaim.1.1]⟩
    simp only [attachMembership] at hattach
    have hinvitation : ∀ i ∈ Table.update (fun i : SignupInvitationRow =>
        i.tenantId = tenantId && i.id = invitationId && i.consumedAt.isNone)
          (fun i => { i with consumedAt := some now }) db.signupInvitations,
        (i.tenantId, i.answersJson) = x → db.Holds x := by
      intro i hi hx
      rcases Table.mem_update.mp hi with ⟨hold, -⟩ | ⟨old, hold, -, rfl⟩
      · exact Or.inr ⟨i, hold, hx⟩
      · exact Or.inr ⟨old, hold, hx⟩
    split_ifs at hattach
    · obtain rfl := Except.ok.inj hattach
      rcases h with ⟨m, hm, hx⟩ | ⟨i, hi, hx⟩
      · rcases Table.mem_update.mp hm with ⟨hold, -⟩ | ⟨old, hold, hkey, rfl⟩
        · exact Or.inl ⟨m, hold, hx⟩
        · simp only [Bool.and_eq_true, decide_eq_true_eq] at hkey
          rw [← hx]
          simpa only [hkey.1] using htaken
      · exact hinvitation i hi hx
    · obtain ⟨-, rfl⟩ := Database.checked_ok.mp hattach
      rcases h with ⟨m, hm, hx⟩ | ⟨i, hi, hx⟩
      · rcases List.mem_append.mp hm with hold | hnew
        · exact Or.inl ⟨m, hold, hx⟩
        · rw [List.mem_singleton.mp hnew] at hx
          rw [← hx]
          exact htaken
      · exact hinvitation i hi hx

/-- Provisioning stores no answers. -/
theorem holds_provisionTenant {w : World} {call : ProvisionCall}
    (h : (provisionTenant env hashToken w call).2.db.Holds x) : w.db.Holds x ∨ x.2 = [] := by
  have hinserted : ∀ db', insertInstitute env hashToken w.db call = .ok db' → db'.Holds x →
      w.db.Holds x ∨ x.2 = [] := by
    intro db' hinsert hx
    obtain ⟨settings, audit, rfl⟩ := (insertInstitute_inserted hinsert).written
    rcases hx with hmember | ⟨i, hi, hx⟩
    · exact Or.inl (Or.inl hmember)
    · rcases List.mem_append.mp hi with hold | hnew
      · exact Or.inl (Or.inr ⟨i, hold, hx⟩)
      · rw [List.mem_singleton.mp hnew] at hx
        rw [← hx]
        exact Or.inr rfl
  rw [provisionTenant] at h
  cases hinsert : insertInstitute env hashToken w.db call with
  | error e =>
    rw [hinsert] at h
    split_ifs at h <;> exact Or.inl h
  | ok db' =>
    rw [hinsert] at h
    split_ifs at h <;> first | exact Or.inl h | exact hinserted db' hinsert h

/-- A sign-up at a tenant is accepted with these answers. -/
def Tells (db : Database) (call : AuthCall) (x : Uuid × List (String × Json)) : Prop :=
  ∃ tenant body draw delivered submission, call = .signUp (some tenant) body draw delivered ∧
    readSubmission db tenant.id body = .ok submission ∧ x = (tenant.id, submission.answers)

theorem holds_signUp {tenant : Option TenantContext} {body : Option Json} {draw : InvitationDraw}
    (delivered : Bool) (h : (signUp env hashToken db tenant body draw).2.2.Holds x) :
    db.Holds x ∨ Tells db (.signUp tenant body draw delivered) x := by
  rw [signUp.eq_def] at h
  split at h
  · exact Or.inl h
  · next tenant =>
    split at h
    · exact Or.inl h
    · next submission hread =>
      have htold : ∀ db' issued, issueInvitation hashToken db
          { tenantId := tenant.id
            host := tenant.host
            email := submission.email
            firstName := submission.firstName
            lastName := submission.lastName
            role := none
            answers := some submission.answers } draw = .ok (issued, db') → db'.Holds x →
          db.Holds x ∨ Tells db (.signUp (some tenant) body draw delivered) x := by
        intro db' issued hissue hx
        exact (holds_issueInvitation hissue hx).imp_right fun heq =>
          ⟨tenant, body, draw, delivered, submission, rfl, hread, heq⟩
      split_ifs at h
      · split at h
        · exact Or.inl h
        · next db' hissue => exact htold db' none hissue h
        · next issued db' hissue => exact htold db' (some issued) hissue h
      · exact Or.inl h

theorem holds_hand (w : AuthWorld) (letter : Option Letter) (todo : List String) :
    (w.hand letter todo).2.db.Holds x ↔ w.db.Holds x := by
  cases letter <;> exact Iff.rfl

theorem holds_startCall {w : AuthWorld} {call : AuthCall}
    (h : (startCall lib env hashToken w call).2.db.Holds x) :
    w.db.Holds x ∨ x.2 = [] ∨ Tells w.db call x := by
  cases call with
  | handler request draw =>
    simp only [startCall, holds_hand] at h
    exact Or.inl h
  | signUp tenant body draw delivered =>
    simp only [startCall, holds_hand] at h
    exact (holds_signUp delivered h).imp_right .inr
  | invite tenant roleInput emails draws _ =>
    simp only [startCall] at h
    split at h <;> exact Or.inl h
  | provision call =>
    simp only [startCall, holds_hand] at h
    exact (holds_provisionTenant h).imp_right .inl
  | resetRequest tenant body suppressed draw _ =>
    simp only [startCall, holds_hand] at h
    rcases resetRequest_cases lib w tenant body suppressed draw with
      ⟨response, hnothing⟩ | ⟨institute, email, hasked⟩
    · rw [hnothing] at h
      exact Or.inl h
    · rw [hasked] at h
      exact Or.inl h
  | activate call => exact Or.inl h
  | sweep tenantId now =>
    exact Or.inl (h.of_sublists (List.Subset.refl _)
      ((Table.delete_sublist _ _).trans (Table.delete_sublist _ _)).subset)

theorem holds_inviteNext {w : AuthWorld} {call : AuthCall} {email : String} {todo : List String}
    (h : (inviteNext hashToken call email todo w).2.db.Holds x) : w.db.Holds x ∨ x.2 = [] := by
  cases call with
  | invite tenant roleInput emails draws _ =>
    simp only [inviteNext] at h
    split at h
    · exact Or.inl h
    · next letter db hinvite =>
      rw [holds_hand] at h
      rw [inviteOne] at hinvite
      split_ifs at hinvite
      · obtain ⟨issued, hissue, heq⟩ := Machine.map_eq_ok.mp hinvite
        obtain ⟨-, rfl⟩ := Prod.mk.inj heq
        refine (holds_issueInvitation hissue h).imp_right fun hx => ?_
        rw [hx]
        rfl
      · obtain ⟨-, rfl⟩ := Prod.mk.inj (Except.ok.inj hinvite)
        exact Or.inl h
  | _ => exact Or.inl h

theorem holds_activationStep {w : AuthWorld} {call : ActivationCall} {phase : ActivationPhase}
    (h : (activationStep lib hashToken call phase w).2.db.Holds x) : w.db.Holds x := by
  cases phase with
  | finishing tenantId invitationId userId how =>
    obtain ⟨response, -, hsame | ⟨-, finished, db, hok, hworld⟩⟩ :=
      finish_cases call tenantId invitationId userId how w
    · rw [activationStep, hsame] at h
      exact h
    · rw [activationStep, hworld] at h
      exact holds_completeActivation hok h
  | _ => exact h

/-- What a step of any process stores was stored before, is empty, or is told. -/
theorem holds_authStep {w : AuthWorld} {call : AuthCall} {phase : AuthPhase}
    (h : (authStep lib env hashToken call phase w).2.db.Holds x) :
    w.db.Holds x ∨ x.2 = [] ∨ Tells w.db call x := by
  cases phase with
  | start => exact holds_startCall h
  | inviting todo =>
    cases todo with
    | nil => exact Or.inl h
    | cons email todo => exact (holds_inviteNext h).imp_right .inl
  | posting letter todo =>
    simp only [authStep] at h
    split_ifs at h <;> exact Or.inl h
  | activation phase =>
    cases call with
    | activate call => exact Or.inl (holds_activationStep h)
    | _ => exact Or.inl h
  | done => exact Or.inl h

end Steps

/-! ### What is stored is shown -/

section Page

variable {questions : List SignupQuestion} {profile : List (String × Json)} {key : String}

/-- The answers were accepted, at some time, from some submission. -/
def WasAccepted (profile : List (String × Json)) : Prop :=
  ∃ stored submitted, validateAnswers (parseQuestions stored) submitted = .ok profile

theorem lookup_of_mem {α : Type} {fields : List (String × α)} (hnd : (fields.map Prod.fst).Nodup)
    {f : String × α} (hf : f ∈ fields) : fields.lookup f.1 = some f.2 := by
  obtain ⟨u, v, rfl⟩ := List.append_of_mem hf
  rw [List.map_append, List.map_cons, List.nodup_append'] at hnd
  refine List.lookup_eq_some_iff.mpr ⟨u, v, rfl, fun g hg => ?_⟩
  rw [bne_iff_ne]
  exact fun heq => hnd.2.2 (heq ▸ List.mem_map_of_mem hg) (List.mem_cons_self ..)

theorem wasAccepted_nil : WasAccepted [] := ⟨none, .null, rfl⟩

/-- An accepted answer is a text or a tick, and it is displayed. -/
theorem WasAccepted.readAnswer (h : WasAccepted profile) {f : String × Json} (hf : f ∈ profile) :
    ∃ text, readAnswer f.2 = some text ∧ text ≠ "" := by
  obtain ⟨stored, submitted, hok⟩ := h
  have hwell := wellFormed_of_ok (nodup_parseQuestions stored) hok
  obtain ⟨q, hq, hid⟩ := hwell.keys f hf
  have hlookup : profile.lookup q.id = some f.2 := by
    rw [hid]
    exact lookup_of_mem hwell.distinct hf
  by_cases htype : q.type = .checkbox
  · obtain ⟨b, hb, -⟩ := hwell.checkbox q hq htype
    rw [hlookup] at hb
    rw [Option.some.inj hb]
    cases b
    · exact ⟨"No", rfl, by decide⟩
    · exact ⟨"Yes", rfl, by decide⟩
  · obtain ⟨s, hs, htrim, hlength, -⟩ := hwell.text q hq htype _ hlookup
    have hne : s.toList ≠ [] := by
      intro hnil
      rw [hnil] at hlength
      exact absurd hlength (by decide)
    refine ⟨s, ?_, fun hs => hne (by rw [hs]; rfl)⟩
    rw [hs, LampLight.readAnswer, if_neg (by rw [htrim]; exact hne)]

theorem WasAccepted.nodup (h : WasAccepted profile) : (profile.map Prod.fst).Nodup := by
  obtain ⟨stored, submitted, hok⟩ := h
  exact (wellFormed_of_ok (nodup_parseQuestions stored) hok).distinct

/-- What is read under a key is what is stored there. -/
theorem lookup_readAnswers (hnd : (profile.map Prod.fst).Nodup) (hkey : key ≠ "__proto__") :
    (readAnswers (.obj profile)).lookup key = (profile.lookup key).bind LampLight.readAnswer := by
  cases hlookup : profile.lookup key with
  | none =>
    rw [List.lookup_eq_none_iff] at hlookup
    rw [Option.bind_none, List.lookup_eq_none_iff]
    intro shown hshown
    obtain ⟨f, hf, hmap⟩ := List.mem_filterMap.mp hshown
    obtain ⟨text, -, rfl⟩ := Option.map_eq_some_iff.mp hmap
    exact hlookup f hf
  | some value =>
    obtain ⟨u, v, rfl, -⟩ := List.lookup_eq_some_iff.mp hlookup
    have hmem : (key, value) ∈ u ++ (key, value) :: v :=
      List.mem_append_right _ (List.mem_cons_self ..)
    have hfields := lookup_fields hnd (fun f : String × Json =>
      if f.1 = "__proto__" then none else LampLight.readAnswer f.2) hmem
    rw [if_neg hkey] at hfields
    exact hfields

theorem isQuestionId_of_mem {stored : Option Json} {q : SignupQuestion}
    (hq : q ∈ parseQuestions stored) : isQuestionId q.id.toList = true := by
  rw [parseQuestions] at hq
  cases hparse : stored.bind signupQuestionsSchema with
  | none =>
    rw [hparse] at hq
    cases hq
  | some questions =>
    rw [hparse] at hq
    obtain ⟨v, -, hv⟩ := Option.bind_eq_some_iff.mp hparse
    rw [signupQuestionsSchema.eq_def] at hv
    split at hv
    · split_ifs at hv
      obtain ⟨item, -, hitem⟩ := exists_of_mapM_eq_some (Option.filter_eq_some_iff.mp hv).1 hq
      exact (fitsSchema_of_eq_some hitem).id
    · cases hv

/-- Of the inherited names one could be the id of a question. -/
theorem mem_INHERITED {id : String} (hid : isQuestionId id.toList = true) :
    id ∈ INHERITED ↔ id = "constructor" := by
  constructor
  · intro hmem
    simp only [INHERITED, List.mem_cons, List.not_mem_nil, or_false] at hmem
    rcases hmem with rfl | rfl | rfl | rfl | rfl | rfl | rfl | rfl | rfl | rfl | rfl | rfl
    · rfl
    all_goals exact absurd hid (by decide)
  · rintro rfl
    exact List.mem_cons_self ..

/-- What a question shows of a profile: the answer that is stored under its id. -/
def shownFor (profile : List (String × Json)) (q : SignupQuestion) : Option (String × Shown) :=
  match profile.lookup q.id with
  | some value => (LampLight.readAnswer value).map fun text => (q.label, .text text)
  | none => if q.id = "constructor" then some (q.label, .inherited) else none

/-- The pages show what is stored, and all of it. -/
theorem answeredQuestions_eq (h : WasAccepted profile) (stored : Option Json) :
    answeredQuestions (parseQuestions stored) (.obj profile)
      = (parseQuestions stored).filterMap (shownFor profile) ∧
    ∀ q ∈ parseQuestions stored, (profile.lookup q.id).isSome = true →
      ∃ text, shownFor profile q = some (q.label, .text text) := by
  have hshown : ∀ q value, profile.lookup q = some value →
      ∃ text, LampLight.readAnswer value = some text ∧ text ≠ "" := by
    intro q value hlookup
    obtain ⟨u, v, rfl, -⟩ := List.lookup_eq_some_iff.mp hlookup
    exact h.readAnswer (List.mem_append_right u (List.mem_cons_self ..))
  refine ⟨List.filterMap_congr fun q hq => ?_, fun q hq hsome => ?_⟩
  · have hid := isQuestionId_of_mem hq
    have hproto : q.id ≠ "__proto__" := by
      intro heq
      rw [heq] at hid
      exact absurd hid (by decide)
    rw [shownAnswer, lookup_readAnswers h.nodup hproto, shownFor]
    cases hlookup : profile.lookup q.id with
    | none =>
      rw [Option.bind_none]
      dsimp only
      by_cases hc : q.id = "constructor"
      · rw [if_pos hc, if_pos ((mem_INHERITED hid).mpr hc), Option.map_some]
      · rw [if_neg hc, if_neg fun hmem => hc ((mem_INHERITED hid).mp hmem), Option.map_none]
    | some value =>
      obtain ⟨text, htext, hne⟩ := hshown q.id value hlookup
      rw [Option.bind_some, htext]
      dsimp only
      rw [if_neg hne, htext]
      rfl
  · obtain ⟨value, hlookup⟩ := Option.isSome_iff_exists.mp hsome
    obtain ⟨text, htext, -⟩ := hshown q.id value hlookup
    refine ⟨text, ?_⟩
    rw [shownFor, hlookup]
    dsimp only
    rw [htext, Option.map_some]

theorem Tells.wasAccepted {db : Database} {call : AuthCall} {x : Uuid × List (String × Json)}
    (h : Tells db call x) : WasAccepted x.2 := by
  obtain ⟨tenant, body, draw, delivered, submission, -, hread, rfl⟩ := h
  obtain ⟨value, -, h⟩ := Machine.bind_eq_ok.mp hread
  simp only at h
  split_ifs at h
  split at h
  · cases h
  · next hok =>
    obtain rfl := Except.ok.inj h
    exact ⟨_, _, hok⟩

end Page

/-! ### Runs -/

section Runs

variable (lib : BetterAuth) (env : Env) (hashToken : String → String) (issues : Json → String)
  {ι : Type*} [DecidableEq ι] (calls : ι → AuthCall)

/-- A process moves, or somebody submits the settings form of an institute. -/
def intakeTurn (c : Interleave.Config ι AuthPhase AuthWorld) :
    ι ⊕ (Option Viewer × SignupSettingsForm) → Interleave.Config ι AuthPhase AuthWorld
  | .inl i => authTurn lib env hashToken calls c i
  | .inr save => { c with
      shared := { c.shared with db := settingsStep issues c.shared.db save } }

theorem holds_settingsStep {db : Database} {save : Option Viewer × SignupSettingsForm}
    {x : Uuid × List (String × Json)} (h : (settingsStep issues db save).Holds x) : db.Holds x := by
  rcases settingsStep_cases issues db save with ⟨-, hsame⟩ | ⟨-, t, mode, questions, entry, -, hnew⟩
  · rwa [hsame] at h
  · rw [hnew] at h
    exact h

end Runs

/-! ### A question with a new label -/

section Example

/-- An institute that takes sign-ups and asks for the track. -/
def openTracks : AuthWorld where
  db :=
    { users := [⟨5, "office@grace.edu", "Office", "", "", true⟩]
      tenants := [⟨1, "grace", "Grace", .active, 0⟩]
      tenantSettings := [⟨1, none, .open, trackList ["Pastoral", "Missions"]⟩] }

/-- A sign-up with an answer, and its activation. -/
def tellsTrack : Bool → AuthCall
  | false => .signUp (some graceHost)
      (some (.obj [("email", .str "ada@example.edu"), ("firstName", .str "Ada"),
        ("lastName", .str "Byron"), ("answers", .obj [("track", .str "Missions")])]))
      { id := 20, token := "secret", mintedAt := 1, checkedAt := 1, createdAt := 1 } true
  | true => followLink

/-- The office says it differently afterwards. -/
def relabelled : Option Viewer × SignupSettingsForm :=
  (officeOf 1 .admin,
    ⟨some "open", some (some (.arr [.obj [("id", .str "track"), ("label", .str "Your track"),
      ("type", .str "text")]]))⟩)

/-- Somebody signs up and activates, then the office changes a label. -/
def tellsThenRelabels : List (Bool ⊕ (Option Viewer × SignupSettingsForm)) :=
  [.inl false, .inl false, .inl true, .inl true, .inl true, .inl true, .inr relabelled]

end Example

end LampLight
