import LampLight.Auth.Welcome
import LampLight.Foundation.Urls

/-!
# From the mail to the membership

A link leads to its page, the page may send the visitor to sign in, signing in sends them back, and
only then is a button pressed. On the way the token is written into a link twice and read out of one
twice, and meanwhile others are served. What counts is that the button is still about the link that
was mailed.

## Main definitions

* `signInHref`, `safeNext` — there, and back
* `Screen`, `openLink`, `journeyStep` — what the visitor sees, and what a click does
* `AboutLink`, `Presses` — where a journey can have come to, and what its button does

## Main results

* `journey_keeps_promise` — wherever a journey has come to, the button does for the mailed link what
  its page would ask for
* `safeNext_leaves_iff` — the destinations that lead away from the institute's host
-/

namespace LampLight

open Js
open Url (isUnreserved isPlain isPathChar encodeURIComponent searchParams queryOf pathOf oneValue
  formValue namesHost isIgnored isSlash)
open Machine (run Meets)

/-! ### There and back -/

/-- The link is carried through sign-in. -/
def ActivateForm.signInHref (form : ActivateForm) : String :=
  String.ofList (oneValue "/sign-in".toList "next".toList
    (encodeURIComponent ("/activate?token=".toList ++ form.token.toList)))

/-- Where signing in returns to: only a path is honoured. -/
def safeNext (candidate : Option String) : String :=
  match candidate with
  | none => "/account"
  | some candidate =>
    if candidate = "" then "/account"
    else if !"/".toList.isPrefixOf candidate.toList || "//".toList.isPrefixOf candidate.toList then
      "/account"
    else candidate

theorem safeNext_cons {candidate : String} {s : List Char} (h : candidate.toList = '/' :: s) :
    safeNext (some candidate) = if s.head? = some '/' then "/account" else candidate := by
  have hne : candidate ≠ "" := by
    rintro rfl
    cases h
  have hone : "/".toList.isPrefixOf candidate.toList = true := by
    rw [h]
    rfl
  have htwo : "//".toList.isPrefixOf candidate.toList = true ↔ s.head? = some '/' := by
    rw [h, List.isPrefixOf_iff_prefix]
    cases s with
    | nil => simp
    | cons c s => simp [eq_comm]
  simp only [safeNext, if_neg hne, hone, Bool.not_true, Bool.false_or, htwo]

/-- Anything but a path is not honoured. -/
theorem safeNext_of_not_slash {candidate : String} (h : ∀ s, candidate.toList ≠ '/' :: s) :
    safeNext (some candidate) = "/account" := by
  have hone : "/".toList.isPrefixOf candidate.toList = false := by
    rw [Bool.eq_false_iff, Ne, List.isPrefixOf_iff_prefix]
    rintro ⟨rest, hrest⟩
    exact h rest hrest.symm
  simp only [safeNext, hone, Bool.not_false, Bool.true_or, if_true, ite_self]

/-- What the visitor sees. -/
inductive Screen
  | activation (form : ActivateForm) (outcome : FormOutcome)
  | notUsable
  | signIn (next : String)
  /-- Any other page. -/
  | elsewhere (link : String)
  /-- A page that found a list where it expected a text. -/
  | broken

/-- A parameter that a page reads. The framework hands over a list when a key occurs twice. -/
def pageParam (illFormed : List UInt8 → List Char) (link key : String) :
    Except Unit (Option String) :=
  match searchParams illFormed (queryOf link.toList) key.toList with
  | [] => .ok none
  | [value] => .ok (some (String.ofList value))
  | _ => .error ()

section Journey

variable (illFormed : List UInt8 → List Char) (lib : BetterAuth) (hashToken : String → String)
  (tenant : TenantContext)

/-- A link is opened at the host of the institute. -/
def openLink (db : Database) (now : Instant) (link : String) : Screen :=
  if pathOf link.toList = "/activate".toList then
    match pageParam illFormed link "token" with
    | .error _ => .broken
    | .ok token =>
      match activatePage hashToken db tenant token now with
      | .notUsable => .notUsable
      | .form _ _ form => .activation form .idle
  else if pathOf link.toList = "/sign-in".toList then
    match pageParam illFormed link "next" with
    | .error _ => .broken
    | .ok next => .signIn (safeNext next)
  else .elsewhere link

/-- What happens next on the way through the forms. -/
inductive Move
  /-- Others are served. -/
  | others (w : AuthWorld)
  | followSignIn (now : Instant)
  /-- The sign-in form is sent, and answered or refused. -/
  | signIn (granted : Bool) (now : Instant)
  /-- The button of the form, with what the environment decides during the request. -/
  | press (typed : String) (cookie : Option String) (draw : AuthDraw) (foundAt finishedAt : Instant)
      (fault : Option DbError)
  /-- The link under the good news. -/
  | proceed (now : Instant)

/-- The request of the button. Beside the sign-in link it never carries a password. -/
def pressCall (form : ActivateForm) (outcome : FormOutcome) (typed : String)
    (cookie : Option String) (draw : AuthDraw) (foundAt finishedAt : Instant)
    (fault : Option DbError) : ActivationCall where
  tenant := some tenant
  body := some
    (if form.needsSignIn && outcome = .idle then form.submit none else form.onSubmit typed)
  cookie := cookie
  draw := draw
  foundAt := foundAt
  finishedAt := finishedAt
  fault := fault

/-- The news is good. -/
def FormOutcome.finished (outcome : FormOutcome) : Bool := outcome = .activated || outcome = .joined

/-- A link to the sign-in page is on the screen. -/
def ActivateForm.offersSignIn (form : ActivateForm) (outcome : FormOutcome) : Bool :=
  (form.needsSignIn && outcome = .idle) || outcome = .signInRequired

/-- The screen after a move, and what the request behind it has done. -/
def journeyStep (s : Screen × AuthWorld) (move : Move) : Screen × AuthWorld :=
  match move, s.1 with
  | .others w, screen => (screen, w)
  | .followSignIn now, .activation form outcome =>
    if form.offersSignIn outcome then
      (openLink illFormed hashToken tenant s.2.db now form.signInHref, s.2)
    else s
  | .signIn granted now, .signIn next =>
    if granted then (openLink illFormed hashToken tenant s.2.db now next, s.2) else s
  | .press typed cookie draw foundAt finishedAt fault, .activation form outcome =>
    if outcome.finished then s
    else
      let result := activatePOST lib hashToken
        (pressCall tenant form outcome typed cookie draw foundAt finishedAt fault) s.2
      (.activation form (outcomeOf result.1), result.2)
  | .proceed now, .activation _ outcome =>
    if outcome = .joined then (openLink illFormed hashToken tenant s.2.db now "/account", s.2)
    else if outcome = .activated then
      (openLink illFormed hashToken tenant s.2.db now "/sign-in", s.2)
    else s
  | _, _ => s

end Journey

/-! ### What the links lead to -/

section Links

variable (illFormed : List UInt8 → List Char) (hashToken : String → String)
  (tenant : TenantContext) (db : Database) (now : Instant)

theorem pageParam_oneValue {link : String} {path key : List Char} {text : List Char}
    (hlink : link.toList = oneValue path key (encodeURIComponent text))
    (hpath : path.all isPathChar = true) (hkey : key.all isUnreserved = true) :
    pathOf link.toList = path ∧
      pageParam illFormed link (String.ofList key) = .ok (some (String.ofList text)) := by
  have hvalue : ∀ c ∈ encodeURIComponent text, isPlain c = true :=
    fun c hc => Url.isPlain_encodeURIComponent hc
  refine ⟨by rw [hlink, Url.pathOf_oneValue hpath hkey hvalue], ?_⟩
  rw [pageParam, hlink, String.toList_ofList, Url.searchParams_oneValue illFormed hpath hkey hvalue,
    Url.formValue_encodeURIComponent]

/-- The mailed link leads to its page. -/
theorem openLink_activationPath {token : String}
    (htoken : ∀ c ∈ token.toList, isUnreserved c = true) :
    openLink illFormed hashToken tenant db now (activationPath token) =
      match activatePage hashToken db tenant (some token) now with
      | .notUsable => .notUsable
      | .form _ _ form => .activation form .idle := by
  have hlink : (activationPath token).toList
      = oneValue "/activate".toList "token".toList (encodeURIComponent token.toList) := by
    rw [Url.encodeURIComponent_eq_self htoken, activationPath, String.toList_append]
    rfl
  obtain ⟨hpath, hparam⟩ := pageParam_oneValue illFormed hlink rfl rfl
  rw [openLink, if_pos hpath]
  rw [String.ofList_toList, String.ofList_toList] at hparam
  rw [hparam]

/-- The link to the sign-in page brings the path of the mailed link along, and it is honoured. -/
theorem openLink_signInHref (form : ActivateForm) :
    openLink illFormed hashToken tenant db now form.signInHref
      = .signIn (activationPath form.token) := by
  have hlink : form.signInHref.toList = oneValue "/sign-in".toList "next".toList
      (encodeURIComponent (activationPath form.token).toList) := by
    rw [ActivateForm.signInHref, String.toList_ofList, activationPath, String.toList_append]
  obtain ⟨hpath, hparam⟩ := pageParam_oneValue illFormed hlink rfl rfl
  rw [openLink, if_neg (by rw [hpath]; decide), if_pos hpath]
  rw [String.ofList_toList, String.ofList_toList] at hparam
  rw [hparam]
  have hslash : (activationPath form.token).toList
      = '/' :: 'a' :: ("ctivate?token=".toList ++ form.token.toList) := by
    rw [activationPath, String.toList_append]
    rfl
  have hhonoured : safeNext (some (activationPath form.token)) = activationPath form.token := by
    rw [safeNext_cons hslash]
    exact if_neg (show ¬ some 'a' = some '/' by decide)
  exact congrArg Screen.signIn hhonoured

theorem openLink_account :
    openLink illFormed hashToken tenant db now "/account" = .elsewhere "/account" := by
  rfl

theorem openLink_signIn :
    openLink illFormed hashToken tenant db now "/sign-in" = .signIn "/account" := by
  rfl

end Links

/-! ### Journeys -/

/-- A screen that a journey with the link can have come to. -/
def AboutLink (token : String) : Screen → Prop
  | .activation form _ =>
    form.token = token ∧ (form.needsSignIn = true → form.needsPassword = false)
  | .notUsable => True
  | .signIn next => next = activationPath token ∨ next = "/account"
  | .elsewhere link => link = "/account"
  | .broken => False

/-- The tables are in the order in which the program leaves them. -/
structure InRoutine (tenant : TenantContext) (db : Database) : Prop where
  keys : InvitationKeys db
  normal : ∀ i ∈ db.signupInvitations, normalizeEmail i.email = i.email
  tenant : ∃ t ∈ db.tenants, t.id = tenant.id

/-- The button, pressed while the tables are in order and no transaction fails by itself, does for
the link what its page would now ask for. -/
def Presses (lib : BetterAuth) (accepts : String → Prop) (hashToken : String → String)
    (tenant : TenantContext) (token : String) (before after : Screen × AuthWorld) (move : Move) :
    Prop :=
  ∀ form outcome typed cookie draw foundAt finishedAt,
    before.1 = .activation form outcome → outcome.finished = false →
    move = .press typed cookie draw foundAt finishedAt none → InRoutine tenant before.2.db →
    match activatePage hashToken before.2.db tenant (some token) foundAt with
    | .notUsable => after = (.activation form .error, before.2)
    | .form _ _ asked =>
      let password := if form.needsPassword then typed else ""
      let session := lib.getSession cookie draw.now before.2.db.toIdentity
      ∃ row ∈ before.2.db.signupInvitations, row.tenantId = tenant.id ∧
        row.tokenHash = hashToken token ∧
        (asked.Given accepts row.email password session →
          (after.1 = .activation form .activated ∨ after.1 = .activation form .joined) ∧
            Admitted after.2.db row) ∧
        (¬ asked.Given accepts row.email password session →
          after.1 = .activation form (if asked.needsSignIn then .signInRequired else .error) ∧
            after.2.db = before.2.db)

section Runs

variable (illFormed : List UInt8 → List Char) (lib : BetterAuth) (hashToken : String → String)
  (tenant : TenantContext) {token : String}

theorem aboutLink_activationPath (htoken : ∀ c ∈ token.toList, isUnreserved c = true)
    (db : Database) (now : Instant) :
    AboutLink token (openLink illFormed hashToken tenant db now (activationPath token)) := by
  rw [openLink_activationPath illFormed hashToken tenant db now htoken]
  cases hpage : activatePage hashToken db tenant (some token) now with
  | notUsable => exact trivial
  | form heading explanation form => exact activatePage_form hpage

theorem aboutLink_journeyStep (htoken : ∀ c ∈ token.toList, isUnreserved c = true)
    (s : Screen × AuthWorld) (move : Move) (h : AboutLink token s.1) :
    AboutLink token (journeyStep illFormed lib hashToken tenant s move).1 := by
  obtain ⟨screen, w⟩ := s
  cases move with
  | others w' => exact h
  | followSignIn now =>
    cases screen with
    | activation form outcome =>
      simp only [journeyStep]
      split_ifs
      · rw [openLink_signInHref]
        exact Or.inl (congrArg activationPath h.1)
      · exact h
    | _ => exact h
  | signIn granted now =>
    cases screen with
    | signIn next =>
      simp only [journeyStep]
      split_ifs
      · rcases h with rfl | rfl
        · exact aboutLink_activationPath illFormed hashToken tenant htoken w.db now
        · rw [openLink_account]
          exact rfl
      · exact h
    | _ => exact h
  | press typed cookie draw foundAt finishedAt fault =>
    cases screen with
    | activation form outcome =>
      simp only [journeyStep]
      split_ifs
      · exact h
      · exact h
    | _ => exact h
  | proceed now =>
    cases screen with
    | activation form outcome =>
      simp only [journeyStep]
      split_ifs
      · rw [openLink_account]
        exact rfl
      · rw [openLink_signIn]
        exact Or.inr rfl
      · exact h
    | _ => exact h

/-- The button of a screen about the link. -/
theorem presses_journeyStep {accepts : String → Prop} (hlib : lib.Documented)
    (hreg : lib.Registers accepts) (s : Screen × AuthWorld) (move : Move)
    (h : AboutLink token s.1) :
    Presses lib accepts hashToken tenant token s (journeyStep illFormed lib hashToken tenant s move)
      move := by
  rintro form outcome typed cookie draw foundAt finishedAt hscreen hunfinished rfl hroutine
  obtain ⟨screen, w⟩ := s
  obtain rfl : screen = .activation form outcome := hscreen
  obtain ⟨htoken, hone⟩ := h
  let call := pressCall tenant form outcome typed cookie draw foundAt finishedAt none
  have hstep : journeyStep illFormed lib hashToken tenant (.activation form outcome, w)
      (.press typed cookie draw foundAt finishedAt none)
      = (.activation form (outcomeOf (activatePOST lib hashToken call w).1),
        (activatePOST lib hashToken call w).2) := by
    simp only [journeyStep, hunfinished]
    rfl
  have hbody : call.body = some (form.onSubmit typed) := by
    show some (if form.needsSignIn && outcome = .idle then form.submit none
      else form.onSubmit typed) = _
    split_ifs with hquiet
    · rw [Bool.and_eq_true] at hquiet
      rw [ActivateForm.onSubmit, hone hquiet.1]
      rfl
    · rfl
  have hhere : call.tenant = some tenant := rfl
  have hpromise := activatePage_promises hashToken hlib hreg hroutine.keys hroutine.normal
    hroutine.tenant hhere rfl hbody
  rw [htoken] at hpromise
  rw [hstep]
  cases hpage : activatePage hashToken w.db tenant (some token) foundAt with
  | notUsable =>
    have hnow : activatePage hashToken w.db tenant (some token) call.foundAt = .notUsable := hpage
    rw [hnow] at hpromise
    have hrefused : activatePOST lib hashToken call w = (REFUSED, w) := hpromise
    dsimp only
    rw [hrefused]
    rfl
  | form heading explanation asked =>
    have hnow : activatePage hashToken w.db tenant (some token) call.foundAt
        = .form heading explanation asked := hpage
    rw [hnow] at hpromise
    obtain ⟨row, hrow, hrowTenant, hhash, hin, hout⟩ := hpromise
    refine ⟨row, hrow, hrowTenant, hhash, fun hgiven => ?_, fun hnot => ?_⟩
    · obtain ⟨houtcome, hadmitted⟩ := hin hgiven
      exact ⟨houtcome.imp (congrArg (Screen.activation form)) (congrArg (Screen.activation form)),
        hadmitted⟩
    · obtain ⟨houtcome, hsame⟩ := hout hnot
      exact ⟨congrArg (Screen.activation form) houtcome, hsame⟩

/-- **From the mail to the membership.** The visitor opens the mailed link and goes on in any way,
while others change whatever they change. No page on the way fails, the sign-in page returns to the
link or to the account, and every press of the button does for the link what its page would ask for
at that moment: it lets the addressee in, or says what is missing, or that the link is spent. -/
theorem journey_keeps_promise {accepts : String → Prop} (hlib : lib.Documented)
    (hreg : lib.Registers accepts) (htoken : ∀ c ∈ token.toList, isUnreserved c = true)
    (w : AuthWorld) (now : Instant) (moves : List Move) :
    let start := (openLink illFormed hashToken tenant w.db now (activationPath token), w)
    AboutLink token (run (journeyStep illFormed lib hashToken tenant) start moves).1 ∧
      Meets (journeyStep illFormed lib hashToken tenant)
        (fun s move => Presses lib accepts hashToken tenant token s
          (journeyStep illFormed lib hashToken tenant s move) move) start moves := by
  intro start
  have hstart : AboutLink token start.1 :=
    aboutLink_activationPath illFormed hashToken tenant htoken w.db now
  have hstep : Machine.Preserves (journeyStep illFormed lib hashToken tenant) (fun _ _ => True)
      fun s => AboutLink token s.1 :=
    fun s move _ h => aboutLink_journeyStep illFormed lib hashToken tenant htoken s move h
  refine ⟨hstep.run hstart (Machine.meets_true _ _ _), ?_⟩
  exact Meets.of_invariant hstep
    (fun s move h _ => presses_journeyStep illFormed lib hashToken tenant hlib hreg s move h)
    hstart (Machine.meets_true _ _ _)

end Runs

/-! ### Ada has an account -/

section Example

/-- A decoder that can make nothing of any bytes. -/
def UNREADABLE (_ : List UInt8) : List Char := ['\uFFFD']

/-- Ada is known elsewhere on the platform. -/
def adasUser : UserRow where
  id := 5
  email := "ada@example.edu"
  name := "Ada"
  firstName := "Ada"
  lastName := ""
  emailVerified := true

/-- She signs in with this cookie. -/
def knownAda (signedIn : Bool) : AuthWorld where
  db := { adaInvited.db with
    users := [adasUser]
    accounts := [⟨5, "chosen by ada"⟩]
    sessions := if signedIn then [⟨"cookie", 5⟩] else [] }

/-- Ada signs in on her way and sends the form afterwards. -/
def adasDetour : List Move :=
  [.followSignIn 2, .others (knownAda true), .signIn true 3,
    .press "" (some "cookie") { id := 9, token := "unused", now := 4 } 4 5 none]

/-- A form that asks Ada to sign in. -/
def adasOldForm : ActivateForm where
  token := "secret"
  needsPassword := false
  needsSignIn := true

/-- Her link leads to the page that asks her to sign in. -/
theorem openLink_ada (signedIn : Bool) {now : Instant} (hlive : now < 86400000) :
    openLink UNREADABLE id graceHost (knownAda signedIn).db now (activationPath "secret")
      = .activation adasOldForm .idle := by
  have hfound : findPendingInvitation id (knownAda signedIn).db 1 "secret" now
      = some { id := 20, email := "ada@example.edu", firstName := "", lastName := "",
               role := .student, answers := [] } := by
    have hrow : (knownAda signedIn).db.signupInvitations.find? (fun i => i.tenantId = 1 &&
        i.tokenHash = "secret" && i.consumedAt.isNone && now < i.expiresAt) = some adasRow :=
      List.find?_cons_of_pos (by
        show (true && true && true && decide (now < 86400000)) = true
        rw [decide_eq_true hlive]
        rfl)
    rw [findPendingInvitation, if_neg (by decide), show id "secret" = "secret" from rfl, hrow]
    rfl
  have hpage : ∃ heading explanation, activatePage id (knownAda signedIn).db graceHost
      (some "secret") now = .form heading explanation adasOldForm := by
    simp only [activatePage, Option.getD_some]
    rw [if_neg (by decide), show graceHost.id = 1 from rfl, hfound]
    exact ⟨_, _, rfl⟩
  obtain ⟨heading, explanation, hpage⟩ := hpage
  rw [openLink_activationPath _ _ _ _ _ (List.all_eq_true.mp rfl), hpage]

/-- She follows her link, is asked to sign in, is brought back, and joins. -/
theorem journey_keeps_promise_ada :
    Admitted (run (journeyStep UNREADABLE plainAuth id graceHost)
      (openLink UNREADABLE id graceHost (knownAda false).db 1 (activationPath "secret"),
        knownAda false) adasDetour).2.db adasRow := by
  have hkept : ∀ c ∈ "secret".toList, isUnreserved c = true := List.all_eq_true.mp rfl
  obtain ⟨-, hmoves⟩ := journey_keeps_promise UNREADABLE plainAuth id graceHost
    documented_plainAuth registers_plainAuth hkept (knownAda false) 1 adasDetour
  have hfollow : journeyStep UNREADABLE plainAuth id graceHost
      (.activation adasOldForm .idle, knownAda false) (.followSignIn 2)
      = (.signIn (activationPath "secret"), knownAda false) :=
    congrArg (·, knownAda false) (openLink_signInHref UNREADABLE id graceHost _ 2 adasOldForm)
  have hreturn : journeyStep UNREADABLE plainAuth id graceHost
      (.signIn (activationPath "secret"), knownAda true) (.signIn true 3)
      = (.activation adasOldForm .idle, knownAda true) :=
    congrArg (·, knownAda true) (openLink_ada true (by decide))
  have hback : run (journeyStep UNREADABLE plainAuth id graceHost)
      (openLink UNREADABLE id graceHost (knownAda false).db 1 (activationPath "secret"),
        knownAda false) (adasDetour.take 3) = (.activation adasOldForm .idle, knownAda true) := by
    rw [openLink_ada false (by decide)]
    show run _ (journeyStep UNREADABLE plainAuth id graceHost _ (.followSignIn 2)) _ = _
    rw [hfollow]
    exact hreturn
  have hsplit : adasDetour = adasDetour.take 3 ++ adasDetour.drop 3 := rfl
  rw [hsplit, Machine.meets_append, hback] at hmoves
  rw [hsplit, Machine.run_append, hback]
  obtain ⟨-, hpress, -⟩ := hmoves
  have hroutine : InRoutine graceHost (knownAda true).db := by
    refine ⟨⟨by decide, by decide⟩, ?_, ⟨_, List.mem_singleton.mpr rfl, rfl⟩⟩
    intro i hi
    rw [List.mem_singleton.mp hi]
    decide
  obtain ⟨row, hrow, -, -, hin, -⟩ :=
    hpress adasOldForm .idle _ _ _ _ _ rfl rfl rfl hroutine
  obtain rfl : row = adasRow := List.mem_singleton.mp hrow
  have hgiven : adasOldForm.Given (fun p => MIN_PASSWORD_LENGTH ≤ Js.length p.toList)
      "ada@example.edu" "" (some adasUser) :=
    ⟨fun hneeds => absurd hneeds Bool.false_ne_true, fun _ => ⟨adasUser, rfl, by decide⟩⟩
  exact (hin hgiven).2

end Example

end LampLight
