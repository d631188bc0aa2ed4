import LampLight.Auth.Guards
import LampLight.Auth.SignUp
import LampLight.Signup.Answers

/-!
# Saving the questions

An admin edits the list as it is read, and the form submits the whole list again. What the schema
accepts is stored as the schema returns it, and that is accepted again and returned as it is. So
what was saved is what the sign-up asks, and a form that nobody touched changes nothing of it.

## Main definitions

* `SignupQuestion.toJson` — a question as it is stored, and as the form submits it
* `SignupSettingsForm`, `saveSignupSettingsAction` — the form, and what the action makes of it
* `settingsForm` — the form as the page shows it

## Main results

* `signupQuestionsSchema_toJson` — an accepted list is accepted again
* `signup_asks_saved` — the sign-up asks what was saved last
-/

namespace LampLight

open Js (Json)
open Machine (run Meets)

/-! ### Writing questions -/

/-- A type as it is stored. -/
def QuestionType.name : QuestionType → String
  | .text => "text"
  | .textarea => "textarea"
  | .select => "select"
  | .checkbox => "checkbox"

/-- A field that is left out when there is no value. -/
def presentField (key : String) (value : Option Json) : List (String × Json) :=
  value.toList.map fun v => (key, v)

/-- A question as it is stored. -/
def SignupQuestion.toJson (q : SignupQuestion) : Json :=
  .obj ([("id", .str q.id), ("label", .str q.label)]
    ++ presentField "help" (q.help.map .str)
    ++ [("type", .str q.type.name), ("required", .bool q.required)]
    ++ presentField "options" (q.options.map fun options => .arr (options.map .str)))

/-- Questions as they are stored. -/
def questionsJson (questions : List SignupQuestion) : Json :=
  .arr (questions.map SignupQuestion.toJson)

/-! ### The action -/

/-- A mode as it is stored. -/
def SignupMode.name : SignupMode → String
  | .closed => "closed"
  | .open => "open"

/-- The fields of the form. The list is what `JSON.parse` makes of its field, when it is there. -/
structure SignupSettingsForm where
  signupMode : Option String
  questions : Option (Option Json)

/-- The mode a form submits, closed when it submits none. -/
def readSignupMode (mode : Option String) : Option SignupMode :=
  if mode.getD "closed" = "open" then some .open
  else if mode.getD "closed" = "closed" then some .closed
  else none

/-- The list of the form, or what is wrong with it. What the schema library says is its own. -/
def readQuestionList (issues : Json → String) (field : Option (Option Json)) :
    Except String (List SignupQuestion) :=
  match field.getD (some (.arr [])) with
  | none => .error "Those questions are not valid: the list is not valid JSON"
  | some value =>
    match signupQuestionsSchema value with
    | none => .error ("Those questions are not valid: " ++ issues value)
    | some questions => .ok questions

/-- The settings row of the tenant with a mode and a list. -/
def Database.setSignup (db : Database) (tenantId : Uuid) (mode : SignupMode)
    (questions : List SignupQuestion) : Database :=
  { db with
    tenantSettings := Table.update (fun s => s.tenantId = tenantId)
      (fun s => { s with signupMode := mode, signupQuestionsJson := questionsJson questions })
      db.tenantSettings }

/-- The entry in the audit log. -/
def signupChanged (viewer : Viewer) (mode : SignupMode) (questions : List SignupQuestion) :
    AuditRow where
  tenantId := viewer.tenant.id
  actorUserId := some viewer.userId
  action := "settings.signup_changed"
  targetType := "tenant_settings"
  targetId := some viewer.tenant.id
  metadataJson := [("signupMode", .str mode.name),
    ("questionCount", .num (.finite questions.length))]

/-- What the action answers, and the database it leaves. Nobody but an admin gets an answer, and a
statement that fails takes the other one with it. -/
def saveSignupSettingsAction (issues : Json → String) (db : Database) (viewer : Option Viewer)
    (form : SignupSettingsForm) : Except DbError (Option (Except String Unit) × Database) :=
  match requireRole .admin viewer with
  | none => .ok (none, db)
  | some viewer =>
    match readSignupMode form.signupMode with
    | none => .ok (some (.error "Unknown signup mode."), db)
    | some mode =>
      match readQuestionList issues form.questions with
      | .error message => .ok (some (.error message), db)
      | .ok questions =>
        ((db.setSignup viewer.tenant.id mode questions).insertAuditLog
          (signupChanged viewer mode questions)).map fun db => (some (.ok ()), db)

/-! ### Reading -/

/-- The list that the sign-up asks and checks against, and that the settings page shows. -/
def questionsOf (db : Database) (tenantId : Uuid) : List SignupQuestion :=
  parseQuestions ((tenantSettingsOf db tenantId).map TenantSettingsRow.signupQuestionsJson)

/-- The mode of an institute, closed when it has no settings. -/
def signupModeOf (db : Database) (tenantId : Uuid) : SignupMode :=
  if (tenantSettingsOf db tenantId).any fun s => s.signupMode = .open then .open else .closed

/-- What the form submits when nobody touches it. -/
def settingsForm (db : Database) (tenantId : Uuid) : SignupSettingsForm where
  signupMode := some (signupModeOf db tenantId).name
  questions := some (some (questionsJson (questionsOf db tenantId)))

/-! ### What was written is read again -/

/-- What the schema asks of a question. -/
structure FitsSchema (q : SignupQuestion) : Prop where
  id : isQuestionId q.id.toList = true
  label : 1 ≤ Js.length q.label.toList ∧ Js.length q.label.toList ≤ 200
  help : ∀ help ∈ q.help, Js.length help.toList ≤ 300
  options : ∀ options ∈ q.options, options.length ≤ MAX_OPTIONS ∧
    ∀ option ∈ options, 1 ≤ Js.length option.toList ∧ Js.length option.toList ≤ 120

theorem length_of_mapM_eq_some {α β : Type} {f : α → Option β} {xs : List α} {ys : List β}
    (h : xs.mapM f = some ys) : ys.length = xs.length := by
  induction xs generalizing ys with
  | nil =>
    obtain rfl : [] = ys := by simpa using h
    rfl
  | cons x xs ih =>
    rw [List.mapM_cons] at h
    obtain ⟨y, -, h⟩ := Option.bind_eq_some_iff.mp h
    obtain ⟨rest, hrest, h⟩ := Option.bind_eq_some_iff.mp h
    obtain rfl : y :: rest = ys := Option.some.inj h
    rw [List.length_cons, List.length_cons, ih hrest]

/-- Reading what was written, one after the other. -/
theorem mapM_map_eq_some {α β : Type} {f : α → Option β} {g : β → α} {ys : List β}
    (h : ∀ y ∈ ys, f (g y) = some y) : (ys.map g).mapM f = some ys := by
  induction ys with
  | nil => rfl
  | cons y ys ih =>
    obtain ⟨hy, hys⟩ := List.forall_mem_cons.mp h
    rw [List.map_cons, List.mapM_cons, hy, ih hys]
    rfl

theorem parseText_eq_some {low high : ℕ} {v : Json} {s : String} :
    parseText low high v = some s ↔
      v = .str s ∧ low ≤ Js.length s.toList ∧ Js.length s.toList ≤ high := by
  constructor
  · intro h
    rw [parseText.eq_def] at h
    split at h
    · split_ifs at h with hbounds
      obtain rfl := Option.some.inj h
      exact ⟨rfl, hbounds⟩
    · cases h
  · rintro ⟨rfl, hbounds⟩
    exact if_pos hbounds

theorem parseOptional_eq_some {α : Type} {parse : Json → Option α} {v : Option Json}
    {value : Option α} (h : parseOptional parse v = some value) {a : α} (ha : a ∈ value) :
    ∃ w, v = some w ∧ parse w = some a := by
  cases v with
  | none =>
    obtain rfl := Option.some.inj h
    cases ha
  | some w =>
    obtain ⟨b, hb, rfl⟩ := Option.map_eq_some_iff.mp h
    obtain rfl := Option.some.inj ha
    exact ⟨w, rfl, hb⟩

/-- A question the schema returns fits it. -/
theorem fitsSchema_of_eq_some {v : Json} {q : SignupQuestion}
    (h : signupQuestionSchema v = some q) : FitsSchema q := by
  rw [signupQuestionSchema] at h
  obtain ⟨id, -, h⟩ := Option.bind_eq_some_iff.mp h
  obtain ⟨label, hlabel, h⟩ := Option.bind_eq_some_iff.mp h
  obtain ⟨help, hhelp, h⟩ := Option.bind_eq_some_iff.mp h
  obtain ⟨type, -, h⟩ := Option.bind_eq_some_iff.mp h
  obtain ⟨required, -, h⟩ := Option.bind_eq_some_iff.mp h
  obtain ⟨options, hoptions, h⟩ := Option.bind_eq_some_iff.mp h
  split_ifs at h with hid
  obtain rfl := Option.some.inj h
  obtain ⟨w, -, hlabel⟩ := Option.bind_eq_some_iff.mp hlabel
  refine ⟨hid, (parseText_eq_some.mp hlabel).2, fun text htext => ?_, fun texts htexts => ?_⟩
  · obtain ⟨w, -, hw⟩ := parseOptional_eq_some hhelp htext
    exact (parseText_eq_some.mp hw).2.2
  · obtain ⟨w, -, hw⟩ := parseOptional_eq_some hoptions htexts
    rw [parseOptions.eq_def] at hw
    split at hw
    · split_ifs at hw with hlength
      refine ⟨(length_of_mapM_eq_some hw).trans_le hlength, fun option hoption => ?_⟩
      obtain ⟨item, -, hitem⟩ := exists_of_mapM_eq_some hw hoption
      exact (parseText_eq_some.mp hitem).2
    · cases hw

theorem parseOptional_written {α : Type} {parse : Json → Option α} {write : α → Json}
    {value : Option α} (h : ∀ a ∈ value, parse (write a) = some a) :
    parseOptional parse (value.map write) = some value := by
  cases value with
  | none => rfl
  | some a => rw [Option.map_some, parseOptional, h a rfl, Option.map_some]

theorem parseQuestionType_name (type : QuestionType) :
    parseQuestionType (.str type.name) = some type := by
  cases type <;> rfl

/-- Each field is found under its key. -/
theorem get?_toJson (q : SignupQuestion) :
    q.toJson.get? "id" = some (.str q.id) ∧ q.toJson.get? "label" = some (.str q.label) ∧
    q.toJson.get? "help" = q.help.map .str ∧ q.toJson.get? "type" = some (.str q.type.name) ∧
    q.toJson.get? "required" = some (.bool q.required) ∧
    q.toJson.get? "options" = q.options.map fun options => .arr (options.map .str) := by
  obtain ⟨id, label, help, type, required, options⟩ := q
  cases help <;> cases options <;> exact ⟨rfl, rfl, rfl, rfl, rfl, rfl⟩

theorem FitsSchema.parse {q : SignupQuestion} (h : FitsSchema q) :
    signupQuestionSchema q.toJson = some q := by
  obtain ⟨hid, hlabel, hhelp, htype, hrequired, hoptions⟩ := get?_toJson q
  have hhelp' : parseOptional (parseText 0 300) (q.help.map .str) = some q.help :=
    parseOptional_written fun text htext => parseText_eq_some.mpr
      ⟨rfl, Nat.zero_le _, h.help text htext⟩
  have hoptions' : parseOptional parseOptions
      (q.options.map fun options => .arr (options.map .str)) = some q.options := by
    refine parseOptional_written fun texts htexts => ?_
    obtain ⟨hlength, hbounds⟩ := h.options texts htexts
    rw [parseOptions, List.length_map, if_pos hlength]
    exact mapM_map_eq_some fun text htext => parseText_eq_some.mpr ⟨rfl, hbounds text htext⟩
  have hrequired' : parseOptional parseBool (some (.bool q.required)) = some (some q.required) :=
    rfl
  have hlabel' : parseText 1 200 (.str q.label) = some q.label :=
    parseText_eq_some.mpr ⟨rfl, h.label⟩
  simp only [signupQuestionSchema, hid, hlabel, hhelp, htype, hrequired, hoptions, hhelp',
    hoptions', hlabel', hrequired', Option.bind_some, Json.string?, parseQuestionType_name, h.id,
    Option.getD_some, Option.bind_eq_bind, if_true]

/-- **A list that the schema returned is accepted, and returned as it is.** -/
theorem signupQuestionsSchema_toJson {value : Json} {questions : List SignupQuestion}
    (h : signupQuestionsSchema value = some questions) :
    signupQuestionsSchema (questionsJson questions) = some questions := by
  have hagree := questionsAgree_of_schema h
  rw [signupQuestionsSchema.eq_def] at h
  split at h
  · split_ifs at h with hlength
    obtain ⟨hread, -⟩ := Option.filter_eq_some_iff.mp h
    have hwritten : (questions.map SignupQuestion.toJson).mapM signupQuestionSchema
        = some questions := by
      refine mapM_map_eq_some fun q hq => ?_
      obtain ⟨item, -, hitem⟩ := exists_of_mapM_eq_some hread hq
      exact (fitsSchema_of_eq_some hitem).parse
    rw [questionsJson, signupQuestionsSchema, List.length_map, length_of_mapM_eq_some hread,
      if_pos hlength, hwritten]
    exact Option.filter_eq_some_iff.mpr ⟨rfl, hagree⟩
  · cases h

theorem parseQuestions_questionsJson {value : Json} {questions : List SignupQuestion}
    (h : signupQuestionsSchema value = some questions) :
    parseQuestions (some (questionsJson questions)) = questions := by
  rw [parseQuestions, Option.bind_some, signupQuestionsSchema_toJson h, Option.getD_some]

/-- What is read of any stored value is accepted, also when it is read as no questions. -/
theorem signupQuestionsSchema_parseQuestions (value : Option Json) :
    signupQuestionsSchema (questionsJson (parseQuestions value)) = some (parseQuestions value) := by
  rw [parseQuestions]
  cases hparse : value.bind signupQuestionsSchema with
  | none => rfl
  | some questions =>
    obtain ⟨v, -, hv⟩ := Option.bind_eq_some_iff.mp hparse
    exact signupQuestionsSchema_toJson hv

/-! ### One save -/

section Save

variable {issues : Json → String} {db db' : Database} {viewer : Option Viewer}
  {form : SignupSettingsForm} {tenantId : Uuid} {mode : SignupMode}
  {questions : List SignupQuestion}

/-- An admin of the tenant submits this mode and this list. -/
def Submits (issues : Json → String) (viewer : Option Viewer) (form : SignupSettingsForm)
    (tenantId : Uuid) (mode : SignupMode) (questions : List SignupQuestion) : Prop :=
  (∃ admin, requireRole .admin viewer = some admin ∧ admin.tenant.id = tenantId) ∧
    readSignupMode form.signupMode = some mode ∧
    readQuestionList issues form.questions = .ok questions

/-- The action answers that it has saved, and then it has saved what an admin submitted, or it
leaves the database alone. -/
theorem saveSignupSettings_cases {answer : Option (Except String Unit)}
    (h : saveSignupSettingsAction issues db viewer form = .ok (answer, db')) :
    (answer ≠ some (.ok ()) ∧ db' = db) ∨
      answer = some (.ok ()) ∧ ∃ tenantId mode questions entry,
        Submits issues viewer form tenantId mode questions ∧
          db' = { db.setSignup tenantId mode questions with
            auditLog := db.auditLog ++ [entry] } := by
  rw [saveSignupSettingsAction.eq_def] at h
  split at h
  · obtain ⟨rfl, rfl⟩ := Prod.mk.inj (Except.ok.inj h)
    exact Or.inl ⟨by simp, rfl⟩
  · next admin hadmin =>
    split at h
    · obtain ⟨rfl, rfl⟩ := Prod.mk.inj (Except.ok.inj h)
      exact Or.inl ⟨by simp, rfl⟩
    · next mode hmode =>
      split at h
      · obtain ⟨rfl, rfl⟩ := Prod.mk.inj (Except.ok.inj h)
        exact Or.inl ⟨by simp, rfl⟩
      · next questions hlist =>
        obtain ⟨db₁, hinsert, heq⟩ := Machine.map_eq_ok.mp h
        obtain ⟨rfl, rfl⟩ := Prod.mk.inj heq
        exact Or.inr ⟨rfl, admin.tenant.id, mode, questions, _,
          ⟨⟨admin, hadmin, rfl⟩, hmode, hlist⟩, Database.insertAuditLog_ok hinsert⟩

theorem tenantSettingsOf_setSignup (db : Database) (tenantId : Uuid) (mode : SignupMode)
    (questions : List SignupQuestion) :
    tenantSettingsOf (db.setSignup tenantId mode questions) tenantId
      = (tenantSettingsOf db tenantId).map fun s =>
        { s with signupMode := mode, signupQuestionsJson := questionsJson questions } := by
  rw [tenantSettingsOf, Database.setSignup]
  exact Table.find?_update (by intro s; rfl) db.tenantSettings

theorem tenantSettingsOf_setSignup_of_ne {other : Uuid} (hne : other ≠ tenantId) :
    tenantSettingsOf (db.setSignup tenantId mode questions) other = tenantSettingsOf db other := by
  rw [tenantSettingsOf, Database.setSignup]
  refine Table.find?_update_of_disjoint (fun s hs => ?_) db.tenantSettings
  obtain rfl : s.tenantId = tenantId := of_decide_eq_true hs
  simpa [eq_comm] using hne

/-- The mode and the list that a tenant asks with. -/
def asksWith (db : Database) (tenantId : Uuid) : SignupMode × List SignupQuestion :=
  (signupModeOf db tenantId, questionsOf db tenantId)

theorem asksWith_congr (h : tenantSettingsOf db' tenantId = tenantSettingsOf db tenantId) :
    asksWith db' tenantId = asksWith db tenantId := by
  rw [asksWith, signupModeOf, questionsOf, h]
  rfl

/-- The tenant has a row that can be updated. -/
def HasSettings (db : Database) (tenantId : Uuid) : Prop :=
  (tenantSettingsOf db tenantId).isSome = true

theorem asksWith_setSignup (hrow : HasSettings db tenantId) {value : Json}
    (hlist : signupQuestionsSchema value = some questions) :
    asksWith (db.setSignup tenantId mode questions) tenantId = (mode, questions) := by
  obtain ⟨s, hs⟩ := Option.isSome_iff_exists.mp hrow
  have hsaved := tenantSettingsOf_setSignup db tenantId mode questions
  rw [hs] at hsaved
  have hmode : signupModeOf (db.setSignup tenantId mode questions) tenantId = mode := by
    rw [signupModeOf, hsaved]
    cases mode <;> rfl
  have hquestions : questionsOf (db.setSignup tenantId mode questions) tenantId = questions := by
    rw [questionsOf, hsaved]
    exact parseQuestions_questionsJson hlist
  rw [asksWith, hmode, hquestions]

/-- The list of an accepted form is one that the schema returned. -/
theorem schema_of_readQuestionList {field : Option (Option Json)}
    (h : readQuestionList issues field = .ok questions) :
    ∃ value, signupQuestionsSchema value = some questions := by
  rw [readQuestionList.eq_def] at h
  split at h
  · cases h
  · split at h
    · cases h
    · next hschema =>
      obtain rfl := Except.ok.inj h
      exact ⟨_, hschema⟩

end Save

/-! ### Any number of saves -/

section Runs

variable {issues : Json → String} {db db' : Database} {tenantId : Uuid} {mode : SignupMode}
  {questions : List SignupQuestion} {save : Option Viewer × SignupSettingsForm}

/-- The database after somebody submits the form. -/
def settingsStep (issues : Json → String) (db : Database)
    (save : Option Viewer × SignupSettingsForm) : Database :=
  match saveSignupSettingsAction issues db save.1 save.2 with
  | .ok result => result.2
  | .error _ => db

/-- The action answers that it has saved. -/
def Saved (issues : Json → String) (db : Database) (save : Option Viewer × SignupSettingsForm) :
    Prop :=
  ∃ db', saveSignupSettingsAction issues db save.1 save.2 = .ok (some (.ok ()), db')

/-- One submission. -/
theorem settingsStep_cases (issues : Json → String) (db : Database)
    (save : Option Viewer × SignupSettingsForm) :
    (¬ Saved issues db save ∧ settingsStep issues db save = db) ∨
      Saved issues db save ∧ ∃ tenantId mode questions entry,
        Submits issues save.1 save.2 tenantId mode questions ∧
          settingsStep issues db save
            = { db.setSignup tenantId mode questions with auditLog := db.auditLog ++ [entry] } := by
  rw [settingsStep]
  cases hsave : saveSignupSettingsAction issues db save.1 save.2 with
  | error e =>
    refine Or.inl ⟨?_, rfl⟩
    rintro ⟨db', h⟩
    rw [hsave] at h
    cases h
  | ok result =>
    obtain ⟨answer, db'⟩ := result
    rcases saveSignupSettings_cases hsave with ⟨hanswer, rfl⟩ | ⟨rfl, hsaved⟩
    · refine Or.inl ⟨?_, rfl⟩
      rintro ⟨db'', h⟩
      rw [hsave] at h
      exact hanswer (Prod.mk.inj (Except.ok.inj h)).1
    · exact Or.inr ⟨⟨db', hsave⟩, hsaved⟩

theorem Submits.unique {viewer : Option Viewer} {form : SignupSettingsForm} {tenantId' : Uuid}
    {mode' : SignupMode} {questions' : List SignupQuestion}
    (h : Submits issues viewer form tenantId mode questions)
    (h' : Submits issues viewer form tenantId' mode' questions') :
    tenantId = tenantId' ∧ mode = mode' ∧ questions = questions' := by
  obtain ⟨⟨admin, hadmin, rfl⟩, hmode, hlist⟩ := h
  obtain ⟨⟨admin', hadmin', rfl⟩, hmode', hlist'⟩ := h'
  obtain rfl := Option.some.inj (hadmin.symm.trans hadmin')
  exact ⟨rfl, Option.some.inj (hmode.symm.trans hmode'),
    Except.ok.inj (hlist.symm.trans hlist')⟩

theorem hasSettings_settingsStep (h : HasSettings db tenantId)
    (save : Option Viewer × SignupSettingsForm) :
    HasSettings (settingsStep issues db save) tenantId := by
  rcases settingsStep_cases issues db save with ⟨-, hsame⟩ | ⟨-, t, mode, questions, entry, -, hnew⟩
  · rw [hsame]
    exact h
  · rw [HasSettings, hnew]
    show (tenantSettingsOf (db.setSignup t mode questions) tenantId).isSome = true
    by_cases ht : tenantId = t
    · rw [← ht, tenantSettingsOf_setSignup, Option.isSome_map]
      exact h
    · rw [tenantSettingsOf_setSignup_of_ne ht]
      exact h

/-- What an institute asks with changes by what its admins save, and by nothing else. -/
theorem asksWith_settingsStep
    (h : ∀ mode questions, Saved issues db save →
      ¬ Submits issues save.1 save.2 tenantId mode questions) :
    asksWith (settingsStep issues db save) tenantId = asksWith db tenantId := by
  rcases settingsStep_cases issues db save with ⟨-, hsame⟩ | ⟨hsaved, t, mode, questions, entry,
    hsubmits, hnew⟩
  · rw [hsame]
  · rw [hnew]
    have ht : tenantId ≠ t := by
      rintro rfl
      exact h mode questions hsaved hsubmits
    exact asksWith_congr (tenantSettingsOf_setSignup_of_ne ht)

theorem asksWith_saved (hrow : HasSettings db tenantId) (hsaved : Saved issues db save)
    (hsubmits : Submits issues save.1 save.2 tenantId mode questions) :
    asksWith (settingsStep issues db save) tenantId = (mode, questions) := by
  rcases settingsStep_cases issues db save with ⟨hnot, -⟩ | ⟨-, t, mode', questions', entry,
    hsubmits', hnew⟩
  · exact absurd hsaved hnot
  · obtain ⟨rfl, rfl, rfl⟩ := hsubmits.unique hsubmits'
    rw [hnew]
    obtain ⟨value, hvalue⟩ := schema_of_readQuestionList hsubmits.2.2
    exact asksWith_setSignup hrow hvalue

/-- The form that is shown is accepted as it is. -/
theorem submits_settingsForm (issues : Json → String) {viewer : Option Viewer} {admin : Viewer}
    (hadmin : requireRole .admin viewer = some admin) (db : Database) :
    Submits issues viewer (settingsForm db admin.tenant.id) admin.tenant.id
      (signupModeOf db admin.tenant.id) (questionsOf db admin.tenant.id) := by
  refine ⟨⟨admin, hadmin, rfl⟩, ?_, ?_⟩
  · rw [settingsForm]
    cases signupModeOf db admin.tenant.id <;> rfl
  · have hschema : signupQuestionsSchema (questionsJson (questionsOf db admin.tenant.id))
        = some (questionsOf db admin.tenant.id) := signupQuestionsSchema_parseQuestions _
    simp only [readQuestionList, settingsForm, Option.getD_some, hschema]

/-- Nothing but the form as it is shown is saved for the tenant. -/
def Untouched (issues : Json → String) (tenantId : Uuid) (db : Database)
    (save : Option Viewer × SignupSettingsForm) : Prop :=
  ∀ mode questions, Saved issues db save → Submits issues save.1 save.2 tenantId mode questions →
    save.2 = settingsForm db tenantId

theorem asksWith_untouched (hrow : HasSettings db tenantId)
    (h : Untouched issues tenantId db save) :
    asksWith (settingsStep issues db save) tenantId = asksWith db tenantId := by
  by_cases hsubmits : Saved issues db save ∧
      ∃ mode questions, Submits issues save.1 save.2 tenantId mode questions
  · obtain ⟨hsaved, mode, questions, hsubmits⟩ := hsubmits
    have hform := h mode questions hsaved hsubmits
    obtain ⟨⟨admin, hadmin, rfl⟩, -⟩ := id hsubmits
    have hshown := submits_settingsForm issues hadmin db
    rw [← hform] at hshown
    exact asksWith_saved hrow hsaved hshown
  · exact asksWith_settingsStep fun mode questions hsaved hs =>
      hsubmits ⟨hsaved, mode, questions, hs⟩

theorem hasSettings_run (hrow : HasSettings db tenantId)
    (saves : List (Option Viewer × SignupSettingsForm)) :
    HasSettings (run (settingsStep issues) db saves) tenantId :=
  Machine.run_invariant (I := fun db => HasSettings db tenantId)
    (fun _ save h => hasSettings_settingsStep h save) hrow saves

theorem asksWith_run (hrow : HasSettings db tenantId)
    {saves : List (Option Viewer × SignupSettingsForm)}
    (h : Meets (settingsStep issues) (Untouched issues tenantId) db saves) :
    asksWith (run (settingsStep issues) db saves) tenantId = asksWith db tenantId := by
  induction saves generalizing db with
  | nil => rfl
  | cons save saves ih =>
    obtain ⟨hsave, hrest⟩ := (Machine.meets_cons _ _ _ _ _).mp h
    rw [Machine.run_cons, ih (hasSettings_settingsStep hrow save) hrest,
      asksWith_untouched hrow hsave]

/-- **The sign-up asks what was saved last.** Whoever submits the form, for whichever institute and
with whatever in it: an institute goes on asking as it does, whatever is stored, as long as its
admins save only the form as it is shown; and when one of them has saved something else, it asks
that, until the next one does. -/
theorem signup_asks_saved (issues : Json → String) (db : Database) (tenantId : Uuid)
    (hrow : HasSettings db tenantId) (before after : List (Option Viewer × SignupSettingsForm)) :
    (Meets (settingsStep issues) (Untouched issues tenantId) db before →
      asksWith (run (settingsStep issues) db before) tenantId = asksWith db tenantId) ∧
    ∀ save mode questions, Saved issues (run (settingsStep issues) db before) save →
      Submits issues save.1 save.2 tenantId mode questions →
      Meets (settingsStep issues) (Untouched issues tenantId)
        (run (settingsStep issues) db (before ++ [save])) after →
        asksWith (run (settingsStep issues) db (before ++ save :: after)) tenantId
          = (mode, questions) := by
  refine ⟨asksWith_run hrow, fun save mode questions hsaved hsubmits hafter => ?_⟩
  have hbefore : HasSettings (run (settingsStep issues) db before) tenantId :=
    hasSettings_run hrow before
  have hsplit : before ++ save :: after = (before ++ [save]) ++ after := by simp
  rw [hsplit, Machine.run_append, asksWith_run (hasSettings_run hrow _) hafter,
    Machine.run_append, Machine.run_cons, Machine.run_nil]
  exact asksWith_saved hbefore hsaved hsubmits

end Runs

/-! ### A new question -/

section Example

/-- Two institutes with an admin each. What the first has stored does not fit the schema. -/
def twoOffices : Database where
  users := [⟨5, "office@grace.edu", "Office", "", "", true⟩,
    ⟨6, "office@other.edu", "Office", "", "", true⟩]
  tenants := [⟨1, "grace", "Grace", .active, 0⟩, ⟨2, "other", "Other", .active, 0⟩]
  tenantSettings := [⟨1, none, .closed, .str "no list"⟩, ⟨2, none, .closed, .arr []⟩]

/-- Somebody signed in at an institute. -/
def officeOf (tenantId : Uuid) (role : MembershipRole) : Option Viewer :=
  some ⟨4 + tenantId, "", ⟨⟨tenantId, "", ""⟩, ""⟩, role⟩

/-- Opens the sign-up and asks for the track. -/
def askForTrack : SignupSettingsForm where
  signupMode := some "open"
  questions := some (some (trackList ["Pastoral", "Missions"]))

/-- The other institute's admin, an instructor, and a form that nobody touched. -/
def laterSaves : List (Option Viewer × SignupSettingsForm) :=
  [(officeOf 2 .admin, ⟨none, none⟩), (officeOf 1 .instructor, ⟨none, none⟩),
    (officeOf 1 .admin, ⟨some "open", some (some (.arr [.obj [("id", .str "track"),
      ("label", .str "Track"), ("type", .str "select"), ("required", .bool true),
      ("options", .arr [.str "Pastoral", .str "Missions"])]]))⟩)]

theorem signup_asks_saved_track :
    asksWith (run (settingsStep fun _ => "") twoOffices
      ([] ++ (officeOf 1 .admin, askForTrack) :: laterSaves)) 1
      = (.open, [trackQuestion ["Pastoral", "Missions"]]) := by
  have hlater : Meets (settingsStep fun _ => "") (Untouched (fun _ => "") 1)
      (run (settingsStep fun _ => "") twoOffices ([] ++ [(officeOf 1 .admin, askForTrack)]))
      laterSaves := by
    refine ⟨?_, ?_, ?_, trivial⟩
    · rintro mode questions - ⟨⟨admin, hadmin, htenant⟩, -⟩
      obtain rfl := Option.some.inj hadmin
      exact absurd htenant (by decide)
    · rintro mode questions - ⟨⟨admin, hadmin, -⟩, -⟩
      cases hadmin
    · rintro mode questions - -
      rfl
  exact (signup_asks_saved (fun _ => "") twoOffices 1 rfl [] laterSaves).2
    (officeOf 1 .admin, askForTrack) .open [trackQuestion ["Pastoral", "Missions"]] ⟨_, rfl⟩
    ⟨⟨_, rfl, rfl⟩, rfl, rfl⟩ hlater

end Example

end LampLight
