import LampLight.Teach.Editing

/-!
# Appending modules and lessons

A call appends an item to a parent: a module to a course, or a lesson to a module. Nothing is unique
about a module but its id. A lesson has a slug, which is derived from its title and unique in its
module, and `slugify` is far from injective: it keeps ASCII letters and digits and falls back to one
word for a title without any.

## Main definitions

* `AppendCall`, `AppendCall.exec` — the two actions as one
* `AppendCall.Fits` — what a call needs of its title and of the items that are there

## Main results

* `appends_iff` — a call appends its item exactly when it fits
* `appends_run_iff` — the same for every call of a run
-/

namespace LampLight

/-- What an item is appended to. -/
inductive AppendTarget
  | course (courseId : Uuid)
  | module (moduleId : Uuid) (isFreePreview : Option String)
deriving DecidableEq

/-- One submission of a form by a viewer, with the id and the instant it meets. -/
structure AppendCall where
  ctx : AuthorContext
  now : Instant
  target : AppendTarget
  title : String
  id : Uuid

namespace AppendCall

/-- `addModuleAction` or `addLessonAction`. -/
def exec (db : Database) (call : AppendCall) : Except DbError ActionResult × Database :=
  match call.target with
  | .course courseId => addModuleAction db call.ctx call.now courseId call.title call.id
  | .module moduleId isFreePreview =>
    addLessonAction db call.ctx call.now moduleId call.title isFreePreview call.id

/-- The database a call leaves. -/
def next (db : Database) (call : AppendCall) : Database := (call.exec db).2

/-- Where and when a call is served. -/
def scope (call : AppendCall) : TenantScope := ⟨call.ctx.tenantId, call.now⟩

/-- The title as it is stored. -/
def stored (call : AppendCall) : String := trimmedField call.title

/-- The course that decides about a call. -/
def course? (db : Database) (call : AppendCall) : Option Uuid :=
  match call.target with
  | .course courseId => some courseId
  | .module moduleId _ =>
    (db.modules.find? fun m => m.tenantId = call.ctx.tenantId && m.id = moduleId).map (·.courseId)

/-- The lessons next to the one to be added. -/
def siblings (db : Database) (call : AppendCall) : List LessonRow :=
  match call.target with
  | .course _ => []
  | .module moduleId _ =>
    db.lessons.filter fun l => l.tenantId = call.ctx.tenantId && l.moduleId = moduleId

/-- The positions of the items that hang off the parent. -/
def orders (db : Database) (call : AppendCall) : List ℤ :=
  match call.target with
  | .course courseId => (db.modules.filter fun m =>
      m.tenantId = call.ctx.tenantId && m.courseId = courseId).map (·.sortOrder)
  | .module moduleId _ => (db.lessons.filter fun l =>
      l.tenantId = call.ctx.tenantId && l.moduleId = moduleId).map (·.sortOrder)

/-- The module a call adds, after items at these positions. -/
@[simps]
def moduleRow (call : AppendCall) (courseId : Uuid) (orders : List ℤ) : ModuleRow where
  id := call.id
  tenantId := call.ctx.tenantId
  courseId := courseId
  title := call.stored
  sortOrder := nextSortOrder orders

/-- The row of a new lesson. -/
@[simps]
def lessonRow (call : AppendCall) (moduleId : Uuid) (isFreePreview : Option String)
    (orders : List ℤ) : LessonRow where
  id := call.id
  tenantId := call.ctx.tenantId
  moduleId := moduleId
  title := call.stored
  slug := slugify call.stored
  contentMd := none
  durationSeconds := none
  isFreePreview := isFreePreview.isSome
  sortOrder := nextSortOrder orders

/-- The statement that inserts the item. -/
def insert (db : Database) (call : AppendCall) (orders : List ℤ) : Except DbError Database :=
  match call.target with
  | .course courseId => db.insertModule (call.moduleRow courseId orders)
  | .module moduleId isFreePreview =>
    db.insertLesson (call.lessonRow moduleId isFreePreview orders)

/-- What the audit log says about it. -/
def audit (call : AppendCall) : AuditRow :=
  match call.target with
  | .course courseId =>
    { tenantId := call.ctx.tenantId
      actorUserId := some call.ctx.userId
      action := "module.created"
      targetType := "course"
      targetId := some courseId
      metadataJson := [("title", .str call.stored)] }
  | .module moduleId isFreePreview =>
    { tenantId := call.ctx.tenantId
      actorUserId := some call.ctx.userId
      action := "lesson.created"
      targetType := "module"
      targetId := some moduleId
      metadataJson :=
        [("title", .str call.stored), ("isFreePreview", .bool isFreePreview.isSome)] }

/-- The two inserts of a call, for items at these positions. -/
def write (db : Database) (call : AppendCall) (orders : List ℤ) : Except DbError Database :=
  (call.insert db orders).bind fun db => db.insertAuditLog call.audit

/-- An allowed author submits a title that is not empty, and the id drawn is new. -/
def Permitted (db : Database) (call : AppendCall) : Prop :=
  call.stored ≠ "" ∧
    ((call.course? db).any fun courseId =>
      (decideCourseAuthoring call.scope db call.ctx courseId).allowed) = true ∧
    (∀ m ∈ db.modules, m.id ≠ call.id) ∧ ∀ l ∈ db.lessons, l.id ≠ call.id

/-- The call returns `ok`, and its table has one row more at its end. -/
def Appends (db : Database) (call : AppendCall) : Prop :=
  (call.exec db).1 = .ok .ok ∧
    match call.target with
    | .course _ => db.modules <+: (call.next db).modules ∧
        (call.next db).modules.length = db.modules.length + 1 ∧
        (call.next db).lessons = db.lessons
    | .module _ _ => db.lessons <+: (call.next db).lessons ∧
        (call.next db).lessons.length = db.lessons.length + 1 ∧
        (call.next db).modules = db.modules

/-- The title can be stored, there is a position after the last one, and no lesson of the module
has the slug of the title. -/
def Fits (db : Database) (call : AppendCall) : Prop :=
  Database.unstorable call.stored = false ∧ (∀ n ∈ call.orders db, n + 1 < 2 ^ 31) ∧
    ∀ l ∈ call.siblings db, l.slug ≠ slugify call.stored

end AppendCall

instance (db : Database) (call : AppendCall) : Decidable (call.Permitted db) :=
  inferInstanceAs (Decidable (_ ∧ _ ∧ _ ∧ _))

instance (db : Database) (call : AppendCall) : Decidable (call.Fits db) :=
  inferInstanceAs (Decidable (_ ∧ _ ∧ _))

/-- The references of a membership. -/
structure Database.MembersKnown (db : Database) : Prop where
  tenant : ∀ m ∈ db.memberships, ∃ t ∈ db.tenants, t.id = m.tenantId
  user : ∀ m ∈ db.memberships, ∃ u ∈ db.users, u.id = m.userId

/-! ### The next position -/

theorem lt_nextSortOrder {orders : List ℤ} {n : ℤ} (h : n ∈ orders) : n < nextSortOrder orders := by
  obtain ⟨m, hm⟩ : ∃ m, orders.max? = some m := by
    rw [← Option.isSome_iff_exists, List.isSome_max?_iff]
    exact List.ne_nil_of_mem h
  have hle : n ≤ m := (List.max?_eq_some_iff.mp hm).2 n h
  rw [nextSortOrder, hm]
  show n < m + 1
  omega

theorem nextSortOrder_lt_iff {orders : List ℤ} {bound : ℤ} (hb : 0 < bound) :
    nextSortOrder orders < bound ↔ ∀ n ∈ orders, n + 1 < bound := by
  constructor
  · intro hlt n hn
    have := lt_nextSortOrder hn
    omega
  · intro hall
    cases hm : orders.max? with
    | none =>
      rw [nextSortOrder, hm]
      show (-1 : ℤ) + 1 < bound
      omega
    | some m =>
      rw [nextSortOrder, hm]
      exact hall m (List.max?_eq_some_iff.mp hm).1

/-! ### What a call needs -/

section Calls

variable {db db' : Database} {call : AppendCall} {ctx : AuthorContext} {now : Instant}

/-- An author is a member, so their tenant and their account are there. -/
theorem known_of_allowed {scope : TenantScope} {courseId : Uuid} (hdb : db.MembersKnown)
    (h : (decideCourseAuthoring scope db ctx courseId).allowed = true) :
    db.noTenant scope.tenantId = false ∧ db.noUser ctx.userId = false ∧
      db.noCourse scope.tenantId courseId = false := by
  rw [decideCourseAuthoring] at h
  split_ifs at h with hcourse
  · cases hm : findMembership scope db ctx.userId with
    | none => simp [hm, AuthorDecision.allowed] at h
    | some membership =>
      obtain ⟨row, hrow, -⟩ := Option.map_eq_some_iff.mp hm
      have hp := List.find?_some hrow
      simp only [Bool.and_eq_true, decide_eq_true_eq] at hp
      obtain ⟨t, ht, htid⟩ := hdb.tenant row (List.mem_of_find?_eq_some hrow)
      obtain ⟨u, hu, huid⟩ := hdb.user row (List.mem_of_find?_eq_some hrow)
      refine ⟨?_, ?_, ?_⟩
      · simp only [Database.noTenant, Bool.not_eq_false', List.any_eq_true, decide_eq_true_eq]
        exact ⟨t, ht, htid.trans hp.1⟩
      · simp only [Database.noUser, Bool.not_eq_false', List.any_eq_true, decide_eq_true_eq]
        exact ⟨u, hu, huid.trans hp.2⟩
      · rw [Database.noCourse, hcourse]
        rfl
  · simp [AuthorDecision.allowed] at h

/-- Both actions ask the same course and write the same way. -/
theorem exec_eq (htitle : call.stored ≠ "") : call.exec db =
    match call.course? db with
    | none => (.ok DENIED, db)
    | some courseId => answerWith DENIED db
        (authored (decideCourseAuthoring call.scope db call.ctx courseId)
          (call.write db (call.orders db))) := by
  obtain ⟨ctx, now, target, title, id⟩ := call
  have hempty : trimmedField title ≠ "" := htitle
  cases target with
  | course courseId =>
    simp only [AppendCall.exec, addModuleAction, if_neg hempty]
    rfl
  | module moduleId isFreePreview =>
    simp only [AppendCall.exec, addLessonAction, if_neg hempty, AppendCall.course?]
    cases db.modules.find? fun m => m.tenantId = ctx.tenantId && m.id = moduleId <;> rfl

/-- A write that an allowed author makes is answered with `ok` exactly when it goes through. -/
theorem answerWith_ok_iff {denied : ActionResult} {decision : AuthorDecision}
    {write : Except DbError Database} (hallowed : decision.allowed = true) :
    (answerWith denied db (authored decision write)).1 = .ok .ok ↔ ∃ db', write = .ok db' := by
  rw [authored, if_pos hallowed]
  cases write with
  | error e => simp [answerWith, Except.map]
  | ok db' => simp [answerWith, Except.map]

theorem answerWith_snd {denied : ActionResult} {decision : AuthorDecision}
    {write : Except DbError Database} (hallowed : decision.allowed = true)
    (hwrite : write = .ok db') :
    (answerWith denied db (authored decision write)).2 = db' := by
  rw [authored, if_pos hallowed, hwrite]
  rfl

/-- What the insert of a module needs. -/
theorem insertModule_eq_ok {row : ModuleRow} : db.insertModule row = .ok db' ↔
    (Database.unstorable row.title = false ∧ row.sortOrder < 2 ^ 31 ∧
      (∀ m ∈ db.modules, m.id ≠ row.id) ∧ db.noTenant row.tenantId = false ∧
      db.noCourse row.tenantId row.courseId = false) ∧
    db' = { db with modules := db.modules ++ [row] } := by
  rw [Database.insertModule, Database.checked_ok]
  refine and_congr_left fun _ => ?_
  simp only [List.mem_cons, List.not_mem_nil, or_false, forall_eq_or_imp, forall_eq,
    decide_eq_false_iff_not, not_le, List.any_eq_false, decide_eq_true_eq, ne_eq]

/-- What the insert of a lesson needs: all of this, and a slug that is new in its module. -/
theorem insertLesson_eq_ok {row : LessonRow} : db.insertLesson row = .ok db' ↔
    (Database.unstorable row.title = false ∧ row.sortOrder < 2 ^ 31 ∧
      (∀ l ∈ db.lessons, l.id ≠ row.id) ∧
      (∀ l ∈ db.lessons, l.tenantId = row.tenantId → l.moduleId = row.moduleId →
        l.slug ≠ row.slug) ∧
      db.noTenant row.tenantId = false ∧ db.noModule row.tenantId row.moduleId = false) ∧
    db' = { db with lessons := db.lessons ++ [row] } := by
  rw [Database.insertLesson, Database.checked_ok]
  refine and_congr_left fun _ => ?_
  simp only [List.mem_cons, List.not_mem_nil, or_false, forall_eq_or_imp, forall_eq,
    decide_eq_false_iff_not, not_le, List.any_eq_false, decide_eq_true_eq, Bool.and_eq_true,
    not_and, and_imp, ne_eq]

/-- What a call is allowed by. -/
theorem AppendCall.Permitted.course (h : call.Permitted db) : ∃ courseId,
    call.course? db = some courseId ∧
      (decideCourseAuthoring call.scope db call.ctx courseId).allowed = true :=
  (Option.any_eq_true ..).mp h.2.1

theorem noModule_of_course? {moduleId courseId : Uuid} {isFreePreview : Option String}
    (htarget : call.target = .module moduleId isFreePreview)
    (h : call.course? db = some courseId) : db.noModule call.ctx.tenantId moduleId = false := by
  simp only [AppendCall.course?, htarget] at h
  obtain ⟨m, hm, -⟩ := Option.map_eq_some_iff.mp h
  have hp := List.find?_some hm
  simp only [Database.noModule, Bool.not_eq_false', List.any_eq_true]
  exact ⟨m, List.mem_of_find?_eq_some hm, hp⟩

/-- For an allowed author the references hold, so what can go wrong is the title, the position and
the slug. -/
theorem insert_isOk_iff (hdb : db.MembersKnown) (hp : call.Permitted db) :
    (∃ db', call.insert db (call.orders db) = .ok db') ↔ call.Fits db := by
  obtain ⟨courseId, hcourse, hallowed⟩ := hp.course
  obtain ⟨-, -, hmodules, hlessons⟩ := hp
  obtain ⟨hroot, -, hcourses⟩ := known_of_allowed hdb hallowed
  have hposition : nextSortOrder (call.orders db) < 2 ^ 31 ↔ ∀ n ∈ call.orders db, n + 1 < 2 ^ 31 :=
    nextSortOrder_lt_iff (by decide)
  rw [AppendCall.Fits, ← hposition]
  cases htarget : call.target with
  | course courseId' =>
    obtain rfl : courseId' = courseId := by
      simpa [AppendCall.course?, htarget] using hcourse
    simp only [AppendCall.insert, htarget, insertModule_eq_ok, AppendCall.moduleRow_id,
      AppendCall.moduleRow_title, AppendCall.moduleRow_sortOrder, AppendCall.moduleRow_tenantId,
      AppendCall.moduleRow_courseId]
    constructor
    · rintro ⟨db', ⟨htitle, hnext, -⟩, -⟩
      exact ⟨htitle, hnext, by simp [AppendCall.siblings, htarget]⟩
    · rintro ⟨htitle, hnext, -⟩
      exact ⟨_, ⟨htitle, hnext, hmodules, hroot, hcourses⟩, rfl⟩
  | module moduleId isFreePreview =>
    have hsiblings : (∀ l ∈ call.siblings db, l.slug ≠ slugify call.stored) ↔ ∀ l ∈ db.lessons,
        l.tenantId = call.ctx.tenantId → l.moduleId = moduleId → l.slug ≠ slugify call.stored := by
      simp [AppendCall.siblings, htarget]
    rw [hsiblings]
    simp only [AppendCall.insert, htarget, insertLesson_eq_ok, AppendCall.lessonRow_id,
      AppendCall.lessonRow_title, AppendCall.lessonRow_slug, AppendCall.lessonRow_sortOrder,
      AppendCall.lessonRow_tenantId, AppendCall.lessonRow_moduleId]
    constructor
    · rintro ⟨db', ⟨htitle, hnext, -, hslug, -⟩, -⟩
      exact ⟨htitle, hnext, hslug⟩
    · rintro ⟨htitle, hnext, hslug⟩
      exact ⟨_, ⟨htitle, hnext, hlessons, hslug, hroot, noModule_of_course? htarget hcourse⟩, rfl⟩

/-- The item goes to the end of its table. -/
theorem insert_ok {orders : List ℤ} (h : call.insert db orders = .ok db') :
    match call.target with
    | .course courseId =>
      db' = { db with modules := db.modules ++ [call.moduleRow courseId orders] }
    | .module moduleId isFreePreview => db' =
      { db with lessons := db.lessons ++ [call.lessonRow moduleId isFreePreview orders] } := by
  cases htarget : call.target with
  | course courseId =>
    simp only [AppendCall.insert, htarget] at h
    exact (insertModule_eq_ok.mp h).2
  | module moduleId isFreePreview =>
    simp only [AppendCall.insert, htarget] at h
    exact (insertLesson_eq_ok.mp h).2

/-- The audit log takes the entry of whoever is known. -/
theorem write_eq_ok (htenant : db.noTenant call.ctx.tenantId = false)
    (huser : db.noUser call.ctx.userId = false) {orders : List ℤ} :
    call.write db orders = .ok db' ↔ ∃ mid, call.insert db orders = .ok mid ∧
      db' = { mid with auditLog := mid.auditLog ++ [call.audit] } := by
  show (call.insert db orders >>= fun db => db.insertAuditLog call.audit) = .ok db' ↔ _
  rw [Machine.bind_eq_ok]
  refine exists_congr fun mid => and_congr_right fun hmid => ?_
  have hroots : mid.tenants = db.tenants ∧ mid.users = db.users := by
    have hrow := insert_ok hmid
    split at hrow <;> exact ⟨by rw [hrow], by rw [hrow]⟩
  have haudit : call.audit.tenantId = call.ctx.tenantId ∧
      call.audit.actorUserId = some call.ctx.userId := by
    rw [AppendCall.audit]
    split <;> exact ⟨rfl, rfl⟩
  rw [Database.insertAuditLog_eq_ok, haudit.1, haudit.2, Database.noTenant, hroots.1]
  refine and_iff_right ⟨htenant, ?_⟩
  rw [Option.any_some, Database.noUser, hroots.2]
  exact huser

/-- **When a call appends its item.** A call by an allowed author returns `ok` and adds one row
exactly when its title can be stored, there is a position after the last one, and, for a lesson, no
lesson of the module has the slug of the title. -/
theorem appends_iff (hdb : db.MembersKnown) (hp : call.Permitted db) :
    call.Appends db ↔ call.Fits db := by
  obtain ⟨courseId, hcourse, hallowed⟩ := hp.course
  obtain ⟨htenant, huser, -⟩ := known_of_allowed hdb hallowed
  have hexec : call.exec db = answerWith DENIED db
      (authored (decideCourseAuthoring call.scope db call.ctx courseId)
        (call.write db (call.orders db))) := by
    rw [exec_eq hp.1, hcourse]
  rw [← insert_isOk_iff hdb hp, AppendCall.Appends, AppendCall.next, hexec,
    answerWith_ok_iff hallowed]
  constructor
  · rintro ⟨⟨db', hwrite⟩, -⟩
    obtain ⟨mid, hmid, -⟩ := (write_eq_ok htenant huser).mp hwrite
    exact ⟨mid, hmid⟩
  · rintro ⟨mid, hmid⟩
    have hwrite := (write_eq_ok htenant huser).mpr ⟨mid, hmid, rfl⟩
    rw [answerWith_snd hallowed hwrite]
    refine ⟨⟨_, hwrite⟩, ?_⟩
    have hrow := insert_ok hmid
    cases htarget : call.target with
    | course courseId' =>
      rw [htarget] at hrow
      subst hrow
      exact ⟨List.prefix_append _ _, by simp, rfl⟩
    | module moduleId isFreePreview =>
      rw [htarget] at hrow
      subst hrow
      exact ⟨List.prefix_append _ _, by simp, rfl⟩

/-- What a call leaves: its two inserts, for an allowed author with a title, when they go
through. -/
theorem next_eq (db : Database) (call : AppendCall) : call.next db =
    if call.stored = "" then db
    else
      match call.course? db with
      | none => db
      | some courseId =>
        if (decideCourseAuthoring call.scope db call.ctx courseId).allowed then
          match call.write db (call.orders db) with
          | .ok db' => db'
          | .error _ => db
        else db := by
  split_ifs with htitle
  · have hempty : trimmedField call.title = "" := htitle
    rw [AppendCall.next, AppendCall.exec]
    split
    · rw [addModuleAction, hempty, if_pos rfl]
    · rw [addLessonAction, hempty, if_pos rfl]
  · rw [AppendCall.next, exec_eq htitle]
    cases call.course? db with
    | none => rfl
    | some courseId =>
      dsimp only
      split_ifs with hallowed
      · rw [authored, if_pos hallowed]
        cases call.write db (call.orders db) <;> rfl
      · rw [authored, if_neg hallowed]
        rfl

/-- An insert with its entry in the log. -/
theorem write_ok {orders : List ℤ} (h : call.write db orders = .ok db') :
    ∃ mid, call.insert db orders = .ok mid ∧
      db' = { mid with auditLog := mid.auditLog ++ [call.audit] } := by
  obtain ⟨mid, hmid, hlog⟩ := Machine.bind_eq_ok.mp h
  exact ⟨mid, hmid, Database.insertAuditLog_ok hlog⟩

/-- A call touches no membership, tenant or user. -/
theorem membersKnown_next (hdb : db.MembersKnown) (call : AppendCall) :
    (call.next db).MembersKnown := by
  rw [next_eq]
  split_ifs with htitle
  · exact hdb
  · split
    · exact hdb
    · split_ifs
      · split
        · next db' hwrite =>
          obtain ⟨mid, hmid, rfl⟩ := write_ok hwrite
          have hrow := insert_ok hmid
          split at hrow <;> exact hrow ▸ ⟨hdb.tenant, hdb.user⟩
        · exact hdb
      · exact hdb

/-- **When every call of a run appends its item.** However many calls came before, and whatever
their titles: every call of a run returns `ok` and adds its row exactly when every call fits the
state it finds. -/
theorem appends_run_iff (hdb : db.MembersKnown) (calls : List AppendCall)
    (hauthors : Machine.Meets AppendCall.next AppendCall.Permitted db calls) :
    Machine.Meets AppendCall.next AppendCall.Appends db calls ↔
      Machine.Meets AppendCall.next AppendCall.Fits db calls :=
  Machine.Meets.iff_of_invariant (I := Database.MembersKnown)
    (fun _ call hdb _ _ => membersKnown_next hdb call)
    (fun _ _ hdb hp => appends_iff hdb hp) hdb hauthors

end Calls

/-! ### One module, two exercises -/

section Example

/-- An institute with its admin, a course and an empty module. -/
def workshop : Database where
  users := [⟨2, "office@example.org", "Office", "", "", true⟩]
  tenants := [⟨1, "institute", "Institute", .active, 0⟩]
  memberships := [⟨1, 2, .admin, []⟩]
  courses := [⟨3, 1, "Course", "course", none⟩]
  modules := [⟨4, 1, 3, "Module", 0⟩]

theorem workshop_membersKnown : workshop.MembersKnown := ⟨by decide, by decide⟩

/-- The admin adds a lesson to the module. -/
def addLesson (title : String) (id : Uuid) : AppendCall where
  ctx := ⟨1, 2⟩
  now := 0
  target := .module 4 none
  title := title
  id := id

theorem appends_run_iff_workshop :
    Machine.Meets AppendCall.next AppendCall.Appends workshop
      [addLesson "Exercise 1" 5, addLesson "Exercise 2" 6] :=
  (appends_run_iff workshop_membersKnown [addLesson "Exercise 1" 5, addLesson "Exercise 2" 6]
    (by decide)).mpr (by decide)

/-- The same title twice, and two titles without a Latin letter: the second insert breaks the
constraint on slugs. -/
theorem repeated_title_fails :
    (Machine.Meets AppendCall.next AppendCall.Permitted workshop
        [addLesson "Exercise" 5, addLesson "Exercise" 6] ∧
      ((addLesson "Exercise" 6).exec ((addLesson "Exercise" 5).next workshop)).1
        = .error (.uniqueViolation "lessons_tenant_id_module_id_slug_key") ∧
      ¬ Machine.Meets AppendCall.next AppendCall.Appends workshop
        [addLesson "Exercise" 5, addLesson "Exercise" 6]) ∧
    (Machine.Meets AppendCall.next AppendCall.Permitted workshop
        [addLesson "Лекция" 5, addLesson "Задание" 6] ∧
      ((addLesson "Задание" 6).exec ((addLesson "Лекция" 5).next workshop)).1
        = .error (.uniqueViolation "lessons_tenant_id_module_id_slug_key")) := by
  refine ⟨⟨by decide, by decide, fun h => ?_⟩, by decide, by decide⟩
  exact absurd h.2.1.1 (by decide)

end Example

end LampLight
