import LampLight.Access.LessonMedia

/-!
# What a course offers

A course page lists the documents of the course. The public ones are for everybody; the rest are for
viewers that the page takes to be enrolled, which it reads off its own list of lessons: some lesson
is open to the viewer and is not a free preview. Whoever follows the course is recognised in this
way if the course has such a lesson, and nobody is if it has none.

## Main definitions

* `coursePage` — the page
* `FollowsCourse` — the viewers a course is open to, said without its lessons
* `OffersExactly` — the public documents and, for certain viewers, the others

## Main results

* `lessonOpen_iff` — the page's proxy is right about the viewer when there is a lesson to ask about
* `signCourseDocuments_eq` — the loop offers what is ready, in order
* `coursePage_offersExactly` — in every run, what is offered on the page of a course
-/

namespace LampLight

open Machine (run)

/-! ### The page -/

/-- A lesson as the page of its course lists it. -/
structure CoursePageLesson where
  id : Uuid
  title : String
  durationSeconds : Option ℤ
  isFreePreview : Bool
  isOpen : Bool
deriving DecidableEq

/-- What the page of a course is made of. -/
structure CoursePage where
  course : CourseRow
  lessons : List CoursePageLesson
  documents : List IssuedDocument
deriving DecidableEq

/-- One line for each lesson, with the predicate's answer. -/
def coursePageLessons (scope : TenantScope) (db : Database) (ctx : AccessContext)
    (courseId : Uuid) : List CoursePageLesson :=
  (listLessonsForCourse scope db courseId).map fun lesson =>
    { id := lesson.id
      title := lesson.title
      durationSeconds := lesson.durationSeconds
      isFreePreview := lesson.isFreePreview
      isOpen := (decideLessonAccess scope db ctx lesson.id).allowed }

/-- The lessons are decided in one transaction and the documents are read in another. -/
def coursePage (issuer : Issuer) (openedAt : Instant) (db : Database) (ctx : AccessContext)
    (slug : String) : Except StorageError (Option CoursePage) :=
  let scope : TenantScope := { tenantId := ctx.tenantId, now := openedAt }
  match findCourseBySlug scope db slug with
  | none => .ok none
  | some course =>
    let lessons := coursePageLessons scope db ctx course.id
    let enrolled := lessons.any fun lesson => lesson.isOpen && !lesson.isFreePreview
    (issueCourseDocuments issuer db ctx course.id enrolled).map fun documents =>
      some { course := course, lessons := lessons, documents := documents }

/-! ### Who follows a course -/

section Viewers

variable {db : Database} {ctx : AccessContext} {now : Instant} {course : CourseRow}

/-- The viewer is an admin, an instructor of the course, or a member whose entitlement to it is
active. -/
def FollowsCourse (db : Database) (ctx : AccessContext) (now : Instant) (course : CourseRow) :
    Prop :=
  (∃ u, Member db ctx u .admin) ∨
    (∃ u, Member db ctx u .instructor ∧ ∃ i ∈ db.courseInstructors,
      i.tenantId = ctx.tenantId ∧ i.userId = u ∧ i.courseId = course.id) ∨
    ∃ u role, Member db ctx u role ∧ ∃ e ∈ db.enrollments,
      e.tenantId = ctx.tenantId ∧ e.userId = u ∧ e.Active now ∧ e.Covers db ctx.tenantId course.id

/-- The course has a lesson that is not a free preview. -/
def HasGatedLesson (db : Database) (course : CourseRow) : Prop :=
  ∃ l m, LessonIn db course.tenantId l.id l m course ∧ l.isFreePreview = false

/-- A gated lesson is open to those who follow its course. -/
theorem applies_iff_followsCourse {l : LessonRow} (hgated : l.isFreePreview = false) :
    (∃ g : AccessGrant, g.Applies db ctx now l course) ↔ FollowsCourse db ctx now course := by
  constructor
  · rintro ⟨g, hg⟩
    cases g with
    | freePreview => exact absurd (hgated.symm.trans hg) Bool.false_ne_true
    | tenantAdmin => exact Or.inl hg
    | courseInstructor => exact Or.inr (Or.inl hg)
    | entitlement => exact Or.inr (Or.inr hg)
  · rintro (h | h | h)
    · exact ⟨.tenantAdmin, h⟩
    · exact ⟨.courseInstructor, h⟩
    · exact ⟨.entitlement, h⟩

/-- **The proxy is right about the viewer, if there is a lesson to ask about.** -/
theorem lessonOpen_iff (hdb : db.Consistent) (hcourse : course ∈ db.courses)
    (htenant : course.tenantId = ctx.tenantId) :
    ((coursePageLessons ⟨ctx.tenantId, now⟩ db ctx course.id).any fun lesson =>
        lesson.isOpen && !lesson.isFreePreview) = true ↔
      HasGatedLesson db course ∧ FollowsCourse db ctx now course := by
  have hallowed : ∀ {l m}, LessonIn db ctx.tenantId l.id l m course → l.isFreePreview = false →
      ((decideLessonAccess ⟨ctx.tenantId, now⟩ db ctx l.id).allowed = true ↔
        FollowsCourse db ctx now course) := by
    intro l m hin hgated
    rw [(decideLessonAccess_iff hdb ctx now l.id).1, ← applies_iff_followsCourse hgated]
    constructor
    · rintro ⟨l', m', c', hin', hg⟩
      obtain ⟨rfl, rfl, rfl⟩ := hin.unique hdb hin'
      exact hg
    · exact fun hg => ⟨l, m, course, hin, hg⟩
  simp only [coursePageLessons, List.any_map, List.any_eq_true, Function.comp_apply,
    Bool.and_eq_true, Bool.not_eq_true']
  constructor
  · rintro ⟨found, hfound, hopen, hgated⟩
    obtain ⟨l, m, c, hin, hid, rfl⟩ := mem_listLessonsForCourse.mp hfound
    obtain rfl : c = course := Table.eq_of_key_eq hdb.courses_pkey hin.course hcourse
      (hin.course_id.trans hid)
    exact ⟨⟨l, m, htenant ▸ hin, hgated⟩, (hallowed hin hgated).mp hopen⟩
  · rintro ⟨⟨l, m, hin, hgated⟩, hfollows⟩
    rw [htenant] at hin
    refine ⟨.of l m course, mem_listLessonsForCourse.mpr ⟨l, m, course, hin, ?_, rfl⟩,
      (hallowed hin hgated).mpr hfollows, hgated⟩
    exact hin.course_id.symm

end Viewers

/-! ### What the loop makes of resources -/

section Loop

variable {issuer : Issuer} {tenantId : Uuid} {enrolled : Bool} {resource : CourseResource}
  {resources : List CourseResource}

/-- There is something to open: a link, or an object of ours that was confirmed. -/
def CourseResource.ready (resource : CourseResource) : Bool :=
  (resource.url.filter fun url => url ≠ "").isSome ||
    (resource.storageKey.filter fun key => key ≠ "").isSome && resource.byteSize.isSome

/-- The loop does not pass over the resource. -/
def CourseResource.offered (enrolled : Bool) (resource : CourseResource) : Bool :=
  (resource.isPublic || enrolled) && resource.ready

/-- An entry is a resource with its own url or a signed one. -/
structure SignsDocument (issuer : Issuer) (resource : CourseResource) (e : IssuedDocument) :
    Prop where
  resourceId : e.resourceId = resource.id
  title : e.title = resource.displayTitle
  isPublic : e.isPublic = resource.isPublic
  url : resource.url = some e.url ∨ ∃ key, resource.storageKey = some key ∧
    e.url = issuer.signer.signGet (issuer.readRequest key)

/-- What is issued for the resources, in order. -/
def IssuesFor (issuer : Issuer) (enrolled : Bool) (resources : List CourseResource)
    (issued : List IssuedDocument) : Prop :=
  issued.map (·.resourceId) = (resources.filter (·.offered enrolled)).map (·.id) ∧
    ∀ e ∈ issued, ∃ resource ∈ resources, SignsDocument issuer resource e

theorem IssuesFor.skip {issued : List IssuedDocument}
    (h : IssuesFor issuer enrolled resources issued)
    (hskip : resource.offered enrolled = false) :
    IssuesFor issuer enrolled (resource :: resources) issued := by
  refine ⟨?_, fun e he => ?_⟩
  · rw [h.1, List.filter_cons_of_neg (by simp [hskip])]
  · obtain ⟨r, hr, hsigns⟩ := h.2 e he
    exact ⟨r, List.mem_cons_of_mem _ hr, hsigns⟩

theorem IssuesFor.keep {issued : List IssuedDocument} {e : IssuedDocument}
    (h : IssuesFor issuer enrolled resources issued) (hkeep : resource.offered enrolled = true)
    (hsigns : SignsDocument issuer resource e) :
    IssuesFor issuer enrolled (resource :: resources) (e :: issued) := by
  refine ⟨?_, fun e' he' => ?_⟩
  · rw [List.filter_cons_of_pos hkeep, List.map_cons, List.map_cons, h.1, hsigns.resourceId]
  · rcases List.mem_cons.mp he' with rfl | he'
    · exact ⟨resource, List.mem_cons_self .., hsigns⟩
    · obtain ⟨r, hr, hsigns'⟩ := h.2 e' he'
      exact ⟨r, List.mem_cons_of_mem _ hr, hsigns'⟩

/-- The clock does not show in what is issued. -/
theorem IssuesFor.of_next {issued : List IssuedDocument}
    (h : IssuesFor issuer.next enrolled resources issued) :
    IssuesFor issuer enrolled resources issued := by
  refine ⟨h.1, fun e he => ?_⟩
  obtain ⟨r, hr, hsigns⟩ := h.2 e he
  exact ⟨r, hr, hsigns.resourceId, hsigns.title, hsigns.isPublic, hsigns.url⟩

/-- The loop issues what is ready, in order, when storage answers for all of it. -/
theorem signCourseDocuments_eq (issuer : Issuer) (enrolled : Bool)
    (hopen : ∀ resource ∈ resources, ∀ key, resource.storageKey.filter (fun key => key ≠ "")
      = some key → resource.byteSize.isSome = true → openStorage issuer.env tenantId key = .ok ()) :
    ∃ issued, signCourseDocuments issuer tenantId enrolled resources = .ok issued ∧
      IssuesFor issuer enrolled resources issued := by
  induction resources generalizing issuer with
  | nil => exact ⟨[], rfl, rfl, by simp⟩
  | cons resource resources ih =>
    have hrest := fun r hr => hopen r (List.mem_cons_of_mem _ hr)
    obtain ⟨issued, hissued, hfor⟩ := ih issuer hrest
    rw [signCourseDocuments]
    split_ifs with hhidden
    · refine ⟨issued, hissued, hfor.skip ?_⟩
      simp only [Bool.and_eq_true, Bool.not_eq_true'] at hhidden
      simp [CourseResource.offered, hhidden]
    · have hshown : (resource.isPublic || enrolled) = true := by
        cases hpublic : resource.isPublic <;> cases enrolled <;> simp_all
      dsimp only
      split
      · next url hurl =>
        rw [hissued]
        refine ⟨_, rfl, hfor.keep ?_ ⟨rfl, rfl, rfl, ?_⟩⟩
        · rw [CourseResource.offered, CourseResource.ready, hshown, hurl]
          rfl
        · exact Or.inl (Option.filter_eq_some_iff.mp hurl).1
      · next hurl =>
        split
        · next key size hkey hsize =>
          obtain ⟨issued', hissued', hfor'⟩ := ih issuer.next hrest
          rw [Issuer.sign, signObjectRead, hopen resource (List.mem_cons_self ..) key hkey
            (by rw [hsize]; rfl)]
          dsimp only [Except.map]
          rw [hissued']
          refine ⟨_, rfl, hfor'.of_next.keep ?_ ⟨rfl, rfl, rfl, ?_⟩⟩
          · rw [CourseResource.offered, CourseResource.ready, hshown, hkey, hsize]
            simp
          · exact Or.inr ⟨key, (Option.filter_eq_some_iff.mp hkey).1, rfl⟩
        · next hnone =>
          refine ⟨issued, hissued, hfor.skip ?_⟩
          rw [CourseResource.offered, CourseResource.ready, hurl]
          cases hkey : resource.storageKey.filter fun key => key ≠ "" with
          | none => simp
          | some key =>
            cases hsize : resource.byteSize with
            | none => simp
            | some size => exact absurd hsize (hnone key size hkey)

end Loop

/-! ### What is offered -/

/-- The columns selected from a row. -/
def CourseResource.of (r : CourseResourceRow) : CourseResource where
  id := r.id
  kind := r.kind
  title := r.title
  storageKey := r.storageKey
  url := r.url
  filename := r.filename
  byteSize := r.byteSize
  isPublic := r.isPublic

/-- The documents and links of a course, ready or not. -/
def courseRows (db : Database) (course : CourseRow) : List CourseResourceRow :=
  db.courseResources.filter fun r => r.tenantId = course.tenantId && r.courseId = course.id

/-- An entry offers this row: an upload under a signed URL, a link under its own. -/
structure OffersDocument (h : MediaHistory) (issuer : Issuer) (r : CourseResourceRow)
    (e : IssuedDocument) : Prop where
  resourceId : e.resourceId = r.id
  title : e.title = (CourseResource.of r).displayTitle
  isPublic : e.isPublic = r.isPublic
  upload : r.id ∈ h.courses.confirmed → ∃ key, r.storageKey = some key ∧
    e.url = issuer.signer.signGet (issuer.readRequest key)
  link : r.id ∈ h.courses.linked → r.url = some e.url

/-- One entry for each row that is ready and either public or `shown`, and no other entry. -/
structure OffersExactly (h : MediaHistory) (issuer : Issuer) (course : CourseRow) (shown : Prop)
    (documents : List IssuedDocument) : Prop where
  offered : ∀ r ∈ courseRows h.world.db course, r.id ∈ documents.map (·.resourceId) ↔
    (r.id ∈ h.courses.confirmed ∨ r.id ∈ h.courses.linked) ∧ (r.isPublic = true ∨ shown)
  entries : ∀ e ∈ documents, ∃ r ∈ courseRows h.world.db course, OffersDocument h issuer r e
  once : (documents.map (·.resourceId)).Nodup

section Offers

variable {issuer : Issuer} {parseUrl : String → Option ParsedUrl} {h : MediaHistory}
  {course : CourseRow}

theorem mem_courseRows {db : Database} {r : CourseResourceRow} :
    r ∈ courseRows db course ↔
      r ∈ db.courseResources ∧ r.tenantId = course.tenantId ∧ r.courseId = course.id := by
  simp [courseRows]

theorem mem_listCourseResources {scope : TenantScope} {db : Database} {resource : CourseResource}
    (htenant : course.tenantId = scope.tenantId) :
    resource ∈ listCourseResources scope db course.id ↔
      ∃ r ∈ courseRows db course, resource = .of r := by
  rw [listCourseResources, List.mem_map]
  constructor
  · rintro ⟨r, hr, rfl⟩
    refine ⟨r, ?_, rfl⟩
    rwa [Table.mem_orderBy, ← htenant] at hr
  · rintro ⟨r, hr, rfl⟩
    refine ⟨r, ?_, rfl⟩
    rwa [Table.mem_orderBy, ← htenant]

theorem nodup_listCourseResources {scope : TenantScope} {db : Database} {courseId : Uuid}
    (hids : (db.courseResources.map (·.id)).Nodup) :
    ((listCourseResources scope db courseId).map (·.id)).Nodup := by
  rw [listCourseResources, List.map_map]
  refine (((Table.perm_orderBy _ _).map _).nodup_iff).mpr ?_
  exact hids.sublist (List.filter_sublist.map _)

/-- A row of the table is a confirmed upload, which storage answers for, a link, or neither. -/
theorem Described.course_cases (hh : Described issuer.env parseUrl h) {r : CourseResourceRow}
    (hr : r ∈ h.world.db.courseResources) :
    (r.id ∈ h.courses.confirmed ∧ r.id ∉ h.courses.linked ∧ r.url = none ∧
        r.byteSize.isSome = true ∧ ∃ key, r.storageKey = some key ∧ key ≠ "" ∧
          openStorage issuer.env r.tenantId key = .ok ()) ∨
      (r.id ∈ h.courses.linked ∧ r.id ∉ h.courses.confirmed ∧ r.byteSize = none ∧
        ParsedFrom parseUrl r.url) ∨
      (r.id ∉ h.courses.confirmed ∧ r.id ∉ h.courses.linked ∧ r.byteSize = none ∧
        r.url = none) := by
  have hitem : r.item ∈ courseItems h.world.db := List.mem_map_of_mem hr
  by_cases hconfirmed : r.id ∈ h.courses.confirmed
  · obtain ⟨hsize, hurl, hkey⟩ := hh.2.confirmed r.item hitem hconfirmed
    have hunlinked : r.id ∉ h.courses.linked := by
      intro hlinked
      obtain ⟨hnone, -, -⟩ := hh.2.linked r.item hitem hlinked
      obtain ⟨key, hsome, -⟩ := hkey
      exact absurd (hnone.symm.trans hsome) (by simp)
    exact Or.inl ⟨hconfirmed, hunlinked, hurl, hsize, hkey⟩
  · by_cases hlinked : r.id ∈ h.courses.linked
    · obtain ⟨-, hurl, hsize⟩ := hh.2.linked r.item hitem hlinked
      exact Or.inr (Or.inl ⟨hlinked, hconfirmed, hsize, hurl⟩)
    · obtain ⟨hsize, hurl⟩ := hh.2.reserved r.item hitem hconfirmed hlinked
      exact Or.inr (Or.inr ⟨hconfirmed, hlinked, hsize, hurl⟩)

/-- What is ready was confirmed or is a link. An address has at least one character. -/
theorem Described.ready_iff (hh : Described issuer.env parseUrl h)
    (hhref : ∀ text parsed, parseUrl text = some parsed → parsed.href ≠ "") {r : CourseResourceRow}
    (hr : r ∈ h.world.db.courseResources) :
    (CourseResource.of r).ready = true ↔
      r.id ∈ h.courses.confirmed ∨ r.id ∈ h.courses.linked := by
  rw [CourseResource.ready, CourseResource.of]
  dsimp only
  rcases hh.course_cases hr with ⟨hconfirmed, -, hurl, hsize, key, hkey, hne, -⟩ |
    ⟨hlinked, -, -, text, parsed, hparsed, hurl⟩ | ⟨hconfirmed, hlinked, hsize, hurl⟩
  · simp [hconfirmed, hurl, hsize, hkey, hne]
  · simp [hlinked, hurl, hhref text parsed hparsed]
  · simp [hconfirmed, hlinked, hsize, hurl]

/-- Storage answers for every confirmed upload of the tenant. -/
theorem Described.opens (hh : Described issuer.env parseUrl h) {scope : TenantScope}
    (htenant : course.tenantId = scope.tenantId) {resource : CourseResource}
    (hmem : resource ∈ listCourseResources scope h.world.db course.id) {key : String}
    (hkey : resource.storageKey.filter (fun key => key ≠ "") = some key)
    (hsize : resource.byteSize.isSome = true) :
    openStorage issuer.env scope.tenantId key = .ok () := by
  obtain ⟨r, hr, rfl⟩ := (mem_listCourseResources htenant).mp hmem
  obtain ⟨hrow, hown, -⟩ := mem_courseRows.mp hr
  have hstored : r.storageKey = some key := (Option.filter_eq_some_iff.mp hkey).1
  have hsome : r.byteSize.isSome = true := hsize
  rcases hh.course_cases hrow with ⟨-, -, -, -, key', hkey', -, hopen⟩ | ⟨-, -, hnone, -⟩ |
    ⟨-, -, hnone, -⟩
  · obtain rfl := Option.some.inj (hstored.symm.trans hkey')
    rwa [hown, htenant] at hopen
  · simp [hnone] at hsome
  · simp [hnone] at hsome

/-- The documents of a course, for a viewer whom the page takes to be enrolled or not. -/
theorem Described.issueCourseDocuments_offersExactly (hh : Described issuer.env parseUrl h)
    (hhref : ∀ text parsed, parseUrl text = some parsed → parsed.href ≠ "") {ctx : AccessContext}
    (htenant : course.tenantId = ctx.tenantId) (enrolled : Bool) :
    ∃ documents, issueCourseDocuments issuer h.world.db ctx course.id enrolled = .ok documents ∧
      OffersExactly h issuer course (enrolled = true) documents := by
  let scope : TenantScope := { tenantId := ctx.tenantId, now := issuer.startedAt }
  have htenant' : course.tenantId = scope.tenantId := htenant
  obtain ⟨documents, hissued, hids, hsigns⟩ := signCourseDocuments_eq issuer enrolled
    fun resource hmem key hkey hsize => hh.opens htenant' hmem hkey hsize
  have hunique : (h.world.db.courseResources.map (·.id)).Nodup := by
    have := hh.2.ids
    rwa [courseItems, List.map_map] at this
  refine ⟨documents, hissued, fun r hr => ?_, fun e he => ?_, ?_⟩
  · have hrow := (mem_courseRows.mp hr).1
    rw [hids, ← hh.ready_iff hhref hrow]
    constructor
    · intro hmem
      obtain ⟨resource, hresource, hid⟩ := List.mem_map.mp hmem
      obtain ⟨hlisted, hoffered⟩ := List.mem_filter.mp hresource
      obtain ⟨r', hr', rfl⟩ := (mem_listCourseResources htenant').mp hlisted
      obtain rfl : r' = r := Table.eq_of_key_eq hunique (mem_courseRows.mp hr').1 hrow hid
      simp only [CourseResource.offered, Bool.and_eq_true, Bool.or_eq_true] at hoffered
      exact ⟨hoffered.2, hoffered.1⟩
    · rintro ⟨hready, hshown⟩
      refine List.mem_map.mpr ⟨.of r, List.mem_filter.mpr
        ⟨(mem_listCourseResources htenant').mpr ⟨r, hr, rfl⟩, ?_⟩, rfl⟩
      simp only [CourseResource.offered, Bool.and_eq_true, Bool.or_eq_true]
      exact ⟨hshown, hready⟩
  · obtain ⟨resource, hlisted, hsign⟩ := hsigns e he
    obtain ⟨r, hr, rfl⟩ := (mem_listCourseResources htenant').mp hlisted
    refine ⟨r, hr, hsign.resourceId, hsign.title, hsign.isPublic, fun hconfirmed => ?_,
      fun hlinked => ?_⟩
    · rcases hsign.url with hurl | hkey
      · rcases hh.course_cases (mem_courseRows.mp hr).1 with ⟨-, -, hnone, -⟩ |
          ⟨-, hunconfirmed, -⟩ | ⟨hunconfirmed, -⟩
        · exact absurd (hnone.symm.trans hurl) (by simp)
        · exact absurd hconfirmed hunconfirmed
        · exact absurd hconfirmed hunconfirmed
      · exact hkey
    · rcases hsign.url with hurl | ⟨key, hkey, -⟩
      · exact hurl
      · have hnone := (hh.2.linked r.item (List.mem_map_of_mem (mem_courseRows.mp hr).1) hlinked).1
        exact absurd (hnone.symm.trans hkey) (by simp)
  · rw [hids]
    exact (nodup_listCourseResources hunique).sublist (List.filter_sublist.map _)

end Offers

/-- **In every run, the page of a course offers what is ready: to everybody where it is public, and
otherwise to those who follow the course, if the course has a gated lesson.** -/
theorem coursePage_offersExactly (s : MediaServices) (parseUrl : String → Option ParsedUrl)
    (hhref : ∀ text parsed, parseUrl text = some parsed → parsed.href ≠ "") {w : MediaWorld}
    (hlessons : w.db.lessonResources = []) (hcourses : w.db.courseResources = [])
    (events : List MediaEvent) (startedAt openedAt : Instant) (clock : ℕ → Instant)
    (ctx : AccessContext) (course : CourseRow) :
    let h := run (recordMedia s parseUrl) (.start w) events
    h.world.db.Consistent → (h.world.db.courses.map fun c => (c.tenantId, c.slug)).Nodup →
      course ∈ h.world.db.courses → course.tenantId = ctx.tenantId →
      ∃ page, coursePage (s.issuer startedAt clock) openedAt h.world.db ctx course.slug
          = .ok (some page) ∧ page.course = course ∧
        OffersExactly h (s.issuer startedAt clock) course
          (HasGatedLesson h.world.db course ∧ FollowsCourse h.world.db ctx openedAt course)
          page.documents := by
  intro h hdb hslug hcourse htenant
  have hh : Described (s.issuer startedAt clock).env parseUrl h :=
    described_run s parseUrl hlessons hcourses events
  let enrolled := (coursePageLessons ⟨ctx.tenantId, openedAt⟩ h.world.db ctx course.id).any
    fun lesson => lesson.isOpen && !lesson.isFreePreview
  obtain ⟨documents, hissued, hoffers⟩ :=
    hh.issueCourseDocuments_offersExactly hhref htenant enrolled
  have henrolled : enrolled = true ↔ HasGatedLesson h.world.db course ∧
      FollowsCourse h.world.db ctx openedAt course := lessonOpen_iff hdb hcourse htenant
  rw [henrolled] at hoffers
  refine ⟨⟨course, coursePageLessons ⟨ctx.tenantId, openedAt⟩ h.world.db ctx course.id, documents⟩,
    ?_, rfl, hoffers⟩
  rw [coursePage, findCourseBySlug_eq_some hslug hcourse htenant]
  dsimp only
  rw [hissued]
  rfl

/-- A link for those who follow the course, added by its teacher. -/
def courseLinkRun : List MediaEvent :=
  [.teach teacher 0 (.addCourseLink 10 "Reading list" "https://grace.edu/list" "" 22)]

/-- A course with one document. -/
def genesis : CourseRow := ⟨10, 1, "Genesis", "genesis", none⟩

/-- A document of that course that is a link. -/
def courseLinkRow : CourseResourceRow where
  id := 22
  tenantId := 1
  courseId := 10
  kind := .link
  title := "Reading list"
  storageKey := none
  url := some "https://grace.edu/list"
  filename := none
  byteSize := none
  isPublic := false
  sortOrder := 0

/-- The classroom, with its only lesson a free preview or not. -/
def courseroom (isFreePreview : Bool) : MediaWorld :=
  { classroom with db :=
      { classroom.db with
        lessons := [⟨12, 1, 11, "Creation", "creation", none, none, isFreePreview, 0⟩] } }

theorem run_courseLinkRun (isFreePreview : Bool) :
    run (recordMedia studio instituteUrl) (.start (courseroom isFreePreview)) courseLinkRun
      = { world := { courseroom isFreePreview with
                     db := { (courseroom isFreePreview).db with
                       courseResources := [courseLinkRow] } }
          lessons := ⟨[], []⟩
          courses := ⟨[], [22]⟩ } := by
  have hlink : addCourseLinkAction (courseroom isFreePreview).db teacher 0 instituteUrl 10
      "Reading list" "https://grace.edu/list" "" 22
      = (.ok .ok, { (courseroom isFreePreview).db with courseResources := [courseLinkRow] }) := rfl
  simp only [courseLinkRun, Machine.run_cons, Machine.run_nil, recordMedia, teach,
    MediaHistory.start, confirmedUpload, addedLessonLink, confirmedDocument, addedCourseLink, hlink]
  rfl

theorem courseLinkRun_consistent :
    (run (recordMedia studio instituteUrl) (.start (courseroom false))
      courseLinkRun).world.db.Consistent
    := by
  rw [run_courseLinkRun]
  constructor <;> decide

theorem coursePage_offersExactly_courseLink :
    let h := run (recordMedia studio instituteUrl) (.start (courseroom false)) courseLinkRun
    ∃ page, coursePage (studio.issuer 0 fun _ => 0) 0 h.world.db ⟨1, some 7⟩ genesis.slug
        = .ok (some page) ∧ page.course = genesis ∧
      OffersExactly h (studio.issuer 0 fun _ => 0) genesis
        (HasGatedLesson h.world.db genesis ∧ FollowsCourse h.world.db ⟨1, some 7⟩ 0 genesis)
        page.documents := by
  have hslug : ((run (recordMedia studio instituteUrl) (.start (courseroom false))
      courseLinkRun).world.db.courses.map fun c => (c.tenantId, c.slug)).Nodup := by
    rw [run_courseLinkRun]
    decide
  have hcourse : genesis ∈ (run (recordMedia studio instituteUrl) (.start (courseroom false))
      courseLinkRun).world.db.courses := by
    rw [run_courseLinkRun]
    exact List.mem_singleton_self _
  exact coursePage_offersExactly studio instituteUrl instituteUrl_href rfl rfl courseLinkRun 0 0
    (fun _ => 0) ⟨1, some 7⟩ genesis courseLinkRun_consistent hslug hcourse rfl

/-- The teacher of a course of which every lesson is a free preview does not find the link. -/
theorem courseLink_withheld :
    let h := run (recordMedia studio instituteUrl) (.start (courseroom true)) courseLinkRun
    ∃ page, coursePage (studio.issuer 0 fun _ => 0) 0 h.world.db ⟨1, some 7⟩ "genesis"
        = .ok (some page) ∧
      FollowsCourse h.world.db ⟨1, some 7⟩ 0 genesis ∧
      ¬ OffersExactly h (studio.issuer 0 fun _ => 0) genesis
        (FollowsCourse h.world.db ⟨1, some 7⟩ 0 genesis) page.documents := by
  rw [run_courseLinkRun]
  have hfollows : FollowsCourse { (courseroom true).db with courseResources := [courseLinkRow] }
      ⟨1, some 7⟩ 0 genesis :=
    Or.inr (Or.inl ⟨7, ⟨rfl, by decide⟩, by decide⟩)
  refine ⟨⟨genesis, _, []⟩, rfl, hfollows, fun hexact => ?_⟩
  have hoffered := hexact.offered courseLinkRow (List.mem_singleton_self _)
  exact absurd (hoffered.mpr ⟨Or.inr (List.mem_singleton_self _), Or.inr hfollows⟩) List.not_mem_nil

end LampLight
