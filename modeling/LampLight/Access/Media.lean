import LampLight.Access.Predicate
import LampLight.Storage.Objects

/-!
# Issuing media

The only place where a resource becomes a URL somebody can fetch. The predicate comes first, the
resources second and the signatures third, and every refusal of a lesson is the same nothing.

A signature reads the clock, so the readings are an argument: `clock n` is the reading of the `n`-th
signature.

## Main definitions

* `issueLessonMedia` — the recordings and handouts of a lesson
* `issueCourseDocuments` — the documents and links of a course
-/

namespace LampLight

/-- What issuing is given: configuration, the presigner and the clock. -/
structure Issuer where
  env : Env
  signer : StorageSigner
  /-- When the transaction starts. -/
  startedAt : Instant
  clock : ℕ → Instant

/-- The clock after one signature. -/
def Issuer.next (issuer : Issuer) : Issuer :=
  { issuer with clock := fun n => issuer.clock (n + 1) }

/-- A signed address of an object, at the time it is asked for. -/
def Issuer.sign (issuer : Issuer) (tenantId : Uuid) (key : String) :
    Except StorageError SignedUrl :=
  signObjectRead issuer.env issuer.signer tenantId key (issuer.clock 0)

/-! ### Of a lesson -/

/-- A resource of a lesson with an address to play or to open it. -/
structure IssuedMedia where
  resourceId : Uuid
  kind : ResourceKind
  filename : Option String
  isDownloadable : Bool
  url : String
  expiresAt : Instant
deriving DecidableEq

/-- The loop over the resources of a lesson. A link has nothing of ours to sign. -/
def signLessonMedia (issuer : Issuer) (tenantId : Uuid) :
    List LessonResource → Except StorageError (List IssuedMedia)
  | [] => .ok []
  | resource :: resources =>
    match resource.storageKey.filter fun key => key ≠ "" with
    | none => signLessonMedia issuer tenantId resources
    | some key =>
      match issuer.sign tenantId key with
      | .error e => .error e
      | .ok signed =>
        (signLessonMedia issuer.next tenantId resources).map fun issued =>
          { resourceId := resource.id
            kind := resource.kind
            filename := resource.filename
            isDownloadable := resource.isDownloadable
            url := signed.url
            expiresAt := signed.expiresAt } :: issued

/-- Signed URLs for every playable resource of a lesson, or nothing. -/
def issueLessonMedia (issuer : Issuer) (db : Database) (ctx : AccessContext) (lessonId : Uuid) :
    Except StorageError (Option (List IssuedMedia)) :=
  let scope : TenantScope := { tenantId := ctx.tenantId, now := issuer.startedAt }
  if (decideLessonAccess scope db ctx lessonId).allowed then
    (signLessonMedia issuer ctx.tenantId (listLessonResources scope db lessonId)).map some
  else .ok none

/-! ### Of a course -/

/-- A document of a course with an address to open it. -/
structure IssuedDocument where
  resourceId : Uuid
  title : String
  isPublic : Bool
  url : String
deriving DecidableEq

/-- `title || filename || 'Document'`. -/
def CourseResource.displayTitle (resource : CourseResource) : String :=
  if resource.title ≠ "" then resource.title
  else (resource.filename.filter fun filename => filename ≠ "").getD "Document"

/-- The loop over the resources of a course. Reserved uploads are skipped. -/
def signCourseDocuments (issuer : Issuer) (tenantId : Uuid) (enrolled : Bool) :
    List CourseResource → Except StorageError (List IssuedDocument)
  | [] => .ok []
  | resource :: resources =>
    if !resource.isPublic && !enrolled then
      signCourseDocuments issuer tenantId enrolled resources
    else
      let issue (url : String) : IssuedDocument :=
        { resourceId := resource.id, title := resource.displayTitle
          isPublic := resource.isPublic, url := url }
      match resource.url.filter fun url => url ≠ "" with
      | some url =>
        (signCourseDocuments issuer tenantId enrolled resources).map fun issued =>
          issue url :: issued
      | none =>
        match resource.storageKey.filter fun key => key ≠ "", resource.byteSize with
        | some key, some _ =>
          match issuer.sign tenantId key with
          | .error e => .error e
          | .ok signed =>
            (signCourseDocuments issuer.next tenantId enrolled resources).map fun issued =>
              issue signed.url :: issued
        | _, _ => signCourseDocuments issuer tenantId enrolled resources

/-- The documents of a course, signed where they are the institute's own. Whether the viewer is
enrolled is the caller's to say. -/
def issueCourseDocuments (issuer : Issuer) (db : Database) (ctx : AccessContext) (courseId : Uuid)
    (enrolled : Bool) : Except StorageError (List IssuedDocument) :=
  let scope : TenantScope := { tenantId := ctx.tenantId, now := issuer.startedAt }
  signCourseDocuments issuer ctx.tenantId enrolled (listCourseResources scope db courseId)

/-! ### They read the tenant's own rows -/

variable {issuer : Issuer} {db : Database} {ctx : AccessContext}

theorem issueLessonMedia_viewOf {lessonId : Uuid} :
    issueLessonMedia issuer (db.viewOf ctx.tenantId) ctx lessonId
      = issueLessonMedia issuer db ctx lessonId := by
  let scope : TenantScope := { tenantId := ctx.tenantId, now := issuer.startedAt }
  have haccess : decideLessonAccess scope (db.viewOf ctx.tenantId) ctx lessonId
      = decideLessonAccess scope db ctx lessonId := decideLessonAccess_viewOf
  have hresources : listLessonResources scope (db.viewOf ctx.tenantId) lessonId
      = listLessonResources scope db lessonId := listLessonResources_viewOf
  rw [issueLessonMedia, issueLessonMedia, haccess, hresources]

theorem issueCourseDocuments_viewOf {courseId : Uuid} {enrolled : Bool} :
    issueCourseDocuments issuer (db.viewOf ctx.tenantId) ctx courseId enrolled
      = issueCourseDocuments issuer db ctx courseId enrolled := by
  let scope : TenantScope := { tenantId := ctx.tenantId, now := issuer.startedAt }
  have hresources : listCourseResources scope (db.viewOf ctx.tenantId) courseId
      = listCourseResources scope db courseId := listCourseResources_viewOf
  rw [issueCourseDocuments, issueCourseDocuments, hresources]

end LampLight
