import LampLight.Env
import LampLight.Foundation.Machine
import LampLight.Storage.Keys

/-!
# The bucket

Nothing in the bucket is public: an object is read and written through signed URLs, and the
application asks and deletes with its own credentials. Every one of the four operations first checks
that the key belongs to the tenant of the request, and then needs a configured signer.

What the signer makes of a request is a parameter. A signed PUT stays with whoever holds it, so the
bucket remembers the requests it will honour and until when.

## Main results

* `statObject_eq`, `deleteObject_eq` — what the two answer for a key that belongs, when configured
-/

namespace LampLight

/-- What is asked of the signer. -/
structure SignRequest where
  key : String
  expiresInSeconds : ℕ
  contentType : Option String
deriving DecidableEq

/-- A signed address and its deadline. -/
structure SignedUrl where
  url : String
  expiresAt : Instant
deriving DecidableEq

/-- What an object turns out to be, once it is there. -/
structure ObjectFacts where
  byteSize : ℕ
  contentType : Option String
deriving DecidableEq

/-- The presigner of the storage library. -/
structure StorageSigner where
  signGet : SignRequest → String
  signPut : SignRequest → String

/-- The objects by key, and the signed PUTs that have been handed out. -/
structure Bucket where
  objects : String → Option ObjectFacts
  signedPuts : List (SignRequest × SignedUrl)

/-- Why a storage call throws: the key is another tenant's, or a variable is missing. -/
inductive StorageError where
  | access (message : String)
  | environment (message : String)
deriving DecidableEq

/-- A signed PUT is honoured until it expires, with whatever the holder sends. -/
def Bucket.put (bucket : Bucket) (key : String) (facts : ObjectFacts) : Bucket :=
  { bucket with objects := Function.update bucket.objects key (some facts) }

/-- The store without an object. -/
def Bucket.remove (bucket : Bucket) (key : String) : Bucket :=
  { bucket with objects := Function.update bucket.objects key none }

/-! ### The four operations -/

/-- Refuses a key of another tenant. -/
def assertKeyBelongs (tenantId : Uuid) (key : String) : Except StorageError Unit :=
  if keyBelongsToTenant key tenantId then .ok ()
  else .error (.access ("refusing to sign a key outside the institute prefix: " ++ key))

/-- The signer is built lazily, from three variables. -/
def createSigner (env : Env) : Except StorageError Unit :=
  match requireEnv "S3_BUCKET" env.s3Bucket, requireEnv "S3_ACCESS_KEY_ID" env.s3AccessKeyId,
      requireEnv "S3_SECRET_ACCESS_KEY" env.s3SecretAccessKey with
  | .error message, _, _ => .error (.environment message)
  | .ok _, .error message, _ => .error (.environment message)
  | .ok _, .ok _, .error message => .error (.environment message)
  | .ok _, .ok _, .ok _ => .ok ()

/-- What every operation does before anything else. -/
def openStorage (env : Env) (tenantId : Uuid) (key : String) : Except StorageError Unit :=
  match assertKeyBelongs tenantId key with
  | .error e => .error e
  | .ok () => createSigner env

/-- A signed address to read an object of a tenant. -/
def signObjectRead (env : Env) (signer : StorageSigner) (tenantId : Uuid) (key : String)
    (now : Instant) : Except StorageError SignedUrl :=
  let ttl := env.signedUrlTtlSeconds
  (openStorage env tenantId key).map fun () =>
    { url := signer.signGet { key := key, expiresInSeconds := ttl, contentType := none }
      expiresAt := now + ttl * 1000 }

/-- Uploads get fifteen minutes, and the content type is part of what is signed. -/
def signObjectWrite (env : Env) (signer : StorageSigner) (tenantId : Uuid)
    (key contentType : String)
    (now : Instant) (bucket : Bucket) : Except StorageError (SignedUrl × Bucket) :=
  let ttl := 15 * 60
  let request : SignRequest :=
    { key := key, expiresInSeconds := ttl, contentType := some contentType }
  let signed : SignedUrl := { url := signer.signPut request, expiresAt := now + ttl * 1000 }
  (openStorage env tenantId key).map fun () =>
    (signed, { bucket with signedPuts := bucket.signedPuts ++ [(request, signed)] })

/-- What is in the bucket at this key. -/
def statObject (env : Env) (tenantId : Uuid) (key : String) (bucket : Bucket) :
    Except StorageError (Option ObjectFacts) :=
  (openStorage env tenantId key).map fun () => bucket.objects key

/-- Deletes an object of a tenant. -/
def deleteObject (env : Env) (tenantId : Uuid) (key : String) (bucket : Bucket) :
    Except StorageError Bucket :=
  (openStorage env tenantId key).map fun () => bucket.remove key

/-! ### What they come to -/

variable {env : Env} {tenantId : Uuid} {key : String} {bucket : Bucket}

@[simp] theorem Bucket.put_objects (facts : ObjectFacts) :
    (bucket.put key facts).objects = Function.update bucket.objects key (some facts) := rfl

@[simp] theorem Bucket.remove_objects :
    (bucket.remove key).objects = Function.update bucket.objects key none := rfl

theorem Bucket.objects_of_remove {k : String} {facts : ObjectFacts}
    (h : (bucket.remove key).objects k = some facts) : bucket.objects k = some facts := by
  by_cases hk : k = key
  · rw [hk, Bucket.remove_objects, Function.update_self] at h
    cases h
  · rwa [Bucket.remove_objects, Function.update_of_ne hk] at h

theorem openStorage_of_belongs (henv : storageConfigured env = true)
    (hkey : keyBelongsToTenant key tenantId = true) : openStorage env tenantId key = .ok () := by
  rw [storageConfigured, Bool.and_eq_true, Bool.and_eq_true] at henv
  obtain ⟨⟨hbucket, haccess⟩, hsecret⟩ := henv
  obtain ⟨b, hb⟩ := requireEnv_of_any "S3_BUCKET" hbucket
  obtain ⟨a, ha⟩ := requireEnv_of_any "S3_ACCESS_KEY_ID" haccess
  obtain ⟨s, hs⟩ := requireEnv_of_any "S3_SECRET_ACCESS_KEY" hsecret
  rw [openStorage, assertKeyBelongs, if_pos hkey]
  show createSigner env = .ok ()
  rw [createSigner, hb, ha, hs]

theorem belongs_of_openStorage (h : openStorage env tenantId key = .ok ()) :
    keyBelongsToTenant key tenantId = true := by
  by_contra hkey
  rw [openStorage, assertKeyBelongs, if_neg hkey] at h
  cases h

/-- The bucket answers for a key that belongs. -/
theorem statObject_eq (henv : storageConfigured env = true)
    (hkey : keyBelongsToTenant key tenantId = true) :
    statObject env tenantId key bucket = .ok (bucket.objects key) := by
  rw [statObject, openStorage_of_belongs henv hkey]
  rfl

theorem statObject_ok {answer : Option ObjectFacts}
    (h : statObject env tenantId key bucket = .ok answer) :
    keyBelongsToTenant key tenantId = true ∧ answer = bucket.objects key := by
  obtain ⟨u, hopen, rfl⟩ := Machine.map_eq_ok.mp h
  exact ⟨belongs_of_openStorage hopen, rfl⟩

/-- Uploading is signed for a key that belongs. -/
theorem signObjectWrite_eq (henv : storageConfigured env = true)
    (hkey : keyBelongsToTenant key tenantId = true) (signer : StorageSigner) (contentType : String)
    (now : Instant) :
    let request : SignRequest :=
      { key := key, expiresInSeconds := 15 * 60, contentType := some contentType }
    let signed : SignedUrl :=
      { url := signer.signPut request, expiresAt := now + (15 * 60 : ℕ) * 1000 }
    signObjectWrite env signer tenantId key contentType now bucket
      = .ok (signed, { bucket with signedPuts := bucket.signedPuts ++ [(request, signed)] }) := by
  dsimp only
  rw [signObjectWrite, openStorage_of_belongs henv hkey]
  rfl

/-- Signing touches no object. -/
theorem signObjectWrite_objects {signer : StorageSigner} {contentType : String} {now : Instant}
    {signed : SignedUrl} {bucket' : Bucket}
    (h : signObjectWrite env signer tenantId key contentType now bucket = .ok (signed, bucket')) :
    bucket'.objects = bucket.objects := by
  obtain ⟨u, -, hpair⟩ := Machine.map_eq_ok.mp h
  rw [← (Prod.mk.inj hpair).2]

theorem deleteObject_eq (henv : storageConfigured env = true)
    (hkey : keyBelongsToTenant key tenantId = true) :
    deleteObject env tenantId key bucket = .ok (bucket.remove key) := by
  rw [deleteObject, openStorage_of_belongs henv hkey]
  rfl

theorem deleteObject_ok {bucket' : Bucket}
    (h : deleteObject env tenantId key bucket = .ok bucket') :
    bucket' = bucket.remove key := by
  obtain ⟨u, -, rfl⟩ := Machine.map_eq_ok.mp h
  rfl

end LampLight
