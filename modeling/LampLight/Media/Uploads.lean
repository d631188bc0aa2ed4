import LampLight.Foundation.JsText

/-!
# What may be uploaded

Pure rules, asked twice for every upload: of the type and size the browser declares, and afterwards
of what the bucket says has arrived.

`numberText` is how the runtime prints a number; only sizes that are not whole, or beyond `10 ^ 21`,
get that far.

## Main results

* `checkUpload_eq_ok` — what passes the check
-/

namespace LampLight

open Js (Number toFixed1 toLowerCase trim upTo)

/-! ### The rules -/

/-- The types of recordings that are taken. -/
def AUDIO_TYPES : List String :=
  ["audio/mpeg", "audio/mp4", "audio/x-m4a", "audio/aac", "audio/ogg", "audio/opus", "audio/wav",
    "audio/x-wav", "audio/webm", "audio/flac"]

/-- Half a gigabyte. -/
def MAX_UPLOAD_BYTES : ℚ := 512 * 1024 * 1024

/-- The types of documents that are taken. -/
def DOCUMENT_TYPES : List String := ["application/pdf", "text/plain"]

/-- The largest document. -/
def MAX_DOCUMENT_BYTES : ℚ := 25 * 1024 * 1024

/-- Recordings and documents are checked alike, with other limits. -/
inductive UploadKind | audio | document
deriving DecidableEq

/-- The types that are taken. -/
def UploadKind.allowed : UploadKind → List String
  | .audio => AUDIO_TYPES
  | .document => DOCUMENT_TYPES

/-- The largest size that is taken. -/
def UploadKind.limit : UploadKind → ℚ
  | .audio => MAX_UPLOAD_BYTES
  | .document => MAX_DOCUMENT_BYTES

/-- For messages people read. -/
def formatBytes (numberText : ℚ → String) (bytes : ℚ) : String :=
  if 1024 * 1024 * 1024 ≤ bytes then
    let gigabytes := bytes / (1024 * 1024 * 1024)
    (if gigabytes < 10 ^ 21 then toFixed1 gigabytes else numberText gigabytes) ++ " GB"
  else if 1024 * 1024 ≤ bytes then toString (Js.round (bytes / (1024 * 1024))) ++ " MB"
  else if 1024 ≤ bytes then toString (Js.round (bytes / 1024)) ++ " KB"
  else numberText bytes ++ " bytes"

/-- The part of a content type before any parameters. -/
def mediaType (contentType : String) : String :=
  String.ofList (toLowerCase (trim (upTo ';' contentType.toList)))

/-- The answer to a file without a type. -/
def noTypeMessage : UploadKind → String
  | .audio => "Your browser did not say what kind of file that is. Try an mp3 or m4a."
  | .document => "Your browser did not say what kind of file that is. Try a PDF."

/-- The answer to a file of another type. -/
def wrongTypeMessage (type : String) : UploadKind → String
  | .audio => type ++ " is not a kind of audio this accepts. Use mp3, m4a, wav, or ogg."
  | .document => type ++ " is not a kind of document this accepts. Use a PDF."

/-- Whether this file may be uploaded: its content type, or a reason a person can act on. -/
def checkUpload (numberText : ℚ → String) (kind : UploadKind) (contentType : String)
    (byteSize : Number) : Except String String :=
  let type := mediaType contentType
  if type = "" then .error (noTypeMessage kind)
  else if type ∉ kind.allowed then .error (wrongTypeMessage type kind)
  else
    match byteSize with
    | .finite size =>
      if size ≤ 0 then .error "That file appears to be empty."
      else if kind.limit < size then
        .error ("That file is " ++ formatBytes numberText size ++ ". The limit is " ++
          formatBytes numberText kind.limit ++ ".")
      else .ok type
    | .infinite _ | .nan => .error "That file appears to be empty."

/-- A duration the browser measured, when it did. -/
def readDuration : Number → Option ℤ
  | .finite seconds => if seconds ≤ 0 then none else some (Js.round seconds)
  | .infinite _ | .nan => none

/-! ### What passes -/

variable {numberText : ℚ → String} {kind : UploadKind} {contentType type : String}

theorem ne_empty_of_mem_allowed (h : type ∈ kind.allowed) : type ≠ "" := by
  rintro rfl
  cases kind with
  | audio => exact absurd h (by decide)
  | document => exact absurd h (by decide)

theorem checkUpload_eq_ok {byteSize : Number} :
    checkUpload numberText kind contentType byteSize = .ok type ↔
      type = mediaType contentType ∧ type ∈ kind.allowed ∧
        ∃ size, byteSize = .finite size ∧ 0 < size ∧ size ≤ kind.limit := by
  constructor
  · intro h
    rw [checkUpload.eq_def] at h
    dsimp only at h
    split_ifs at h with hempty hallowed
    cases byteSize with
    | infinite _ => cases h
    | nan => cases h
    | finite size =>
      dsimp only at h
      split_ifs at h with hpos hlimit
      obtain rfl := Except.ok.inj h
      exact ⟨rfl, hallowed, size, rfl, Rat.not_le.mp hpos, Rat.not_lt.mp hlimit⟩
  · rintro ⟨rfl, hallowed, size, rfl, hpos, hlimit⟩
    rw [checkUpload.eq_def]
    dsimp only
    rw [if_neg (ne_empty_of_mem_allowed hallowed), if_neg (not_not.mpr hallowed),
      if_neg (Rat.not_le.mpr hpos), if_neg (Rat.not_lt.mpr hlimit)]

example : formatBytes (fun _ => "") MAX_UPLOAD_BYTES = "512 MB" := by decide +kernel

end LampLight
