import LampLight.Env
import LampLight.Schema

/-!
# Custom hostnames at Cloudflare

The client turns an HTTP answer into a custom hostname or an error of one of four kinds. The
transport is not part of the program: a call is given what the transport came back with, which is an
answer with any status and any JSON, or a rejection.

## Main results

* `deriveStatus_eq_active` — active takes both states, the hostname's and the certificate's
* `call_ok` — what an accepted answer looks like
* `call_cases` — accepted, unreachable or refused, and what the client makes of each
-/

namespace LampLight

namespace Cloudflare

open Js (Json)

/-! ### Answers and errors -/

/-- What came back over the network. -/
structure HttpAnswer where
  status : ℕ
  json : Json

/-- What awaiting the transport gives: an answer, or a rejection with its text. -/
abbrev TransportResult := Except String HttpAnswer

/-- The kinds of failure the client tells apart. -/
inductive ErrorKind | auth | taken | invalid | unavailable
deriving DecidableEq

/-- A failed call: an error of the client's own class, or anything else that was thrown. -/
inductive ClientError where
  | cloudflare (kind : ErrorKind) (message : String)
  | other
deriving DecidableEq

/-- What the client is built with, and how the runtime prints a number inside an error text. -/
structure Client where
  fallbackOrigin : String
  numberText : ℚ → String

/-- The client of a configured platform. -/
def Client.of (env : Env) (numberText : ℚ → String) : Client where
  fallbackOrigin := env.cloudflareSaasFallbackOrigin.getD ""
  numberText := numberText

/-- Property access on an element of the error list, which fails on `null`. -/
def errorProperty (key : String) : Json → Option (Option Json)
  | .null => none
  | v => some (v.get? key)

/-- Cloudflare's error codes as something actionable. -/
def classifyErrors (client : Client) (errors : List Json) : ClientError :=
  match errors.mapM (errorProperty "message"), errors.mapM (errorProperty "code") with
  | some messages, some codes =>
    let texts := (messages.filterMap id).filter Json.truthy
    let joined := String.intercalate "; " (texts.map fun v => v.display client.numberText)
    let message := if joined = "" then "Cloudflare rejected the request." else joined
    let has (code : ℚ) : Bool := codes.any fun c =>
      match c with
      | some (.num (.finite q)) => q = code
      | _ => false
    if has 1406 || has 1407 then .cloudflare .taken message
    else if has 1401 || has 1409 then .cloudflare .invalid message
    else .cloudflare .invalid message
  | _, _ => .other

/-- One call: the envelope of a successful answer, or the error the caller sees. -/
def call (client : Client) : TransportResult → Except ClientError Json
  | .error cause => .error (.cloudflare .unavailable ("Cloudflare did not respond: " ++ cause))
  | .ok response =>
    if response.status = 401 ∨ response.status = 403 then
      .error (.cloudflare .auth
        "Cloudflare rejected the API token. Check CLOUDFLARE_API_TOKEN and its scopes.")
    else if 500 ≤ response.status then
      .error (.cloudflare .unavailable
        ("Cloudflare returned " ++ toString response.status ++ "."))
    else if !((response.json.get? "success").any Json.truthy) then
      match response.json.get? "errors" with
      | none => .error (classifyErrors client [])
      | some .null => .error (classifyErrors client [])
      | some (.arr errors) => .error (classifyErrors client errors)
      | some _ => .error .other
    else .ok response.json

/-! ### Custom hostnames -/

/-- A custom hostname as the client reports it. -/
structure CustomHostname where
  id : String
  hostname : String
  status : DomainStatus
  records : List DnsRecord
  message : Option String
deriving DecidableEq

/-- Two states of Cloudflare's as one of the platform's. -/
def deriveStatus (hostnameStatus sslStatus : String) : DomainStatus :=
  if hostnameStatus = "active" ∧ sslStatus = "active" then .active
  else if hostnameStatus = "moved" ∨ hostnameStatus = "deleted" then .failed
  else if hostnameStatus = "pending_validation" ∨ hostnameStatus = "pending_deployment" ∨
      hostnameStatus = "active" ∨ sslStatus = "pending_validation" ∨
      sslStatus = "pending_deployment" ∨ sslStatus = "initializing" then .verifying
  else if hostnameStatus = "blocked" ∨ sslStatus = "timed_out" then .failed
  else .pending

/-- Cloudflare's own words about why a hostname is not active yet. -/
def firstMessage (value : Json) : Option String :=
  let validation := ((((value.get? "ssl").bind (·.get? "validation_errors")).bind
    (·.at? 0)).bind (·.get? "message")).bind Json.string?
  match validation with
  | some text => if text ≠ "" then some text else firstVerification
  | none => firstVerification
where
  firstVerification : Option String :=
    match value.get? "verification_errors" with
    | some (.arr (first :: _)) => first.string?
    | _ => none

/-- The string at a property, when it is one. -/
def stringAt (value : Json) (key : String) : Option String := (value.get? key).bind Json.string?

/-- The status fields of a raw record, absent ones reading as pending. -/
def hostnameStatus (raw : Json) : String := (stringAt raw "status").getD "pending"

/-- The state of the certificate, `pending` when none is given. -/
def sslStatus (raw : Json) : String :=
  ((raw.get? "ssl").bind fun ssl => stringAt ssl "status").getD "pending"

/-- A TXT record, when both its name and its value are there. -/
def txtRecord (part : Option Json) (name value : String) (purpose : DnsPurpose) :
    List DnsRecord :=
  match part.bind (stringAt · name), part.bind (stringAt · value) with
  | some n, some v => [{ type := .TXT, name := n, value := v, purpose := purpose }]
  | _, _ => []

/-- Cloudflare's record in the shape the rest of the application uses. Ownership and certificate are
two records, not alternatives. -/
def toCustomHostname (raw : Option Json) (fallbackOrigin : String) : CustomHostname :=
  let value := raw.getD .null
  let hostname := (stringAt value "hostname").getD ""
  { id := (stringAt value "id").getD ""
    hostname := hostname
    status := deriveStatus (hostnameStatus value) (sslStatus value)
    records :=
      { type := .CNAME, name := hostname, value := fallbackOrigin, purpose := .routing }
        :: (txtRecord (value.get? "ownership_verification") "name" "value" .ownership
          ++ txtRecord (value.get? "ssl") "txt_name" "txt_value" .certificate)
    message := firstMessage value }

/-- `create`, given what the `POST` came back with. -/
def create (client : Client) (answer : TransportResult) : Except ClientError CustomHostname :=
  (call client answer).map fun envelope =>
    toCustomHostname (envelope.get? "result") client.fallbackOrigin

/-- `get`, given what the `GET` came back with. -/
def get (client : Client) (answer : TransportResult) : Except ClientError CustomHostname :=
  (call client answer).map fun envelope =>
    toCustomHostname (envelope.get? "result") client.fallbackOrigin

/-- `remove`, given what the `DELETE` came back with. -/
def remove (client : Client) (answer : TransportResult) : Except ClientError Unit :=
  (call client answer).map fun _ => ()

/-! ### What the client makes of an answer -/

/-- The record inside an answer. -/
def rawResult : TransportResult → Json
  | .ok response => (response.json.get? "result").getD .null
  | .error _ => .null

/-- Both states of the record inside an answer say active. -/
def ReportsActive (answer : TransportResult) : Prop :=
  hostnameStatus (rawResult answer) = "active" ∧ sslStatus (rawResult answer) = "active"

instance (answer : TransportResult) : Decidable (ReportsActive answer) :=
  inferInstanceAs (Decidable (_ ∧ _))

/-- The id of the record inside an answer. -/
def recordId (answer : TransportResult) : String := (stringAt (rawResult answer) "id").getD ""

/-- Cloudflare did what it was asked. -/
def Accepted : TransportResult → Prop
  | .error _ => False
  | .ok response => response.status ≠ 401 ∧ response.status ≠ 403 ∧ response.status < 500 ∧
      (response.json.get? "success").any Json.truthy = true

/-- Cloudflare could not be reached, or failed on its own side. -/
def Unreachable : TransportResult → Prop
  | .error _ => True
  | .ok response => 500 ≤ response.status

/-- Cloudflare answered and did not do what it was asked. -/
def Refused : TransportResult → Prop
  | .error _ => False
  | .ok response => response.status = 401 ∨ response.status = 403 ∨
      response.status < 500 ∧ ¬ (response.json.get? "success").any Json.truthy = true

instance : DecidablePred Accepted
  | .error _ => isFalse id
  | .ok _ => inferInstanceAs (Decidable (_ ∧ _ ∧ _ ∧ _))

instance : DecidablePred Unreachable
  | .error _ => isTrue trivial
  | .ok _ => inferInstanceAs (Decidable (_ ≤ _))

instance : DecidablePred Refused
  | .error _ => isFalse id
  | .ok _ => inferInstanceAs (Decidable (_ ∨ _ ∨ _ ∧ _))

variable {client : Client} {answer : TransportResult}

theorem deriveStatus_eq_active {h s : String} :
    deriveStatus h s = .active ↔ h = "active" ∧ s = "active" := by
  rw [deriveStatus]
  split_ifs <;> simp_all

theorem call_ok {envelope : Json} (h : call client answer = .ok envelope) :
    ∃ response, answer = .ok response ∧ response.json = envelope := by
  cases answer with
  | error cause => cases h
  | ok response =>
    refine ⟨response, rfl, ?_⟩
    rw [call.eq_def] at h
    dsimp only at h
    split_ifs at h with h₁ h₂ h₃
    · split at h <;> cases h
    · exact Except.ok.inj h

/-- The error codes of an answer never read as Cloudflare being unreachable. -/
theorem classifyErrors_ne_unavailable (errors : List Json) (message : String) :
    classifyErrors client errors ≠ .cloudflare .unavailable message := by
  intro h
  rw [classifyErrors] at h
  split at h
  · dsimp only at h
    split_ifs at h <;> cases h
  · cases h

/-- Every call is accepted, unreachable or refused, and only the second reads as unavailable. -/
theorem call_cases (client : Client) (answer : TransportResult) :
    (Accepted answer ∧ ∃ envelope, call client answer = .ok envelope) ∨
      (Unreachable answer ∧
        ∃ message, call client answer = .error (.cloudflare .unavailable message)) ∨
      (Refused answer ∧ ∃ e, call client answer = .error e ∧
        ∀ message, e ≠ .cloudflare .unavailable message) := by
  cases answer with
  | error cause => exact Or.inr (Or.inl ⟨trivial, _, rfl⟩)
  | ok response =>
    rw [call]
    split_ifs with hauth hserver hsuccess
    · refine Or.inr (Or.inr ⟨?_, _, rfl, by simp⟩)
      exact hauth.imp_right Or.inl
    · exact Or.inr (Or.inl ⟨hserver, _, rfl⟩)
    · have hrefused : Refused (.ok response) :=
        Or.inr (Or.inr ⟨Nat.lt_of_not_le hserver, by simpa using hsuccess⟩)
      refine Or.inr (Or.inr ⟨hrefused, ?_⟩)
      split
      · exact ⟨_, rfl, classifyErrors_ne_unavailable _⟩
      · exact ⟨_, rfl, classifyErrors_ne_unavailable _⟩
      · exact ⟨_, rfl, classifyErrors_ne_unavailable _⟩
      · exact ⟨_, rfl, by simp⟩
    · rw [not_or] at hauth
      exact Or.inl ⟨⟨hauth.1, hauth.2, Nat.lt_of_not_le hserver, by simpa using hsuccess⟩, _, rfl⟩

theorem accepted_ne (h : Accepted answer) :
    ¬ Unreachable answer ∧ ¬ Refused answer := by
  cases answer with
  | error cause => exact h.elim
  | ok response =>
    obtain ⟨h₁, h₂, h₃, h₄⟩ := h
    refine ⟨Nat.not_le_of_lt h₃, ?_⟩
    rintro (h | h | ⟨-, h⟩)
    · exact h₁ h
    · exact h₂ h
    · exact h h₄

theorem refused_ne (h : Refused answer) :
    ¬ Unreachable answer ∧ ¬ Accepted answer := by
  refine ⟨fun hu => ?_, fun ha => (accepted_ne ha).2 h⟩
  cases answer with
  | error cause => exact h.elim
  | ok response =>
    have hu : 500 ≤ response.status := hu
    rcases h with h | h | ⟨h, -⟩ <;> omega

theorem exists_get (hanswer : Accepted answer) : ∃ latest, get client answer = .ok latest := by
  rcases call_cases client answer with ⟨-, envelope, hc⟩ | ⟨h, -⟩ | ⟨h, -⟩
  · exact ⟨_, by rw [get, hc]; rfl⟩
  · exact absurd h (accepted_ne hanswer).1
  · exact absurd h (accepted_ne hanswer).2

/-- Reading one hostname fails in the ways every call does. -/
theorem get_cases (client : Client) (answer : TransportResult) :
    (Accepted answer ∧ ∃ latest, get client answer = .ok latest) ∨
      (Unreachable answer ∧
        ∃ message, get client answer = .error (.cloudflare .unavailable message)) ∨
      (Refused answer ∧ ∃ e, get client answer = .error e ∧
        ∀ message, e ≠ .cloudflare .unavailable message) := by
  rcases call_cases client answer with ⟨h, -⟩ | ⟨h, message, hc⟩ | ⟨h, e, hc, hne⟩
  · exact Or.inl ⟨h, exists_get h⟩
  · exact Or.inr (Or.inl ⟨h, message, by rw [get, hc]; rfl⟩)
  · exact Or.inr (Or.inr ⟨h, e, by rw [get, hc]; rfl, hne⟩)

theorem get_ok {latest : CustomHostname} (h : get client answer = .ok latest) :
    latest.id = recordId answer ∧ (latest.status = .active ↔ ReportsActive answer) := by
  rw [get] at h
  cases hc : call client answer with
  | error e => rw [hc] at h; cases h
  | ok envelope =>
    obtain ⟨response, rfl, rfl⟩ := call_ok hc
    rw [hc] at h
    obtain rfl := Except.ok.inj h
    exact ⟨rfl, deriveStatus_eq_active⟩

theorem create_ok {created : CustomHostname} (h : create client answer = .ok created) :
    created.id = recordId answer ∧ (created.status = .active ↔ ReportsActive answer) :=
  get_ok h

end Cloudflare

end LampLight
