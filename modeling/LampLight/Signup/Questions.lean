import LampLight.Foundation.JsText

/-!
# The questions an institute asks at sign-up

An institute stores a list of questions. Whatever is stored and does not fit the schema counts as no
questions. Answers are checked against the stored list and never against what the form claimed to
ask, so the keys of an accepted submission are among the ids of the list (`validateAnswers_keys`).

The schema library is not part of the repository; what the schema asks of each field is written out.
-/

namespace LampLight

open Js

/-! ### The schema -/

/-- How many questions an institute may ask. -/
def MAX_QUESTIONS : ℕ := 10

/-- How long an answer may be. -/
def MAX_ANSWER_LENGTH : ℕ := 2000

/-- How many options a question may have. -/
def MAX_OPTIONS : ℕ := 20

/-- How a question is answered. -/
inductive QuestionType | text | textarea | select | checkbox
deriving DecidableEq

/-- A question that a sign-up is asked. -/
structure SignupQuestion where
  id : String
  label : String
  help : Option String
  type : QuestionType
  required : Bool
  options : Option (List String)
deriving DecidableEq

/-- `/^[a-z0-9](?:[a-z0-9_-]{0,38}[a-z0-9])?$/`. -/
def isQuestionId (s : List Char) : Bool :=
  match s with
  | [] => false
  | [c] => isLowerAlnum c
  | c :: d :: rest =>
    isLowerAlnum c && ((d :: rest).getLast?.any isLowerAlnum) && rest.length ≤ 38 &&
      (d :: rest).dropLast.all fun e => isLowerAlnum e || e = '_' || e = '-'

/-- Text of between `low` and `high` code units. -/
def parseText (low high : ℕ) : Json → Option String
  | .str s => if low ≤ Js.length s.toList ∧ Js.length s.toList ≤ high then some s else none
  | _ => none

/-- A field that may be absent. -/
def parseOptional {α : Type} (parse : Json → Option α) : Option Json → Option (Option α)
  | none => some none
  | some v => (parse v).map some

/-- `z.enum(['text', 'textarea', 'select', 'checkbox'])`. -/
def parseQuestionType : Json → Option QuestionType
  | .str "text" => some .text
  | .str "textarea" => some .textarea
  | .str "select" => some .select
  | .str "checkbox" => some .checkbox
  | _ => none

/-- `z.boolean()`. -/
def parseBool : Json → Option Bool
  | .bool b => some b
  | _ => none

/-- `z.array(z.string().min(1).max(120)).max(MAX_OPTIONS)`. -/
def parseOptions : Json → Option (List String)
  | .arr items => if items.length ≤ MAX_OPTIONS then items.mapM (parseText 1 120) else none
  | _ => none

/-- One question. Fields the schema does not know are dropped. -/
def signupQuestionSchema (v : Json) : Option SignupQuestion := do
  let id ← (v.get? "id").bind Json.string?
  let label ← (v.get? "label").bind (parseText 1 200)
  let help ← parseOptional (parseText 0 300) (v.get? "help")
  let type ← (v.get? "type").bind parseQuestionType
  let required ← parseOptional parseBool (v.get? "required")
  let options ← parseOptional parseOptions (v.get? "options")
  if isQuestionId id.toList then
    some
      { id := id
        label := label
        help := help
        type := type
        required := required.getD false
        options := options }
  else none

/-- The checks across a list: ids are distinct, and a choice offers something. -/
def questionsAgree (questions : List SignupQuestion) : Bool :=
  (questions.map (·.id)).Nodup &&
    questions.all fun q => q.type ≠ .select || q.options.getD [] ≠ []

/-- `signupQuestionsSchema.safeParse`. -/
def signupQuestionsSchema : Json → Option (List SignupQuestion)
  | .arr items =>
    if items.length ≤ MAX_QUESTIONS then
      (items.mapM signupQuestionSchema).filter questionsAgree
    else none
  | _ => none

/-- The stored list, and no questions when it does not fit. -/
def parseQuestions (value : Option Json) : List SignupQuestion :=
  (value.bind signupQuestionsSchema).getD []

/-! ### Answers -/

/-- What has been accepted and refused so far. -/
structure AnswerTally where
  answers : List (String × Json) := []
  errors : List (String × String) := []

/-- `fields[key] = value`. -/
def assign {α : Type} (key : String) (value : α) (fields : List (String × α)) :
    List (String × α) :=
  if fields.any fun f => f.1 = key then
    fields.map fun f => if f.1 = key then (key, value) else f
  else fields ++ [(key, value)]

/-- One more answer. -/
def AnswerTally.answer (tally : AnswerTally) (key : String) (value : Json) : AnswerTally :=
  { tally with answers := assign key value tally.answers }

/-- One more error. -/
def AnswerTally.refuse (tally : AnswerTally) (key message : String) : AnswerTally :=
  { tally with errors := assign key message tally.errors }

/-- `raw === true || raw === 'true' || raw === 'on'`. -/
def isTicked : Option Json → Bool
  | some (.bool b) => b
  | some (.str s) => s = "true" || s = "on"
  | _ => false

/-- `typeof raw === 'string' ? raw.trim() : ''`. -/
def answerText (raw : Option Json) : String :=
  ((raw.bind Json.string?).map fun s => String.ofList (trim s.toList)).getD ""

/-- One turn of the loop over the questions. -/
def checkAnswer (submitted : Json) (tally : AnswerTally) (question : SignupQuestion) :
    AnswerTally :=
  let raw := submitted.prop? question.id
  if question.type = .checkbox then
    if question.required && !isTicked raw then tally.refuse question.id "This has to be ticked."
    else tally.answer question.id (.bool (isTicked raw))
  else
    let text := answerText raw
    if text = "" then
      if question.required then tally.refuse question.id "This is required." else tally
    else if MAX_ANSWER_LENGTH < Js.length text.toList then
      tally.refuse question.id "That answer is too long."
    else if question.type = .select && text ∉ question.options.getD [] then
      tally.refuse question.id "Choose one of the options."
    else tally.answer question.id (.str text)

/-- The answers to keep, or what is wrong with the submission by question. -/
def validateAnswers (questions : List SignupQuestion) (submitted : Json) :
    Except (List (String × String)) (List (String × Json)) :=
  let tally := questions.foldl (checkAnswer submitted) {}
  if 0 < tally.errors.length then .error tally.errors else .ok tally.answers

/-! ### Accepted answers -/

theorem fst_of_mem_assign {α : Type} {key : String} {value : α} {fields : List (String × α)}
    {f : String × α} (h : f ∈ assign key value fields) : f.1 = key ∨ f ∈ fields := by
  rw [assign] at h
  split_ifs at h with hany
  · obtain ⟨g, hg, rfl⟩ := List.mem_map.mp h
    by_cases hkey : g.1 = key
    · left
      rw [if_pos hkey]
    · right
      rw [if_neg hkey]
      exact hg
  · rcases List.mem_append.mp h with hf | hf
    · exact Or.inr hf
    · left
      rw [List.mem_singleton.mp hf]

theorem checkAnswer_answers {submitted : Json} {tally : AnswerTally} {question : SignupQuestion}
    {a : String × Json} (h : a ∈ (checkAnswer submitted tally question).answers) :
    a.1 = question.id ∨ a ∈ tally.answers := by
  simp only [checkAnswer] at h
  split_ifs at h
  all_goals first
    | exact Or.inr h
    | exact fst_of_mem_assign h

theorem foldl_checkAnswer_answers {submitted : Json} {questions : List SignupQuestion}
    {tally : AnswerTally} {a : String × Json}
    (h : a ∈ (questions.foldl (checkAnswer submitted) tally).answers) :
    (∃ q ∈ questions, q.id = a.1) ∨ a ∈ tally.answers := by
  induction questions generalizing tally with
  | nil => exact Or.inr h
  | cons q questions ih =>
    rcases ih h with ⟨p, hp, hid⟩ | hmem
    · exact Or.inl ⟨p, List.mem_cons_of_mem _ hp, hid⟩
    · rcases checkAnswer_answers hmem with hid | hold
      · exact Or.inl ⟨q, List.mem_cons_self .., hid.symm⟩
      · exact Or.inr hold

/-- A submission stores nothing under a key the institute does not ask about. -/
theorem validateAnswers_keys {questions : List SignupQuestion} {submitted : Json}
    {answers : List (String × Json)} (h : validateAnswers questions submitted = .ok answers) :
    ∀ a ∈ answers, ∃ q ∈ questions, q.id = a.1 := by
  intro a ha
  simp only [validateAnswers] at h
  split_ifs at h
  obtain rfl := Except.ok.inj h
  rcases foldl_checkAnswer_answers ha with hq | hnone
  · exact hq
  · exact absurd hnone List.not_mem_nil

end LampLight
