import LampLight.Signup.Questions
import Mathlib.Data.List.Nodup

/-!
# What is made of an answer

The loop over the questions looks at each of them alone: what becomes of an answer depends on the
question and on what was submitted under its id (`judge`). Ids are distinct in a list that the
schema accepts, so nothing is written twice, and the accepted answers are those the questions keep,
in the order of the questions.

## Main definitions

* `judge` — what the loop makes of one answer
* `WellFormed` — what an institute may rely on in the answers it stores
* `Answerable` — every choice of every question can be made

## Main results

* `validateAnswers_eq_ok` — when a submission is accepted, and with which answers
* `accepted_wellFormed` — accepted answers are well formed, and accepted as they are
* `answerable_iff` — which lists can be answered
-/

namespace LampLight

open Js

/-! ### One answer -/

/-- What becomes of one answer. -/
inductive AnswerVerdict where
  | skip
  | keep (value : Json)
  | refuse (message : String)

/-- What is made of what was submitted for a question. -/
def judge (question : SignupQuestion) (raw : Option Json) : AnswerVerdict :=
  if question.type = .checkbox then
    if question.required && !isTicked raw then .refuse "This has to be ticked."
    else .keep (.bool (isTicked raw))
  else
    let text := answerText raw
    if text = "" then
      if question.required then .refuse "This is required." else .skip
    else if MAX_ANSWER_LENGTH < Js.length text.toList then .refuse "That answer is too long."
    else if question.type = .select && text ∉ question.options.getD [] then
      .refuse "Choose one of the options."
    else .keep (.str text)

namespace AnswerVerdict

/-- The answer that is stored, if any. -/
def kept : AnswerVerdict → Option Json
  | .keep value => some value
  | _ => none

/-- The answer is turned down. -/
def refused : AnswerVerdict → Bool
  | .refuse _ => true
  | _ => false

end AnswerVerdict

/-- What a turn of the loop does with it. -/
def AnswerTally.record (tally : AnswerTally) (key : String) : AnswerVerdict → AnswerTally
  | .skip => tally
  | .keep value => tally.answer key value
  | .refuse message => tally.refuse key message

theorem checkAnswer_eq (submitted : Json) (tally : AnswerTally) (question : SignupQuestion) :
    checkAnswer submitted tally question
      = tally.record question.id (judge question (submitted.prop? question.id)) := by
  rw [checkAnswer, judge]
  dsimp only
  split_ifs <;> rfl

section Judge

variable {question : SignupQuestion} {raw : Option Json} {value : Json} {s : String}

/-- A tick is always recorded, as whether it is there. -/
theorem judge_checkbox (htype : question.type = .checkbox) :
    judge question raw = if question.required && !isTicked raw then .refuse "This has to be ticked."
      else .keep (.bool (isTicked raw)) :=
  if_pos htype

/-- Text that is kept is kept trimmed, is not too long, and is one of the options of a choice. -/
theorem judge_text (htype : question.type ≠ .checkbox) :
    judge question raw = .keep value ↔ ∃ text, value = .str text ∧ answerText raw = text ∧
      text ≠ "" ∧ Js.length text.toList ≤ MAX_ANSWER_LENGTH ∧
      (question.type = .select → text ∈ question.options.getD []) := by
  rw [judge]
  rw [if_neg htype]
  dsimp only
  constructor
  · intro h
    split_ifs at h with hempty hrequired hlong hoption
    obtain rfl := AnswerVerdict.keep.inj h
    refine ⟨_, rfl, rfl, hempty, Nat.le_of_not_lt hlong, fun hselect => ?_⟩
    simpa [hselect] using hoption
  · rintro ⟨text, rfl, rfl, hne, hlen, hoption⟩
    rw [if_neg hne, if_neg (Nat.not_lt.mpr hlen), if_neg]
    simpa using hoption

theorem judge_skip (h : judge question raw = .skip) :
    question.type ≠ .checkbox ∧ question.required = false ∧ answerText raw = "" := by
  rw [judge] at h
  dsimp only at h
  split_ifs at h with htype _ hempty hrequired
  exact ⟨htype, by simpa using hrequired, hempty⟩

theorem answerText_str (s : String) : answerText (some (.str s)) = String.ofList (trim s.toList) :=
  rfl

theorem trim_answerText (raw : Option Json) :
    trim (answerText raw).toList = (answerText raw).toList := by
  rw [answerText]
  cases raw.bind Json.string? with
  | none => rfl
  | some s => simp [trim_idem]

/-- What is kept is kept when it is submitted again. -/
theorem judge_kept (h : judge question raw = .keep value) :
    judge question (some value) = .keep value := by
  by_cases htype : question.type = .checkbox
  · rw [judge_checkbox htype] at h ⊢
    split_ifs at h with hticked
    obtain rfl := AnswerVerdict.keep.inj h
    exact if_neg hticked
  · obtain ⟨text, rfl, htext, hrest⟩ := (judge_text htype).mp h
    refine (judge_text htype).mpr ⟨text, rfl, ?_, hrest⟩
    rw [answerText_str, ← htext, trim_answerText, String.ofList_toList]

/-- A question that was left out may be left out. -/
theorem judge_none (h : judge question raw = .skip) : judge question none = .skip := by
  obtain ⟨htype, hrequired, -⟩ := judge_skip h
  rw [judge]
  rw [if_neg htype, hrequired]
  rfl

end Judge

/-! ### A submission -/

section Submission

variable {questions : List SignupQuestion} {submitted : Json} {tally : AnswerTally}

/-- What is kept for a question, under its id. -/
def keptAnswer (submitted : Json) (question : SignupQuestion) : Option (String × Json) :=
  (judge question (submitted.prop? question.id)).kept.map fun value => (question.id, value)

/-- Fields under distinct keys are found again. -/
theorem lookup_fields {ρ α : Type} {key : ρ → String} {r : List ρ} (hnd : (r.map key).Nodup)
    (f : ρ → Option α) {a : ρ} (ha : a ∈ r) :
    (r.filterMap fun b => (f b).map fun value => (key b, value)).lookup (key a) = f a := by
  obtain ⟨u, v, rfl⟩ := List.append_of_mem ha
  rw [List.map_append, List.map_cons, List.nodup_append'] at hnd
  obtain ⟨-, hv, hdisjoint⟩ := hnd
  have hnone : ∀ w : List ρ, key a ∉ w.map key →
      (w.filterMap fun b => (f b).map fun value => (key b, value)).lookup (key a) = none := by
    intro w hw
    rw [List.lookup_eq_none_iff]
    intro field hfield
    obtain ⟨b, hb, hmap⟩ := List.mem_filterMap.mp hfield
    obtain ⟨value, -, rfl⟩ := Option.map_eq_some_iff.mp hmap
    rw [bne_iff_ne]
    exact fun heq => hw (heq ▸ List.mem_map_of_mem hb)
  have hu : key a ∉ u.map key := fun hmem => hdisjoint hmem (List.mem_cons_self ..)
  rw [List.filterMap_append, List.lookup_append, hnone u hu, Option.none_or]
  cases hf : f a with
  | none =>
    rw [List.filterMap_cons_none (by rw [hf]; rfl)]
    exact hnone v (List.nodup_cons.mp hv).1
  | some value =>
    rw [List.filterMap_cons_some (b := (key a, value)) (by rw [hf]; rfl)]
    exact List.lookup_cons_self

theorem assign_ne_nil {α : Type} (key : String) (value : α) (fields : List (String × α)) :
    assign key value fields ≠ [] := by
  rw [assign]
  split_ifs with hany
  · obtain ⟨f, hf, -⟩ := List.any_eq_true.mp hany
    simp [List.ne_nil_of_mem hf]
  · simp

theorem assign_of_fresh {α : Type} {key : String} {fields : List (String × α)}
    (h : ∀ f ∈ fields, f.1 ≠ key) (value : α) :
    assign key value fields = fields ++ [(key, value)] := by
  rw [assign]
  rw [if_neg]
  intro hany
  obtain ⟨f, hf, hkey⟩ := List.any_eq_true.mp hany
  exact h f hf (of_decide_eq_true hkey)

/-- Nothing is wrong with a submission when no question refuses what it got. -/
theorem foldl_errors : (questions.foldl (checkAnswer submitted) tally).errors = [] ↔
    tally.errors = [] ∧
      ∀ q ∈ questions, (judge q (submitted.prop? q.id)).refused = false := by
  induction questions generalizing tally with
  | nil => simp
  | cons q questions ih =>
    rw [List.foldl_cons, ih, checkAnswer_eq, List.forall_mem_cons]
    cases judge q (submitted.prop? q.id) with
    | skip => simp [AnswerTally.record, AnswerVerdict.refused]
    | keep value => simp [AnswerTally.record, AnswerTally.answer, AnswerVerdict.refused]
    | refuse message =>
      simp [AnswerTally.record, AnswerTally.refuse, AnswerVerdict.refused, assign_ne_nil]

/-- Under distinct ids, what the questions keep is added in their order. -/
theorem foldl_answers (hnd : (questions.map (·.id)).Nodup)
    (hfresh : ∀ a ∈ tally.answers, ∀ q ∈ questions, a.1 ≠ q.id) :
    (questions.foldl (checkAnswer submitted) tally).answers
      = tally.answers ++ questions.filterMap (keptAnswer submitted) := by
  induction questions generalizing tally with
  | nil => simp
  | cons q questions ih =>
    rw [List.map_cons, List.nodup_cons] at hnd
    have hothers : ∀ p ∈ questions, q.id ≠ p.id := fun p hp heq =>
      hnd.1 (heq ▸ List.mem_map_of_mem hp)
    have hrest : ∀ a ∈ tally.answers, ∀ p ∈ questions, a.1 ≠ p.id := fun a ha p hp =>
      hfresh a ha p (List.mem_cons_of_mem _ hp)
    rw [List.foldl_cons, checkAnswer_eq]
    cases hjudge : judge q (submitted.prop? q.id) with
    | skip =>
      rw [AnswerTally.record, ih hnd.2 hrest]
      simp [keptAnswer, hjudge, AnswerVerdict.kept]
    | refuse message =>
      rw [AnswerTally.record, ih hnd.2 (by exact hrest)]
      simp [keptAnswer, hjudge, AnswerVerdict.kept, AnswerTally.refuse]
    | keep value =>
      have hassign : assign q.id value tally.answers = tally.answers ++ [(q.id, value)] :=
        assign_of_fresh (fun a ha => hfresh a ha q (List.mem_cons_self ..)) value
      rw [AnswerTally.record, AnswerTally.answer, ih hnd.2 ?_, hassign]
      · simp [keptAnswer, hjudge, AnswerVerdict.kept]
      · rw [hassign]
        intro a ha p hp
        rcases List.mem_append.mp ha with ha | ha
        · exact hrest a ha p hp
        · rw [List.mem_singleton.mp ha]
          exact hothers p hp

/-- **When a submission is accepted.** No question refuses what was submitted for it, and the
answers are what the questions keep. -/
theorem validateAnswers_eq_ok (hnd : (questions.map (·.id)).Nodup)
    {answers : List (String × Json)} :
    validateAnswers questions submitted = .ok answers ↔
      (∀ q ∈ questions, (judge q (submitted.prop? q.id)).refused = false) ∧
        answers = questions.filterMap (keptAnswer submitted) := by
  have herrors : (questions.foldl (checkAnswer submitted) {}).errors = [] ↔
      ∀ q ∈ questions, (judge q (submitted.prop? q.id)).refused = false :=
    foldl_errors.trans (and_iff_right rfl)
  have hanswers : (questions.foldl (checkAnswer submitted) {}).answers
      = questions.filterMap (keptAnswer submitted) :=
    foldl_answers hnd fun a ha => absurd ha List.not_mem_nil
  rw [validateAnswers.eq_def]
  dsimp only
  rw [hanswers, ← herrors, ← List.length_eq_zero_iff]
  split_ifs with hlength
  · exact iff_of_false (by simp) fun h => absurd h.1 hlength.ne'
  · rw [Except.ok.injEq, eq_comm]
    exact (and_iff_right (Nat.eq_zero_of_not_pos hlength)).symm

theorem lookup_keptAnswer (hnd : (questions.map (·.id)).Nodup) {q : SignupQuestion}
    (hq : q ∈ questions) : (questions.filterMap (keptAnswer submitted)).lookup q.id
      = (judge q (submitted.prop? q.id)).kept :=
  lookup_fields hnd (fun q => (judge q (submitted.prop? q.id)).kept) hq

theorem keys_keptAnswer (questions : List SignupQuestion) :
    ((questions.filterMap (keptAnswer submitted)).map Prod.fst).Sublist
      (questions.map (·.id)) := by
  induction questions with
  | nil => exact List.Sublist.refl _
  | cons q questions ih =>
    cases hkept : (judge q (submitted.prop? q.id)).kept with
    | none =>
      rw [List.filterMap_cons_none (by rw [keptAnswer, hkept]; rfl)]
      exact ih.cons q.id
    | some value =>
      rw [List.filterMap_cons_some (b := (q.id, value)) (by rw [keptAnswer, hkept]; rfl)]
      exact ih.cons_cons q.id

end Submission

/-! ### What is stored -/

/-- Answers an institute may rely on: each is under the id of a question and there is one for every
question that needs one; a choice is one of those offered, text is trimmed, not empty and not too
long, and a box that has to be ticked is ticked. -/
structure WellFormed (questions : List SignupQuestion) (answers : List (String × Json)) : Prop where
  keys : ∀ a ∈ answers, ∃ q ∈ questions, q.id = a.1
  distinct : (answers.map Prod.fst).Nodup
  required : ∀ q ∈ questions, q.required = true → ∃ value, answers.lookup q.id = some value
  checkbox : ∀ q ∈ questions, q.type = .checkbox →
    ∃ b, answers.lookup q.id = some (.bool b) ∧ (q.required = true → b = true)
  select : ∀ q ∈ questions, q.type = .select → ∀ value, answers.lookup q.id = some value →
    ∃ option ∈ q.options.getD [], value = .str option
  text : ∀ q ∈ questions, q.type ≠ .checkbox → ∀ value, answers.lookup q.id = some value →
    ∃ s : String, value = .str s ∧ trim s.toList = s.toList ∧ 1 ≤ Js.length s.toList ∧
      Js.length s.toList ≤ MAX_ANSWER_LENGTH

variable {questions : List SignupQuestion} {submitted : Json} {answers : List (String × Json)}

theorem nodup_questionsAgree (h : questionsAgree questions = true) :
    (questions.map (·.id)).Nodup := by
  simp only [questionsAgree, Bool.and_eq_true, decide_eq_true_eq] at h
  exact h.1

theorem questionsAgree_of_schema {value : Json}
    (h : signupQuestionsSchema value = some questions) : questionsAgree questions = true := by
  rw [signupQuestionsSchema.eq_def] at h
  split at h
  · split_ifs at h
    exact (Option.filter_eq_some_iff.mp h).2
  · cases h

theorem nodup_parseQuestions (value : Option Json) :
    ((parseQuestions value).map (·.id)).Nodup := by
  rw [parseQuestions]
  cases hparse : value.bind signupQuestionsSchema with
  | none => exact List.nodup_nil
  | some questions =>
    obtain ⟨v, -, hv⟩ := Option.bind_eq_some_iff.mp hparse
    exact nodup_questionsAgree (questionsAgree_of_schema hv)

theorem length_pos_of_ne {s : String} (h : s ≠ "") : 1 ≤ Js.length s.toList := by
  cases hs : s.toList with
  | nil => exact absurd (String.toList_eq_nil_iff.mp hs) h
  | cons c cs =>
    simp only [Js.length, List.map_cons, List.sum_cons]
    split_ifs <;> omega

/-- What is kept for a question fits it. -/
theorem wellFormed_of_ok (hnd : (questions.map (·.id)).Nodup)
    (h : validateAnswers questions submitted = .ok answers) : WellFormed questions answers := by
  obtain ⟨hrefused, rfl⟩ := (validateAnswers_eq_ok hnd).mp h
  have hlookup : ∀ q ∈ questions, (questions.filterMap (keptAnswer submitted)).lookup q.id
      = (judge q (submitted.prop? q.id)).kept := fun q hq => lookup_keptAnswer hnd hq
  have hkept : ∀ q ∈ questions, ∀ value,
      (questions.filterMap (keptAnswer submitted)).lookup q.id = some value →
        judge q (submitted.prop? q.id) = .keep value := by
    intro q hq value hvalue
    rw [hlookup q hq] at hvalue
    cases hjudge : judge q (submitted.prop? q.id) with
    | keep w =>
      rw [hjudge] at hvalue
      rw [Option.some.inj hvalue]
    | skip => simp [hjudge, AnswerVerdict.kept] at hvalue
    | refuse message => simp [hjudge, AnswerVerdict.kept] at hvalue
  refine ⟨validateAnswers_keys h, hnd.sublist (keys_keptAnswer questions), ?_, ?_, ?_, ?_⟩
  · intro q hq hrequired
    rw [hlookup q hq]
    cases hjudge : judge q (submitted.prop? q.id) with
    | keep value => exact ⟨value, rfl⟩
    | skip =>
      rw [(judge_skip hjudge).2.1] at hrequired
      cases hrequired
    | refuse message => simpa [hjudge, AnswerVerdict.refused] using hrefused q hq
  · intro q hq htype
    have hjudge : judge q (submitted.prop? q.id) = _ := judge_checkbox htype
    split_ifs at hjudge with hticked
    · simpa [hjudge, AnswerVerdict.refused] using hrefused q hq
    · refine ⟨isTicked (submitted.prop? q.id), ?_, fun hrequired => ?_⟩
      · rw [hlookup q hq, hjudge]
        rfl
      · simpa [hrequired] using hticked
  · intro q hq htype value hvalue
    have htext : q.type ≠ .checkbox := by simp [htype]
    obtain ⟨s, rfl, -, -, -, hoption⟩ := (judge_text htext).mp (hkept q hq value hvalue)
    exact ⟨s, hoption htype, rfl⟩
  · intro q hq htype value hvalue
    obtain ⟨s, rfl, hs, hne, hlen, -⟩ := (judge_text htype).mp (hkept q hq value hvalue)
    exact ⟨s, rfl, hs ▸ trim_answerText _, length_pos_of_ne hne, hlen⟩

/-- **Accepted answers are well formed and stable.** Whatever is stored as the list of questions and
whatever is submitted: what is accepted is well formed, and submitting it again yields it again. -/
theorem accepted_wellFormed (value : Option Json)
    (h : validateAnswers (parseQuestions value) submitted = .ok answers) :
    WellFormed (parseQuestions value) answers ∧
      validateAnswers (parseQuestions value) (.obj answers) = .ok answers := by
  have hnd := nodup_parseQuestions value
  refine ⟨wellFormed_of_ok hnd h, ?_⟩
  obtain ⟨hrefused, rfl⟩ := (validateAnswers_eq_ok hnd).mp h
  have hagain : ∀ q ∈ parseQuestions value,
      judge q ((Json.obj ((parseQuestions value).filterMap (keptAnswer submitted))).prop? q.id)
        = judge q (submitted.prop? q.id) := by
    intro q hq
    show judge q (((parseQuestions value).filterMap (keptAnswer submitted)).lookup q.id) = _
    rw [lookup_keptAnswer hnd hq]
    cases hjudge : judge q (submitted.prop? q.id) with
    | keep value => exact judge_kept hjudge
    | skip => exact judge_none hjudge
    | refuse message => simpa [hjudge, AnswerVerdict.refused] using hrefused q hq
  refine (validateAnswers_eq_ok hnd).mpr ⟨fun q hq => ?_, ?_⟩
  · rw [hagain q hq]
    exact hrefused q hq
  · refine List.filterMap_congr fun q hq => ?_
    rw [keptAnswer, keptAnswer, hagain q hq]

/-! ### Which lists can be answered -/

/-- A submission is accepted, and every choice can be made: given verbatim, it is stored. -/
def Answerable (questions : List SignupQuestion) : Prop :=
  (∃ fields answers, validateAnswers questions (.obj fields) = .ok answers) ∧
    ∀ q ∈ questions, q.type = .select → ∀ option ∈ q.options.getD [], ∃ fields answers,
      fields.lookup q.id = some (.str option) ∧
        validateAnswers questions (.obj fields) = .ok answers ∧
        answers.lookup q.id = some (.str option)

/-- No option starts or ends with white space. -/
def OptionsTrimmed (questions : List SignupQuestion) : Prop :=
  ∀ q ∈ questions, q.type = .select → ∀ option ∈ q.options.getD [],
    trim option.toList = option.toList

instance (questions : List SignupQuestion) : Decidable (OptionsTrimmed questions) :=
  inferInstanceAs (Decidable (∀ q ∈ questions, q.type = .select → ∀ option ∈ q.options.getD [],
    trim option.toList = option.toList))

theorem exists_of_mapM_eq_some {α β : Type} {f : α → Option β} {xs : List α} {ys : List β}
    (h : xs.mapM f = some ys) {y : β} (hy : y ∈ ys) : ∃ x ∈ xs, f x = some y := by
  induction xs generalizing ys with
  | nil =>
    obtain rfl : [] = ys := by simpa using h
    cases hy
  | cons x xs ih =>
    rw [List.mapM_cons] at h
    obtain ⟨z, hz, h⟩ := Option.bind_eq_some_iff.mp h
    obtain ⟨zs, hzs, h⟩ := Option.bind_eq_some_iff.mp h
    obtain rfl : z :: zs = ys := Option.some.inj h
    rcases List.mem_cons.mp hy with rfl | hy
    · exact ⟨x, List.mem_cons_self .., hz⟩
    · obtain ⟨w, hw, hwy⟩ := ih hzs hy
      exact ⟨w, List.mem_cons_of_mem _ hw, hwy⟩

theorem options_of_schema {v : Json} {q : SignupQuestion} (h : signupQuestionSchema v = some q) :
    parseOptional parseOptions (v.get? "options") = some q.options := by
  rw [signupQuestionSchema] at h
  obtain ⟨id, -, h⟩ := Option.bind_eq_some_iff.mp h
  obtain ⟨label, -, h⟩ := Option.bind_eq_some_iff.mp h
  obtain ⟨help, -, h⟩ := Option.bind_eq_some_iff.mp h
  obtain ⟨type, -, h⟩ := Option.bind_eq_some_iff.mp h
  obtain ⟨required, -, h⟩ := Option.bind_eq_some_iff.mp h
  obtain ⟨options, hoptions, h⟩ := Option.bind_eq_some_iff.mp h
  split_ifs at h
  rw [← Option.some.inj h]
  exact hoptions

/-- What the schema asks of an option. -/
theorem length_option {value : Json} (h : signupQuestionsSchema value = some questions)
    {q : SignupQuestion} (hq : q ∈ questions) {option : String}
    (hoption : option ∈ q.options.getD []) :
    1 ≤ Js.length option.toList ∧ Js.length option.toList ≤ 120 := by
  rw [signupQuestionsSchema.eq_def] at h
  split at h
  · split_ifs at h
    obtain ⟨item, -, hitem⟩ := exists_of_mapM_eq_some (Option.filter_eq_some_iff.mp h).1 hq
    have hoptions := options_of_schema hitem
    cases hfield : item.get? "options" with
    | none =>
      rw [hfield] at hoptions
      rw [← Option.some.inj hoptions] at hoption
      cases hoption
    | some v =>
      rw [hfield] at hoptions
      obtain ⟨options, hparse, hsome⟩ := Option.map_eq_some_iff.mp hoptions
      rw [← hsome] at hoption
      rw [parseOptions.eq_def] at hparse
      split at hparse
      · split_ifs at hparse
        obtain ⟨text, -, htext⟩ := exists_of_mapM_eq_some hparse hoption
        rw [parseText.eq_def] at htext
        split at htext
        · split_ifs at htext with hbounds
          obtain rfl := Option.some.inj htext
          exact hbounds
        · cases htext
      · cases hparse
  · cases h

/-- A suitable answer to a question. -/
def sampleAnswer (q : SignupQuestion) : Json :=
  match q.type with
  | .checkbox => .bool true
  | .select => .str ((q.options.getD []).headD "")
  | .text => .str "-"
  | .textarea => .str "-"

/-- An answer for each question that the question keeps as it is. -/
theorem accepted_of_kept (hnd : (questions.map (·.id)).Nodup) (f : SignupQuestion → Json)
    (hf : ∀ q ∈ questions, judge q (some (f q)) = .keep (f q)) :
    ∃ fields answers, (∀ q ∈ questions, fields.lookup q.id = some (f q)) ∧
      validateAnswers questions (.obj fields) = .ok answers ∧
      ∀ q ∈ questions, answers.lookup q.id = some (f q) := by
  let fields := questions.filterMap fun q => (some (f q)).map fun value => (q.id, value)
  have hfields : ∀ q ∈ questions, fields.lookup q.id = some (f q) := fun q hq =>
    lookup_fields hnd (fun q => some (f q)) hq
  have hjudge : ∀ q ∈ questions, judge q ((Json.obj fields).prop? q.id) = .keep (f q) := by
    intro q hq
    show judge q (fields.lookup q.id) = _
    rw [hfields q hq, hf q hq]
  refine ⟨fields, questions.filterMap (keptAnswer (.obj fields)), hfields,
    (validateAnswers_eq_ok hnd).mpr ⟨fun q hq => ?_, rfl⟩, fun q hq => ?_⟩
  · rw [hjudge q hq]
    rfl
  · rw [lookup_keptAnswer hnd hq, hjudge q hq]
    rfl

/-- An option without white space around it is a choice that is kept as it is. -/
theorem judge_option {value : Json} (h : signupQuestionsSchema value = some questions)
    {q : SignupQuestion} (hq : q ∈ questions) (htype : q.type = .select) {option : String}
    (hoption : option ∈ q.options.getD []) (htrim : trim option.toList = option.toList) :
    judge q (some (.str option)) = .keep (.str option) := by
  obtain ⟨hpos, hle⟩ := length_option h hq hoption
  refine (judge_text (by simp [htype])).mpr ⟨option, rfl, ?_, ?_, ?_, fun _ => hoption⟩
  · rw [answerText_str, htrim, String.ofList_toList]
  · rintro rfl
    exact absurd hpos (by decide)
  · exact hle.trans (by decide)

theorem judge_line {q : SignupQuestion} (hcheckbox : q.type ≠ .checkbox)
    (hselect : q.type ≠ .select) : judge q (some (.str "-")) = .keep (.str "-") :=
  (judge_text hcheckbox).mpr
    ⟨"-", rfl, by decide, by decide, by decide, fun h => absurd h hselect⟩

theorem judge_sampleAnswer {value : Json} (h : signupQuestionsSchema value = some questions)
    (htrimmed : OptionsTrimmed questions) {q : SignupQuestion} (hq : q ∈ questions) :
    judge q (some (sampleAnswer q)) = .keep (sampleAnswer q) := by
  cases htype : q.type with
  | checkbox =>
    rw [judge_checkbox htype, sampleAnswer, htype]
    simp [isTicked]
  | select =>
    have hagree := questionsAgree_of_schema h
    simp only [questionsAgree, Bool.and_eq_true, List.all_eq_true] at hagree
    have hsome : q.options.getD [] ≠ [] := by simpa [htype] using hagree.2 q hq
    obtain ⟨option, options, hoptions⟩ := List.exists_cons_of_ne_nil hsome
    have hmem : option ∈ q.options.getD [] := by simp [hoptions]
    rw [sampleAnswer, htype, hoptions]
    exact judge_option h hq htype hmem (htrimmed q hq htype option hmem)
  | text =>
    rw [sampleAnswer, htype]
    exact judge_line (by simp [htype]) (by simp [htype])
  | textarea =>
    rw [sampleAnswer, htype]
    exact judge_line (by simp [htype]) (by simp [htype])

/-- **Which lists can be answered.** A list that the schema accepts can be answered, in every way it
offers, exactly when no option of a choice starts or ends with white space. -/
theorem answerable_iff {value : Json} (h : signupQuestionsSchema value = some questions) :
    Answerable questions ↔ OptionsTrimmed questions := by
  have hnd := nodup_questionsAgree (questionsAgree_of_schema h)
  constructor
  · rintro ⟨-, hchoices⟩ q hq htype option hoption
    obtain ⟨fields, answers, -, hok, hlookup⟩ := hchoices q hq htype option hoption
    obtain ⟨s, hs, htrim, -⟩ :=
      (wellFormed_of_ok hnd hok).text q hq (by simp [htype]) _ hlookup
    obtain rfl := Json.str.inj hs
    exact htrim
  · intro htrimmed
    have hsample : ∀ q ∈ questions, judge q (some (sampleAnswer q)) = .keep (sampleAnswer q) :=
      fun q hq => judge_sampleAnswer h htrimmed hq
    obtain ⟨fields, answers, -, hok, -⟩ := accepted_of_kept hnd sampleAnswer hsample
    refine ⟨⟨fields, answers, hok⟩, fun q hq htype option hoption => ?_⟩
    -- the option for this question, a suitable answer for the others
    let f (p : SignupQuestion) : Json := if p = q then .str option else sampleAnswer p
    have hf : ∀ p ∈ questions, judge p (some (f p)) = .keep (f p) := by
      intro p hp
      by_cases hpq : p = q
      · subst hpq
        simp only [f, if_pos rfl]
        exact judge_option h hp htype hoption (htrimmed p hp htype option hoption)
      · simp only [f, if_neg hpq]
        exact hsample p hp
    obtain ⟨fields, answers, hfields, hok, hanswers⟩ := accepted_of_kept hnd f hf
    have hfq : f q = .str option := if_pos rfl
    exact ⟨fields, answers, hfq ▸ hfields q hq, hok, hfq ▸ hanswers q hq⟩

/-! ### A choice of tracks -/

section Example

/-- A required choice among these options, as it is submitted by the settings form. -/
def trackList (options : List String) : Json :=
  .arr [.obj [("id", .str "track"), ("label", .str "Track"), ("type", .str "select"),
    ("required", .bool true), ("options", .arr (options.map .str))]]

/-- A question with options. -/
def trackQuestion (options : List String) : SignupQuestion where
  id := "track"
  label := "Track"
  help := none
  type := .select
  required := true
  options := some options

theorem accepted_wellFormed_track :
    WellFormed (parseQuestions (some (trackList ["Pastoral", "Missions"])))
        [("track", .str "Missions")] ∧
      validateAnswers (parseQuestions (some (trackList ["Pastoral", "Missions"])))
        (.obj [("track", .str "Missions")]) = .ok [("track", .str "Missions")] := by
  have h : validateAnswers (parseQuestions (some (trackList ["Pastoral", "Missions"])))
      (.obj [("track", .str " Missions "), ("smuggled", .str "x")])
        = .ok [("track", .str "Missions")] := rfl
  exact accepted_wellFormed (some (trackList ["Pastoral", "Missions"])) h

theorem answerable_iff_track : Answerable [trackQuestion ["Pastoral", "Missions"]] := by
  have h : signupQuestionsSchema (trackList ["Pastoral", "Missions"])
      = some [trackQuestion ["Pastoral", "Missions"]] := rfl
  exact (answerable_iff h).mpr (by decide)

/-- The only option starts with a space: the list is accepted, and no submission is. -/
theorem untrimmed_option_closes :
    signupQuestionsSchema (trackList [" Pastoral"]) = some [trackQuestion [" Pastoral"]] ∧
      (∀ submitted answers, validateAnswers [trackQuestion [" Pastoral"]] submitted ≠ .ok answers) ∧
      ¬ Answerable [trackQuestion [" Pastoral"]] := by
  have hnone : ∀ submitted answers,
      validateAnswers [trackQuestion [" Pastoral"]] submitted ≠ .ok answers := by
    intro submitted answers h
    have hwell := wellFormed_of_ok (by decide) h
    obtain ⟨value, hvalue⟩ := hwell.required _ (List.mem_singleton.mpr rfl) rfl
    obtain ⟨option, hoption, hstr⟩ :=
      hwell.select _ (List.mem_singleton.mpr rfl) rfl value hvalue
    obtain ⟨s, hs, htrim, -⟩ := hwell.text _ (List.mem_singleton.mpr rfl) (by decide) value hvalue
    obtain rfl : s = option := Json.str.inj (hs.symm.trans hstr)
    obtain rfl : s = " Pastoral" := List.mem_singleton.mp hoption
    exact absurd htrim (by decide)
  refine ⟨rfl, hnone, fun h => ?_⟩
  obtain ⟨fields, answers, hok⟩ := h.1
  exact hnone _ _ hok

end Example

end LampLight
