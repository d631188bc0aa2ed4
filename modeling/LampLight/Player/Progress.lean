import LampLight.Repositories.Entitlements
import Mathlib.Algebra.Group.Int.Defs

/-!
# Listening progress

How far somebody has got in a lesson is one row for each tenant, person and lesson. The player sends
positions every few seconds, so a write is an upsert, and it does not ask who may listen: its caller
does.

Positions are whole numbers here, which is what the one caller makes of them.

## Main results

* `recordProgress_viewOf`, `recordProgress_othersOf` — a write stays in the tenant
-/

namespace LampLight

open Table (owned others)

/-- The progress that is stored. -/
structure ProgressParams where
  userId : Uuid
  lessonId : Uuid
  positionSeconds : ℤ
  completed : Bool

/-- Inserts the row, or updates the one on which it conflicts. Completion is sticky. -/
def recordProgress (scope : TenantScope) (db : Database) (params : ProgressParams) (now : Instant) :
    Except DbError Database :=
  let key (p : ProgressRow) : Bool :=
    p.tenantId = scope.tenantId && p.userId = params.userId && p.lessonId = params.lessonId
  let moved (p : ProgressRow) : ProgressRow :=
    { p with
      positionSeconds := params.positionSeconds
      completedAt := if params.completed then some now else p.completedAt
      updatedAt := now }
  if params.positionSeconds < -(2 ^ 31) ∨ 2 ^ 31 ≤ params.positionSeconds then
    .error (.numericValueOutOfRange "position_seconds")
  else if db.progress.any key then
    .ok { db with progress := Table.update key moved db.progress }
  else
    Database.checked
      [(.foreignKeyViolation "progress_tenant_id_tenants_id_fk", db.noTenant scope.tenantId),
        (.foreignKeyViolation "progress_user_id_users_id_fk", db.noUser params.userId),
        (.foreignKeyViolation "progress_tenant_id_user_id_fk",
          db.noMember scope.tenantId params.userId),
        (.foreignKeyViolation "progress_tenant_id_lesson_id_fk",
          db.noLesson scope.tenantId params.lessonId)]
      { db with progress := db.progress ++
        [{ tenantId := scope.tenantId
           userId := params.userId
           lessonId := params.lessonId
           positionSeconds := params.positionSeconds
           completedAt := if params.completed then some now else none
           updatedAt := now }] }

/-! ### A write stays in the tenant -/

variable {scope : TenantScope} {db db' : Database} {params : ProgressParams} {now : Instant}

theorem recordProgress_viewOf :
    recordProgress scope (db.viewOf scope.tenantId) params now
      = (recordProgress scope db params now).map (Database.viewOf scope.tenantId) := by
  have hany : (owned ProgressRow.tenantId scope.tenantId db.progress).any (fun p =>
        p.tenantId = scope.tenantId && p.userId = params.userId && p.lessonId = params.lessonId)
      = db.progress.any fun p =>
        p.tenantId = scope.tenantId && p.userId = params.userId && p.lessonId = params.lessonId :=
    Table.any_owned (by simp +contextual) _
  simp only [recordProgress, Database.viewOf_progress, hany]
  by_cases hrange : params.positionSeconds < -(2 ^ 31) ∨ 2 ^ 31 ≤ params.positionSeconds
  · rw [if_pos hrange, if_pos hrange]
    rfl
  rw [if_neg hrange, if_neg hrange]
  by_cases hconflict : (db.progress.any fun p => p.tenantId = scope.tenantId &&
      p.userId = params.userId && p.lessonId = params.lessonId) = true
  · rw [if_pos hconflict, if_pos hconflict, ← Table.owned_update (by exact fun _ => rfl)]
    rfl
  · rw [if_neg hconflict, if_neg hconflict, ← Database.checked_viewOf, Database.noTenant_viewOf,
      Database.noUser_viewOf,
      Database.noMember_viewOf, Database.noLesson_viewOf,
      ← Table.owned_append_of_owned (by simp)]
    rfl

theorem recordProgress_othersOf (h : recordProgress scope db params now = .ok db') :
    db'.othersOf scope.tenantId = db.othersOf scope.tenantId := by
  simp only [recordProgress] at h
  by_cases hrange : params.positionSeconds < -(2 ^ 31) ∨ 2 ^ 31 ≤ params.positionSeconds
  · rw [if_pos hrange] at h
    cases h
  rw [if_neg hrange] at h
  split at h
  · obtain rfl := Except.ok.inj h
    simp only [Database.othersOf]
    rw [Table.others_update (by simp +contextual) (by exact fun _ => rfl)]
  · obtain ⟨-, rfl⟩ := Database.checked_ok.mp h
    simp only [Database.othersOf]
    rw [Table.others_append_of_owned (by simp)]

end LampLight
