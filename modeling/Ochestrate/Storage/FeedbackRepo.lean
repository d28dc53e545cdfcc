import Ochestrate.Schemas.Api

/-!
# The feedback repository

`app/storage/repositories/feedback_repo.py`: the records are requests in memory
or rows of the table `feedback_records`. `entries` is what the statistics read
of either. In memory all correct entries of a tenant are counted; the sum over the
Boolean column of the table comes back as a truth value, so the database counts one
at most (`stats_some`). The results of floating-point arithmetic are a parameter
(`Floats`).
-/

namespace Ochestrate

/-- The floating-point numbers of the statistics and how they are computed. -/
structure Floats (ν : Type) where
  /-- `float(n)` -/
  ofNat : Nat → ν
  /-- `m / n` of whole numbers -/
  ratio : Nat → Nat → ν
  /-- `x + n` -/
  addNat : ν → Nat → ν

/-- `FeedbackRecordORM`, without the columns that the database fills in. -/
structure FeedbackRecord where
  tenantId : String
  userId : String
  traceId : String
  isCorrect : Bool
  score : Rat
  userEdit : Option String
  tagsJson : List String
  deriving DecidableEq

structure FeedbackStats (ν : Type) where
  total : Nat
  correctRatio : ν
  deriving DecidableEq

/-- The repository without a session factory (`_mem`), or with one. -/
inductive FeedbackRepository
  | memory (mem : List FeedbackRequest)
  | database (rows : List FeedbackRecord)

/-- A record as the statistics see it: whose it is and whether it is correct. -/
abbrev FeedbackEntry := Option String × Bool

/-- The statistics of a list of records. -/
def FeedbackStats.ofEntries {ν : Type} (F : Floats ν) (entries : List FeedbackEntry) : FeedbackStats ν :=
  if entries.length = 0 then ⟨0, F.ofNat 0⟩
  else ⟨entries.length, F.ratio (entries.countP (·.2)) entries.length⟩

/-- The statistics of one tenant's records. -/
def tenantStats {ν : Type} (F : Floats ν) (entries : List FeedbackEntry) (tenantId : String) : FeedbackStats ν :=
  .ofEntries F (entries.filter (·.1 = some tenantId))

/-- The number of a tenant's records. -/
def itemsOf (entries : List FeedbackEntry) (tenantId : String) : Nat := (entries.filter (·.1 = some tenantId)).length

/-- The number of a tenant's correct records. -/
def correctOf (entries : List FeedbackEntry) (tenantId : String) : Nat :=
  (entries.filter (·.1 = some tenantId)).countP (·.2)

theorem tenantStats_of_pos {ν : Type} (F : Floats ν) {entries : List FeedbackEntry} {tenantId : String}
    (h : 0 < itemsOf entries tenantId) :
    tenantStats F entries tenantId =
      ⟨itemsOf entries tenantId, F.ratio (correctOf entries tenantId) (itemsOf entries tenantId)⟩ :=
  if_neg h.ne'

theorem itemsOf_concat (entries : List FeedbackEntry) (tenantId : String) (isCorrect : Bool) :
    0 < itemsOf (entries ++ [(some tenantId, isCorrect)]) tenantId := by
  simp [itemsOf]

theorem itemsOf_le_append (entries entries' : List FeedbackEntry) (tenantId : String) :
    itemsOf entries tenantId ≤ itemsOf (entries ++ entries') tenantId := by
  simp [itemsOf]

namespace FeedbackRepository

variable {ν : Type}

def record (repository : FeedbackRepository) (item : FeedbackRequest) : FeedbackRepository :=
  match repository with
  | memory mem => memory (mem ++ [item])
  | database rows =>
    database (rows ++ [{
      tenantId := item.tenantId.getD "", userId := item.userId.getD "", traceId := item.traceId
      isCorrect := item.isCorrect, score := item.score, userEdit := item.userEdit, tagsJson := item.tags }])

/-- `func.sum(FeedbackRecordORM.is_correct)`. The sum has the type of the column,
which reads the number that the database returns as a truth value. -/
def sumIsCorrect (rows : List FeedbackRecord) : Bool := rows.foldl (fun sum row => sum + row.isCorrect.toNat) 0 ≠ 0

def stats (F : Floats ν) (repository : FeedbackRepository) (tenantId : Option String := none) : FeedbackStats ν :=
  match repository with
  | memory mem =>
    let records := mem.filter fun x => tenantId = none ∨ x.tenantId = tenantId
    let total := records.length
    if total = 0 then ⟨0, F.ofNat 0⟩
    else
      let correct := records.countP (·.isCorrect)
      ⟨total, F.ratio correct total⟩
  | database rows =>
    let selected : List FeedbackRecord := match tenantId with
      | some tenantId => rows.filter (·.tenantId = tenantId)
      | none => rows
    let total := selected.length
    let correct := (sumIsCorrect selected).toNat
    if total = 0 then ⟨0, F.ofNat 0⟩ else ⟨total, F.ratio correct total⟩

/-- What the statistics read of the records. -/
def entries : FeedbackRepository → List FeedbackEntry
  | memory mem => mem.map fun x => (x.tenantId, x.isCorrect)
  | database rows => rows.map fun row => (some row.tenantId, row.isCorrect)

/-- A record of a known tenant is one more entry. -/
theorem entries_record (repository : FeedbackRepository) {item : FeedbackRequest} {tenantId : String}
    (h : item.tenantId = some tenantId) :
    (repository.record item).entries = repository.entries ++ [(some tenantId, item.isCorrect)] := by
  cases repository with
  | memory mem => simp [record, entries, h]
  | database rows => simp [record, entries, h]

/-- How many of a tenant's correct records the statistics count. -/
def counted : FeedbackRepository → Nat → Nat
  | memory _, correct => correct
  | database _, correct => min correct 1

/-- The number that the database returns counts the correct rows. -/
theorem sum_isCorrect (rows : List FeedbackRecord) (n : Nat) :
    rows.foldl (fun sum row => sum + row.isCorrect.toNat) n = n + rows.countP (·.isCorrect) := by
  induction rows generalizing n with
  | nil => rfl
  | cons row rows ih =>
    rw [List.foldl_cons, ih, List.countP_cons]
    cases row.isCorrect with
    | true => show n + 1 + _ = _; simp only [↓reduceIte]; omega
    | false => rfl

theorem toNat_sumIsCorrect (rows : List FeedbackRecord) :
    (sumIsCorrect rows).toNat = min (rows.countP (·.isCorrect)) 1 := by
  rw [sumIsCorrect, sum_isCorrect, Nat.zero_add]
  by_cases h : rows.countP (·.isCorrect) = 0
  · simp [h]
  · rw [decide_eq_true h, Nat.min_eq_right (Nat.one_le_iff_ne_zero.2 h)]
    rfl

/-- The statistics for a tenant with records. -/
theorem stats_some (F : Floats ν) (repository : FeedbackRepository) {tenantId : String}
    (h : 0 < itemsOf repository.entries tenantId) :
    repository.stats F (some tenantId) = ⟨itemsOf repository.entries tenantId,
      F.ratio (repository.counted (correctOf repository.entries tenantId)) (itemsOf repository.entries tenantId)⟩ := by
  cases repository with
  | memory mem =>
    simp only [itemsOf, entries, List.filter_map, List.length_map, Function.comp_def] at h
    simp only [stats, entries, counted, itemsOf, correctOf, List.filter_map, List.length_map, List.countP_map,
      Function.comp_def, reduceCtorEq, false_or, h.ne', ↓reduceIte]
  | database rows =>
    simp only [itemsOf, entries, List.filter_map, List.length_map, Function.comp_def, Option.some.injEq] at h
    simp only [stats, entries, counted, itemsOf, correctOf, List.filter_map, List.length_map, List.countP_map,
      Function.comp_def, Option.some.injEq, toNat_sumIsCorrect, h.ne', ↓reduceIte]

end FeedbackRepository

end Ochestrate
