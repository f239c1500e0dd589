import Mathlib.Data.List.TakeWhile
import ModerationService.Library.Traced
import ModerationService.Library.Transaction
import ModerationService.Model.Messages

/-!
# Repository — records in the database

`repository/repository.cpp`: `ModerationRepository::SaveModerationResult` inserts one row in a
transaction of its own.  The database is reached through `pqxx`, whose answers are `DbAnswers`.
-/

namespace ModerationService
namespace Repository

open Library Library.Transaction

/-! ## `pqxx` -/

/-- A row of `moderation_records`, as `INSERT INTO` gets it. -/
structure Row where
  object_id : Int64
  object_type : Int32
  text : StdString
  is_flagged : Bool
  reason : String
  /-- seconds since the epoch, for `to_timestamp` -/
  moderated_at : Int
  deriving DecidableEq

inductive DbEvent where
  | database (op : Op Row)
  | logError (subsystem : Subsystem) (code : LogCode)
  deriving DecidableEq

abbrev DbProgram := Traced StdException DbEvent

/-- How `commit` ends.  When the connection breaks while it is under way it throws
`pqxx::in_doubt_error`, and the rows may have been stored. -/
inductive CommitAnswer where
  | committed
  | failed (e : StdException)
  | inDoubt (e : StdException) (stored : Bool)
  deriving DecidableEq

structure DbAnswers where
  isOpen : Bool
  /-- what the constructor of `pqxx::work` throws, if anything -/
  work : Option StdException
  /-- the number of rows of the result -/
  exec : Except StdException Nat
  commit : CommitAnswer

section Pqxx

variable (answers : DbAnswers)

/-- `transaction_base::exec`. -/
def exec (row : Row) : DbProgram Nat := do
  match answers.exec with
  | .ok rows =>
      Traced.emit (.database (.insert row))
      return rows
  | .error e => throw e

/-- `result::no_rows`. -/
def noRows (rows : Nat) : DbProgram Unit := do
  if rows ≠ 0 then
    throw ⟨"unexpected_rows"⟩

/-- `transaction_base::commit`. -/
def commit : DbProgram Unit := do
  match answers.commit with
  | .committed => Traced.emit (.database (.commit true))
  | .failed e => throw e
  | .inDoubt e stored => do
      Traced.emit (.database (.commit stored))
      throw e

/-- The scope of a `pqxx::work`: its destructor aborts the transaction when the scope is left without
a commit, which only an exception does. -/
def withWork {α : Type} (body : DbProgram α) : DbProgram α := do
  match answers.work with
  | some e => throw e
  | none =>
      Traced.emit (.database .start)
      try
        body
      catch e => do
        Traced.emit (.database .abort)
        throw e

end Pqxx

/-! ## `ModerationRepository` -/

structure ModerationRepository where
  /-- whether the `pqxx::connection` exists -/
  db_connection_ : Bool

/-- The ticks of `system_clock` in a second. -/
def ticksPerSecond : Int := 1000000000

/-- `duration_cast<seconds>` truncates. -/
def seconds (moderated_at : TimePoint) : Int :=
  moderated_at.tdiv ticksPerSecond

/-- A string as `libpq` takes it for a text parameter: it ignores the length and goes up to the first
U+0000. -/
def textParam (s : StdString) : StdString :=
  s.takeWhile (· ≠ 0)

/-- The parameters of the statement; `reason` goes the way of `text`. -/
def params (result : ModerationRecord) : Row where
  object_id := result.object_id
  object_type := result.object_type
  text := textParam result.text
  is_flagged := result.is_flagged
  reason := String.ofList (result.reason.toList.takeWhile (· ≠ Char.ofNat 0))
  moderated_at := seconds result.moderated_at

theorem textParam_prefix (s : StdString) : textParam s <+: s :=
  List.takeWhile_prefix _

theorem textParam_eq_self_iff {s : StdString} : textParam s = s ↔ 0 ∉ s := by
  unfold textParam
  rw [List.takeWhile_eq_self_iff]
  constructor
  · intro h hzero
    simpa using h 0 hzero
  · intro h b hb
    have hne : b ≠ 0 := by
      rintro rfl
      exact h hb
    simpa using hne

theorem zero_not_mem_textParam (s : StdString) : 0 ∉ textParam s := by
  intro hzero
  simpa using List.mem_takeWhile_imp hzero

def saveModerationResult (repository : ModerationRepository) (answers : DbAnswers)
    (result : ModerationRecord) : DbProgram Bool := do
  try
    if !repository.db_connection_ || !answers.isOpen then
      Traced.emit (.logError .kRepository (.named "DB_NOT_OPEN"))
      pure false
    else
      withWork answers (do
        let rows ← exec answers (params result)
        noRows rows
        commit answers
        pure true)
  catch _ =>
    Traced.emit (.logError .kRepository (.named "DB_SAVE_FAIL"))
    pure false

/-! ## What one call does -/

def DbEvent.op? : DbEvent → Option (Op Row)
  | .database op => some op
  | .logError _ _ => none

/-- The operations on the database, in order. -/
def ops {α : Type} (p : DbProgram α) : List (Op Row) :=
  p.trace.filterMap DbEvent.op?

/-- The statement gets as far as the commit. -/
def DbAnswers.inserts (answers : DbAnswers) : Bool :=
  answers.isOpen && answers.work.isNone &&
    match answers.exec with
    | .ok rows => rows == 0
    | .error _ => false

/-- The row is stored. -/
def stored (repository : ModerationRepository) (answers : DbAnswers) : Bool :=
  repository.db_connection_ && answers.inserts &&
    match answers.commit with
    | .committed => true
    | .failed _ => false
    | .inDoubt _ stored => stored

/-- The call returns true. -/
def saved (repository : ModerationRepository) (answers : DbAnswers) : Bool :=
  repository.db_connection_ && answers.inserts && answers.commit == .committed

theorem stored_of_saved {repository : ModerationRepository} {answers : DbAnswers}
    (h : saved repository answers = true) : stored repository answers = true := by
  simp only [saved, Bool.and_eq_true, beq_iff_eq] at h
  simp [stored, h.1.1, h.1.2, h.2]

/-- Only a commit in doubt stores a row without the call saying so. -/
theorem inDoubt_of_unsaved {repository : ModerationRepository} {answers : DbAnswers}
    (hstored : stored repository answers = true) (hsaved : saved repository answers = false) :
    ∃ e, answers.commit = .inDoubt e true := by
  simp only [stored, Bool.and_eq_true] at hstored
  rcases hstored with ⟨hinserted, hcommit⟩
  cases hanswer : answers.commit with
  | committed => simp [saved, hinserted, hanswer] at hsaved
  | failed e => simp [hanswer] at hcommit
  | inDoubt e stored =>
      refine ⟨e, ?_⟩
      simpa [hanswer] using hcommit

section Spec

variable (repository : ModerationRepository) (answers : DbAnswers) (result : ModerationRecord)

/-- The call never throws, and stores the row or nothing. -/
theorem saveModerationResult_spec :
    (saveModerationResult repository answers result).result = .ok (saved repository answers) ∧
      Writes (ops (saveModerationResult repository answers result))
        (if stored repository answers then [params result] else []) := by
  -- the cases are the places where the call may end, in the order of the source
  rcases repository with ⟨_ | _⟩
  · exact ⟨rfl, Writes.nil⟩
  rcases answers with ⟨_ | _, work, exec, commit⟩
  · exact ⟨rfl, Writes.nil⟩
  cases work with
  | some e => exact ⟨rfl, Writes.nil⟩
  | none =>
      cases exec with
      | error e => exact ⟨rfl, Writes.aborted []⟩
      | ok rows =>
          cases rows with
          -- the insert has returned rows, and `no_rows` throws
          | succ n => exact ⟨rfl, Writes.aborted [params result]⟩
          | zero =>
              cases commit with
              | committed => exact ⟨rfl, Writes.committed [params result] true⟩
              | failed e => exact ⟨rfl, Writes.aborted [params result]⟩
              | inDoubt e made =>
                  -- the destructor aborts a transaction that is over already
                  cases made with
                  | true => exact ⟨rfl, (Writes.committed [params result] true).then_abort⟩
                  | false => exact ⟨rfl, (Writes.committed [params result] false).then_abort⟩

/-- The call returns, and has stored the row or changed nothing.  True means that the row is stored,
and false that it is not, unless the commit was in doubt.  The row has the text up to its first
U+0000, so all of it exactly when there is none. -/
theorem saveModerationResult_atomic (table : List Row) :
    ∃ returned rows,
      (saveModerationResult repository answers result).result = .ok returned ∧
      (Store.settled table).replay (ops (saveModerationResult repository answers result)) =
        .settled (table ++ rows) ∧
      (rows = [] ∨ rows = [params result]) ∧
      (returned = true → rows = [params result]) ∧
      (returned = false → rows ≠ [] → ∃ e, answers.commit = .inDoubt e true) ∧
      (params result).text <+: result.text ∧ 0 ∉ (params result).text ∧
      ((params result).text = result.text ↔ 0 ∉ result.text) := by
  rcases saveModerationResult_spec repository answers result with ⟨hresult, hwrites⟩
  refine ⟨saved repository answers, if stored repository answers then [params result] else [],
    hresult, hwrites table, ?_, ?_, ?_, textParam_prefix _, zero_not_mem_textParam _,
    textParam_eq_self_iff⟩
  · split_ifs
    · exact Or.inr rfl
    · exact Or.inl rfl
  · intro hsaved
    rw [if_pos (stored_of_saved hsaved)]
  · intro hunsaved hrows
    have hstored : stored repository answers = true := by
      by_contra hnot
      exact hrows (if_neg hnot)
    exact inDoubt_of_unsaved hstored hunsaved

end Spec

end Repository
end ModerationService
