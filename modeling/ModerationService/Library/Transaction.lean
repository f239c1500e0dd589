import Mathlib.Data.List.Basic

/-!
# Transaction — what a sequence of database operations leaves behind

A store with at most one open transaction, whose rows become part of the table when it commits.  A
commit whose answer got lost may have been made or not.

`Writes ops rows` is what a client proves about a block of operations: between transactions it adds
exactly `rows` to the table, and ends between transactions again.  Blocks compose (`Writes.append`,
`Writes.flatMap`).
-/

namespace Library
namespace Transaction

variable {ρ ι : Type}

inductive Op (ρ : Type) where
  | start
  | insert (row : ρ)
  | commit (made : Bool)
  | abort
  deriving DecidableEq

structure Store (ρ : Type) where
  rows : List ρ
  /-- the rows of the open transaction -/
  pending : Option (List ρ)
  deriving DecidableEq

namespace Store

/-- No transaction is open. -/
def settled (rows : List ρ) : Store ρ :=
  ⟨rows, none⟩

def apply (s : Store ρ) : Op ρ → Store ρ
  | .start => { s with pending := some [] }
  | .insert row => { s with pending := s.pending.map (fun rows => rows ++ [row]) }
  | .commit made => settled (if made then s.rows ++ s.pending.getD [] else s.rows)
  | .abort => settled s.rows

def replay (s : Store ρ) (ops : List (Op ρ)) : Store ρ :=
  ops.foldl apply s

theorem replay_append (s : Store ρ) (ops ops' : List (Op ρ)) :
    s.replay (ops ++ ops') = (s.replay ops).replay ops' :=
  List.foldl_append

theorem replay_start (table : List ρ) (ops : List (Op ρ)) :
    (settled table).replay (.start :: ops) = replay ⟨table, some []⟩ ops := rfl

theorem replay_inserts (table pending inserted : List ρ) :
    replay ⟨table, some pending⟩ (inserted.map .insert) = ⟨table, some (pending ++ inserted)⟩ := by
  induction inserted generalizing pending with
  | nil =>
      simp [replay]
  | cons row inserted ih =>
      have hrest := ih (pending ++ [row])
      simpa [replay, apply] using hrest

/-- Rows are only added. -/
theorem rows_apply (s : Store ρ) (op : Op ρ) : s.rows <+: (s.apply op).rows := by
  cases op with
  | commit made =>
      cases made with
      | true => exact List.prefix_append _ _
      | false => exact List.prefix_refl _
  | _ => exact List.prefix_refl _

theorem rows_replay (s : Store ρ) (ops : List (Op ρ)) : s.rows <+: (s.replay ops).rows := by
  induction ops generalizing s with
  | nil =>
      exact List.prefix_refl _
  | cons op ops ih =>
      exact (rows_apply s op).trans (ih (s.apply op))

theorem eq_settled {s : Store ρ} (h : s.pending = none) : s = settled s.rows := by
  cases s
  cases h
  rfl

end Store

open Store

/-- Between transactions, the operations add the rows to the table and leave no transaction open. -/
def Writes (ops : List (Op ρ)) (rows : List ρ) : Prop :=
  ∀ table, (settled table).replay ops = settled (table ++ rows)

namespace Writes

variable {ops ops' : List (Op ρ)} {rows rows' : List ρ}

theorem nil : Writes ([] : List (Op ρ)) [] := by
  intro table
  simp [replay]

theorem committed (inserted : List ρ) (made : Bool) :
    Writes (.start :: (inserted.map .insert ++ [.commit made])) (if made then inserted else []) := by
  intro table
  rw [replay_start, replay_append, replay_inserts]
  -- the commit adds what is pending, or its answer was that of a commit not made
  cases made <;> simp [replay, apply, settled]

theorem aborted (inserted : List ρ) : Writes (.start :: (inserted.map .insert ++ [.abort])) [] := by
  intro table
  rw [replay_start, replay_append, replay_inserts]
  simp [replay, apply, settled]

/-- Between transactions there is nothing to abort. -/
theorem then_abort (h : Writes ops rows) : Writes (ops ++ [.abort]) rows := by
  intro table
  rw [replay_append, h table]
  rfl

theorem append (h : Writes ops rows) (h' : Writes ops' rows') :
    Writes (ops ++ ops') (rows ++ rows') := by
  intro table
  rw [replay_append, h table, h' (table ++ rows), List.append_assoc]

/-- A block for each input, one after the other. -/
theorem flatMap {inputs : List ι} {block : ι → List (Op ρ)} {written : ι → List ρ}
    (h : ∀ input ∈ inputs, Writes (block input) (written input)) :
    Writes (inputs.flatMap block) (inputs.flatMap written) := by
  induction inputs with
  | nil =>
      exact nil
  | cons input inputs ih =>
      have hfirst := h input (by simp)
      have hrest := ih (fun other hother => h other (List.mem_cons_of_mem input hother))
      exact hfirst.append hrest

end Writes

end Transaction
end Library
