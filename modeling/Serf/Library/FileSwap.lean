import Mathlib.Data.List.Infix
import Serf.Library.Machine

/-!
A file that is replaced by one written beside it. Both have buffered writers, whose
bytes are lost when the process stops. The swap flushes and closes the old file, which
may fail and is not looked at, removes it and moves the new one to its path. A process
that stops anywhere leaves at the path what the operations up to there have made of it.
-/

namespace Serf.Library.FileSwap

open Machine

variable {Byte : Type}

structure Files (Byte : Type) where
  path : Option (List Byte)
  temp : Option (List Byte)
  /-- What the writer of the old file still holds. -/
  oldBuffer : List Byte
  newBuffer : List Byte

inductive FileOp (Byte : Type) where
  | createTemp
  /-- So many of the buffered bytes go to the file. -/
  | writeTemp (bytes : List Byte) (spilled : Nat)
  | flushTemp
  | syncTemp
  | closeTemp
  /-- So many of the buffered bytes reach the old file; a flush that succeeds lets all
  of them. -/
  | flushOld (reached : Nat)
  /-- The writer tries again and is dropped, with the last so many bytes still in it. -/
  | closeOld (lost : Nat)
  | removePath
  | renameTemp
  | reopenPath
  deriving DecidableEq

def fileStep (files : Files Byte) : FileOp Byte → Files Byte × Unit
  | .createTemp => ({ files with temp := some [], newBuffer := [] }, ())
  | .writeTemp bytes spilled =>
    let held := files.newBuffer ++ bytes
    ({ files with
        temp := files.temp.map (· ++ held.take spilled)
        newBuffer := held.drop spilled }, ())
  | .flushTemp =>
    ({ files with temp := files.temp.map (· ++ files.newBuffer), newBuffer := [] }, ())
  | .flushOld reached =>
    ({ files with
        path := files.path.map (· ++ files.oldBuffer.take reached)
        oldBuffer := files.oldBuffer.drop reached }, ())
  | .closeOld lost =>
    ({ files with
        path := files.path.map (· ++ files.oldBuffer.take (files.oldBuffer.length - lost))
        oldBuffer := [] }, ())
  | .removePath => ({ files with path := none }, ())
  | .renameTemp => ({ files with path := files.temp, temp := none }, ())
  | .reopenPath => ({ files with path := some (files.path.getD []) }, ())
  | .syncTemp | .closeTemp => (files, ())

def Beside : FileOp Byte → Prop
  | .createTemp | .writeTemp _ _ | .flushTemp | .syncTemp | .closeTemp => True
  | _ => False

def swapOps (reached lost : Nat) : List (FileOp Byte) :=
  [.flushOld reached, .closeOld lost, .removePath, .renameTemp, .reopenPath]

theorem run_beside (files : Files Byte) (ops : List (FileOp Byte))
    (beside : ∀ op ∈ ops, Beside op) :
    (run fileStep files ops).path = files.path ∧
    (run fileStep files ops).oldBuffer = files.oldBuffer := by
  refine run_invariant fileStep Beside
    (fun later => later.path = files.path ∧ later.oldBuffer = files.oldBuffer) ?_ files ops beside
    ⟨rfl, rfl⟩
  intro later op beside same
  cases op with
  | createTemp => exact same
  | writeTemp bytes spilled => exact same
  | flushTemp => exact same
  | syncTemp => exact same
  | closeTemp => exact same
  | _ => exact beside.elim

theorem run_writes (chunks : List (List Byte × Nat)) (files : Files Byte) (held : List Byte)
    (temp : files.temp.map (· ++ files.newBuffer) = some held) :
    let reached := run fileStep files (chunks.map fun chunk => .writeTemp chunk.1 chunk.2)
    reached.temp.map (· ++ reached.newBuffer) = some (held ++ (chunks.map Prod.fst).flatten) := by
  induction chunks generalizing files held with
  | nil => simpa [run] using temp
  | cons chunk rest ih =>
    obtain ⟨on, there, rfl⟩ := Option.map_eq_some_iff.mp temp
    have next := ih (fileStep files (.writeTemp chunk.1 chunk.2)).1
      (on ++ files.newBuffer ++ chunk.1) (by simp [fileStep, there])
    simpa [run] using next

def writingOps (chunks : List (List Byte × Nat)) : List (FileOp Byte) :=
  .createTemp :: (chunks.map fun chunk => .writeTemp chunk.1 chunk.2) ++
    [.flushTemp, .syncTemp, .closeTemp]

theorem writingOps_beside (chunks : List (List Byte × Nat)) :
    ∀ op ∈ writingOps chunks, Beside op := by
  intro op member
  simp only [writingOps, List.cons_append, List.mem_cons, List.mem_append, List.mem_map,
    List.not_mem_nil, or_false] at member
  rcases member with rfl | ⟨chunk, _, rfl⟩ | rfl | rfl | rfl <;> trivial

theorem run_writing (files : Files Byte) (chunks : List (List Byte × Nat)) :
    (run fileStep files (writingOps chunks)).temp = some (chunks.map Prod.fst).flatten := by
  have written := run_writes chunks (fileStep files .createTemp).1 [] rfl
  simp only [writingOps, List.cons_append, run, run_append, fileStep] at written ⊢
  simpa using written

/-- What has reached the old file by the time these operations are done. -/
def oldFile [DecidableEq Byte] (durable buffered : List Byte) (reached lost : Nat)
    (done : List (FileOp Byte)) : List Byte :=
  let flushed := durable ++ buffered.take reached
  let held := buffered.drop reached
  if .closeOld lost ∈ done then flushed ++ held.take (held.length - lost)
  else if .flushOld reached ∈ done then flushed
  else durable

theorem stopped_path [DecidableEq Byte] (files : Files Byte) (chunks : List (List Byte × Nat))
    (reached lost : Nat) (durable : List Byte) (there : files.path = some durable)
    (done : List (FileOp Byte)) (stops : done <+: writingOps chunks ++ swapOps reached lost) :
    (run fileStep files done).path =
      if .renameTemp ∈ done then some (chunks.map Prod.fst).flatten
      else if .removePath ∈ done then none
      else some (oldFile durable files.oldBuffer reached lost done) := by
  have beside := writingOps_beside chunks
  have renames : .renameTemp ∉ writingOps chunks := beside .renameTemp
  have removes : .removePath ∉ writingOps chunks := beside .removePath
  have flushes : .flushOld reached ∉ writingOps chunks := beside (.flushOld reached)
  have closes : .closeOld lost ∉ writingOps chunks := beside (.closeOld lost)
  rcases List.prefix_or_prefix_of_prefix stops (List.prefix_append _ _) with early | late
  · -- The old file is still untouched.
    have quiet := fun op member => beside op (early.subset member)
    rw [(run_beside files done quiet).1, if_neg (quiet .renameTemp), if_neg (quiet .removePath),
      oldFile, if_neg (quiet (.closeOld lost)), if_neg (quiet (.flushOld reached)), there]
  · obtain ⟨tail, rfl⟩ := late
    have inner : tail <+: swapOps reached lost := (List.prefix_append_right_inj _).mp stops
    obtain ⟨path, old⟩ := run_beside files (writingOps chunks) beside
    have temp := run_writing files chunks
    simp only [run_append, oldFile, List.mem_append, renames, removes, flushes, closes, false_or]
    generalize run fileStep files (writingOps chunks) = reached at path old temp
    rw [there] at path
    rw [← List.mem_inits] at inner
    simp only [swapOps, List.inits, List.map_cons, List.map_nil, List.mem_cons,
      List.not_mem_nil, or_false] at inner
    rcases inner with rfl | rfl | rfl | rfl | rfl | rfl <;>
      simp [run, fileStep, path, old, temp]

end Serf.Library.FileSwap
