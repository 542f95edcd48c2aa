import Mathlib.Tactic.Ring

/-!
# Messages in blocks

A function `f` takes a state on by one block of `n` elements. `Blocks.chain` takes it on by all
whole blocks of a message, and `Blocks.rest` is what is left, which a program that is given the
message in pieces keeps until the next piece.

* `Blocks.chain_append`, `Blocks.rest_append`: a piece is added to what is left of the pieces
  before it.
* `Blocks.chain_block`, `Blocks.rest_block`: a block that has been completed.
-/

namespace Blocks

variable {σ α : Type} (n : Nat) (f : σ → List α → σ)

/-- The state after the first `k` blocks. -/
def run : Nat → σ → List α → σ
  | 0, s, _ => s
  | k + 1, s, xs => run k (f s (xs.take n)) (xs.drop n)

/-- The state after all whole blocks. -/
def chain (s : σ) (xs : List α) : σ := run n f (xs.length / n) s xs

/-- What the whole blocks leave. -/
def rest (xs : List α) : List α := xs.drop (xs.length / n * n)

section
variable {n} {f} {s : σ} {xs ys : List α}

theorem length_rest : (rest n xs).length = xs.length % n := by
  have h := Nat.div_add_mod' xs.length n
  rw [rest, List.length_drop]
  omega

theorem run_add (j k : Nat) (s : σ) (xs : List α) :
    run n f (j + k) s xs = run n f k (run n f j s xs) (xs.drop (j * n)) := by
  induction j generalizing s xs with
  | zero => rw [Nat.zero_add, Nat.zero_mul, List.drop_zero, run]
  | succ j ih =>
    rw [Nat.succ_add, run, ih, run, List.drop_drop]
    congr 2
    ring

/-- The first blocks are not changed by what follows them. -/
theorem run_append {k : Nat} (h : k * n ≤ xs.length) (ys : List α) :
    run n f k s (xs ++ ys) = run n f k s xs := by
  induction k generalizing s xs with
  | zero => rfl
  | succ k ih =>
    have hn : n ≤ xs.length := by
      rw [Nat.succ_mul] at h
      omega
    have hk : k * n ≤ (xs.drop n).length := by
      rw [List.length_drop]
      rw [Nat.succ_mul] at h
      omega
    rw [run, run, List.take_append_of_le_length hn, List.drop_append_of_le_length hn, ih hk]

theorem drop_whole (xs ys : List α) :
    (xs ++ ys).drop (xs.length / n * n) = rest n xs ++ ys :=
  List.drop_append_of_le_length (Nat.div_mul_le_self _ _)

theorem div_append (hn : 0 < n) (xs ys : List α) :
    (xs ++ ys).length / n = xs.length / n + (rest n xs ++ ys).length / n := by
  have h := Nat.div_add_mod' xs.length n
  rw [List.length_append, List.length_append, length_rest]
  calc (xs.length + ys.length) / n
      = (xs.length % n + ys.length + xs.length / n * n) / n := by congr 1; omega
    _ = xs.length / n + (xs.length % n + ys.length) / n := by
        rw [Nat.add_mul_div_right _ _ hn, Nat.add_comm]

/-- The blocks of a message in two pieces: what is left of the first goes before the second. -/
theorem chain_append (hn : 0 < n) (s : σ) (xs ys : List α) :
    chain n f s (xs ++ ys) = chain n f (chain n f s xs) (rest n xs ++ ys) := by
  rw [chain, div_append hn, run_add, run_append (Nat.div_mul_le_self _ _), drop_whole]
  rfl

theorem rest_append (hn : 0 < n) (xs ys : List α) :
    rest n (xs ++ ys) = rest n (rest n xs ++ ys) := by
  rw [rest, div_append hn, Nat.add_mul, ← List.drop_drop, drop_whole]
  rfl

/-- A message without a whole block is kept. -/
theorem chain_short (h : xs.length < n) : chain n f s xs = s := by
  rw [chain, Nat.div_eq_of_lt h, run]

theorem rest_short (h : xs.length < n) : rest n xs = xs := by
  rw [rest, Nat.div_eq_of_lt h, Nat.zero_mul, List.drop_zero]

/-- A block and what follows it. -/
theorem chain_block (hn : 0 < n) (h : xs.length = n) (s : σ) (ys : List α) :
    chain n f s (xs ++ ys) = chain n f (f s xs) ys := by
  have hdiv : xs.length / n = 1 := by rw [h, Nat.div_self hn]
  have hchain : chain n f s xs = f s xs := by
    rw [chain, hdiv, run, run, ← h, List.take_length]
  have hrest : rest n xs = [] := by
    rw [rest, hdiv, Nat.one_mul, ← h, List.drop_length]
  rw [chain_append hn, hchain, hrest, List.nil_append]

theorem rest_block (hn : 0 < n) (h : xs.length = n) (ys : List α) :
    rest n (xs ++ ys) = rest n ys := by
  have hrest : rest n xs = [] := by
    rw [rest, h, Nat.div_self hn, Nat.one_mul, ← h, List.drop_length]
  rw [rest_append hn, hrest, List.nil_append]

end

end Blocks
