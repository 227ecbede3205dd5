/-
  Sums over the numbers below a bound.

  Lists, stripes and directories are numbered, and how much they have together is a sum over their
  numbers.  A fold that adds is such a sum (`foldl_eq_sumTo`), as is the length of lists put
  together (`length_flatMap_range`), and entries that are sorted by a number are all sorted in
  (`sumTo_length_filter`).
-/

namespace NameCache

/-- The sum of the first `n` values of `f`. -/
def sumTo (f : Nat → Nat) : Nat → Nat
  | 0 => 0
  | n + 1 => sumTo f n + f n

variable {f g : Nat → Nat} {k n : Nat}

theorem sumTo_congr (same : ∀ i, i < n → g i = f i) : sumTo g n = sumTo f n := by
  induction n with
  | zero => rfl
  | succ n ih =>
    rw [sumTo, sumTo, same n (Nat.lt_succ_self n), ih fun i hi => same i (Nat.lt_succ_of_lt hi)]

/-- The first value may be taken out. -/
theorem sumTo_succ' : sumTo f (n + 1) = f 0 + sumTo (fun i => f (i + 1)) n := by
  induction n with
  | zero => exact Nat.add_comm _ _
  | succ n ih =>
    rw [sumTo, ih, sumTo]
    omega

/-- Sums differ by the one value that differs. -/
theorem sumTo_update (hk : k < n) (same : ∀ i, i ≠ k → g i = f i) :
    sumTo g n + f k = sumTo f n + g k := by
  induction n with
  | zero => omega
  | succ n ih =>
    rw [sumTo, sumTo]
    by_cases h : k = n
    · subst h
      have before : sumTo g k = sumTo f k := sumTo_congr fun i hi => same i (Nat.ne_of_lt hi)
      omega
    · have old := ih (by omega)
      have last := same n (by omega)
      omega

/-- A fold that adds is a sum. -/
theorem foldl_eq_sumTo {α : Type} (h : α → Nat) (l : List α) (k : Nat) :
    l.foldl (fun n x => n + h x) k = k + sumTo (fun i => (l[i]?).elim 0 h) l.length := by
  induction l generalizing k with
  | nil => rfl
  | cons x rest ih =>
    show rest.foldl _ (k + h x) = k + sumTo _ (rest.length + 1)
    rw [ih, sumTo_succ']
    show _ = k + (h x + sumTo (fun i => (rest[i]?).elim 0 h) rest.length)
    omega

/-! ## Lists over a range -/

theorem length_flatMap_range {β : Type} (f : Nat → List β) (n : Nat) :
    ((List.range n).flatMap f).length = sumTo (fun i => (f i).length) n := by
  induction n with
  | zero => rfl
  | succ n ih =>
    rw [List.range_succ, List.flatMap_append, List.length_append, ih, List.flatMap_singleton, sumTo]

/-- Only one index has anything. -/
theorem flatMap_range_single {β : Type} {f : Nat → List β} {k m : Nat} (hk : k < m)
    (off : ∀ i, i < m → i ≠ k → f i = []) : (List.range m).flatMap f = f k := by
  induction m with
  | zero => exact absurd hk (Nat.not_lt_zero k)
  | succ m ih =>
    rw [List.range_succ, List.flatMap_append, List.flatMap_singleton]
    by_cases h : k = m
    · subst h
      have before : (List.range k).flatMap f = [] :=
        List.flatMap_eq_nil_iff.mpr fun i hi =>
          off i (Nat.lt_succ_of_lt (List.mem_range.mp hi)) (Nat.ne_of_lt (List.mem_range.mp hi))
      rw [before, List.nil_append]
    · have old : k < m := Nat.lt_of_le_of_ne (Nat.le_of_lt_succ hk) h
      rw [ih old fun i hi => off i (Nat.lt_succ_of_lt hi), off m (Nat.lt_succ_self m) fun heq =>
        h heq.symm, List.append_nil]

/-- Members that are sorted by a number below `n` are all sorted in. -/
theorem sumTo_length_filter {l : List Nat} (bound : ∀ e ∈ l, f e < n) :
    sumTo (fun i => (l.filter fun e => f e = i).length) n = l.length := by
  induction n generalizing l with
  | zero =>
    have none : l = [] :=
      List.eq_nil_iff_forall_not_mem.mpr fun e he => absurd (bound e he) (Nat.not_lt_zero _)
    rw [none]
    rfl
  | succ n ih =>
    -- those with the greatest number come last, and the others have a number below
    have below : ∀ e ∈ l.filter fun e => ¬ f e = n, f e < n := by
      intro e he
      obtain ⟨there, ne⟩ := List.mem_filter.mp he
      exact Nat.lt_of_le_of_ne (Nat.le_of_lt_succ (bound e there)) (of_decide_eq_true ne)
    have same : sumTo (fun i => (l.filter fun e => f e = i).length) n =
        sumTo (fun i => ((l.filter fun e => ¬ f e = n).filter fun e => f e = i).length) n := by
      refine sumTo_congr fun i hi => ?_
      rw [List.filter_filter]
      refine congrArg List.length (List.filter_congr fun e _ => ?_)
      by_cases h : f e = i
      · have ne : i ≠ n := Nat.ne_of_lt hi
        simp [h, ne]
      · simp [h]
    have parts := List.length_eq_countP_add_countP (fun e => decide (f e = n)) (l := l)
    simp only [List.countP_eq_length_filter, decide_eq_true_eq] at parts
    rw [sumTo, same, ih below]
    omega

end NameCache
