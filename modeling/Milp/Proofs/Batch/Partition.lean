import Mathlib.Data.List.Chain
import Milp.Proofs.Batch.Reading

/-!
# When a batch is a partition of its entries

An accepted batch should hand every entry to exactly one row. The check of the offsets takes differences
in 64 bits, where a step from far above zero to below it wraps and passes for a step upwards; slices then
count the negative offset from the end, and entries come out twice. This is all that can go wrong.

* `slices` — the entries between neighbouring offsets; `flatten_slices` joins them again.
* `ordered_of_length_flatten` — slices that have no entry too many never step back.
* `nonneg_of_ordered` — where slices never step back, no offset is negative.
* `partition_iff` — an accepted batch is a partition exactly if no offset is negative.
-/

namespace Milp.Model

/-! ## Differences in 64 bits -/

/-- Between offsets that are not negative no difference wraps. -/
theorem le_of_sub_nonneg {a b : Int64} (ha : 0 ≤ a.toInt) (hb : 0 ≤ b.toInt) (h : 0 ≤ b - a) :
    a.toInt ≤ b.toInt := by
  have ha' := a.toInt_lt
  have hb' := b.toInt_lt
  -- the difference stays within 64 bits, so it is that of the integers
  rw [Int64.le_iff_toInt_le, Int64.toInt_zero, Int64.toInt_sub,
    Int.bmod_eq_of_le (by omega) (by omega)] at h
  omega

/-- A step from above zero to below it passes for a step upwards only if it is wider than all offsets
above zero. -/
theorem lt_of_sub_wraps {a b : Int64} (ha : 0 ≤ a.toInt) (hb : b.toInt < 0) (h : 0 ≤ b - a) :
    Int64.maxValue.toInt + 1 < a.toInt - b.toInt := by
  have hmax : Int64.maxValue.toInt = 9223372036854775807 := rfl
  refine Int.not_le.mp fun hle => ?_
  -- a narrower step would not wrap, and so come out negative
  rw [Int64.le_iff_toInt_le, Int64.toInt_zero, Int64.toInt_sub,
    Int.bmod_eq_of_le (by omega) (by omega)] at h
  omega

/-- **Offsets that are not negative and pass the check do not decrease.** -/
theorem pairwise_of_nonDecreasing {starts : List Int64} (hnonneg : ∀ s ∈ starts, 0 ≤ s.toInt)
    (h : nonDecreasing starts = true) : starts.Pairwise fun a b => a.toInt ≤ b.toInt := by
  fun_induction nonDecreasing starts with
  | case1 a b rest ih =>
    obtain ⟨hstep, hrest⟩ := Bool.and_eq_true_iff.mp h
    obtain ⟨ha, hnonneg⟩ := List.forall_mem_cons.mp hnonneg
    have hab := le_of_sub_nonneg ha (hnonneg b List.mem_cons_self) (of_decide_eq_true hstep)
    have hpairs := ih hnonneg hrest
    refine List.pairwise_cons.mpr ⟨List.forall_mem_cons.mpr ⟨hab, fun s hs => ?_⟩, hpairs⟩
    exact Int.le_trans hab ((List.pairwise_cons.mp hpairs).1 s hs)
  | case2 starts hne =>
    rcases starts with _ | ⟨a, _ | ⟨b, rest⟩⟩
    · exact .nil
    · exact List.pairwise_singleton ..
    · exact (hne a b rest rfl).elim

/-- No offset lies beyond the last one. -/
theorem le_getLast {starts : List Int64} (h : starts.Pairwise fun a b => a.toInt ≤ b.toInt)
    {s last : Int64} (hs : s ∈ starts) (hlast : starts.getLast? = some last) :
    s.toInt ≤ last.toInt := by
  obtain ⟨before, rfl⟩ := List.getLast?_eq_some_iff.mp hlast
  rcases List.mem_append.mp hs with hs | hs
  · exact (List.pairwise_append.mp h).2.2 s hs last List.mem_cons_self
  · exact Int.le_of_eq (congrArg Int64.toInt (List.mem_singleton.mp hs))

/-! ## Slices -/

section

variable {α : Type}

/-- The entries between neighbouring offsets. -/
def slices (xs : List α) : List Int64 → List (List α)
  | b :: e :: rest => slice xs b.toInt e.toInt :: slices xs (e :: rest)
  | _ => []

/-- **`OrderedIn n starts`** — the places at which a list of `n` entries is cut do not decrease. -/
def OrderedIn (n : Nat) (starts : List Int64) : Prop :=
  starts.IsChain fun b e => clampOffset n b.toInt ≤ clampOffset n e.toInt

/-- Nothing can be cut out of nothing. -/
theorem flatten_slices_nil (starts : List Int64) : (slices ([] : List α) starts).flatten = [] := by
  fun_induction slices ([] : List α) starts with
  | case1 b e rest ih => simp [ih, slice]
  | case2 => rfl

/-- **Slices that never step back join to one.** -/
theorem flatten_slices (xs : List α) {b last : Int64} {rest : List Int64}
    (h : OrderedIn xs.length (b :: rest)) (hlast : (b :: rest).getLast? = some last) :
    clampOffset xs.length b.toInt ≤ clampOffset xs.length last.toInt ∧
      (slices xs (b :: rest)).flatten = slice xs b.toInt last.toInt := by
  induction rest generalizing b with
  | nil =>
    cases Option.some.inj hlast
    exact ⟨Nat.le_refl _, by simp [slices, slice]⟩
  | cons e rest ih =>
    obtain ⟨hbe, hchain⟩ := List.isChain_cons_cons.mp h
    -- the slices behind the first are one slice already, and it meets the first
    obtain ⟨hle, hflat⟩ := ih hchain (by rw [← hlast, List.getLast?_cons_cons])
    refine ⟨Nat.le_trans hbe hle, ?_⟩
    rw [slices, List.flatten_cons, hflat, slice_append_slice xs hbe hle]

/-- The ways up between offsets add up to at least the way to the last one. -/
theorem clampOffset_le_length_flatten (xs : List α) {b last : Int64} {rest : List Int64}
    (hlast : (b :: rest).getLast? = some last) :
    clampOffset xs.length last.toInt ≤
      clampOffset xs.length b.toInt + (slices xs (b :: rest)).flatten.length := by
  induction rest generalizing b with
  | nil =>
    cases Option.some.inj hlast
    exact Nat.le_add_right _ _
  | cons e rest ih =>
    have ih := ih (b := e) (by rw [← hlast, List.getLast?_cons_cons])
    rw [slices, List.flatten_cons, List.length_append, length_slice]
    omega

/-- **Slices that have no entry too many never step back**: every step back is made up for by a step
up, and all entries of steps up count. -/
theorem ordered_of_length_flatten (xs : List α) {b last : Int64} {rest : List Int64}
    (hlast : (b :: rest).getLast? = some last)
    (h : clampOffset xs.length b.toInt + (slices xs (b :: rest)).flatten.length ≤
      clampOffset xs.length last.toInt) : OrderedIn xs.length (b :: rest) := by
  induction rest generalizing b with
  | nil => exact List.isChain_singleton _
  | cons e rest ih =>
    have hlast' : (e :: rest).getLast? = some last := by rw [← hlast, List.getLast?_cons_cons]
    have hup := clampOffset_le_length_flatten xs hlast'
    rw [slices, List.flatten_cons, List.length_append, length_slice] at h
    -- after a step back the way up to the last offset has more entries than `h` allows
    refine List.isChain_cons_cons.mpr ⟨by omega, ih hlast' (by omega)⟩

/-- Offsets that do not decrease cut in order. -/
theorem ordered_of_pairwise (n : Nat) {starts : List Int64} (hnonneg : ∀ s ∈ starts, 0 ≤ s.toInt)
    (h : starts.Pairwise fun a b => a.toInt ≤ b.toInt) : OrderedIn n starts := by
  refine List.Pairwise.isChain (h.imp_of_mem fun {a b} ha hb hab => ?_)
  rw [clampOffset_of_nonneg n (hnonneg a ha), clampOffset_of_nonneg n (hnonneg b hb)]
  omega

/-- **Where slices never step back, no offset is negative**: a step that wraps is too wide to stay in
order within any list. -/
theorem nonneg_of_ordered {n : Nat} (hpos : 0 < n) (hn : (n : Int) ≤ Int64.maxValue.toInt)
    {b : Int64} {rest : List Int64} (hb : 0 ≤ b.toInt) (hsteps : nonDecreasing (b :: rest) = true)
    (h : OrderedIn n (b :: rest)) :
    ∀ s ∈ b :: rest, 0 ≤ s.toInt := by
  induction rest generalizing b with
  | nil => simpa using hb
  | cons e rest ih =>
    obtain ⟨hstep, hsteps⟩ := Bool.and_eq_true_iff.mp hsteps
    obtain ⟨hbe, hchain⟩ := List.isChain_cons_cons.mp h
    have he : 0 ≤ e.toInt := by
      refine Int.not_lt.mp fun hneg => ?_
      have hwide := lt_of_sub_wraps hb hneg (of_decide_eq_true hstep)
      have hleast : -(Int64.maxValue.toInt + 1) ≤ e.toInt := e.le_toInt
      -- the step down to `e` is wider than the list, so `e` is cut in front of `b`
      rw [clampOffset_of_nonneg n hb, clampOffset_of_neg n hneg] at hbe
      omega
    exact List.forall_mem_cons.mpr ⟨hb, ih he hsteps hchain⟩

end

/-! ## The rows of a batch -/

section

variable {indices starts : List Int64} {coeffs los his : List Binary64}

theorem slices_of_short {α : Type} {xs : List α} (h : starts.length ≤ 1) : slices xs starts = [] := by
  rcases starts with _ | ⟨b, _ | ⟨e, rest⟩⟩
  · rfl
  · rfl
  · simp at h

/-- Where no piece can be cut off, there is at most one offset. -/
theorem short_of_no_piece (hlo : starts.length = los.length + 1) (hhi : starts.length = his.length + 1)
    (hne : ∀ b e rest lo los' hi his', starts = b :: e :: rest → los = lo :: los' →
      his = hi :: his' → False) : starts.length ≤ 1 := by
  rcases starts with _ | ⟨b, _ | ⟨e, rest⟩⟩
  · simp
  · simp
  · rcases los with _ | ⟨lo, los'⟩
    · simp at hlo
    · rcases his with _ | ⟨hi, his'⟩
      · simp at hhi
      · exact (hne b e rest lo los' hi his' rfl rfl rfl).elim

/-- The indices of the pieces are the slices of the indices. -/
theorem flatMap_indices_pieces (hlo : starts.length = los.length + 1)
    (hhi : starts.length = his.length + 1) :
    (pieces indices coeffs starts los his).flatMap (·.row.indices) =
      (slices indices starts).flatten := by
  fun_induction pieces indices coeffs starts los his with
  | case1 b e starts lo los hi his ih => simp_all [slices]
  | case2 starts los his hne => rw [slices_of_short (short_of_no_piece hlo hhi hne)]; rfl

/-- The coefficients of the pieces are the slices of the coefficients. -/
theorem flatMap_coeffs_pieces (hlo : starts.length = los.length + 1)
    (hhi : starts.length = his.length + 1) :
    (pieces indices coeffs starts los his).flatMap (·.row.coeffs) =
      (slices coeffs starts).flatten := by
  fun_induction pieces indices coeffs starts los his with
  | case1 b e starts lo los hi his ih => simp_all [slices]
  | case2 starts los his hne => rw [slices_of_short (short_of_no_piece hlo hhi hne)]; rfl

end

/-! ## Partitions -/

/-- **A batch is a partition of its entries**: the offsets do not decrease and stay between zero and the
number of entries, and the rows joined together are the entries again, in their order. -/
structure IsPartition (starts : List Int64) (indices : List Int64) (coeffs : List Binary64)
    (rows : List BoundedRow) : Prop where
  ordered : starts.Pairwise fun a b => a.toInt ≤ b.toInt
  inRange : ∀ s ∈ starts, 0 ≤ s.toInt ∧ s.toInt ≤ indices.length
  indices_joined : rows.flatMap (·.row.indices) = indices
  coeffs_joined : rows.flatMap (·.row.coeffs) = coeffs

section

variable {n : Int} {b : Batch}

/-- The offsets of an aligned batch: a first one, which is zero, and the others up to the last one. -/
theorem Batch.Aligned.starts_eq (h : b.Aligned n) (hn : 0 ≤ n) :
    ∃ rest last, b.starts = 0 :: rest ∧ b.starts.getLast? = some last ∧
      last.toInt = b.indices.length := by
  have hcount := h.count
  have hfirst := h.first
  have hlast := h.last
  cases hstarts : b.starts with
  | nil =>
    rw [hstarts, List.length_nil] at hcount
    omega
  | cons first rest =>
    rw [hstarts, List.head?_cons, Option.getD_some] at hfirst
    have hzero : first = 0 := Int64.toInt_inj.mp (by rw [hfirst, Int64.toInt_zero])
    refine ⟨rest, (first :: rest).getLast (List.cons_ne_nil _ _), by rw [hzero], ?_, ?_⟩
    · exact List.getLast?_eq_some_getLast _
    · rwa [hstarts, List.getLast?_eq_some_getLast (List.cons_ne_nil _ _), Option.getD_some] at hlast

/-- From zero to the last offset is everything. -/
theorem slice_all {α : Type} (xs : List α) : slice xs 0 xs.length = xs := by
  have h := slice_append_append [] xs []
  simpa using h

/-- **A batch that is read for its number of rows**: aligned, with a lower and an upper bound for every
row. -/
structure Batch.IsRead (n : Int) (b : Batch) : Prop where
  nonneg : 0 ≤ n
  aligned : b.Aligned n
  lower : (b.lower.length : Int) = n
  upper : (b.upper.length : Int) = n

theorem Batch.IsRead.indices_joined (h : b.IsRead n) :
    b.pieces.flatMap (·.row.indices) = (slices b.indices b.starts).flatten := by
  have hcount := h.aligned.count
  have hlower := h.lower
  have hupper := h.upper
  exact flatMap_indices_pieces (by omega) (by omega)

theorem Batch.IsRead.coeffs_joined (h : b.IsRead n) :
    b.pieces.flatMap (·.row.coeffs) = (slices b.coeffs b.starts).flatten := by
  have hcount := h.aligned.count
  have hlower := h.lower
  have hupper := h.upper
  exact flatMap_coeffs_pieces (by omega) (by omega)

/-- Without entries there is nothing to lose. -/
theorem joined_of_empty (h : b.IsRead n) (hempty : b.indices = []) :
    b.pieces.flatMap (·.row.indices) = b.indices ∧ b.pieces.flatMap (·.row.coeffs) = b.coeffs := by
  have hcoeffs : b.coeffs = [] :=
    List.length_eq_zero_iff.mp (by rw [← h.aligned.lengths, hempty, List.length_nil])
  rw [h.indices_joined, h.coeffs_joined, hempty, hcoeffs]
  exact ⟨flatten_slices_nil _, flatten_slices_nil _⟩

/-- **Offsets that are not negative make a partition.** -/
theorem isPartition_of_nonneg (h : b.IsRead n) (hnonneg : ∀ s ∈ b.starts, 0 ≤ s.toInt) :
    IsPartition b.starts b.indices b.coeffs b.pieces := by
  obtain ⟨rest, last, hstarts, hlast, hend⟩ := h.aligned.starts_eq h.nonneg
  have hpairs := pairwise_of_nonDecreasing hnonneg h.aligned.ordered
  refine ⟨hpairs, fun s hs => ⟨hnonneg s hs, hend ▸ le_getLast hpairs hs hlast⟩, ?_, ?_⟩
  · have hordered := ordered_of_pairwise b.indices.length hnonneg hpairs
    rw [hstarts] at hordered hlast
    rw [h.indices_joined, hstarts, (flatten_slices b.indices hordered hlast).2, hend,
      Int64.toInt_zero, slice_all]
  · have hordered := ordered_of_pairwise b.coeffs.length hnonneg hpairs
    rw [hstarts] at hordered hlast
    rw [h.coeffs_joined, hstarts, (flatten_slices b.coeffs hordered hlast).2, hend,
      h.aligned.lengths, Int64.toInt_zero, slice_all]

/-- **Rows that join to the entries again come from offsets that are not negative**, if there are entries
at all. -/
theorem nonneg_of_joined (h : b.IsRead n) (hne : b.indices ≠ [])
    (hjoined : b.pieces.flatMap (·.row.indices) = b.indices) : ∀ s ∈ b.starts, 0 ≤ s.toInt := by
  obtain ⟨rest, last, hstarts, hlast, hend⟩ := h.aligned.starts_eq h.nonneg
  have hsteps := h.aligned.ordered
  have hlength := List.length_pos_iff.mpr hne
  have hbound := last.toInt_le
  rw [h.indices_joined, hstarts] at hjoined
  rw [hstarts] at hlast hsteps ⊢
  refine nonneg_of_ordered hlength (by omega) (by simp) hsteps
    (ordered_of_length_flatten b.indices hlast ?_)
  rw [hjoined, hend, Int64.toInt_zero, clampOffset_of_nonneg _ (Int.le_refl 0),
    clampOffset_of_le (Nat.le_refl _)]
  simp

end

/-- **An accepted batch is a partition of its entries exactly if no offset is negative.** With a negative
offset, and any entries at all, the rows do not even join to the entries. -/
theorem partition_iff {m m' : Model} {n : Int} {starts : List Int64}
    {indices coeffs lower upper : Arg}
    (h : m.addRows (.int n) (.ofPositions starts) indices coeffs lower upper = .ok m') :
    ∃ is cs rows, indexVector indices "column indices" = .ok is ∧
      coefficientVector coeffs "column coefficients" = .ok cs ∧ m' = m.appendAll rows ∧
      (IsPartition starts is cs rows ↔ ∀ s ∈ starts, 0 ≤ s.toInt) ∧
      (rows.flatMap (·.row.indices) = is ∧ rows.flatMap (·.row.coeffs) = cs ↔
        is = [] ∨ ∀ s ∈ starts, 0 ≤ s.toInt) := by
  obtain ⟨-, k, b, hk, hn, hread, haligned, -, hm'⟩ := addRows_eq_ok_iff.mp h
  cases hk
  obtain ⟨hstarts, hindices, hcoeffs, hlower, hupper⟩ := readBatch_eq_ok_iff.mp hread
  rw [indexVector_ofPositions] at hstarts
  have hstarts : starts = b.starts := Except.ok.inj hstarts
  have hb : b.IsRead n :=
    ⟨hn, haligned, length_of_numberVector hlower, length_of_numberVector hupper⟩
  refine ⟨b.indices, b.coeffs, b.pieces, hindices, hcoeffs, hm', ?_, ?_⟩
  · rw [hstarts]
    exact ⟨fun hp s hs => (hp.inRange s hs).1, isPartition_of_nonneg hb⟩
  · rw [hstarts]
    constructor
    · rintro ⟨hjoined, -⟩
      rcases eq_or_ne b.indices [] with hempty | hne
      · exact .inl hempty
      · exact .inr (nonneg_of_joined hb hne hjoined)
    · rintro (hempty | hnonneg)
      · exact joined_of_empty hb hempty
      · have hpartition := isPartition_of_nonneg hb hnonneg
        exact ⟨hpartition.indices_joined, hpartition.coeffs_joined⟩

/-- Three rows over two entries, the second row without any: a partition. -/
theorem partition_of_three_rows :
    let one := Binary64.one
    let zero := Binary64.zero
    let m := Model.blank 2 0 Binary64.infinity
    ∃ rows, m.addRows (.int 3) (.ofPositions [0, 1, 1, 2]) (.ofPositions [0, 1])
        (.ofFloats [one, one]) (.ofFloats [zero, zero, zero]) (.ofFloats [one, one, one]) =
          .ok (m.appendAll rows) ∧
      IsPartition [0, 1, 1, 2] [0, 1] [one, one] rows := by
  intro one zero m
  let b : Batch := ⟨[0, 1, 1, 2], [0, 1], [one, one], [zero, zero, zero], [one, one, one]⟩
  have hadd := (addRows_eq_ok_iff (m := m)).mpr ⟨rfl, 3, b, rfl, by decide +kernel,
    readBatch_of_lists (b := b) rfl rfl (by decide +kernel), by decide +kernel, by decide +kernel, rfl⟩
  obtain ⟨is, cs, rows, his, hcs, hrows, hpartition, -⟩ := partition_iff (m := m) hadd
  rw [indexVector_ofPositions] at his
  rw [coefficientVector_ofFloats] at hcs
  cases his
  cases hcs
  have hnonneg : ∀ s ∈ ([0, 1, 1, 2] : List Int64), 0 ≤ s.toInt := by simp
  exact ⟨rows, by rw [← hrows]; exact hadd, hpartition.mpr hnonneg⟩

/-- **Offsets that wrap are accepted.** From 2⁶³ - 1 to -2 counts as a step upwards, and both entries come
out twice: in the first row and again in the last. -/
theorem wrapped_offsets_not_partition :
    let one := Binary64.one
    let zero := Binary64.zero
    let m := Model.blank 2 0 Binary64.infinity
    let starts : List Int64 := [0, 9223372036854775807, -2, 2]
    let rows : List BoundedRow :=
      [⟨.ofArrays [0, 1] [one, one], zero, one⟩, ⟨.ofArrays [] [], zero, one⟩, ⟨.ofArrays [0, 1] [one, one], zero, one⟩]
    m.addRows (.int 3) (.ofPositions starts) (.ofPositions [0, 1]) (.ofFloats [one, one])
        (.ofFloats [zero, zero, zero]) (.ofFloats [one, one, one]) = .ok (m.appendAll rows) ∧
      rows.flatMap (·.row.indices) ≠ [0, 1] ∧ ¬ starts.Pairwise fun a b => a.toInt ≤ b.toInt := by
  intro one zero m starts rows
  let b : Batch := ⟨starts, [0, 1], [one, one], [zero, zero, zero], [one, one, one]⟩
  refine ⟨addRows_eq_ok_iff.mpr ⟨rfl, 3, b, rfl, by decide +kernel,
    readBatch_of_lists (b := b) rfl rfl (by decide +kernel), by decide +kernel, by decide +kernel, ?_⟩,
    ?_, ?_⟩
  · rfl
  · decide +kernel
  · decide +kernel

end Milp.Model
