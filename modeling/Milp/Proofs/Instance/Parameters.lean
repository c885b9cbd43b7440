import Milp.Proofs.Instance.Generated

/-!
# What parameters lead to

Parameters that are single values are refused for four reasons only: no columns, a density outside of its range, a
negative seed, more columns than an array can have. All others lead to an instance that is in order, if the share of
integer columns has a value as well.

* `patternSizeOf_le` — a density of at most one asks for no more columns than there are.
* `Shape.read_of_numbers` — the refusals in their order, and the shape; `Instance.generateFrom_of_numbers` — what
  comes of it, from any source.
* `Instance.Accepts` — values that are not refused: `generate_of_refused` and `generate_of_share`.
* `Instance.generate_of_blank` — what is generated where the share of integer columns has no value.
-/

namespace Milp

/-! ## Densities -/

theorem Binary64.intPlace_zero : Binary64.intPlace 0 = 0 := by
  have hpos := sizeLimit_pos
  unfold Binary64.intPlace
  rw [Int.zero_mul]
  omega

theorem Binary64.intPlace_one : Binary64.intPlace 1 = unitsPerOne := by
  have hlimit := Binary64.two_pow_mul_unitsPerOne_lt
  unfold Binary64.intPlace
  rw [Int.one_mul]
  omega

theorem Binary64.place?_one : Binary64.one.place? = some (unitsPerOne : ℤ) := by
  have hone : Binary64.one = .finite false ⟨1 * unitsPerOne, Binary64.representable_small (by decide)⟩ :=
    Binary64.ofNat_eq (by decide)
  rw [hone]
  show some ((1 * unitsPerOne : ℕ) : ℤ) = _
  rw [Nat.one_mul]

theorem Arg.Real.zero_lt_float (x : Binary64) : (Arg.Real.int 0).lt (.float x) = Binary64.zero.lt x := by
  simp only [Arg.Real.lt, Arg.Real.place?, Binary64.intPlace_zero]
  rfl

theorem Arg.Real.float_le_one (x : Binary64) : (Arg.Real.float x).le (.int 1) = x.le Binary64.one := by
  have hone : (Arg.Real.int 1).place? = (Arg.Real.float Binary64.one).place? := by
    show some (Binary64.intPlace 1) = Binary64.one.place?
    rw [Binary64.intPlace_one, Binary64.place?_one]
  have hsame : (Arg.Real.float x).le (.int 1) = (Arg.Real.float x).le (.float Binary64.one) := by
    simp only [Arg.Real.le, hone]
  exact hsame

/-- A number with a bound has an integer part with the same bound. -/
theorem Binary64.AtMost.truncate_le {x : Binary64} {n : ℕ} (hx : x.AtMost n) : (x.truncate?.getD 0).toNat ≤ n := by
  have hsize := hx.size
  obtain ⟨s, m, rfl, -⟩ := hx.exists_eq
  show ((Binary64.finite s m).units.tdiv unitsPerOne).toNat ≤ n
  have hquotient : ((Binary64.finite s m).units.tdiv unitsPerOne).natAbs ≤ n := by
    rw [Int.natAbs_tdiv, Int.natAbs_natCast]
    exact Nat.div_le_of_le_mul (by rwa [Nat.mul_comm])
  omega

/-- **A density of at most one asks for no more columns than there are.** -/
theorem Shape.patternSizeOf_le {d : Arg.Real} {n : ℕ} (hpos : 0 < n) (hn : n ≤ 2 ^ 53)
    (hzero : (Arg.Real.int 0).lt d = true) (hone : d.le (.int 1) = true) : patternSizeOf d n ≤ n := by
  cases d with
  | int m =>
    -- one is the only integer that is a density
    have hzero : 0 < m := of_decide_eq_true hzero
    have hone : m ≤ 1 := of_decide_eq_true hone
    obtain rfl : m = 1 := by omega
    show max 1 (1 * (n : ℤ)).toNat ≤ n
    omega
  | float d =>
    rw [Arg.Real.zero_lt_float] at hzero
    rw [Arg.Real.float_le_one] at hone
    have hlimit := Binary64.two_pow_mul_unitsPerOne_lt
    obtain ⟨a, b, ha, hb, hab⟩ := Binary64.lt_iff.mp hzero
    obtain ⟨b', c, hb', hc, hbc⟩ := Binary64.le_iff.mp hone
    cases ha
    cases hb.symm.trans hb'
    cases Binary64.place?_one.symm.trans hc
    have hfinite : d.isFinite = true := Binary64.isFinite_of_place? hb (by omega) (by omega)
    have hd : d.AtMost 1 := by
      refine ⟨hfinite, ?_⟩
      cases (Binary64.place?_of_isFinite hfinite).symm.trans hb
      omega
    have hproduct := hd.mul (Binary64.atMost_ofNat hn) (Binary64.representable_small (by omega))
    rw [Nat.one_mul] at hproduct
    have hrounded := (hproduct.roundEven (Binary64.representable_small hn)).truncate_le
    show max 1 _ ≤ n
    omega

/-- **The generator keeps to what is asked for.** -/
theorem Shape.keeps_congruential : Random.Congruential.source.Keeps Shape.ranges :=
  Random.Congruential.lawful.keeps (by decide +kernel)

/-! ## Parameters that are single values -/

/-- **Parameters that are single numbers**: integers, and a real density. -/
structure Parameters.AreNumbers (p : Parameters) (c n k : ℤ) (d : Arg.Real) : Prop where
  columns : p.columns = .int c
  rows : p.rows.int? = some n
  patterns : p.patterns.real? = some (.int k)
  density : p.density.real? = some d

section Numbers

variable {σ : Type} {start : Arg → Except Error σ} {s : σ} {p : Parameters} {c n k : ℤ} {d : Arg.Real}

/-- **The refusals in their order**, and the shape that is read. -/
theorem Shape.read_of_numbers (start : Arg → Except Error σ) (hp : p.AreNumbers c n k d) :
    Shape.read start p =
      if c ≤ 0 then .error .columnsNotPositive
      else if (Arg.Real.int 0).lt d = true ∧ d.le (.int 1) = true then
        start p.seed >>= fun s => checkEntries c.toNat >>= fun _ =>
          readThresholds c.toNat p.integerShare >>= fun thresholds =>
            .ok (⟨c.toNat, n.toNat, max 1 k.toNat, patternSizeOf d c.toNat, thresholds⟩, s)
      else .error .densityRange := by
  have hcolumns : readColumns p.columns = if c ≤ 0 then .error .columnsNotPositive else .ok () := by
    rw [hp.columns]
    show (if decide (c ≤ 0) = true then _ else _) = _
    simp only [decide_eq_true_eq]
    rfl
  have hdensity : readDensity p.density =
      if (Arg.Real.int 0).lt d = true ∧ d.le (.int 1) = true then .ok d else .error .densityRange := by
    rw [readDensity, realOf, hp.density]
    show (if ((Arg.Real.int 0).lt d && d.le (.int 1)) = true then _ else _) = _
    simp only [Bool.and_eq_true]
    rfl
  have hwhole : wholeColumns p.columns = checkEntries c.toNat >>= fun _ => .ok c.toNat := by
    rw [hp.columns]
    rfl
  have hpatterns : readPatterns p.patterns = .ok (max 1 k.toNat) := by
    rw [readPatterns, realOf, hp.patterns]
    rfl
  have hrows : readRows p.rows = .ok n.toNat := by rw [readRows, hp.rows]
  unfold Shape.read
  rw [hcolumns, hdensity, hwhole, hpatterns, hrows]
  split
  · rfl
  split
  · show (start p.seed >>= fun s => (checkEntries c.toNat >>= fun _ => .ok c.toNat) >>= fun columns => _) = _
    cases start p.seed with
    | error e => rfl
    | ok s => cases checkEntries c.toNat <;> rfl
  · rfl

/-- A shape that is read from numbers is one of instances that a model can take. -/
theorem Shape.isDrawable_of_numbers (hc : 0 < c) (hsmall : c ≤ 2 ^ 53) (hzero : (Arg.Real.int 0).lt d = true)
    (hone : d.le (.int 1) = true) (rows : ℕ) (t : Arg.Real) : Shape.IsDrawable ⟨c.toNat, rows, max 1 k.toNat,
      patternSizeOf d c.toNat, .vector (List.replicate c.toNat t)⟩ where
  columns_le := show c.toNat ≤ 2 ^ 53 by omega
  patternSize_le := patternSizeOf_le (by omega) (by omega) hzero hone
  patterns_pos := show 0 < max 1 k.toNat by omega
  thresholds := ⟨_, rfl, List.length_replicate⟩

/-- **What is generated** once columns, density and seed are accepted: the thresholds decide. -/
theorem Instance.generateFrom_of_numbers (source : Random.Source σ) (hp : p.AreNumbers c n k d) (hc : 0 < c)
    (hsmall : c ≤ 2 ^ 53) (hzero : (Arg.Real.int 0).lt d = true) (hone : d.le (.int 1) = true)
    (hs : start p.seed = .ok s) :
    generateFrom source start p = (Shape.readThresholds c.toNat p.integerShare).map fun thresholds =>
      (Shape.draw source ⟨c.toNat, n.toNat, max 1 k.toNat, Shape.patternSizeOf d c.toNat, thresholds⟩ s).1 := by
  have hentries : checkEntries c.toNat = .ok () := by
    have hlimit : entryLimit = 1152921504606846976 := rfl
    exact if_pos (by omega)
  unfold generateFrom
  rw [Shape.read_of_numbers start hp, if_neg (not_le.mpr hc), if_pos ⟨hzero, hone⟩, hs]
  show (checkEntries c.toNat >>= fun _ => _) >>= _ = _
  rw [hentries]
  cases Shape.readThresholds c.toNat p.integerShare <;> rfl

end Numbers

variable {c n k : ℤ} {d w : Binary64} {share seed : Arg}

namespace Instance

/-- **Values that are not refused**: columns, a density above zero and at most one, no negative seed. -/
structure Accepts (c : ℤ) (d : Binary64) (seed : Arg) : Prop where
  columns_pos : 0 < c
  density_pos : Binary64.zero.lt d = true
  density_le : d.le Binary64.one = true
  seed : ∀ s, seed = .int s → 0 ≤ s

/-- **What is refused**, whatever the other parameters are. -/
theorem generate_of_refused (n k : ℤ) (share : Arg) (hseed : seed = .list [] ∨ ∃ s, seed = .int s)
    (h : ¬ Accepts c d seed) :
    ∃ e, generate ⟨.int c, .int n, .int k, .float d, share, seed⟩ = .error e ∧ e.isBadValue = true := by
  unfold generate generateFrom
  rw [Shape.read_of_numbers Random.Congruential.start ⟨rfl, rfl, rfl, rfl⟩, Arg.Real.zero_lt_float,
    Arg.Real.float_le_one]
  by_cases hc : c ≤ 0
  · rw [if_pos hc]
    exact ⟨_, rfl, by decide⟩
  rw [if_neg hc]
  by_cases hd : Binary64.zero.lt d = true ∧ d.le Binary64.one = true
  · have hnegative : ∃ s, seed = .int s ∧ s < 0 := by
      by_contra hnone
      exact h ⟨not_le.mp hc, hd.1, hd.2, fun s hs => not_lt.mp fun hlt => hnone ⟨s, hs, hlt⟩⟩
    obtain ⟨s, rfl, hs⟩ := hnegative
    have hwords : Random.seedWords (.int s) = .error .seedNegative := if_pos hs
    have hstart : Random.Congruential.start (.int s) = .error .seedNegative := by
      rw [Random.Congruential.start, hwords]
      rfl
    rw [if_pos hd, hstart]
    exact ⟨_, rfl, by decide⟩
  · rw [if_neg hd]
    exact ⟨_, rfl, by decide⟩

/-- **What is generated** once columns, density and seed are accepted: the thresholds decide. -/
theorem generate_of_accepts (n k : ℤ) (share : Arg) (h : Accepts c d seed) (hsmall : c ≤ 2 ^ 53)
    (hseed : seed = .list [] ∨ ∃ s, seed = .int s) : ∃ source : Random.Congruential,
      generate ⟨.int c, .int n, .int k, .float d, share, seed⟩ =
        (Shape.readThresholds c.toNat share).map fun thresholds =>
          (Shape.draw Random.Congruential.source
            ⟨c.toNat, n.toNat, max 1 k.toNat, Shape.patternSizeOf (.float d) c.toNat, thresholds⟩ source).1 := by
  obtain ⟨words, hwords⟩ : ∃ words, Random.seedWords seed = .ok words := by
    rcases hseed with rfl | ⟨s, rfl⟩
    · exact ⟨_, rfl⟩
    · exact ⟨_, if_neg (not_lt.mpr (h.seed s rfl))⟩
  have hstart : Random.Congruential.start seed = .ok (Random.Congruential.ofSeed words) := by
    rw [Random.Congruential.start, hwords]
    rfl
  exact ⟨Random.Congruential.ofSeed words, generateFrom_of_numbers _ ⟨rfl, rfl, rfl, rfl⟩ h.columns_pos hsmall
    ((Arg.Real.zero_lt_float d).trans h.density_pos) ((Arg.Real.float_le_one d).trans h.density_le) hstart⟩

/-- **What is accepted**: everything else that an array has room for. The instance is in order and has the shape
that was asked for. -/
theorem generate_of_share (n k : ℤ) (w : Binary64) (h : Accepts c d seed) (hsmall : c ≤ 2 ^ 53)
    (hseed : seed = .list [] ∨ ∃ s, seed = .int s) :
    ∃ p, generate ⟨.int c, .int n, .int k, .float d, .float w, seed⟩ = .ok p ∧ p.WellFormed ∧
      p.columns = c.toNat ∧ p.rows.length = n.toNat ∧
        ∀ r ∈ p.rows, r.row.size = Shape.patternSizeOf (.float d) c.toNat := by
  obtain ⟨source, hgenerate⟩ := generate_of_accepts n k (.float w) h hsmall hseed
  have hselection := Shape.isSelection_draw Shape.keeps_congruential
    (Shape.isDrawable_of_numbers (k := k) h.columns_pos hsmall ((Arg.Real.zero_lt_float d).trans h.density_pos)
      ((Arg.Real.float_le_one d).trans h.density_le) n.toNat (.float w)) source
  exact ⟨_, hgenerate, hselection.wellFormed, hselection.columns, hselection.rows_length,
    fun r hr => (hselection.rows r hr).row.size⟩

/-! ## Shares without a value -/

/-- An empty list of shares fits a single column only, and leaves nothing of it. -/
theorem readThresholds_blank (m : ℕ) :
    Shape.readThresholds 1 (.list []) = .ok (.vector []) ∧
      Shape.readThresholds (m + 2) (.list []) = .error (.shapesDiffer [m + 2] [0]) := by
  refine ⟨rfl, ?_⟩
  have hcommon : Grid.commonShape? [m + 2] [0] = none := by
    simp [Grid.commonShape?, Grid.commonShape?.join]
  have hshape : (Arg.list []).shape? = some [0] := rfl
  have htype : EntryType.common (Arg.list []).entries = .float := rfl
  simp only [Shape.readThresholds, hshape, htype, hcommon]

/-- **Shares without a value** are refused, or leave a column without its upper bound. -/
theorem generate_of_blank (n k : ℤ) (h : Accepts c d seed) (hsmall : c ≤ 2 ^ 53)
    (hseed : seed = .list [] ∨ ∃ s, seed = .int s) :
    (∃ e, generate ⟨.int c, .int n, .int k, .float d, .list [], seed⟩ = .error e ∧ e.isBadValue = true) ∨
      ∃ p, generate ⟨.int c, .int n, .int k, .float d, .list [], seed⟩ = .ok p ∧ p.LacksUpper := by
  obtain ⟨source, hgenerate⟩ := generate_of_accepts n k (.list []) h hsmall hseed
  have hpos := h.columns_pos
  rw [hgenerate]
  rcases Nat.lt_or_ge 1 c.toNat with hm | hm
  · obtain ⟨m, hm⟩ : ∃ m, c.toNat = m + 2 := ⟨c.toNat - 2, by omega⟩
    rw [hm, (readThresholds_blank m).2]
    exact .inl ⟨_, rfl, rfl⟩
  · have hm : c.toNat = 1 := by omega
    rw [hm, (readThresholds_blank 0).1]
    exact .inr ⟨_, rfl, Shape.lacksUpper_draw Shape.keeps_congruential Nat.one_pos rfl source⟩

end Instance

end Milp
