import Milp.Proofs.Arg.Lists
import Milp.Proofs.Arg.Vectors
import Milp.Proofs.Binary64.Magnitude

/-!
# Lists of numbers as positions

A list of numbers gets one type, which depends on all of its entries, before its entries become positions. Entries of
a type with a sign are positions already. What only fits without a sign wraps. Among numbers of the format, integers
are rounded to the format first, and what no position can hold becomes the least one.

* `EntryType.Holds` — the types that hold the values of others; `holds_common_iff` — the common type holds exactly
  what all entries have in common.
* `Arg.IsPosition`, `IsWord` and `IsExact` — how an entry fits positions, words of 64 bits, and the format.
* `PositionsRead` — what becomes of a list of numbers; `exact_position_iff` — which accepted lists stay what they are.
* `indexVector_exact_iff` — when a list is read exactly.
-/

namespace Milp

/-! ## Common types -/

namespace EntryType

/-- **`u.Holds t`** — the type `u` has all values of the type `t`. -/
def Holds (u t : EntryType) : Prop := t.join u = u

instance (u t : EntryType) : Decidable (u.Holds t) := inferInstanceAs (Decidable (_ = _))

/-- The types of numbers; `mixed` is that of integers beyond 64 bits. -/
def IsNumeric : EntryType → Prop
  | text _ => False
  | _ => True

variable {t s u : EntryType}

theorem holds_self (t : EntryType) : t.Holds t := by
  cases t with
  | text n => exact congrArg text (max_eq_left (le_refl n))
  | flag | signed | unsigned | float | mixed => rfl

/-- **The join of two types** is the least type that holds the values of both. -/
theorem holds_join_iff (ht : t.IsNumeric) (hs : s.IsNumeric) (hu : u.IsNumeric) :
    u.Holds (t.join s) ↔ u.Holds t ∧ u.Holds s := by
  cases t with
  | text n => cases ht
  | flag | signed | unsigned | float | mixed =>
    cases s with
    | text n => cases hs
    | flag | signed | unsigned | float | mixed =>
      cases u with
      | text n => cases hu
      | flag | signed | unsigned | float | mixed => decide

theorem isNumeric_join (ht : t.IsNumeric) (hs : s.IsNumeric) : (t.join s).IsNumeric := by
  cases t with
  | text n => cases ht
  | flag | signed | unsigned | float | mixed =>
    cases s with
    | text n => cases hs
    | flag | signed | unsigned | float | mixed => trivial

end EntryType

/-! ## Whole numbers of the format -/

namespace Binary64

/-- An integer is the value of a number if the number has as many units. -/
theorem toRat_eq_intCast_iff {x : Binary64} {n : ℤ} : x.toRat = n ↔ x.units = n * unitsPerOne := by
  rw [toRat_eq, div_eq_iff unitsPerOne_cast_pos.ne']
  exact_mod_cast Iff.rfl

/-- **Whole numbers** are cut off to their own value. -/
theorem whole_finite_iff {s : Bool} {m : Size} {n : ℤ} :
    ((finite s m).isWhole = true ∧ (finite s m).truncate? = some n) ↔ (finite s m).units = n * unitsPerOne := by
  have hpos : (unitsPerOne : ℤ) ≠ 0 := by exact_mod_cast unitsPerOne_pos.ne'
  have hwhole : (finite s m).isWhole = true ↔ (unitsPerOne : ℤ) ∣ (finite s m).units := by
    rw [Int.natCast_dvd, natAbs_units, Nat.dvd_iff_mod_eq_zero]
    exact beq_iff_eq
  have htruncate : (finite s m).truncate? = some n ↔ (finite s m).units.tdiv unitsPerOne = n :=
    Option.some_inj
  rw [hwhole, htruncate]
  constructor
  · rintro ⟨⟨k, hk⟩, rfl⟩
    rw [hk, Int.mul_tdiv_cancel_left _ hpos, Int.mul_comm]
  · intro h
    rw [h]
    exact ⟨Dvd.intro_left n rfl, Int.mul_tdiv_cancel n hpos⟩

end Binary64

/-! ## Entries -/

namespace Arg

/-- **A single number**: a flag, an integer of any size, or a number of the format. -/
def IsNumber : Arg → Prop
  | flag _ | int _ | float _ => True
  | _ => False

/-- A flag. -/
def IsFlag : Arg → Prop
  | flag _ => True
  | _ => False

/-- An integer that a word of 64 bits can hold, with or without a sign, if the argument is an integer. -/
def IsWord : Arg → Prop
  | int n => Int64.minValue.toInt ≤ n ∧ n < 2 ^ 64
  | _ => True

/-- An integer that is equal to a number of the format, if the argument is an integer. -/
def IsExact : Arg → Prop
  | int n => ∃ x, (float x).whole? = some n
  | _ => True

/-- **The value of a position.** -/
def IsPosition (a : Arg) : Prop := ∃ k : Int64, a.whole? = some k.toInt

/-- The number nearest to a single number. -/
def nearest : Arg → Binary64
  | flag b => if b then Binary64.one else Binary64.zero
  | int n => Binary64.ofInt n
  | float x => x
  | _ => Binary64.nan

variable {a : Arg}

theorem IsFlag.isPosition (h : a.IsFlag) : a.IsPosition := by
  cases a with
  | absent | int | float | text | list | record => cases h
  | flag b => exact ⟨if b then 1 else 0, by cases b <;> rfl⟩

theorem IsFlag.ne_float (h : a.IsFlag) : ∀ x, a ≠ .float x := by
  rintro x rfl
  exact h

theorem isNumeric_ofArg (ha : a.IsNumber) : (EntryType.ofArg a).IsNumeric := by
  cases a with
  | flag b | float x => trivial
  | int n =>
    unfold EntryType.ofArg
    dsimp only
    split
    · trivial
    · split <;> trivial
  | absent | text | list | record => cases ha

end Arg

namespace EntryType

variable {items : List Arg} {t u : EntryType}

theorem isNumeric_foldl (ht : t.IsNumeric) (hitems : ∀ a ∈ items, a.IsNumber) :
    (items.foldl (fun t a => t.join (ofArg a)) t).IsNumeric := by
  induction items generalizing t with
  | nil => exact ht
  | cons a rest ih =>
    obtain ⟨ha, hrest⟩ := List.forall_mem_cons.mp hitems
    exact ih (isNumeric_join ht (Arg.isNumeric_ofArg ha)) hrest

theorem holds_foldl_iff (ht : t.IsNumeric) (hu : u.IsNumeric) (hitems : ∀ a ∈ items, a.IsNumber) :
    u.Holds (items.foldl (fun t a => t.join (ofArg a)) t) ↔ u.Holds t ∧ ∀ a ∈ items, u.Holds (ofArg a) := by
  induction items generalizing t with
  | nil => simp
  | cons a rest ih =>
    obtain ⟨ha, hrest⟩ := List.forall_mem_cons.mp hitems
    have ha := Arg.isNumeric_ofArg ha
    rw [List.foldl_cons, ih (isNumeric_join ht ha) hrest, holds_join_iff ht ha hu, List.forall_mem_cons, and_assoc]

theorem isNumeric_common (hitems : ∀ a ∈ items, a.IsNumber) : (common items).IsNumeric := by
  cases items with
  | nil => trivial
  | cons a rest =>
    obtain ⟨ha, hrest⟩ := List.forall_mem_cons.mp hitems
    exact isNumeric_foldl (Arg.isNumeric_ofArg ha) hrest

/-- **A type holds the common type** if it holds the types of all entries. -/
theorem holds_common_iff (hu : u.IsNumeric) (hne : items ≠ []) (hitems : ∀ a ∈ items, a.IsNumber) :
    u.Holds (common items) ↔ ∀ a ∈ items, u.Holds (ofArg a) := by
  cases items with
  | nil => exact absurd rfl hne
  | cons a rest =>
    obtain ⟨ha, hrest⟩ := List.forall_mem_cons.mp hitems
    rw [List.forall_mem_cons]
    exact holds_foldl_iff (Arg.isNumeric_ofArg ha) hu hrest

end EntryType

/-! ## Values of entries -/

namespace Arg

open Binary64 (toRat_eq_intCast_iff whole_finite_iff ofInt_whole units_ofInt_of_units)

variable {a : Arg} {n z : ℤ} {x : Binary64}

theorem isPosition_iff (h : a.whole? = some n) :
    a.IsPosition ↔ Int64.minValue.toInt ≤ n ∧ n ≤ Int64.maxValue.toInt := by
  constructor
  · rintro ⟨k, hk⟩
    obtain rfl : n = k.toInt := Option.some.inj (h.symm.trans hk)
    exact ⟨k.minValue_le_toInt, k.toInt_le⟩
  · rintro ⟨hmin, hmax⟩
    refine ⟨Int64.ofInt n, h.trans (congrArg some ?_)⟩
    exact (Int64.toInt_ofInt_of_le hmin (Int.lt_of_le_of_lt hmax (by decide))).symm

theorem whole?_float_eq_some_iff : (float x).whole? = some n ↔ x.isWhole = true ∧ x.truncate? = some n :=
  Option.ite_none_right_eq_some

/-- **Whole numbers of the format** and their values. -/
theorem whole?_float_iff : (float x).whole? = some n ↔ x.isFinite = true ∧ x.toRat = n := by
  rw [toRat_eq_intCast_iff, whole?_float_eq_some_iff]
  cases x with
  | nan | infinite s => simp [Binary64.isWhole, Binary64.isFinite]
  | finite s m =>
    rw [whole_finite_iff]
    exact (and_iff_right rfl).symm

/-- **An integer that fits into a word is rounded to an integer.** -/
theorem exists_rounded (h : (int n).IsWord) : (Binary64.ofInt n).isFinite = true ∧
    ∃ z : ℤ, (Binary64.ofInt n).units = z * unitsPerOne ∧ (float (Binary64.ofInt n)).whole? = some z := by
  have hmax : n.natAbs ≤ 2 ^ 64 := by
    have hmin : Int64.minValue.toInt = -2 ^ 63 := rfl
    obtain ⟨hlow, hhigh⟩ := h
    omega
  obtain ⟨hfinite, z, hz⟩ := ofInt_whole hmax
  exact ⟨hfinite, z, hz, whole?_float_iff.mpr ⟨hfinite, toRat_eq_intCast_iff.mpr hz⟩⟩

/-- An integer is a number of the format if it is its own rounding. -/
theorem isExact_int_iff (hfinite : (Binary64.ofInt n).isFinite = true)
    (hz : (Binary64.ofInt n).units = z * unitsPerOne) : (int n).IsExact ↔ z = n := by
  have hpos : (unitsPerOne : ℤ) ≠ 0 := by exact_mod_cast unitsPerOne_pos.ne'
  simp only [IsExact, whole?_float_iff, toRat_eq_intCast_iff]
  constructor
  · rintro ⟨x, hx, hunits⟩
    rw [units_ofInt_of_units hx hunits] at hz
    exact (mul_right_cancel₀ hpos hz).symm
  · rintro rfl
    exact ⟨_, hfinite, hz⟩

/-- The least position is a number of the format. -/
theorem isExact_minValue : (int Int64.minValue.toInt).IsExact := by
  have hsize : Representable (2 ^ 63 * unitsPerOne) := by
    have hscaled := Binary64.representable_scaled (k := 1) (s := 63) (by norm_num) (by norm_num)
    rwa [Nat.one_mul] at hscaled
  refine ⟨.finite true ⟨2 ^ 63 * unitsPerOne, hsize⟩, whole?_float_iff.mpr ⟨rfl, toRat_eq_intCast_iff.mpr ?_⟩⟩
  show -((2 ^ 63 * unitsPerOne : ℕ) : ℤ) = -2 ^ 63 * unitsPerOne
  push_cast
  ring

/-- A whole number that no position can hold becomes the least position. -/
theorem wholePosition_of_whole? (hx : (float x).whole? = some n) : (wholePosition x).toInt =
    if Int64.minValue.toInt ≤ n ∧ n ≤ Int64.maxValue.toInt then n else Int64.minValue.toInt := by
  unfold wholePosition
  rw [(whole?_float_eq_some_iff.mp hx).2]
  dsimp only
  split
  · rename_i hrange
    exact Int64.toInt_ofInt_of_le hrange.1 (Int.lt_of_le_of_lt hrange.2 (by decide))
  · rfl

/-- **An entry stays what it is** as a number of the format if it is the value of a position, and if it is an integer
that is not rounded. -/
theorem whole?_eq_wholePosition_iff (ha : a.IsNumber) (hword : a.IsWord) (hwhole : a.whole? ≠ none) :
    a.whole? = some (wholePosition a.nearest).toInt ↔ a.IsPosition ∧ a.IsExact := by
  cases a with
  | absent | text | list | record => cases ha
  | flag b =>
    have hflag : (flag b).whole? = some (wholePosition (flag b).nearest).toInt := by
      cases b <;> decide +kernel
    exact iff_of_true hflag ⟨⟨_, hflag⟩, trivial⟩
  | float x =>
    obtain ⟨k, hk⟩ := Option.ne_none_iff_exists'.mp hwhole
    rw [isPosition_iff hk, hk, nearest, wholePosition_of_whole? hk, Option.some_inj]
    split
    · rename_i hrange
      exact iff_of_true rfl ⟨hrange, trivial⟩
    · rename_i hrange
      refine iff_of_false ?_ (fun h => hrange h.1)
      rintro rfl
      exact hrange (by decide)
  | int n =>
    obtain ⟨hfinite, z, hz, hround⟩ := exists_rounded hword
    have hn : (int n).whole? = some n := rfl
    rw [isPosition_iff hn, isExact_int_iff hfinite hz, hn, nearest, wholePosition_of_whole? hround,
      Option.some_inj]
    split
    · rename_i hrange
      constructor
      · rintro rfl
        exact ⟨hrange, rfl⟩
      · rintro ⟨-, rfl⟩
        rfl
    · rename_i hrange
      refine iff_of_false ?_ ?_
      · -- the least position is not rounded
        rintro rfl
        rw [(isExact_int_iff hfinite hz).mp isExact_minValue] at hrange
        exact hrange (by decide)
      · rintro ⟨h, rfl⟩
        exact hrange h

/-- Flags and integers are whole. -/
theorem whole?_ne_none (ha : a.IsNumber) (hfloat : ∀ x, a ≠ .float x) : a.whole? ≠ none := by
  cases a with
  | absent | text | list | record => cases ha
  | float x => exact absurd rfl (hfloat x)
  | flag b | int n => nofun

/-- **A flag or an integer stays what it is** as a position if it is the value of one. -/
theorem whole?_eq_ofInt (ha : a.IsNumber) (hfloat : ∀ x, a ≠ .float x) (h : a.IsPosition) :
    a.whole? = some (Int64.ofInt (a.int?.getD 0)).toInt := by
  obtain ⟨k, hk⟩ := h
  have hint : a.int? = some k.toInt := by
    cases a with
    | absent | text | list | record => cases ha
    | float x => exact absurd rfl (hfloat x)
    | flag b | int n => exact hk
  rw [hk, hint, Option.getD_some, Int64.ofInt_toInt]

/-- **An entry that fits into a word** is read as the nearest number. -/
theorem toEntry_eq_nearest (ha : a.IsNumber) (hword : a.IsWord) : a.toEntry = .ok a.nearest := by
  cases a with
  | absent | text | list | record => cases ha
  | flag b | float x => rfl
  | int n => exact toEntry_int_eq_ok_iff.mpr ⟨rfl, (exists_rounded hword).1⟩

theorem isWhole_nearest_iff (ha : a.IsNumber) (hword : a.IsWord) :
    a.nearest.isWhole = true ↔ a.whole? ≠ none := by
  cases a with
  | absent | text | list | record => cases ha
  | flag b => cases b <;> decide +kernel
  | float x =>
    show x.isWhole = true ↔ (if x.isWhole = true then x.truncate? else none) ≠ none
    cases x with
    | nan | infinite s => simp [Binary64.isWhole]
    | finite s m => simp [Binary64.truncate?]
  | int n =>
    obtain ⟨-, z, -, hround⟩ := exists_rounded hword
    have hwhole : (Binary64.ofInt n).isWhole = true := (whole?_float_eq_some_iff.mp hround).1
    exact iff_of_true hwhole nofun

end Arg

/-! ## Types of entries -/

namespace EntryType

variable {a : Arg} {t : EntryType}

theorem flag_holds_iff : flag.Holds t ↔ t = flag := by
  cases t <;> simp [Holds, join]

theorem signed_holds_iff : signed.Holds t ↔ t = flag ∨ t = signed := by
  cases t <;> simp [Holds, join]

theorem float_holds_iff (ht : t.IsNumeric) : float.Holds t ↔ t ≠ mixed := by
  cases t with
  | text n => cases ht
  | flag | signed | unsigned | float | mixed => decide

theorem ofArg_int (n : ℤ) : ofArg (.int n) =
    if Int64.minValue.toInt ≤ n ∧ n ≤ Int64.maxValue.toInt then signed
    else if 0 ≤ n ∧ n < 2 ^ 64 then unsigned else mixed := rfl

theorem flag_holds_ofArg_iff (ha : a.IsNumber) : flag.Holds (ofArg a) ↔ a.IsFlag := by
  rw [flag_holds_iff]
  cases a with
  | absent | text | list | record => cases ha
  | flag b => exact iff_of_true rfl trivial
  | float x => exact iff_of_false nofun id
  | int n =>
    refine iff_of_false ?_ id
    rw [ofArg_int]
    split
    · nofun
    · split <;> nofun

theorem signed_holds_ofArg_iff (ha : a.IsNumber) :
    signed.Holds (ofArg a) ↔ a.IsPosition ∧ ∀ x, a ≠ .float x := by
  rw [signed_holds_iff]
  cases a with
  | absent | text | list | record => cases ha
  | flag b => exact iff_of_true (.inl rfl) ⟨Arg.IsFlag.isPosition trivial, nofun⟩
  | float x => exact iff_of_false nofun fun h => h.2 x rfl
  | int n =>
    rw [Arg.isPosition_iff (n := n) rfl, ofArg_int]
    split
    · rename_i hrange
      exact iff_of_true (.inr rfl) ⟨hrange, nofun⟩
    · rename_i hrange
      refine iff_of_false ?_ fun h => hrange h.1
      split <;> nofun

theorem float_holds_ofArg_iff (ha : a.IsNumber) : float.Holds (ofArg a) ↔ a.IsWord := by
  rw [float_holds_iff (Arg.isNumeric_ofArg ha)]
  cases a with
  | absent | text | list | record => cases ha
  | flag b | float x => exact iff_of_true nofun trivial
  | int n =>
    have hmin : Int64.minValue.toInt = -2 ^ 63 := rfl
    have hmax : Int64.maxValue.toInt = 2 ^ 63 - 1 := rfl
    rw [ofArg_int, Arg.IsWord, hmin, hmax]
    split
    · exact iff_of_true nofun (by omega)
    · split
      · exact iff_of_true nofun (by omega)
      · exact iff_of_false (fun h => h rfl) (by omega)

theorem common_eq_flag_iff {items : List Arg} (hne : items ≠ []) (hitems : ∀ a ∈ items, a.IsNumber) :
    common items = flag ↔ ∀ a ∈ items, a.IsFlag := by
  rw [← flag_holds_iff, holds_common_iff (u := flag) trivial hne hitems]
  exact forall₂_congr fun a ha => flag_holds_ofArg_iff (hitems a ha)

theorem common_ne_mixed_iff {items : List Arg} (hne : items ≠ []) (hitems : ∀ a ∈ items, a.IsNumber) :
    common items ≠ mixed ↔ ∀ a ∈ items, a.IsWord := by
  rw [← float_holds_iff (isNumeric_common hitems), holds_common_iff (u := float) trivial hne hitems]
  exact forall₂_congr fun a ha => float_holds_ofArg_iff (hitems a ha)

/-- A list whose common type is one of integers holds no numbers of the format. -/
theorem ne_float_of_common {items : List Arg} (hitems : ∀ a ∈ items, a.IsNumber) (hfloat : common items ≠ float)
    (hmixed : common items ≠ mixed) : ∀ a ∈ items, ∀ x, a ≠ .float x := by
  rintro a ha x rfl
  have hholds : (common items).Holds float :=
    (holds_common_iff (isNumeric_common hitems) (List.ne_nil_of_mem ha) hitems).mp (holds_self _) _ ha
  have hnumeric := isNumeric_common hitems
  generalize common items = t at *
  cases t with
  | text n => cases hnumeric
  | float => exact hfloat rfl
  | mixed => exact hmixed rfl
  | flag | signed | unsigned => cases hholds

end EntryType

/-! ## Lists of numbers -/

/-- The position that an entry becomes in a list of a type. -/
def EntryType.position (t : EntryType) (a : Arg) : Int64 :=
  match t with
  | .float => wholePosition a.nearest
  | _ => Int64.ofInt (a.int?.getD 0)

/-- **What becomes of a list of numbers**: it is refused if all entries are flags, or if there is an integer beyond
64 bits or an entry that is not whole. -/
inductive PositionsRead (items : List Arg) (name : String) : Except Error (List Int64) → Prop where
  | flags (hne : items ≠ []) (h : ∀ a ∈ items, a.IsFlag) (type : String) :
      PositionsRead items name (.error (.notIntegerType name type))
  | large {a : Arg} (ha : a ∈ items) (h : ¬ a.IsWord) (type : String) :
      PositionsRead items name (.error (.notIntegerType name type))
  | fraction {a : Arg} (ha : a ∈ items) (h : a.whole? = none) :
      PositionsRead items name (.error (.notIntegers name))
  | read (hflags : (∀ a ∈ items, a.IsFlag) → items = []) (hwords : ∀ a ∈ items, a.IsWord)
      (hwhole : ∀ a ∈ items, a.whole? ≠ none) :
      PositionsRead items name (.ok (items.map (EntryType.common items).position))

section Lists

variable {items : List Arg} (hitems : ∀ a ∈ items, a.IsNumber) (name : String)
include hitems

theorem indexVector_list (hne : items ≠ []) :
    indexVector (.list items) name = positions name (EntryType.common items) items := by
  have hsingle : ∀ a ∈ items, a.nesting? = some [] ∧ a.entries = [a] := by
    intro a ha
    have ha := hitems a ha
    cases a with
    | absent | text | list | record => cases ha
    | flag | int | float => exact ⟨rfl, rfl⟩
  have hshape := Arg.shape?_flat fun a ha => (hsingle a ha).1
  have hentries : (Arg.list items).entries = items := Arg.entriesOf_flat fun a ha => (hsingle a ha).2
  have hvolume : Grid.volume [items.length] ≠ 0 := by
    simpa [Grid.volume] using hne
  rw [indexVector, hshape, hentries]
  dsimp only
  exact (if_neg hvolume).trans (if_pos rfl)

theorem mapM_toEntry_eq_nearest (hwords : ∀ a ∈ items, a.IsWord) :
    items.mapM Arg.toEntry = .ok (items.map Arg.nearest) := by
  rw [mapM_eq_ok_iff, List.forall₂_map_right_iff, List.forall₂_same]
  exact fun a ha => Arg.toEntry_eq_nearest (hitems a ha) (hwords a ha)

theorem all_isWhole_nearest_iff (hwords : ∀ a ∈ items, a.IsWord) :
    (items.map Arg.nearest).all Binary64.isWhole = true ↔ ∀ a ∈ items, a.whole? ≠ none := by
  rw [List.all_map, List.all_eq_true]
  exact forall₂_congr fun a ha => Arg.isWhole_nearest_iff (hitems a ha) (hwords a ha)

theorem positionsRead : PositionsRead items name (indexVector (.list items) name) := by
  rcases eq_or_ne items [] with rfl | hne
  · exact .read (fun _ => rfl) (by simp) (by simp)
  rw [indexVector_list hitems name hne]
  have hnumeric := EntryType.isNumeric_common hitems
  have hflags := EntryType.common_eq_flag_iff hne hitems
  have hwords := EntryType.common_ne_mixed_iff hne hitems
  have hread := @PositionsRead.read items name
  have hfloat := fun htype => EntryType.ne_float_of_common hitems htype
  generalize htype : EntryType.common items = t at *
  cases t with
  | text n => cases hnumeric
  | flag => exact .flags hne (hflags.mp rfl) _
  | mixed =>
    have hlarge : ¬ ∀ a ∈ items, a.IsWord := fun h => hwords.mpr h rfl
    push Not at hlarge
    obtain ⟨a, ha, hword⟩ := hlarge
    exact .large ha hword _
  | signed | unsigned =>
    have hsome := hflags.not.mp (by decide)
    have hwhole : ∀ a ∈ items, a.whole? ≠ none := fun a ha =>
      Arg.whole?_ne_none (hitems a ha) (hfloat (by decide) (by decide) a ha)
    exact hread (absurd · hsome) (hwords.mp (by decide)) hwhole
  | float =>
    have hsome := hflags.not.mp (by decide)
    have hwords := hwords.mp (by decide)
    have hwhole := all_isWhole_nearest_iff hitems hwords
    rw [positions, mapM_toEntry_eq_nearest hitems hwords]
    dsimp only
    split
    · rename_i hall
      rw [List.map_map]
      exact hread (absurd · hsome) hwords (hwhole.mp hall)
    · rename_i hall
      have hfraction : ¬ ∀ a ∈ items, a.whole? ≠ none := fun h => hall (hwhole.mpr h)
      push Not at hfraction
      obtain ⟨a, ha, hnone⟩ := hfraction
      exact .fraction ha hnone

/-- An entry that is the value of a position, and not rounded, stays what it is beside all other entries. -/
theorem whole?_eq_position {a : Arg} (ha : a ∈ items) (hword : a.IsWord) (h : a.IsPosition) (hexact : a.IsExact)
    (hmixed : EntryType.common items ≠ .mixed) : a.whole? = some ((EntryType.common items).position a).toInt := by
  rcases eq_or_ne (EntryType.common items) .float with hfloat | hfloat
  · rw [hfloat]
    obtain ⟨k, hk⟩ := h
    exact (Arg.whole?_eq_wholePosition_iff (hitems a ha) hword (by simp [hk])).mpr ⟨⟨k, hk⟩, hexact⟩
  · have hint := Arg.whole?_eq_ofInt (hitems a ha) (EntryType.ne_float_of_common hitems hfloat hmixed a ha) h
    generalize EntryType.common items = t at *
    cases t with
    | float => exact absurd rfl hfloat
    | flag | signed | unsigned | text | mixed => exact hint

/-- **Which accepted lists stay what they are**: those of positions, without numbers of the format or with no integer
that is rounded. -/
theorem exact_position_iff (hwords : ∀ a ∈ items, a.IsWord)
    (hwhole : ∀ a ∈ items, a.whole? ≠ none) :
    (∀ a ∈ items, a.whole? = some ((EntryType.common items).position a).toInt) ↔
      (∀ a ∈ items, a.IsPosition) ∧ ((∀ a ∈ items, ∀ x, a ≠ .float x) ∨ ∀ a ∈ items, a.IsExact) := by
  rcases eq_or_ne items [] with rfl | hne
  · simp
  by_cases hpositions : ∀ a ∈ items, a.IsPosition
  swap
  · exact iff_of_false (fun h => hpositions fun a ha => ⟨_, h a ha⟩) fun h => hpositions h.1
  have hmixed := (EntryType.common_ne_mixed_iff hne hitems).mpr hwords
  by_cases hfloats : ∀ a ∈ items, ∀ x, a ≠ .float x
  · -- positions without numbers of the format have a type with a sign
    have hsigned : EntryType.signed.Holds (EntryType.common items) := by
      rw [EntryType.holds_common_iff (u := .signed) trivial hne hitems]
      exact fun a ha => (EntryType.signed_holds_ofArg_iff (hitems a ha)).mpr ⟨hpositions a ha, hfloats a ha⟩
    refine iff_of_true (fun a ha => ?_) ⟨hpositions, .inl hfloats⟩
    have hint := Arg.whole?_eq_ofInt (hitems a ha) (hfloats a ha) (hpositions a ha)
    rcases EntryType.signed_holds_iff.mp hsigned with htype | htype <;> rwa [htype]
  · have htype : EntryType.common items = .float :=
      not_not.mp fun h => hfloats (EntryType.ne_float_of_common hitems h hmixed)
    rw [htype]
    have heach : (∀ a ∈ items, a.whole? = some (wholePosition a.nearest).toInt) ↔
        ∀ a ∈ items, a.IsPosition ∧ a.IsExact :=
      forall₂_congr fun a ha => Arg.whole?_eq_wholePosition_iff (hitems a ha) (hwords a ha) (hwhole a ha)
    refine heach.trans ⟨fun h => ⟨hpositions, .inr fun a ha => (h a ha).2⟩, fun h a ha => ?_⟩
    exact ⟨hpositions a ha, (h.2.resolve_left hfloats) a ha⟩

/-- **Which lists are accepted**, and what they give. -/
theorem indexVector_eq_ok_iff {ks : List Int64} : indexVector (.list items) name = .ok ks ↔
    ((∀ a ∈ items, a.IsFlag) → items = []) ∧ (∀ a ∈ items, a.IsWord) ∧ (∀ a ∈ items, a.whole? ≠ none) ∧
      items.map (EntryType.common items).position = ks := by
  have hread := positionsRead hitems name
  generalize indexVector (.list items) name = r at *
  cases hread with
  | flags hne h type => exact iff_of_false nofun fun hok => hne (hok.1 h)
  | large ha h type => exact iff_of_false nofun fun hok => h (hok.2.1 _ ha)
  | fraction ha h => exact iff_of_false nofun fun hok => hok.2.2.1 _ ha h
  | read hflags hwords hwhole =>
    rw [Except.ok.injEq]
    exact ⟨fun h => ⟨hflags, hwords, hwhole, h⟩, fun h => h.2.2.2⟩

theorem category_of_indexVector {e : Error} (h : indexVector (.list items) name = .error e) :
    e.category = .invalidArgument := by
  have hread := positionsRead hitems name
  rw [h] at hread
  cases hread <;> rfl

theorem indexVector_refused_iff : (∃ e, indexVector (.list items) name = .error e) ↔
    items ≠ [] ∧ ((∀ a ∈ items, a.IsFlag) ∨ ∃ a ∈ items, a.whole? = none ∨ ¬ a.IsWord) := by
  have hread := positionsRead hitems name
  generalize indexVector (.list items) name = r at *
  cases hread with
  | flags hne h type => exact iff_of_true ⟨_, rfl⟩ ⟨hne, .inl h⟩
  | large ha h type => exact iff_of_true ⟨_, rfl⟩ ⟨List.ne_nil_of_mem ha, .inr ⟨_, ha, .inr h⟩⟩
  | fraction ha h => exact iff_of_true ⟨_, rfl⟩ ⟨List.ne_nil_of_mem ha, .inr ⟨_, ha, .inl h⟩⟩
  | read hflags hwords hwhole =>
    refine iff_of_false nofun ?_
    rintro ⟨hne, hall | ⟨a, ha, hnone | hword⟩⟩
    · exact hne (hflags hall)
    · exact hwhole a ha hnone
    · exact hword (hwords a ha)

/-- **When a list of numbers is read exactly**: unless it is refused, its entries must all be values of positions, and
beside a number of the format no integer may be rounded. A list is refused, as an invalid argument, if all of its
entries are flags, one is not whole, or one is an integer that no word can hold. Whatever is accepted gives as many
positions, and an entry that has a position and is not rounded keeps it beside all others. -/
theorem indexVector_exact_iff :
    (∀ e, indexVector (.list items) name = .error e → e.category = .invalidArgument) ∧
    ((∃ e, indexVector (.list items) name = .error e) ↔
      items ≠ [] ∧ ((∀ a ∈ items, a.IsFlag) ∨ ∃ a ∈ items, a.whole? = none ∨ ¬ a.IsWord)) ∧
    (∀ ks, indexVector (.list items) name = .ok ks → ks.length = items.length ∧
      List.Forall₂ (fun a k => a.IsPosition → a.IsExact → a.whole? = some k.toInt) items ks) ∧
    ((∀ ks, indexVector (.list items) name = .ok ks → List.Forall₂ (fun a k => a.whole? = some k.toInt) items ks) ↔
      (∃ a ∈ items, a.whole? = none ∨ ¬ a.IsWord) ∨
        (∀ a ∈ items, a.IsPosition) ∧ ((∀ a ∈ items, ∀ x, a ≠ .float x) ∨ ∀ a ∈ items, a.IsExact)) := by
  refine ⟨fun e => category_of_indexVector hitems name, indexVector_refused_iff hitems name, ?_, ?_⟩
  · intro ks h
    obtain ⟨-, hwords, -, rfl⟩ := (indexVector_eq_ok_iff hitems name).mp h
    refine ⟨List.length_map _, ?_⟩
    rw [List.forall₂_map_right_iff, List.forall₂_same]
    intro a ha
    have hmixed := (EntryType.common_ne_mixed_iff (List.ne_nil_of_mem ha) hitems).mpr hwords
    exact fun hposition hexact => whole?_eq_position hitems ha (hwords a ha) hposition hexact hmixed
  · have hread := positionsRead hitems name
    generalize indexVector (.list items) name = r at *
    cases hread with
    | flags hne h type =>
      exact iff_of_true nofun (.inr ⟨fun a ha => (h a ha).isPosition, .inl fun a ha => (h a ha).ne_float⟩)
    | large ha h type => exact iff_of_true nofun (.inl ⟨_, ha, .inr h⟩)
    | fraction ha h => exact iff_of_true nofun (.inl ⟨_, ha, .inl h⟩)
    | read hflags hwords hwhole =>
      have hfits : ¬ ∃ a ∈ items, a.whole? = none ∨ ¬ a.IsWord := by
        rintro ⟨a, ha, hnone | hword⟩
        · exact hwhole a ha hnone
        · exact hword (hwords a ha)
      rw [or_iff_right hfits, ← exact_position_iff hitems hwords hwhole]
      simp only [Except.ok.injEq, forall_eq', List.forall₂_map_right_iff, List.forall₂_same]

end Lists

/-- A flag, an integer and a number of the format are read exactly, although they meet in numbers of the format. -/
theorem indexVector_exact_of_mixed :
    let items : List Arg := [.flag true, .int (2 ^ 53), .float Binary64.zero]
    (∀ a ∈ items, a.IsNumber) ∧ indexVector (.list items) "x" = .ok [1, 2 ^ 53, 0] ∧
      List.Forall₂ (fun a (k : Int64) => a.whole? = some k.toInt) items [1, 2 ^ 53, 0] := by
  intro items
  have hitems : ∀ a ∈ items, a.IsNumber := by
    simp [items, Arg.IsNumber]
  have hread : indexVector (.list items) "x" = .ok [1, 2 ^ 53, 0] :=
    toOption_eq_some_iff.mp (by decide +kernel)
  have hpositions : ∀ a ∈ items, a.IsPosition := by
    simp only [items, List.forall_mem_cons]
    exact ⟨⟨1, by decide⟩, ⟨2 ^ 53, by decide⟩, ⟨0, by decide +kernel⟩, by simp⟩
  have hexact : ∀ a ∈ items, a.IsExact := by
    simp only [items, List.forall_mem_cons]
    exact ⟨trivial, ⟨Binary64.ofInt (2 ^ 53), by decide +kernel⟩, trivial, by simp⟩
  obtain ⟨-, -, -, hiff⟩ := indexVector_exact_iff hitems "x"
  exact ⟨hitems, hread, hiff.mpr (.inr ⟨hpositions, .inr hexact⟩) _ hread⟩

/-- **An integer beyond all positions wraps**, where it should be refused; and beside a number of the format an integer
becomes its neighbour. -/
theorem large_integer_wraps :
    indexVector (.list [.int (2 ^ 63)]) "x" = .ok [Int64.minValue] ∧ ¬ (Arg.int (2 ^ 63)).IsPosition ∧
      indexVector (.list [.int (2 ^ 53 + 1), .float Binary64.zero]) "x" = .ok [2 ^ 53, 0] ∧
      (Arg.int (2 ^ 53 + 1)).whole? ≠ some (2 ^ 53 : Int64).toInt := by
  refine ⟨toOption_eq_some_iff.mp (by decide +kernel), ?_, toOption_eq_some_iff.mp (by decide +kernel), by decide⟩
  rw [Arg.isPosition_iff (n := 2 ^ 63) rfl]
  decide

end Milp
