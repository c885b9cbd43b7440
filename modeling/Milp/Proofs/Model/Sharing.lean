import Milp.Proofs.Model.Atomic
import Milp.Proofs.Model.Reachable

/-!
# The row cache does not show

Whether a row is added with the row cache or without makes no difference to a model, whatever the cache has
been used for before. It can be seen in three things only: the answer says whether the cache had the row, a
zero coefficient may have the sign of the stored one, and a refusal may be put in other words.

* `SameAddition` — two attempts to add a row that come to the same; symmetric and transitive.
* `addDirectly` — adding a row like the cache does, but without it.
* `sameAddition_direct` — a sound cache adds the same row, or refuses it for the same kind of cause.
* `sameAddition_sparse` — so does adding the row without the cache, as long as its bounds are valid.
* `cachedRow_sameAddition` — both together, in every workspace that can be reached.
-/

namespace Milp

namespace Model

variable {m : Model}

/-! ## Attempts that come to the same -/

/-- **Two attempts to add a row come to the same**: both are refused, in the same category where `strict`
holds, or both put one row behind the rows of the model and change nothing else, and then the two rows agree, need
the same columns and have the same bounds. -/
inductive SameAddition (m : Model) (strict : Prop) :
    Except Error (Model × Option Bool) → Except Error (Model × Option Bool) → Prop where
  | refused {e e' : Error} (hcategory : strict → e.category = e'.category) :
      SameAddition m strict (.error e) (.error e')
  | added {r s : Row} {lo hi : Binary64} {hit hit' : Option Bool} (halike : r.Alike s)
      (hmax : r.maxIndex = s.maxIndex) :
      SameAddition m strict (.ok ({ m with rows := m.rows ++ [⟨r, lo, hi⟩] }, hit))
        (.ok ({ m with rows := m.rows ++ [⟨s, lo, hi⟩] }, hit'))

/-- The row that was appended can be read off the model. -/
theorem appended_inj {r s : BoundedRow}
    (h : { m with rows := m.rows ++ [r] } = { m with rows := m.rows ++ [s] }) : r = s := by
  simpa using congrArg Model.rows h

namespace SameAddition

variable {strict strict' : Prop} {x y z : Except Error (Model × Option Bool)}

theorem symm (h : SameAddition m strict x y) : SameAddition m strict y x := by
  cases h with
  | refused hcategory => exact .refused fun hs => (hcategory hs).symm
  | added halike hmax => exact .added halike.symm hmax.symm

theorem trans (hxy : SameAddition m strict x y) (hyz : SameAddition m strict y z) :
    SameAddition m strict x z := by
  cases hxy with
  | refused hcategory =>
    cases hyz with
    | refused hcategory' => exact .refused fun hs => (hcategory hs).trans (hcategory' hs)
  | @added r s lo hi hit hit' halike hmax =>
    generalize hmodel : ({ m with rows := m.rows ++ [⟨s, lo, hi⟩] } : Model) = m' at hyz
    cases hyz with
    | added halike' hmax' =>
      obtain ⟨rfl, rfl, rfl⟩ := BoundedRow.mk.inj (appended_inj hmodel)
      exact .added (halike.trans halike') (hmax.trans hmax')

theorem weaken (h : SameAddition m strict x y) (hstrict : strict' → strict) :
    SameAddition m strict' x y := by
  cases h with
  | refused hcategory => exact .refused fun hs => hcategory (hstrict hs)
  | added halike hmax => exact .added halike hmax

end SameAddition

/-! ## Leaving the cache out -/

/-- **Adding a row like the cache does**, bounds first, but without it: every row is checked in full. -/
def addDirectly (m : Model) (coeffs indices lo hi : Arg) : Except Error (Model × Option Bool) :=
  m.readCachedRow coeffs indices lo hi >>= fun given =>
    checkPattern given.1.indices given.1.coeffs m.columns .absent >>= fun _ =>
      .ok (m.append given.1 given.2.1 given.2.2, none)

variable {coeffs indices lo hi : Arg}

/-- What is refused when it is read is refused without the cache. -/
theorem addDirectly_of_error {e : Error} (h : m.readCachedRow coeffs indices lo hi = .error e) :
    m.addDirectly coeffs indices lo hi = .error e := by
  rw [addDirectly, h]
  rfl

/-- A row that has been read and does not pass the check is refused. -/
theorem addDirectly_of_refused {r : Row} {l u : Binary64} {e : Error}
    (h : m.readCachedRow coeffs indices lo hi = .ok (r, l, u))
    (hcheck : checkPattern r.indices r.coeffs m.columns .absent = .error e) :
    m.addDirectly coeffs indices lo hi = .error e := by
  rw [addDirectly, h]
  show (checkPattern r.indices r.coeffs m.columns .absent >>= fun _ => _) = _
  rw [hcheck]
  rfl

/-- A row that has been read and fits is appended. -/
theorem addDirectly_of_fits {r : Row} {l u : Binary64}
    (h : m.readCachedRow coeffs indices lo hi = .ok (r, l, u)) (hfits : r.Fits m.columns) :
    m.addDirectly coeffs indices lo hi = .ok (m.append r l u, none) := by
  rw [addDirectly, h]
  show (checkPattern r.indices r.coeffs m.columns .absent >>= fun _ => _) = _
  rw [checkPattern_eq_ok_iff.mpr hfits]
  rfl

/-- **A sound cache does not show.** A row that it hands out agrees with the one that was asked for and was
checked once, so only its largest index can be wrong, and that is checked again. -/
theorem sameAddition_direct {cache : RowCache} (hcache : cache.Sound) (coeffs indices lo hi : Arg) :
    SameAddition m True ((Edit.cachedRow coeffs indices lo hi).apply m cache).2
      (m.addDirectly coeffs indices lo hi) := by
  rw [Edit.apply_cachedRow]
  cases hread : m.readCachedRow coeffs indices lo hi with
  | error e =>
    rw [addCachedRow_of_error hread, addDirectly_of_error hread]
    exact .refused fun _ => rfl
  | ok given =>
    obtain ⟨r, l, u⟩ := given
    have haddition := cachedAddition cache hread
    generalize m.addCachedRow cache coeffs indices lo hi = answer at haddition ⊢
    cases haddition with
    | shared s hfind hwide =>
      have halike := RowCache.alike_of_lookup hfind
      obtain ⟨k, hchecked⟩ := hcache s (RowCache.mem_rows_of_lookup hfind)
      have hfits : r.Fits m.columns := halike.fits (hchecked.of_maxIndex_lt hwide)
      rw [addDirectly_of_fits hread hfits]
      exact .added halike halike.maxIndex_eq
    | tooWide s hfind hnarrow =>
      have halike := RowCache.alike_of_lookup hfind
      obtain ⟨k, hchecked⟩ := hcache s (RowCache.mem_rows_of_lookup hfind)
      -- the row has passed the check once, so what the full check finds is the range
      have hcheck := (halike.fits hchecked).checkPattern_eq m.columns .absent
      rw [if_neg (by rw [← halike.maxIndex_eq]; omega)] at hcheck
      rw [addDirectly_of_refused hread hcheck]
      exact .refused fun _ => rfl
    | refused e hnew hcheck =>
      rw [addDirectly_of_refused hread hcheck]
      exact .refused fun _ => rfl
    | stored hkey hnew hfits =>
      rw [addDirectly_of_fits hread hfits]
      exact .added hfits.alike rfl

/-- Two checks in either order accept the same, and find the same fault unless there are two. -/
theorem sameAddition_swap {r : Row} {pattern : Except Error Unit}
    (hfits : pattern = .ok () → r.Fits m.columns) (bounds : Except Error (Binary64 × Binary64)) :
    SameAddition m (∃ b, bounds = .ok b)
      (bounds >>= fun b => pattern >>= fun _ => .ok (m.append r b.1 b.2, none))
      ((pattern >>= fun _ => bounds >>= fun b => .ok (m.append r b.1 b.2)).map (·, none)) := by
  cases pattern with
  | error e =>
    cases bounds with
    | ok b => exact .refused fun _ => rfl
    | error e' =>
      -- two faults, and the two orders find different ones
      refine .refused ?_
      rintro ⟨b, hb⟩
      cases hb
  | ok _ =>
    cases bounds with
    | ok b => exact .added (hfits rfl).alike rfl
    | error e' => exact .refused fun _ => rfl

/-- **The order of the checks shows only in refusals for more than one fault.** Where the bounds are valid, both
orders find the same first fault. -/
theorem sameAddition_sparse (cache : RowCache) (coeffs indices lo hi : Arg) :
    SameAddition m (∃ b, rowBounds lo hi = .ok b) (m.addDirectly coeffs indices lo hi)
      ((Edit.sparseRow coeffs indices lo hi).apply m cache).2 := by
  rw [Edit.apply_sparseRow, addDirectly, readCachedRow_eq, addSparseRow_eq]
  cases m.readRow coeffs indices with
  | error e => exact .refused fun _ => rfl
  | ok r =>
    show SameAddition m _ ((if r.indices.length = r.coeffs.length then _ else _) >>= _)
      ((checkPattern r.indices r.coeffs m.columns .absent >>= _).map _)
    by_cases hlength : r.indices.length = r.coeffs.length
    · rw [if_pos hlength, bind_assoc]
      exact sameAddition_swap checkPattern_eq_ok_iff.mp (rowBounds lo hi)
    · -- lengths are looked at first in both orders
      rw [if_neg hlength, checkPattern, if_pos hlength]
      exact .refused fun _ => rfl

end Model

/-! ## In every workspace -/

namespace Workspace

/-- **The row cache is transparent.** In a workspace after any calls, with any signatures, a row is added to a
model through the cache if and only if it is added without: the same columns, the same numbers, the same
largest index and the same bounds. A refusal changes no model either way and is of the same kind if the bounds
of the row are valid. What the cache has been through, and which signatures it uses, makes no difference to any
of this. -/
theorem cachedRow_sameAddition (signing : Signing) (calls : List Call) (m : Model)
    (coeffs indices lo hi : Arg) :
    let w := (empty signing).run calls
    let cached := Edit.cachedRow coeffs indices lo hi
    let plain := Edit.sparseRow coeffs indices lo hi
    m.SameAddition (∃ b, rowBounds lo hi = .ok b) (cached.apply m w.cache).2 (plain.apply m w.cache).2 ∧
      (∀ i, ∀ e ∈ [cached, plain], ∀ refusal, (w.call (.edit i e)).2 = .error refusal →
        (w.call (.edit i e)).1.models = w.models) ∧
      ∀ signing' calls', m.SameAddition True (cached.apply m w.cache).2
        (cached.apply m ((empty signing').run calls').cache).2 := by
  intro w cached plain
  have hsound : ∀ signing' calls', ((empty signing').run calls').cache.Sound := by
    intro signing' calls'
    exact ((wellFormed_empty signing').run calls').cache
  have hdirect := Model.sameAddition_direct (m := m) (hsound signing calls) coeffs indices lo hi
  refine ⟨?_, ?_, ?_⟩
  · exact (hdirect.weaken fun _ => trivial).trans (Model.sameAddition_sparse w.cache coeffs indices lo hi)
  · intro i e _ refusal h
    exact (call_refused_unchanged h).1
  · intro signing' calls'
    exact hdirect.trans
      (Model.sameAddition_direct (hsound signing' calls') coeffs indices lo hi).symm

/-- All signatures collide, and a model with three columns has brought in the row `0·x₂ + x₀`. The row with `-0`
in its place is the same to the cache: it comes out with the stored zero, and without the cache as it is. A
model with one column is refused it both ways. -/
theorem cachedRow_sameAddition_of_collision :
    let row (x : Binary64) : Row := .ofArrays [2, 0] [x, Binary64.one]
    let zero := Binary64.zero
    let coeffs (x : Binary64) : Arg := .list [.float x, .int 1]
    let indices : Arg := .list [.int 2, .int 0]
    let calls : List Call := [.create (.int 3) (.int 0) (.float Binary64.infinity),
      .create (.int 1) (.int 0) (.float Binary64.infinity),
      .edit 0 (.cachedRow (coeffs zero) indices (.int 0) (.int 1))]
    let w := (empty (.constant [])).run calls
    let wide := (Model.blank 3 0 Binary64.infinity).append (row zero) zero Binary64.one
    let narrow := Model.blank 1 0 Binary64.infinity
    let cached := Edit.cachedRow (coeffs zero.neg) indices (.int 0) (.int 1)
    let plain := Edit.sparseRow (coeffs zero.neg) indices (.int 0) (.int 1)
    w.models = [wide, narrow] ∧
      (cached.apply wide w.cache).2.toOption =
        some (wide.append (row zero) zero Binary64.one, some true) ∧
      (plain.apply wide w.cache).2.toOption =
        some (wide.append (row zero.neg) zero Binary64.one, none) ∧
      wide.SameAddition (∃ b, rowBounds (.int 0) (.int 1) = .ok b) (cached.apply wide w.cache).2
        (plain.apply wide w.cache).2 ∧
      (cached.apply narrow w.cache).2.toOption = none ∧
      narrow.SameAddition (∃ b, rowBounds (.int 0) (.int 1) = .ok b) (cached.apply narrow w.cache).2
        (plain.apply narrow w.cache).2 := by
  intro row zero coeffs indices calls w wide narrow cached plain
  have hmodels : w.models = [wide, narrow] := by decide +kernel
  have hsame (m : Model) :=
    cachedRow_sameAddition (.constant []) calls m (coeffs zero.neg) indices (.int 0) (.int 1)
  refine ⟨hmodels, ?_, ?_, (hsame wide).1, ?_, (hsame narrow).1⟩
  · decide +kernel
  · decide +kernel
  · decide +kernel

end Workspace

end Milp
