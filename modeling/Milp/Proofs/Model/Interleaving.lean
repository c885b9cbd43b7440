import Milp.Proofs.Batch.Reading
import Milp.Proofs.Model.Additions
import Milp.Proofs.Model.Calls
import Milp.Proofs.Model.Parts
import Milp.Solve.Engine

/-!
# Edits in any order

Edits of different parts do not get in each other's way: in whatever order they come, as long as the edits of each
part keep theirs, every edit is answered alike, and the model and the cache end up the same. In the end a column
vector is the one that was set last, and the rows are those that were added, in order.

* `Bench` — a model and the cache that it uses: what edits in a row make of them, and what they are answered.
* `Bench.SameOn` — benches that are the same as far as one part is concerned; `SameOn.step` and `SameOn.skip` say
  what an edit does to them, `sameOn_run` what edits in a row do.
* `Edit.IsIn` and `Edit.Adds` — what an accepted edit sets, and which rows it adds.
* `Workspace.edits_interleave` — the order of edits of different parts is irrelevant.
-/

namespace Milp

/-! ## What an edit leaves -/

namespace Model

variable {p q : Part} {m m' : Model}

/-- **What an edit of a part leaves**: the model with the part, or the model itself. -/
def withOutcome (m : Model) (p : Part) : Except Error (Model × Option Bool) → Model
  | .ok b => m.withPart p b.1
  | .error _ => m

variable (outcome : Except Error (Model × Option Bool))

@[simp] theorem frame_withOutcome (m : Model) (p : Part) : (m.withOutcome p outcome).frame = m.frame := by
  cases outcome with
  | error refusal => rfl
  | ok b => cases p <;> rfl

/-- A part that is the same in two models is the same after it has been edited in both. -/
theorem part_withOutcome_congr (h : m.part p = m'.part p) :
    (m.withOutcome p outcome).part p = (m'.withOutcome p outcome).part p := by
  cases outcome with
  | error refusal => exact h
  | ok b =>
    cases p with
    | rows => exact congrArg (· ++ b.1.rows) h
    | objective | bounds | start | integer => rfl

/-- The other parts stay what they are. -/
theorem part_withOutcome_of_ne (hne : q ≠ p) (m : Model) : (m.withOutcome q outcome).part p = m.part p := by
  cases outcome with
  | error refusal => rfl
  | ok b => cases p <;> cases q <;> first | exact absurd rfl hne | rfl

end Model

/-! ## Edits in a row -/

namespace Bench

/-- An edit, and what it was answered. -/
abbrev Reply : Type := Edit × Except Error (Option Bool)

/-- **After an edit.** -/
def step (d : Bench) (e : Edit) : Bench := (e.perform d).1

/-- The answer to an edit. -/
def answer (d : Bench) (e : Edit) : Except Error (Option Bool) := (e.perform d).2

/-- After edits in a row. -/
def run (d : Bench) (es : List Edit) : Bench := es.foldl step d

/-- Edits in a row, with the answers to them. -/
def replies (d : Bench) : List Edit → List Reply
  | [] => []
  | e :: rest => (e, d.answer e) :: (d.step e).replies rest

variable {p : Part} {c d : Bench} {e : Edit}

/-- What the edit comes to on the frame of the model. -/
def outcome (d : Bench) (e : Edit) : Except Error (Model × Option Bool) := (e.apply d.model.frame d.cache).2

theorem answer_eq (d : Bench) (e : Edit) : d.answer e = (d.outcome e).map Prod.snd := by
  rw [answer, outcome, e.perform_eq d.model d.cache, e.apply_frame d.model]
  cases (e.apply d.model.frame d.cache).2 <;> rfl

/-- A refused edit leaves the model as it was. -/
theorem model_step (d : Bench) (e : Edit) : (d.step e).model = d.model.withOutcome e.part (d.outcome e) := by
  rw [step, outcome, e.perform_eq d.model d.cache, e.apply_frame d.model]
  cases (e.apply d.model.frame d.cache).2 <;> rfl

theorem cache_step (d : Bench) (e : Edit) : (d.step e).cache = (e.apply d.model.frame d.cache).1 := by
  rw [step, e.perform_eq d.model d.cache, e.apply_frame d.model]
  cases (e.apply d.model.frame d.cache).2 <;> rfl

@[simp] theorem frame_step (d : Bench) (e : Edit) : (d.step e).model.frame = d.model.frame := by
  rw [model_step, Model.frame_withOutcome]

theorem frame_run (d : Bench) (es : List Edit) : (d.run es).model.frame = d.model.frame := by
  induction es generalizing d with
  | nil => rfl
  | cons e rest ih => exact (ih (d.step e)).trans (frame_step d e)

/-- **Benches that are the same as far as one part is concerned.** Rows need the cache, too. -/
structure SameOn (p : Part) (c d : Bench) : Prop where
  frame : c.model.frame = d.model.frame
  part : c.model.part p = d.model.part p
  cache : p = .rows → c.cache = d.cache

namespace SameOn

variable {b : Bench}

theorem refl (p : Part) (d : Bench) : SameOn p d d := ⟨rfl, rfl, fun _ => rfl⟩

theorem symm (h : SameOn p c d) : SameOn p d c := ⟨h.frame.symm, h.part.symm, fun hp => (h.cache hp).symm⟩

theorem trans (h : SameOn p b c) (h' : SameOn p c d) : SameOn p b d :=
  ⟨h.frame.trans h'.frame, h.part.trans h'.part, fun hp => (h.cache hp).trans (h'.cache hp)⟩

/-- **An edit of the part** gets the same answer, and keeps the benches the same. -/
theorem step (h : SameOn e.part c d) : c.answer e = d.answer e ∧ SameOn e.part (c.step e) (d.step e) := by
  have houtcome : c.outcome e = d.outcome e := by
    rw [outcome, outcome, h.frame]
    by_cases hrows : e.part = .rows
    · rw [h.cache hrows]
    · rw [Edit.apply_cache hrows d.model.frame c.cache d.cache]
  refine ⟨by rw [answer_eq, answer_eq, houtcome], ?_, ?_, ?_⟩
  · rw [frame_step, frame_step, h.frame]
  · rw [model_step, model_step, houtcome]
    exact Model.part_withOutcome_congr _ h.part
  · intro hrows
    rw [cache_step, cache_step, h.frame, h.cache hrows]

/-- **An edit of another part** changes nothing of this one. -/
theorem skip (hne : e.part ≠ p) : SameOn p (d.step e) d where
  frame := frame_step d e
  part := by
    rw [model_step]
    exact Model.part_withOutcome_of_ne _ hne d.model
  cache := by
    rintro rfl
    rw [cache_step, Edit.apply_cache hne d.model.frame d.cache d.cache]

end SameOn

/-- **Edits in a row** do to a part what those of the part do alone, and answer them alike. -/
theorem sameOn_run (h : SameOn p c d) (es : List Edit) :
    SameOn p (c.run es) (d.run (es.filter (·.part = p))) ∧
      (c.replies es).filter (·.1.part = p) = d.replies (es.filter (·.part = p)) := by
  induction es generalizing c d with
  | nil => exact ⟨h, rfl⟩
  | cons e rest ih =>
    by_cases he : e.part = p
    · subst he
      obtain ⟨hanswer, hstep⟩ := h.step
      obtain ⟨hrun, hreplies⟩ := ih hstep
      rw [List.filter_cons_of_pos (by simp), replies, List.filter_cons_of_pos (by simp), hanswer, hreplies]
      exact ⟨hrun, rfl⟩
    · -- an edit of another part happens on the first bench only
      obtain ⟨hrun, hreplies⟩ := ih ((SameOn.skip he).trans h)
      rw [List.filter_cons_of_neg (by simpa using he), replies, List.filter_cons_of_neg (by simpa using he), hreplies]
      exact ⟨hrun, rfl⟩

/-- **The order of edits of different parts is irrelevant**, on a bench. -/
theorem run_eq_of_parts {es fs : List Edit} (hparts : ∀ p, es.filter (·.part = p) = fs.filter (·.part = p))
    (d : Bench) : d.run fs = d.run es ∧
      ∀ p, (d.replies fs).filter (·.1.part = p) = (d.replies es).filter (·.1.part = p) := by
  have hes := fun p => sameOn_run (.refl p d) es
  have hfs := fun p => sameOn_run (.refl p d) fs
  have hsame : ∀ p, SameOn p (d.run fs) (d.run es) := by
    intro p
    refine (hfs p).1.trans ?_
    rw [← hparts p]
    exact (hes p).1.symm
  have hmodel := Model.eq_of_parts (hsame .rows).frame fun p => (hsame p).part
  have hcache := (hsame .rows).cache rfl
  refine ⟨?_, fun p => ?_⟩
  · calc d.run fs = ⟨(d.run fs).model, (d.run fs).cache⟩ := rfl
      _ = ⟨(d.run es).model, (d.run es).cache⟩ := by rw [hmodel, hcache]
      _ = d.run es := rfl
  · rw [(hfs p).2, ← hparts p, (hes p).2]

end Bench

/-! ## What accepted edits leave -/

namespace Edit

/-- **`e.IsIn m`** — the model has what the edit of a column vector gives. -/
inductive IsIn (m : Model) : Edit → Prop where
  | objective {coeffs : Arg} (h : numberVector coeffs (.int m.columns) "objective" = .ok m.objective) :
      IsIn m (.objective coeffs)
  /-- bounds beyond infinity are moved to it -/
  | columnBounds {lower upper : Arg} {los his : List Binary64}
      (hlos : numberVector lower (.int m.columns) "column lower bounds" = .ok los)
      (hhis : numberVector upper (.int m.columns) "column upper bounds" = .ok his)
      (hlower : m.lower = los.map fun x => x.maximum m.infinity.neg)
      (hupper : m.upper = his.map fun x => x.minimum m.infinity) : IsIn m (.columnBounds lower upper)
  | columnStart {values : Arg} {xs : List Binary64}
      (hxs : numberVector values (.int m.columns) "column start values" = .ok xs) (hstart : m.start = some xs) :
      IsIn m (.columnStart values)
  | columnInteger {flags : Arg} (h : flagVector flags m.columns = .ok m.integer) : IsIn m (.columnInteger flags)

/-- **`e.Adds n rows`** — these are the rows that the edit stands for in a model with `n` columns. A row that comes
from the cache only looks like the one that was asked for. -/
inductive Adds (n : Nat) : Edit → List BoundedRow → Prop where
  | denseRow {coeffs lo hi : Arg} {xs : List Binary64} {l u : Binary64}
      (hxs : numberVector coeffs (.int n) "dense row" = .ok xs) (hbounds : rowBounds lo hi = .ok (l, u)) :
      Adds n (.denseRow coeffs lo hi) [⟨Row.ofDense xs, l, u⟩]
  | sparseRow {coeffs indices lo hi : Arg} {r : Row} {l u : Binary64}
      (hcoeffs : coefficientVector coeffs "sparse row coefficients" = .ok r.coeffs)
      (hindices : indexVector indices "sparse row indices" = .ok r.indices)
      (hbounds : rowBounds lo hi = .ok (l, u)) : Adds n (.sparseRow coeffs indices lo hi) [⟨r, l, u⟩]
  | cachedRow {coeffs indices lo hi : Arg} {r s : Row} {l u : Binary64}
      (hcoeffs : coefficientVector coeffs "sparse row coefficients" = .ok r.coeffs)
      (hindices : indexVector indices "sparse row indices" = .ok r.indices)
      (hbounds : rowBounds lo hi = .ok (l, u)) (hrow : s.Alike r) :
      Adds n (.cachedRow coeffs indices lo hi) [⟨s, l, u⟩]
  | rows {rowCount starts indices coeffs lower upper : Arg} {b : Model.Batch}
      (hread : Model.readBatch rowCount starts indices coeffs lower upper = .ok b) :
      Adds n (.rows rowCount starts indices coeffs lower upper) b.pieces

variable {e : Edit} {m m' : Model} {cache : RowCache} {hit : Option Bool}

/-- What an edit gave stays in a model as long as its part does. -/
theorem IsIn.of_part_eq (h : e.IsIn m) (hframe : m.frame = m'.frame) (hpart : m.part e.part = m'.part e.part) :
    e.IsIn m' := by
  have hcolumns : m.columns = m'.columns := Model.columns_eq_of_frame hframe
  have hinfinity : m.infinity = m'.infinity := Model.infinity_eq_of_frame hframe
  cases h with
  | objective h => exact .objective (by rw [← hcolumns, h, show m.objective = m'.objective from hpart])
  | columnBounds hlos hhis hlower hupper =>
    obtain ⟨hl, hu⟩ := Prod.mk.inj hpart
    exact .columnBounds (hcolumns ▸ hlos) (hcolumns ▸ hhis) (by rw [← hl, hlower, hinfinity])
      (by rw [← hu, hupper, hinfinity])
  | columnStart hxs hstart =>
    exact .columnStart (hcolumns ▸ hxs) (by rw [← hstart, show m.start = m'.start from hpart])
  | columnInteger h => exact .columnInteger (by rw [← hcolumns, h, show m.integer = m'.integer from hpart])

/-- **An accepted edit of a column vector** is in the model afterwards. -/
theorem isIn_of_apply (he : e.part ≠ .rows) (h : (e.apply m cache).2 = .ok (m', hit)) : e.IsIn m' := by
  cases e with
  | denseRow | sparseRow | cachedRow | rows => exact absurd rfl he
  | objective coeffs =>
    rw [apply_objective] at h
    obtain ⟨-, xs, hxs, -, rfl⟩ := Model.setObjective_eq_ok_iff.mp (map_pair_eq_ok_iff.mp h).1
    exact .objective hxs
  | columnBounds lower upper =>
    rw [apply_columnBounds] at h
    obtain ⟨-, los, his, hlos, hhis, -, -, -, rfl⟩ := Model.setColumnBounds_eq_ok_iff.mp (map_pair_eq_ok_iff.mp h).1
    exact .columnBounds hlos hhis rfl rfl
  | columnStart values =>
    rw [apply_columnStart] at h
    obtain ⟨-, xs, hxs, -, rfl⟩ := Model.setColumnStart_eq_ok_iff.mp (map_pair_eq_ok_iff.mp h).1
    exact .columnStart hxs rfl
  | columnInteger flags =>
    rw [apply_columnInteger] at h
    obtain ⟨-, bs, hbs, rfl⟩ := Model.setColumnInteger_eq_ok_iff.mp (map_pair_eq_ok_iff.mp h).1
    exact .columnInteger hbs

theorem Adds.of_addCachedRow {coeffs indices lo hi : Arg} {found : Bool}
    (h : (m.addCachedRow cache coeffs indices lo hi).2 = .ok (m', found)) :
    ∃ added, Adds m.columns (Edit.cachedRow coeffs indices lo hi) added ∧ m'.rows = m.rows ++ added := by
  cases hread : m.readCachedRow coeffs indices lo hi with
  | error refusal =>
    rw [Model.addCachedRow_of_error hread] at h
    cases h
  | ok given =>
    obtain ⟨r, l, u⟩ := given
    obtain ⟨hrow, -, hbounds⟩ := Model.readCachedRow_eq_ok_iff.mp hread
    obtain ⟨hcoeffs, hindices⟩ := Model.readRow_eq_ok hrow
    have haddition := Model.cachedAddition cache hread
    generalize m.addCachedRow cache coeffs indices lo hi = answer at haddition h
    cases haddition with
    | tooWide | refused => cases h
    | shared s hfind hwide =>
      cases h
      exact ⟨_, .cachedRow hcoeffs hindices hbounds (RowCache.alike_of_lookup hfind), rfl⟩
    | stored hkey hnew hfits =>
      cases h
      exact ⟨_, .cachedRow hcoeffs hindices hbounds hfits.alike, rfl⟩

/-- **An accepted edit of the rows** puts its rows behind the others. -/
theorem adds_of_apply (he : e.part = .rows) (h : (e.apply m cache).2 = .ok (m', hit)) :
    ∃ added, e.Adds m.columns added ∧ m'.rows = m.rows ++ added := by
  cases e with
  | objective | columnBounds | columnStart | columnInteger => cases he
  | denseRow coeffs lo hi =>
    rw [apply_denseRow] at h
    obtain ⟨-, xs, l, u, hxs, -, hbounds, rfl⟩ := Model.addDenseRow_eq_ok_iff.mp (map_pair_eq_ok_iff.mp h).1
    exact ⟨_, .denseRow hxs hbounds, rfl⟩
  | sparseRow coeffs indices lo hi =>
    rw [apply_sparseRow] at h
    obtain ⟨r, l, u, hread, -, hbounds, rfl⟩ := Model.addSparseRow_eq_ok_iff.mp (map_pair_eq_ok_iff.mp h).1
    obtain ⟨hcoeffs, hindices⟩ := Model.readRow_eq_ok hread
    exact ⟨_, .sparseRow hcoeffs hindices hbounds, rfl⟩
  | rows rowCount starts indices coeffs lower upper =>
    rw [apply_rows] at h
    obtain ⟨-, n, b, -, -, hread, -, -, rfl⟩ := Model.addRows_eq_ok_iff.mp (map_pair_eq_ok_iff.mp h).1
    exact ⟨_, .rows hread, rfl⟩
  | cachedRow coeffs indices lo hi =>
    rw [apply_cachedRow] at h
    obtain ⟨b, hadded, hb⟩ := map_eq_ok_iff.mp h
    cases hb
    exact Adds.of_addCachedRow hadded

end Edit

namespace Bench

variable {p : Part} {d : Bench} {e : Edit}

/-- **The edits of a part that were accepted**, in order. -/
def accepted (p : Part) (replies : List Reply) : List Edit :=
  (replies.filter fun r => r.1.part = p && r.2.isOk).map Prod.fst

theorem accepted_cons_of_pos (he : e.part = p) {answer : Except Error (Option Bool)} (h : answer.isOk = true)
    (rest : List Reply) : accepted p ((e, answer) :: rest) = e :: accepted p rest := by
  rw [accepted, List.filter_cons_of_pos (by simp [he, h])]
  rfl

theorem accepted_cons_of_neg {answer : Except Error (Option Bool)} (h : ¬ (e.part = p ∧ answer.isOk = true))
    (rest : List Reply) : accepted p ((e, answer) :: rest) = accepted p rest := by
  rw [accepted, List.filter_cons_of_neg (by simpa using h)]
  rfl

/-- An edit that is accepted leaves the model that it makes. -/
theorem apply_of_isOk (h : (d.answer e).isOk = true) :
    ∃ hit, (e.apply d.model d.cache).2 = .ok ((d.step e).model, hit) := by
  unfold answer at h
  unfold step
  rw [e.perform_eq d.model d.cache] at h ⊢
  generalize e.apply d.model d.cache = applied at h ⊢
  obtain ⟨cache, result⟩ := applied
  cases result with
  | error refusal => cases h
  | ok b => exact ⟨b.2, rfl⟩

/-- An edit of another part, or one that is refused, leaves the part as it was. -/
theorem part_step (h : ¬ (e.part = p ∧ (d.answer e).isOk = true)) : (d.step e).model.part p = d.model.part p := by
  by_cases he : e.part = p
  · have hrefused : ¬ (d.answer e).isOk = true := fun hok => h ⟨he, hok⟩
    rw [answer_eq] at hrefused
    rw [model_step]
    cases hr : d.outcome e with
    | error refusal => rfl
    | ok b =>
      rw [hr] at hrefused
      exact absurd rfl hrefused
  · exact (SameOn.skip he).part

/-- **After edits in a row a column vector is the one that was set last**, and if none was set what it was. -/
theorem column_run (hp : p ≠ .rows) (d : Bench) (es : List Edit) :
    match (accepted p (d.replies es)).getLast? with
    | some e => e.IsIn (d.run es).model
    | none => (d.run es).model.part p = d.model.part p := by
  induction es generalizing d with
  | nil => rfl
  | cons e rest ih =>
    have hrest := ih (d.step e)
    by_cases he : e.part = p ∧ (d.answer e).isOk = true
    · obtain ⟨hit, happly⟩ := apply_of_isOk he.2
      have hin := Edit.isIn_of_apply (he.1 ▸ hp) happly
      rw [replies, accepted_cons_of_pos he.1 he.2, List.getLast?_cons]
      -- the edit is the last of its part, unless a later one is accepted
      generalize (accepted p ((d.step e).replies rest)).getLast? = last at hrest ⊢
      cases last with
      | some last => exact hrest
      | none => exact hin.of_part_eq (frame_run (d.step e) rest).symm (he.1 ▸ hrest.symm)
    · rw [replies, accepted_cons_of_neg he]
      generalize (accepted p ((d.step e).replies rest)).getLast? = last at hrest ⊢
      cases last with
      | some last => exact hrest
      | none => exact hrest.trans (part_step he)

/-- **Edits in a row add their rows in order.** -/
theorem rows_run (d : Bench) (es : List Edit) :
    ∃ added, (d.run es).model.rows = d.model.rows ++ added.flatten ∧
      List.Forall₂ (Edit.Adds d.model.columns) (accepted .rows (d.replies es)) added := by
  induction es generalizing d with
  | nil => exact ⟨[], (List.append_nil _).symm, .nil⟩
  | cons e rest ih =>
    obtain ⟨added, hrows, hadds⟩ := ih (d.step e)
    rw [Model.columns_eq_of_frame (frame_step d e)] at hadds
    by_cases he : e.part = .rows ∧ (d.answer e).isOk = true
    · obtain ⟨hit, happly⟩ := apply_of_isOk he.2
      obtain ⟨own, hown, hstep⟩ := Edit.adds_of_apply he.1 happly
      refine ⟨own :: added, ?_, ?_⟩
      · rw [List.flatten_cons, ← List.append_assoc, ← hstep]
        exact hrows
      · rw [replies, accepted_cons_of_pos he.1 he.2]
        exact .cons hown hadds
    · have hstep : (d.step e).model.rows = d.model.rows := part_step he
      refine ⟨added, ?_, ?_⟩
      · rw [← hstep]
        exact hrows
      · rw [replies, accepted_cons_of_neg he]
        exact hadds

end Bench

/-! ## Edits of a model in a workspace -/

namespace Workspace

variable {w : Workspace} {i : Nat} {m : Model}

theorem call_edit (hm : w.models[i]? = some m) (e : Edit) :
    let d : Bench := ⟨m, w.cache⟩
    w.call (.edit i e) = ({ w with cache := (d.step e).cache }.put i (d.step e).model, d.answer e) := by
  intro d
  simp only [call, hm]
  rfl

/-- **Edits of one model** do to the workspace what they do to the model and the cache. -/
theorem run_edits (hm : w.models[i]? = some m) (es : List Edit) :
    let d := Bench.run ⟨m, w.cache⟩ es
    w.run (es.map (.edit i)) = { w with cache := d.cache }.put i d.model := by
  induction es generalizing w m with
  | nil => exact (put_self hm).symm
  | cons e rest ih =>
    let d := Bench.step ⟨m, w.cache⟩ e
    have hd : ({ w with cache := d.cache }.put i d.model).models[i]? = some d.model :=
      models_put (w := { w with cache := d.cache }) hm d.model
    intro d'
    rw [List.map_cons, run_cons, call_edit hm]
    exact (ih hd).trans (put_put { w with cache := d'.cache } i d.model d'.model)

theorem zip_answers_edits (hm : w.models[i]? = some m) (es : List Edit) :
    es.zip (w.answers (es.map (.edit i))) = Bench.replies ⟨m, w.cache⟩ es := by
  induction es generalizing w m with
  | nil => rfl
  | cons e rest ih =>
    let d := Bench.step ⟨m, w.cache⟩ e
    have hd : ({ w with cache := d.cache }.put i d.model).models[i]? = some d.model :=
      models_put (w := { w with cache := d.cache }) hm d.model
    rw [List.map_cons, answers, List.zip_cons_cons, call_edit hm]
    exact congrArg (_ :: ·) (ih hd)

/-- **The order of edits of different parts is irrelevant.** Two sequences of edits of one model that have the same
edits of each part, in the same order, make the same workspace, and answer each edit alike. Then every column vector
of the model is the one that was set last, or what it was before; behind the rows that the model had are those of the
accepted edits, in order; and the linear program, the fall-back point and the start values are the same. -/
theorem edits_interleave (hm : w.models[i]? = some m) {es fs : List Edit}
    (hparts : ∀ p, es.filter (·.part = p) = fs.filter (·.part = p)) :
    let replies (es : List Edit) : List Bench.Reply := es.zip (w.answers (es.map (.edit i)))
    w.run (fs.map (.edit i)) = w.run (es.map (.edit i)) ∧
    (∀ p, (replies fs).filter (·.1.part = p) = (replies es).filter (·.1.part = p)) ∧
    ∃ m', (w.run (es.map (.edit i))).models[i]? = some m' ∧ m'.frame = m.frame ∧
      (∀ p, p ≠ .rows →
        match (Bench.accepted p (replies es)).getLast? with
        | some e => e.IsIn m'
        | none => m'.part p = m.part p) ∧
      (∃ added, m'.rows = m.rows ++ added.flatten ∧
        List.Forall₂ (Edit.Adds m.columns) (Bench.accepted .rows (replies es)) added) ∧
      ∀ m'', (w.run (fs.map (.edit i))).models[i]? = some m'' →
        m''.translate = m'.translate ∧ m''.violated = m'.violated ∧ m''.fallback = m'.fallback ∧
          ∀ config, m''.startValues config = m'.startValues config := by
  intro replies
  let d : Bench := ⟨m, w.cache⟩
  obtain ⟨hsame, hreplies⟩ := Bench.run_eq_of_parts hparts d
  have hrun : w.run (fs.map (.edit i)) = w.run (es.map (.edit i)) := by
    rw [run_edits hm fs, run_edits hm es, hsame]
  have hmodel : (w.run (es.map (.edit i))).models[i]? = some (d.run es).model := by
    rw [run_edits hm es]
    exact models_put (w := { w with cache := (d.run es).cache }) hm _
  simp only [replies, zip_answers_edits hm]
  refine ⟨hrun, hreplies, (d.run es).model, hmodel, Bench.frame_run d es, fun p hp => Bench.column_run hp d es,
    Bench.rows_run d es, ?_⟩
  intro m'' hm''
  rw [hrun, hmodel] at hm''
  cases hm''
  exact ⟨rfl, rfl, rfl, fun config => rfl⟩

/-- An objective is set and another one refused, start values are set, and a row is added through the cache twice, in
two orders: the row is new the first time and comes from the cache the second time in both. -/
theorem edits_interleave_of_two_orders :
    let m := Model.blank 1 0 Binary64.infinity
    let w : Workspace := ⟨[m], RowCache.empty (.constant [])⟩
    let two := Edit.objective (.list [.int 2])
    let tooShort := Edit.objective (.list [])
    let start := Edit.columnStart (.list [.int 5])
    let row := Edit.cachedRow (.list [.int 1]) (.list [.int 0]) (.int 0) (.int 1)
    let es := [two, row, start, tooShort, row]
    let fs := [row, start, row, two, tooShort]
    let answers (es : List Edit) := (w.answers (es.map (.edit 0))).map Except.toOption
    w.models[0]? = some m ∧ (∀ p, es.filter (·.part = p) = fs.filter (·.part = p)) ∧
      answers es = [some none, some (some false), some none, none, some (some true)] ∧
      answers fs = [some (some false), some none, some (some true), some none, none] ∧
      w.run (fs.map (.edit 0)) = w.run (es.map (.edit 0)) ∧
      ((w.run (fs.map (.edit 0))).models[0]?.map fun m' => (m'.objective, m'.start, m'.rows.length)) =
        some ([Binary64.ofInt 2], some [Binary64.ofInt 5], 2) := by
  intro m w two tooShort start row es fs answers
  have hparts : ∀ p, es.filter (·.part = p) = fs.filter (·.part = p) := by
    intro p
    cases p <;> rfl
  obtain ⟨hrun, -⟩ := edits_interleave (w := w) (i := 0) (m := m) rfl hparts
  exact ⟨rfl, hparts, by decide +kernel, by decide +kernel, hrun, by decide +kernel⟩

end Workspace

end Milp
