import Milp.Proofs.Registry.Handles

/-!
# Disposing is final

Which handle is meant is decided by equality: true, 1 and 1.0 all mean the first one. Whether a handle that is
not in use has been given out is asked of integers only. So a value that is not an integer but equal to one is as
good as the handle while the session is in use, and means nothing afterwards.

* `Spent` — what is left of a value when the session that it meant has been disposed of: `spent_run`.
* `dispose_eq_done_iff` — which values can be disposed of.
* `disposal_is_final` — both, for every value and after any calls.
-/

namespace Milp.Registry

variable {r : Registry} {w : Outside} {calls : List Call} {a : Arg} {h : Nat} {s : Session}

/-! ## What values mean -/

/-- An argument that leads to a session means the handle of that session. -/
theorem named_of_get (hget : r.get a = .ok s) :
    ∃ h, handle? a = .ok (some h) ∧ h ∈ r.inUse ∧ r.session? h = some s := by
  have hfound := r.found_lookup a
  rw [get] at hget
  generalize r.lookup a = looked at hfound hget
  cases hfound with
  | refused | noHandle => cases hget
  | @inUse h ha hmem =>
    refine ⟨h, ha, hmem, ?_⟩
    cases hs : r.session? h with
    | none =>
      simp only [bind, Except.bind, hs] at hget
      cases hget
    | some s' =>
      simp only [bind, Except.bind, hs] at hget
      exact congrArg some (Except.ok.inj hget)

/-- An integer that has been given out means a handle. -/
theorem named_of_wasIssued (hwas : r.wasIssued a = true) :
    ∃ h, handle? a = .ok (some h) ∧ (r.session? h).isSome = true := by
  -- what is asked of an integer, and the handle that it stands for
  have hnamed : ∀ n : Int, decide (0 < n ∧ n ≤ r.sessions.length) = true →
      (if 0 ≤ n then some n.toNat else none) = some n.toNat ∧ (r.session? n.toNat).isSome = true := by
    intro n hn
    have hbounds := of_decide_eq_true hn
    exact ⟨if_pos (by omega), isSome_session?_iff.mpr (by omega)⟩
  cases a with
  | flag b => exact ⟨_, congrArg Except.ok (hnamed _ hwas).1, (hnamed _ hwas).2⟩
  | int n => exact ⟨_, congrArg Except.ok (hnamed n hwas).1, (hnamed n hwas).2⟩
  | absent | float | text | list | record => cases hwas

/-! ## After the session has been disposed of -/

/-- Why a value is refused whose handle has been disposed of: an integer is known to have been a handle. -/
def spentError (a : Arg) : Error := if a.int?.isSome then .handleDisposed a else .handleUnknown a

theorem category_spentError (a : Arg) :
    (spentError a).category = if a.int?.isSome then .useAfterDispose else .invalidArgument := by
  unfold spentError
  split <;> rfl

/-- **A value is spent**: it leads to no session, nothing can be asked through it, and disposing of it again has no
effect. An integer may be disposed of again. -/
structure Spent (w : Outside) (r : Registry) (a : Arg) : Prop where
  get : r.get a = .error (spentError a)
  ask : ∀ q, r.call w (.ask a q) = (r, .error (spentError a))
  dispose : r.call w (.dispose a) = (r, if a.int?.isSome then .ok .done else .error (spentError a))

theorem refusal_of_issued (ha : handle? a = .ok (some h)) (hissued : (r.session? h).isSome = true) :
    r.refusal a = spentError a := by
  rw [refusal, wasIssued_of_handle? ha, hissued, Bool.and_true]
  rfl

/-- A handle that has been given out and is not in use is spent. -/
theorem spent_of_not_mem (ha : handle? a = .ok (some h)) (hissued : (r.session? h).isSome = true)
    (hnot : h ∉ r.inUse) : Spent w r a where
  get := by rw [get_of_not_mem ha (not_mem_of_named hnot), refusal_of_issued ha hissued]
  ask := by
    intro q
    refine call_ask_of_error ?_ q
    rw [lookup_of_not_mem ha (not_mem_of_named hnot), refusal_of_issued ha hissued]
  dispose := by
    rw [call_dispose_of_none (findToDispose?_of_not_mem ha (not_mem_of_named hnot)), wasIssued_of_handle? ha,
      hissued, Bool.and_true]
    cases hint : a.int?.isSome with
    | true => rfl
    | false => simp [spentError, hint]

/-- **What means a handle that has been disposed of is spent**, whatever has been called since. -/
theorem spent_run (ha : handle? a = .ok (some h)) (hdisposed : Disposed w calls h) :
    Spent w (empty.run w calls) a := by
  refine spent_of_not_mem ha (isSome_session?_iff.mpr (mem_issued_iff.mp (mem_issued_of_disposed hdisposed))) ?_
  intro hmem
  exact ((mem_inUse_run w calls h).mp hmem).2 hdisposed

/-! ## What can be disposed of -/

/-- What cannot stand for a handle has not been given out as one. -/
theorem wasIssued_of_error {e : Error} (ha : handle? a = .error e) : r.wasIssued a = false := by
  cases a with
  | flag | int => cases ha
  | absent | float | text | list | record => rfl

/-- Of a value that means no handle in use, it matters whether it has been given out. -/
theorem call_dispose_of_unused (hnot : ∀ h, handle? a = .ok (some h) → h ∉ r.inUse) :
    (r.call w (.dispose a)).2 = .ok .done ↔ r.wasIssued a = true := by
  have hnone (hfind : r.findToDispose? a = .ok none) :
      (r.call w (.dispose a)).2 = .ok .done ↔ r.wasIssued a = true := by
    rw [call_dispose_of_none hfind]
    cases r.wasIssued a <;> simp
  cases ha : handle? a with
  | ok named => exact hnone (findToDispose?_of_not_mem ha fun h hnamed => hnot h (hnamed ▸ ha))
  | error e =>
    rcases findToDispose?_of_error ha with hfind | hfind
    · exact hnone hfind
    · rw [wasIssued_of_error ha]
      simp [call, dispose, hfind, bind, Except.bind]

/-- **What can be disposed of**: everything that means a handle in use, and integers that have been given out. -/
theorem call_dispose_eq_done_iff : (r.call w (.dispose a)).2 = .ok .done ↔
    ∃ h, handle? a = .ok (some h) ∧ (h ∈ r.inUse ∨ a.int?.isSome = true ∧ (r.session? h).isSome = true) := by
  by_cases hmem : ∃ h, handle? a = .ok (some h) ∧ h ∈ r.inUse
  · obtain ⟨h, ha, hmem⟩ := hmem
    rw [call_dispose_of_mem ha hmem]
    exact ⟨fun _ => ⟨h, ha, .inl hmem⟩, fun _ => rfl⟩
  · rw [call_dispose_of_unused fun h ha hin => hmem ⟨h, ha, hin⟩]
    constructor
    · intro hwas
      obtain ⟨h, ha, hissued⟩ := named_of_wasIssued hwas
      rw [wasIssued_of_handle? ha, Bool.and_eq_true] at hwas
      exact ⟨h, ha, .inr hwas⟩
    · rintro ⟨h, ha, hin | ⟨hint, hissued⟩⟩
      · exact absurd ⟨h, ha, hin⟩ hmem
      · rw [wasIssued_of_handle? ha, hint, hissued]
        rfl

/-- **What can be disposed of after calls**: everything that means a handle that has been given out, if it is an
integer or the handle has not been disposed of. -/
theorem dispose_eq_done_iff (w : Outside) (calls : List Call) (a : Arg) :
    ((empty.run w calls).call w (.dispose a)).2 = .ok .done ↔
      ∃ h ∈ issued w calls, handle? a = .ok (some h) ∧ (a.int?.isSome = true ∨ ¬ Disposed w calls h) := by
  simp only [call_dispose_eq_done_iff, mem_inUse_run, isSome_session?_iff, ← mem_issued_iff]
  constructor
  · rintro ⟨h, ha, ⟨hissued, hdisposed⟩ | ⟨hint, hissued⟩⟩
    · exact ⟨h, hissued, ha, .inr hdisposed⟩
    · exact ⟨h, hissued, ha, .inl hint⟩
  · rintro ⟨h, hissued, ha, hint | hdisposed⟩
    · exact ⟨h, ha, .inr ⟨hint, hissued⟩⟩
    · exact ⟨h, ha, .inl ⟨hissued, hdisposed⟩⟩

/-! ## For every value -/

/-- **Disposing is final for every value.** What can be disposed of is spent from then on, whatever is called later:
it leads to no session, and disposing of it again has no effect. So is what has once led to a session, from the time
when that session is disposed of, whoever does it. What is spent is refused as disposed of if it is an integer, and
may be disposed of again; a number of another kind is refused as no handle. -/
theorem disposal_is_final (w : Outside) (calls : List Call) (a : Arg) :
    (((empty.run w calls).call w (.dispose a)).2 = .ok .done →
      ∀ later, Spent w (((empty.run w calls).call w (.dispose a)).1.run w later) a) ∧
    (∀ s, (empty.run w calls).get a = .ok s → ∃ h ∈ issued w calls, s.handle = some h ∧
      ∀ later, Disposed w (calls ++ later) h → Spent w ((empty.run w calls).run w later) a) ∧
    (((empty.run w calls).call w (.dispose a)).2 = .ok .done ↔
      ∃ h ∈ issued w calls, handle? a = .ok (some h) ∧ (a.int?.isSome = true ∨ ¬ Disposed w calls h)) ∧
    (spentError a).category = if a.int?.isSome then .useAfterDispose else .invalidArgument := by
  refine ⟨?_, ?_, dispose_eq_done_iff w calls a, category_spentError a⟩
  · intro hdone later
    obtain ⟨h, hissued, ha, -⟩ := (dispose_eq_done_iff w calls a).mp hdone
    rw [← run_concat, ← run_append]
    refine spent_run ha ?_
    -- the call that disposes of it is the one between `calls` and `later`
    rw [List.append_assoc]
    exact ⟨calls, .dispose a, later, rfl, hissued, ha⟩
  · intro s hget
    obtain ⟨h, ha, hmem, hs⟩ := named_of_get hget
    have hissued := ((mem_inUse_run w calls h).mp hmem).1
    refine ⟨h, hissued, (kept_run w calls).handle h s hs, fun later hdisposed => ?_⟩
    rw [← run_append]
    exact spent_run ha hdisposed

/-- The first of two handles is disposed of as true and is spent when a third session has been made; it led to a
session before. -/
theorem disposal_is_final_of_flag :
    let w : Outside := ⟨⟨"plain", .float Binary64.infinity⟩, .absent, fun _ _ => .failure "", Binary64.dot⟩
    let construct : Call := .construct (.int 1) (.int 0)
    let r := empty.run w [construct, construct]
    let r' := (r.call w (.dispose (.flag true))).1.run w [construct]
    (∃ s, r.get (.flag true) = .ok s) ∧ (r.call w (.dispose (.flag true))).2 = .ok .done ∧
      r'.handles = [2, 3] ∧ r'.get (.flag true) = .error (.handleDisposed (.flag true)) ∧
      r'.call w (.dispose (.flag true)) = (r', .ok .done) ∧
      Spent w (r.run w [.disposeAll]) (.flag true) := by
  intro w construct r r'
  obtain ⟨hspent, hled, -, -⟩ := disposal_is_final w [construct, construct] (.flag true)
  have hmem : 1 ∈ r.inUse := by decide +kernel
  have ha : handle? (.flag true) = .ok (some 1) := rfl
  have hdone : (r.call w (.dispose (.flag true))).2 = .ok .done := by rw [call_dispose_of_mem ha hmem]
  obtain ⟨s, hs⟩ := (kept_run w _).session?_of_mem hmem
  have hget := get_of_mem ha hmem hs
  obtain ⟨h, hissued, hhandle, hlater⟩ := hled s hget
  refine ⟨⟨s, hget⟩, hdone, by decide +kernel, (hspent hdone _).get, (hspent hdone _).dispose, hlater _ ?_⟩
  exact ⟨_, .disposeAll, [], rfl, hissued, trivial⟩

/-- **A number that is not an integer is forgotten.** The only handle is disposed of as `1.0`; the same once more is
refused, and so is looking it up, both as no handle. -/
theorem float_handle_forgotten :
    let w : Outside := ⟨⟨"plain", .float Binary64.infinity⟩, .absent, fun _ _ => .failure "", Binary64.dot⟩
    let r := empty.run w [.construct (.int 1) (.int 0)]
    let a : Arg := .float Binary64.one
    let r' := (r.call w (.dispose a)).1
    (∃ s, r.get a = .ok s) ∧ (r.call w (.dispose a)).2 = .ok .done ∧
      (r'.call w (.dispose a)).2 = .error (.handleUnknown a) ∧ r'.get a = .error (.handleUnknown a) ∧
      (Error.handleUnknown a).category = .invalidArgument := by
  intro w r a r'
  have hmem : 1 ∈ r.inUse := by decide +kernel
  have hwhole : a.whole? = some 1 := by decide +kernel
  have ha : handle? a = .ok (some 1) := by simp [handle?, a, hwhole]
  have hdone : r.call w (.dispose a) = (r.without 1, .ok .done) := call_dispose_of_mem ha hmem
  have hspent : Spent w r' a := by
    refine spent_of_not_mem ha ?_ ?_
    · simp only [r', hdone]
      decide +kernel
    · simp only [r', hdone]
      decide +kernel
  obtain ⟨s, hs⟩ := (kept_run w _).session?_of_mem hmem
  exact ⟨⟨s, get_of_mem ha hmem hs⟩, by rw [hdone], by rw [hspent.dispose]; rfl, hspent.get, rfl⟩

end Milp.Registry
