import Mathlib.Data.List.Induction
import Mathlib.Data.List.Nodup
import Milp.Proofs.Registry.Sessions
import Milp.Proofs.Session.Requests

/-!
# The life of handles

Handles count up from one, whatever happens in between, and a handle that has gone out of use stays out of use.
What a handle is can therefore be read off the calls that have been made: whether it has been given out, and
whether it has been disposed of since.

* `Kept` — what every call preserves of a registry: `Kept.call`, `kept_run`.
* `issued` and `Disposed` — what can be read off the calls: `issued_eq_range'`, `mem_inUse_run`.
* `Made` — what can be said of the session that a handle leads to: `exists_made`.
-/

namespace Milp

namespace Registry

variable {r : Registry} {w : Outside} {c : Call} {h k : Nat} {s : Session}

/-! ## The invariant -/

/-- **What every call preserves.** -/
structure Kept (r : Registry) : Prop where
  increasing : r.inUse.Pairwise (· < ·)
  issued : ∀ h ∈ r.inUse, 0 < h ∧ h ≤ r.sessions.length
  handle : ∀ h s, r.session? h = some s → s.handle = some h
  /-- what is not in use has been disposed of -/
  released : ∀ h s, r.session? h = some s → h ∉ r.inUse → s.stage = .disposed

theorem Kept.nodup (hr : r.Kept) : r.inUse.Nodup := hr.increasing.imp Nat.ne_of_lt

theorem kept_empty : empty.Kept where
  increasing := .nil
  issued := nofun
  handle := by
    intro h s hs
    cases h with
    | zero => cases hs
    | succ k => cases hs
  released := by
    intro h s hs
    cases h with
    | zero => cases hs
    | succ k => cases hs

theorem Kept.session?_of_mem (hr : r.Kept) (hmem : h ∈ r.inUse) : ∃ s, r.session? h = some s :=
  Option.isSome_iff_exists.mp (isSome_session?_iff.mpr (hr.issued h hmem))

theorem Kept.called (hr : r.Kept) (c : Call) : Called w r c (r.call w c) :=
  called_call (fun h hmem => isSome_session?_iff.mpr (hr.issued h hmem)) c

/-- Sessions may be disposed of when they go out of use. -/
theorem Kept.dispose {r' : Registry} (hr : r.Kept) (hsublist : r'.inUse.Sublist r.inUse)
    (hlength : r'.sessions.length = r.sessions.length)
    (hsessions : ∀ h s', r'.session? h = some s' → ∃ s, r.session? h = some s ∧
      (s' = s ∧ (h ∈ r.inUse → h ∈ r'.inUse) ∨ s' = { s with stage := .disposed })) : r'.Kept where
  increasing := hr.increasing.sublist hsublist
  issued := by
    intro h hmem
    rw [hlength]
    exact hr.issued h (hsublist.subset hmem)
  handle := by
    intro h s' hs'
    obtain ⟨s, hs, ⟨rfl, -⟩ | rfl⟩ := hsessions h s' hs'
    · exact hr.handle h s' hs
    · exact hr.handle h s hs
  released := by
    intro h s' hs' hnot
    obtain ⟨s, hs, ⟨rfl, huse⟩ | rfl⟩ := hsessions h s' hs'
    · exact hr.released h s' hs (mt huse hnot)
    · rfl

/-- A session may be made under the next handle. -/
theorem Kept.made (hr : r.Kept) (s : Session) : (r.withSession s).Kept where
  increasing := by
    refine List.pairwise_append.mpr ⟨hr.increasing, List.pairwise_singleton _ _, ?_⟩
    intro h hmem k hk
    rw [List.mem_singleton.mp hk]
    exact Nat.lt_succ_of_le (hr.issued h hmem).2
  issued := by
    intro h hmem
    simp only [withSession, List.length_append, List.length_singleton]
    rcases List.mem_append.mp hmem with hold | hnew
    · have hissued := hr.issued h hold
      omega
    · have hlast := List.mem_singleton.mp hnew
      omega
  handle := by
    intro h s' hs'
    rw [session?_withSession] at hs'
    split at hs'
    · cases hs'
      rfl
    · exact hr.handle h s' hs'
  released := by
    intro h s' hs' hnot
    rw [session?_withSession] at hs'
    split at hs'
    · rename_i hlast
      exact absurd (List.mem_append_right _ (List.mem_singleton.mpr hlast)) hnot
    · exact hr.released h s' hs' (mt (List.mem_append_left _) hnot)

/-- A session in use may change, if it keeps its handle. -/
theorem Kept.answered (hr : r.Kept) (hmem : h ∈ r.inUse) {after : Session × RowCache}
    (hhandle : after.1.handle = some h) : (r.withAnswer h after).Kept := by
  have hsessions : ∀ k s', (r.withAnswer h after).session? k = some s' →
      k = h ∧ s' = after.1 ∨ r.session? k = some s' := by
    intro k s' hs'
    rw [session?_withAnswer] at hs'
    split at hs'
    · rename_i hk
      obtain ⟨_, -, rfl⟩ := Option.map_eq_some_iff.mp hs'
      exact .inl ⟨hk, rfl⟩
    · exact .inr hs'
  refine ⟨?_, ?_, ?_, ?_⟩
  · simpa using hr.increasing
  · simpa using hr.issued
  · intro k s' hs'
    rcases hsessions k s' hs' with ⟨rfl, rfl⟩ | hold
    · exact hhandle
    · exact hr.handle k s' hold
  · intro k s' hs' hnot
    rw [inUse_withAnswer] at hnot
    rcases hsessions k s' hs' with ⟨rfl, -⟩ | hold
    · exact absurd hmem hnot
    · exact hr.released k s' hold hnot

/-- **Every call preserves the invariant.** -/
theorem Kept.call (hr : r.Kept) (c : Call) : (r.call w c).1.Kept := by
  have hcalled := hr.called (w := w) c
  generalize r.call w c = outcome at hcalled ⊢
  cases hcalled with
  | notMade | notAsked | disposedBefore | notDisposed | got | contains | handles | size => exact hr
  | made => exact hr.made _
  | @asked a q h s ha hmem hs =>
    exact hr.answered hmem ((Session.handle_respond _ _ _ _).trans (hr.handle h s hs))
  | @disposed a h ha hmem =>
    refine hr.dispose ?_ ?_ ?_
    · rw [inUse_without]
      exact List.erase_sublist
    · exact length_without r h
    · intro k s' hs'
      rw [session?_without] at hs'
      split at hs'
      · obtain ⟨s, hs, hs'⟩ := Option.map_eq_some_iff.mp hs'
        exact ⟨s, hs, .inr hs'.symm⟩
      · rename_i hk
        refine ⟨s', hs', .inl ⟨rfl, fun hin => ?_⟩⟩
        rw [inUse_without]
        exact (List.mem_erase_of_ne hk).mpr hin
  | disposedAll =>
    refine hr.dispose ?_ ?_ ?_
    · simp
    · simp
    · intro k s' hs'
      rw [session?_disposeAll] at hs'
      split at hs'
      · obtain ⟨s, hs, hs'⟩ := Option.map_eq_some_iff.mp hs'
        exact ⟨s, hs, .inr hs'.symm⟩
      · rename_i hk
        exact ⟨s', hs', .inl ⟨rfl, fun hin => absurd hin hk⟩⟩

theorem Kept.run (hr : r.Kept) (calls : List Call) : (r.run w calls).Kept := by
  induction calls generalizing r with
  | nil => exact hr
  | cons c rest ih => exact ih (hr.call c)

theorem kept_run (w : Outside) (calls : List Call) : (empty.run w calls).Kept := kept_empty.run calls

/-! ## What one call does to handles -/

/-- Whether a call names a handle, or all of them. -/
def Call.Disposes (c : Call) (h : Nat) : Prop :=
  match c with
  | .dispose a => handle? a = .ok (some h)
  | .disposeAll => True
  | _ => False

/-- **A handle is in use after a call** if it was in use before and has not been disposed of, or has just been
given out. -/
theorem Kept.mem_inUse_call (hr : r.Kept) (c : Call) : h ∈ (r.call w c).1.inUse ↔
    h ∈ r.inUse ∧ ¬ c.Disposes h ∨ (r.call w c).2 = .ok (.made h) := by
  have hcalled := hr.called (w := w) c
  generalize r.call w c = outcome at hcalled ⊢
  cases hcalled with
  | notMade | notAsked | handles | size => simp [Call.Disposes]
  | made hs => simp [withSession, Call.Disposes, eq_comm]
  | @asked a q h' s ha hmem hs =>
    cases (s.respond w r.cache q).2 <;> simp [Call.Disposes, Except.map]
  | @disposed a h' ha hmem =>
    simp only [inUse_without, hr.nodup.mem_erase_iff, Call.Disposes, ha, Except.ok.injEq, Option.some.injEq]
    grind
  | disposedBefore hnot | notDisposed hnot =>
    have hstays : h ∈ r.inUse → ¬ handle? _ = .ok (some h) := fun hmem ha => hnot h ha hmem
    simpa [Call.Disposes] using hstays
  | disposedAll => simp [Call.Disposes]
  | got a => cases r.get a <;> simp [Call.Disposes, Except.map]
  | contains a => cases r.contains a <;> simp [Call.Disposes, Except.map]

/-- A handle is given out by nothing but the making of a session. -/
theorem Kept.construct_of_made (hr : r.Kept) (hmade : (r.call w c).2 = .ok (.made h)) :
    ∃ columns rowsHint s, c = .construct columns rowsHint ∧
      Session.create w.backend w.timeLimit columns rowsHint = .ok s ∧ (r.call w c).1 = r.withSession s ∧
      h = r.sessions.length + 1 := by
  have hcalled := hr.called (w := w) c
  generalize r.call w c = outcome at hcalled hmade ⊢
  cases hcalled with
  | notMade | notAsked | disposed | disposedBefore | notDisposed | disposedAll | handles | size => cases hmade
  | @made columns rowsHint s hs =>
    cases hmade
    exact ⟨columns, rowsHint, s, rfl, hs, rfl, rfl⟩
  | @asked a q k s =>
    obtain ⟨_, -, hanswer⟩ := map_eq_ok_iff.mp hmade
    cases hanswer
  | got a | contains a =>
    obtain ⟨_, -, hfound⟩ := map_eq_ok_iff.mp hmade
    cases hfound

/-- A call that makes a session gives out the next handle. -/
theorem Kept.length_call (hr : r.Kept) (c : Call) :
    (r.call w c).2 = .ok (.made (r.sessions.length + 1)) ∧
        (r.call w c).1.sessions.length = r.sessions.length + 1 ∨
      (∀ h, (r.call w c).2 ≠ .ok (.made h)) ∧ (r.call w c).1.sessions.length = r.sessions.length := by
  have hcalled := hr.called (w := w) c
  generalize r.call w c = outcome at hcalled ⊢
  cases hcalled with
  | made hs => exact .inl ⟨rfl, List.length_append⟩
  | notMade | notAsked | handles | size | disposedBefore | notDisposed => exact .inr ⟨nofun, rfl⟩
  | @asked a q h s ha hmem hs =>
    refine .inr ⟨?_, length_withAnswer r h _⟩
    cases (s.respond w r.cache q).2 <;> exact nofun
  | @disposed a h ha hmem => exact .inr ⟨nofun, length_without r h⟩
  | disposedAll => exact .inr ⟨nofun, length_disposeAll r⟩
  | got a =>
    refine .inr ⟨?_, rfl⟩
    cases r.get a <;> exact nofun
  | contains a =>
    refine .inr ⟨?_, rfl⟩
    cases r.contains a <;> exact nofun

/-! ## What can be read off the calls -/

/-- The handle that has been given out. -/
def Outcome.made? : Except Error Outcome → Option Nat
  | .ok (.made h) => some h
  | _ => none

theorem Outcome.made?_eq_some_iff {outcome : Except Error Outcome} :
    Outcome.made? outcome = some h ↔ outcome = .ok (.made h) := by
  unfold Outcome.made?
  split
  · simp
  · rename_i hne
    exact ⟨nofun, fun heq => absurd heq (hne h)⟩

/-- **The handles that calls have given out**, in the order of time. -/
def issued (w : Outside) (calls : List Call) : List Nat := (empty.outcomes w calls).filterMap Outcome.made?

/-- **A handle has been disposed of** by a call that came after it had been given out. -/
def Disposed (w : Outside) (calls : List Call) (h : Nat) : Prop :=
  ∃ before c after, calls = before ++ c :: after ∧ h ∈ issued w before ∧ c.Disposes h

variable {calls : List Call}

theorem outcomes_concat (w : Outside) (calls : List Call) (c : Call) :
    empty.outcomes w (calls ++ [c]) = empty.outcomes w calls ++ [((empty.run w calls).call w c).2] :=
  outcomes_append empty calls [c]

theorem run_concat (w : Outside) (calls : List Call) (c : Call) :
    empty.run w (calls ++ [c]) = ((empty.run w calls).call w c).1 :=
  run_append empty calls [c]

theorem disposed_concat : Disposed w (calls ++ [c]) h ↔
    Disposed w calls h ∨ h ∈ issued w calls ∧ c.Disposes h := by
  constructor
  · rintro ⟨before, c', after, heq, hissued, hdisposes⟩
    rcases List.eq_nil_or_concat after with rfl | ⟨after', last, rfl⟩
    · obtain ⟨rfl, hc⟩ := List.append_inj' heq rfl
      cases hc
      exact .inr ⟨hissued, hdisposes⟩
    · have heq' : calls ++ [c] = (before ++ c' :: after') ++ [last] := by simpa using heq
      obtain ⟨rfl, -⟩ := List.append_inj' heq' rfl
      exact .inl ⟨before, c', after', rfl, hissued, hdisposes⟩
  · rintro (⟨before, c', after, rfl, hissued, hdisposes⟩ | ⟨hissued, hdisposes⟩)
    · exact ⟨before, c', after ++ [c], by simp, hissued, hdisposes⟩
    · exact ⟨calls, c, [], rfl, hissued, hdisposes⟩

theorem issued_concat_of_made (hmade : ((empty.run w calls).call w c).2 = .ok (.made h)) :
    issued w (calls ++ [c]) = issued w calls ++ [h] := by
  rw [issued, outcomes_concat, List.filterMap_append, hmade]
  rfl

theorem issued_concat_of_not_made (hmade : ∀ h, ((empty.run w calls).call w c).2 ≠ .ok (.made h)) :
    issued w (calls ++ [c]) = issued w calls := by
  have hnone : Outcome.made? ((empty.run w calls).call w c).2 = none := by
    unfold Outcome.made?
    split
    · rename_i h heq
      exact absurd heq (hmade h)
    · rfl
  rw [issued, outcomes_concat, List.filterMap_append, List.filterMap_cons, hnone]
  exact List.append_nil _

/-- **Handles are given out in order**, one for each session that is made. -/
theorem issued_eq_range' (w : Outside) (calls : List Call) :
    issued w calls = List.range' 1 (empty.run w calls).sessions.length := by
  induction calls using List.reverseRecOn with
  | nil => rfl
  | append_singleton calls c ih =>
    rw [run_concat]
    rcases (kept_run w calls).length_call c with ⟨hmade, hlength⟩ | ⟨hmade, hlength⟩
    · rw [issued_concat_of_made hmade, hlength, ih, List.range'_1_concat, Nat.add_comm 1]
    · rw [issued_concat_of_not_made hmade, hlength, ih]

theorem mem_issued_iff : h ∈ issued w calls ↔ 0 < h ∧ h ≤ (empty.run w calls).sessions.length := by
  rw [issued_eq_range', List.mem_range'_1]
  omega

/-- What has not been given out cannot have been disposed of. -/
theorem mem_issued_of_disposed (hdisposed : Disposed w calls h) : h ∈ issued w calls := by
  obtain ⟨before, c, after, rfl, hissued, -⟩ := hdisposed
  rw [issued, outcomes_append, List.filterMap_append]
  exact List.mem_append_left _ hissued

/-- **The handles in use** are those that have been given out and not been disposed of. -/
theorem mem_inUse_run (w : Outside) (calls : List Call) (h : Nat) :
    h ∈ (empty.run w calls).inUse ↔ h ∈ issued w calls ∧ ¬ Disposed w calls h := by
  induction calls using List.reverseRecOn with
  | nil =>
    constructor
    · intro hmem
      cases hmem
    · rintro ⟨hmem, -⟩
      cases hmem
  | append_singleton calls c ih =>
    have hkept := kept_run w calls
    rw [run_concat, hkept.mem_inUse_call, ih, disposed_concat]
    rcases hkept.length_call c with ⟨hmade, -⟩ | ⟨hmade, -⟩
    · have hfresh : (empty.run w calls).sessions.length + 1 ∉ issued w calls := by
        rw [mem_issued_iff]
        omega
      rw [issued_concat_of_made hmade, hmade, List.mem_append, List.mem_singleton, Except.ok.injEq,
        Outcome.made.injEq]
      constructor
      · rintro (⟨⟨hissued, hdisposed⟩, hdisposes⟩ | rfl)
        · exact ⟨.inl hissued, by tauto⟩
        · refine ⟨.inr rfl, ?_⟩
          rintro (hdisposed | ⟨hissued, -⟩)
          · exact hfresh (mem_issued_of_disposed hdisposed)
          · exact hfresh hissued
      · rintro ⟨hissued | rfl, hdisposed⟩
        · exact .inl ⟨⟨hissued, fun hold => hdisposed (.inl hold)⟩, fun hc => hdisposed (.inr ⟨hissued, hc⟩)⟩
        · exact .inr rfl
    · rw [issued_concat_of_not_made hmade]
      have hnot := hmade h
      tauto

/-! ## What one call does to sessions -/

/-- A session that goes out of use is disposed of. -/
theorem Kept.session?_of_disposes (hr : r.Kept) (hmem : h ∈ r.inUse) (hc : c.Disposes h)
    (hs : r.session? h = some s) : (r.call w c).1.session? h = some { s with stage := .disposed } := by
  have hcalled := hr.called (w := w) c
  generalize r.call w c = outcome at hcalled ⊢
  cases hcalled with
  | made | notMade | asked | notAsked | got | contains | handles | size => cases hc
  | @disposed a h' ha _ =>
    have hh : h' = h := by simpa [Call.Disposes, ha] using hc
    rw [hh, session?_without, if_pos rfl, hs]
    rfl
  | disposedBefore hnot | notDisposed hnot => exact absurd hmem (hnot h hc)
  | disposedAll =>
    rw [session?_disposeAll, if_pos hmem, hs]
    rfl

/-- **Every other session is untouched**, unless it is asked itself. -/
theorem Kept.session?_of_not_disposes (hr : r.Kept) (hc : h ∈ r.inUse → ¬ c.Disposes h)
    (hask : ∀ a q, c = .ask a q → handle? a ≠ .ok (some h)) (hs : r.session? h = some s) :
    (r.call w c).1.session? h = some s := by
  have hcalled := hr.called (w := w) c
  generalize r.call w c = outcome at hcalled ⊢
  cases hcalled with
  | notMade | notAsked | disposedBefore | notDisposed | got | contains | handles | size => exact hs
  | made _ =>
    rw [session?_withSession, if_neg, hs]
    have hle := (pos_of_session? hs).2
    omega
  | @asked a q h' s' ha _ _ =>
    have hne : h ≠ h' := by
      rintro rfl
      exact hask a q rfl ha
    rw [session?_withAnswer, if_neg hne, hs]
  | @disposed a h' ha hmem =>
    have hne : h ≠ h' := by
      rintro rfl
      exact hc hmem ha
    rw [session?_without, if_neg hne, hs]
  | disposedAll =>
    have hnot : h ∉ r.inUse := fun hmem => hc hmem trivial
    rw [session?_disposeAll, if_neg hnot, hs]

/-- A registry call that is refused leaves the registry as it was. -/
theorem Kept.call_of_error (hr : r.Kept) {e : Error} (he : (r.call w c).2 = .error e)
    (hask : ∀ a q, c ≠ .ask a q) : (r.call w c).1 = r := by
  have hcalled := hr.called (w := w) c
  generalize r.call w c = outcome at hcalled he ⊢
  cases hcalled with
  | notMade | notAsked | disposedBefore | notDisposed | got | contains | handles | size => rfl
  | made | disposed | disposedAll => cases he
  | @asked a q => exact absurd rfl (hask a q)

/-! ## The session of a handle -/

/-- **A handle has been given out for a session**, by the call that made it. -/
def Made (w : Outside) (calls : List Call) (h : Nat) (s : Session) : Prop :=
  ∃ before columns rowsHint after, calls = before ++ .construct columns rowsHint :: after ∧
    h = (issued w before).length + 1 ∧ Session.create w.backend w.timeLimit columns rowsHint = .ok s

theorem length_issued (w : Outside) (calls : List Call) :
    (issued w calls).length = (empty.run w calls).sessions.length := by
  rw [issued_eq_range', List.length_range']

/-- **A handle leads to the session that was made for it**, as it was made, as long as the session is neither
disposed of nor asked. -/
theorem exists_made (hmem : h ∈ issued w calls) : ∃ s, Made w calls h s ∧
    (¬ Disposed w calls h → (∀ a q, .ask a q ∈ calls → handle? a ≠ .ok (some h)) →
      (empty.run w calls).session? h = some { s with handle := some h }) := by
  induction calls using List.reverseRecOn with
  | nil => cases hmem
  | append_singleton calls c ih =>
    have hkept := kept_run w calls
    have hold : h ∈ issued w calls → ∃ s, Made w (calls ++ [c]) h s ∧
        (¬ Disposed w (calls ++ [c]) h → (∀ a q, .ask a q ∈ calls ++ [c] → handle? a ≠ .ok (some h)) →
          (empty.run w (calls ++ [c])).session? h = some { s with handle := some h }) := by
      intro hissued
      obtain ⟨s, ⟨before, columns, rowsHint, after, hcalls, hh, hs⟩, hsession⟩ := ih hissued
      refine ⟨s, ⟨before, columns, rowsHint, after ++ [c], by simp [hcalls], hh, hs⟩, ?_⟩
      intro hdisposed hask
      rw [disposed_concat, not_or] at hdisposed
      rw [run_concat]
      refine hkept.session?_of_not_disposes ?_ ?_ (hsession hdisposed.1 ?_)
      · exact fun _ hc => hdisposed.2 ⟨hissued, hc⟩
      · rintro a q rfl
        exact hask a q (by simp)
      · intro a q hmem
        exact hask a q (List.mem_append_left _ hmem)
    rcases hkept.length_call c with ⟨hmade, -⟩ | ⟨hmade, -⟩
    · rw [issued_concat_of_made hmade, List.mem_append, List.mem_singleton] at hmem
      rcases hmem with hissued | rfl
      · exact hold hissued
      · -- the session is made by this very call
        obtain ⟨columns, rowsHint, s, rfl, hs, hcall, -⟩ := hkept.construct_of_made hmade
        refine ⟨s, ⟨calls, columns, rowsHint, [], rfl, by rw [length_issued], hs⟩, fun _ _ => ?_⟩
        rw [run_concat, hcall, session?_withSession, if_pos rfl]
    · rw [issued_concat_of_not_made hmade] at hmem
      exact hold hmem

end Registry

end Milp
