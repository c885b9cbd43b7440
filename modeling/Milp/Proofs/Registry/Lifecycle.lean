import Milp.Proofs.Registry.Handles

/-!
# The laws of registries

What a handle is good for depends only on the calls that have been made: it has been given out or not, and it has
been disposed of since or not. A handle that has been disposed of can never lead to a newer session.

* `Leads` — what a number leads to, or why it leads nowhere: `leads_get`.
* `run_dispose` — handles may be disposed of in any order.
* `Lawful` — the laws of a registry after any calls: `lawful_run`.
-/

namespace Milp.Registry

variable {r : Registry} {w : Outside} {h : Nat} {s : Session}

/-! ## What a handle leads to -/

theorem handle?_int_eq_some_iff {n : Int} : handle? (.int n) = .ok (some h) ↔ n = h := by
  simp only [handle?, Arg.whole?, Arg.real?, Except.ok.injEq]
  split
  · rw [Option.some.injEq]
    omega
  · simp only [reduceCtorEq, false_iff]
    omega

theorem get_int_of_not_mem {n : Int} (hnot : ∀ h : Nat, n = h → h ∉ r.inUse) :
    r.get (.int n) = .error (r.refusal (.int n)) := by
  refine get_of_not_mem (a := .int n) rfl ?_
  intro h hnamed
  exact hnot h (handle?_int_eq_some_iff.mp (congrArg Except.ok hnamed))

theorem wasIssued_int_iff {n : Int} :
    r.wasIssued (.int n) = true ↔ ∃ h : Nat, n = h ∧ 0 < h ∧ h ≤ r.sessions.length := by
  simp only [wasIssued, Arg.int?, decide_eq_true_eq]
  constructor
  · rintro ⟨hpos, hle⟩
    exact ⟨n.toNat, by omega, by omega, by omega⟩
  · rintro ⟨h, rfl, hpos, hle⟩
    omega

variable (w) (calls : List Call)

/-- **What a number leads to** after calls: to a session, if it is a handle in use; otherwise it matters only
whether it has been given out. -/
inductive Leads : Int → Except Error Session → Prop where
  | inUse {h : Nat} {s : Session} (hissued : h ∈ issued w calls) (hdisposed : ¬ Disposed w calls h)
      (hs : (empty.run w calls).session? h = some s) : Leads h (.ok s)
  | disposed {h : Nat} {e : Error} (hissued : h ∈ issued w calls) (hdisposed : Disposed w calls h)
      (hcategory : e.category = .useAfterDispose) : Leads h (.error e)
  | unknown {n : Int} {e : Error} (hunknown : ∀ h ∈ issued w calls, n ≠ (h : Nat))
      (hcategory : e.category = .invalidArgument) : Leads n (.error e)

theorem leads_get (n : Int) : Leads w calls n ((empty.run w calls).get (.int n)) := by
  by_cases hissued : ∃ h ∈ issued w calls, n = (h : Nat)
  · obtain ⟨h, hissued, rfl⟩ := hissued
    by_cases hdisposed : Disposed w calls h
    · have hnot : ∀ k : Nat, (h : Int) = k → k ∉ (empty.run w calls).inUse := by
        intro k hk hmem
        obtain rfl := Int.ofNat.inj hk
        exact ((mem_inUse_run w calls h).mp hmem).2 hdisposed
      have hwas : (empty.run w calls).wasIssued (.int h) = true :=
        wasIssued_int_iff.mpr ⟨h, rfl, mem_issued_iff.mp hissued⟩
      rw [get_int_of_not_mem hnot, refusal, if_pos hwas]
      exact .disposed hissued hdisposed rfl
    · have hmem := (mem_inUse_run w calls h).mpr ⟨hissued, hdisposed⟩
      obtain ⟨s, hs⟩ := (kept_run w calls).session?_of_mem hmem
      rw [get_of_mem (handle?_ofNat h) hmem hs]
      exact .inUse hissued hdisposed hs
  · have hunknown : ∀ h ∈ issued w calls, n ≠ (h : Nat) := fun h hmem heq => hissued ⟨h, hmem, heq⟩
    have hnot : ∀ k : Nat, n = k → k ∉ (empty.run w calls).inUse := by
      intro k hk hmem
      exact hunknown k ((mem_inUse_run w calls k).mp hmem).1 hk
    have hwas : ¬ (empty.run w calls).wasIssued (.int n) = true := by
      rw [wasIssued_int_iff]
      rintro ⟨h, hn, hbounds⟩
      exact hunknown h (mem_issued_iff.mpr hbounds) hn
    rw [get_int_of_not_mem hnot, refusal, if_neg hwas]
    exact .unknown hunknown rfl

variable {n : Int}

/-- **A handle leads to a session** if and only if it has been given out and not been disposed of. -/
theorem get_ok_iff : (∃ s, (empty.run w calls).get (.int n) = .ok s) ↔
    ∃ h ∈ issued w calls, n = (h : Nat) ∧ ¬ Disposed w calls h := by
  have hleads := leads_get w calls n
  generalize (empty.run w calls).get (.int n) = outcome at hleads ⊢
  cases hleads with
  | @inUse h s hissued hdisposed => exact ⟨fun _ => ⟨h, hissued, rfl, hdisposed⟩, fun _ => ⟨s, rfl⟩⟩
  | @disposed h e hissued hdisposed =>
    simp only [reduceCtorEq, exists_false, false_iff]
    rintro ⟨k, -, hk, hnot⟩
    exact hnot (Int.ofNat.inj hk ▸ hdisposed)
  | unknown hunknown =>
    simp only [reduceCtorEq, exists_false, false_iff]
    rintro ⟨k, hk, heq, -⟩
    exact hunknown k hk heq

/-- **A handle has been disposed of** if and only if it is refused for that. -/
theorem get_disposed_iff : (∃ e, (empty.run w calls).get (.int n) = .error e ∧ e.category = .useAfterDispose) ↔
    ∃ h ∈ issued w calls, n = (h : Nat) ∧ Disposed w calls h := by
  have hleads := leads_get w calls n
  generalize (empty.run w calls).get (.int n) = outcome at hleads ⊢
  cases hleads with
  | @inUse h s hissued hdisposed =>
    simp only [reduceCtorEq, false_and, exists_false, false_iff]
    rintro ⟨k, -, hk, hnot⟩
    exact hdisposed (Int.ofNat.inj hk ▸ hnot)
  | @disposed h e hissued hdisposed hcategory =>
    exact ⟨fun _ => ⟨h, hissued, rfl, hdisposed⟩, fun _ => ⟨e, rfl, hcategory⟩⟩
  | unknown hunknown hcategory =>
    simp only [Except.error.injEq, exists_eq_left', hcategory, reduceCtorEq, false_iff]
    rintro ⟨k, hk, heq, -⟩
    exact hunknown k hk heq

/-- **A number has never been given out** if and only if it is refused as no handle. -/
theorem get_unknown_iff : (∃ e, (empty.run w calls).get (.int n) = .error e ∧ e.category = .invalidArgument) ↔
    ∀ h ∈ issued w calls, n ≠ (h : Nat) := by
  have hleads := leads_get w calls n
  generalize (empty.run w calls).get (.int n) = outcome at hleads ⊢
  cases hleads with
  | @inUse h s hissued =>
    simp only [reduceCtorEq, false_and, exists_false, false_iff]
    exact fun hunknown => hunknown h hissued rfl
  | @disposed h e hissued hdisposed hcategory =>
    simp only [Except.error.injEq, exists_eq_left', hcategory, reduceCtorEq, false_iff]
    exact fun hunknown => hunknown h hissued rfl
  | @unknown _ e hunknown hcategory => exact ⟨fun _ => hunknown, fun _ => ⟨e, rfl, hcategory⟩⟩

/-- The session that a number leads to has the number as its handle. -/
theorem handle_of_get {s : Session} (hget : (empty.run w calls).get (.int n) = .ok s) :
    ∃ h : Nat, n = h ∧ s.handle = some h ∧ (empty.run w calls).session? h = some s := by
  have hleads := leads_get w calls n
  rw [hget] at hleads
  cases hleads with
  | @inUse h _ _ _ hs => exact ⟨h, rfl, (kept_run w calls).handle h s hs, hs⟩

/-- Whether a number is a handle in use can be asked for every number. -/
theorem contains_int (r : Registry) (n : Int) : ∃ found, r.contains (.int n) = .ok found ∧
    (found = true ↔ ∃ h ∈ r.handles, n = (h : Nat)) := by
  by_cases hmem : ∃ h : Nat, n = h ∧ h ∈ r.inUse
  · obtain ⟨h, rfl, hmem⟩ := hmem
    refine ⟨true, ?_, fun _ => ⟨h, hmem, rfl⟩, fun _ => rfl⟩
    rw [contains_eq (handle?_ofNat h), decide_eq_true hmem]
  · refine ⟨false, ?_, nofun, ?_⟩
    · rw [contains, find?_of_not_mem (a := .int n) rfl]
      · rfl
      · intro h hnamed hin
        exact hmem ⟨h, handle?_int_eq_some_iff.mp (congrArg Except.ok hnamed), hin⟩
    · rintro ⟨h, hin, rfl⟩
      exact absurd ⟨h, rfl, hin⟩ hmem

/-- What has been disposed of stays so. -/
theorem disposed_append {later : List Call} (hdisposed : Disposed w calls h) : Disposed w (calls ++ later) h := by
  obtain ⟨before, c, after, rfl, hissued, hc⟩ := hdisposed
  exact ⟨before, c, after ++ later, by simp, hissued, hc⟩

/-! ## Disposing in any order -/

variable {w}

/-- The calls that dispose of handles, one after the other. -/
def disposals (hs : List Nat) : List Call := hs.map fun h : Nat => .dispose (.int h)

/-- Handles that are disposed of in a row. -/
theorem run_dispose {hs : List Nat} (hinUse : r.inUse.Nodup) (hnodup : hs.Nodup) (hsub : ∀ h ∈ hs, h ∈ r.inUse) :
    let r' := r.run w (disposals hs)
    (∀ k, r'.session? k =
      if k ∈ hs then (r.session? k).map fun s => { s with stage := .disposed } else r.session? k) ∧
      (∀ k, k ∈ r'.inUse ↔ k ∈ r.inUse ∧ k ∉ hs) ∧ r'.cache = r.cache := by
  induction hs generalizing r with
  | nil => simp [disposals]
  | cons h rest ih =>
    obtain ⟨hfresh, hrest⟩ := List.nodup_cons.mp hnodup
    obtain ⟨hmem, hsub⟩ := List.forall_mem_cons.mp hsub
    have herase : (r.without h).inUse.Nodup := by
      rw [inUse_without]
      exact hinUse.erase h
    have hsub' : ∀ k ∈ rest, k ∈ (r.without h).inUse := by
      intro k hk
      rw [inUse_without]
      exact (List.mem_erase_of_ne (ne_of_mem_of_not_mem hk hfresh)).mpr (hsub k hk)
    obtain ⟨hsessions, hin, hcache⟩ := ih herase hrest hsub'
    have hcall : r.run w (disposals (h :: rest)) = (r.without h).run w (disposals rest) :=
      by rw [disposals, List.map_cons, run_cons, call_dispose_of_mem (handle?_ofNat h) hmem]; rfl
    rw [hcall]
    refine ⟨?_, ?_, hcache.trans (cache_without r h)⟩
    · intro k
      rw [hsessions, session?_without]
      by_cases hk : k = h
      · subst hk
        simp [hfresh]
      · simp [hk]
    · intro k
      rw [hin, inUse_without, hinUse.mem_erase_iff, List.mem_cons]
      tauto

/-- **Disposing of all is disposing of every handle in use**, in any order. -/
theorem Kept.run_dispose_eq (hr : r.Kept) {hs : List Nat} (hperm : hs.Perm r.handles) :
    r.run w (disposals hs) = (r.call w .disposeAll).1 := by
  have hmem : ∀ k, k ∈ hs ↔ k ∈ r.inUse := fun k => hperm.mem_iff
  obtain ⟨hsessions, hin, hcache⟩ :=
    run_dispose (w := w) hr.nodup (hperm.nodup_iff.mpr hr.nodup) fun k hk => (hmem k).mp hk
  refine eq_of_session? ?_ ?_ ?_
  · intro k
    rw [hsessions]
    simp only [hmem]
    exact (session?_disposeAll r k).symm
  · have hnil : (r.call w .disposeAll).1.inUse = [] := inUse_disposeAll r
    rw [hnil, List.eq_nil_iff_forall_not_mem]
    intro k hk
    obtain ⟨hk, hnot⟩ := (hin k).mp hk
    exact hnot ((hmem k).mpr hk)
  · exact hcache.trans (cache_disposeAll r).symm

/-! ## The laws -/

/-- **The laws of a registry**, after calls in a row. -/
structure Lawful (w : Outside) (calls : List Call) : Prop where
  /-- the k-th handle that is given out is k, and so none is given out twice -/
  issued : issued w calls = List.range' 1 (issued w calls).length
  /-- a session is made under the next handle; if it cannot be made, no handle is given out -/
  construct : ∀ columns rowsHint,
    match Session.create w.backend w.timeLimit columns rowsHint with
    | .ok s => ((empty.run w calls).call w (.construct columns rowsHint)).2 =
          .ok (.made ((Registry.issued w calls).length + 1)) ∧
        ((empty.run w calls).call w (.construct columns rowsHint)).1.get
          (.int ((Registry.issued w calls).length + 1 : Nat)) =
            .ok { s with handle := some ((Registry.issued w calls).length + 1) }
    | .error e => (empty.run w calls).call w (.construct columns rowsHint) = (empty.run w calls, .error e)
  /-- a handle leads to a session if and only if it has been given out and not been disposed of -/
  get_ok : ∀ n : Int, (∃ s, (empty.run w calls).get (.int n) = .ok s) ↔
    ∃ h ∈ Registry.issued w calls, n = (h : Nat) ∧ ¬ Disposed w calls h
  /-- the session has this handle -/
  handle : ∀ (n : Int) (s : Session), (empty.run w calls).get (.int n) = .ok s →
    ∃ h : Nat, n = h ∧ s.handle = some h ∧ (empty.run w calls).session? h = some s
  /-- it is the session that was made for the handle -/
  made : ∀ h ∈ Registry.issued w calls, ∃ s, Made w calls h s ∧ (¬ Disposed w calls h →
    (∀ a q, .ask a q ∈ calls → handle? a ≠ .ok (some h)) →
      (empty.run w calls).get (.int h) = .ok { s with handle := some h })
  get_disposed : ∀ n : Int,
    (∃ e, (empty.run w calls).get (.int n) = .error e ∧ e.category = .useAfterDispose) ↔
      ∃ h ∈ Registry.issued w calls, n = (h : Nat) ∧ Disposed w calls h
  get_unknown : ∀ n : Int,
    (∃ e, (empty.run w calls).get (.int n) = .error e ∧ e.category = .invalidArgument) ↔
      ∀ h ∈ Registry.issued w calls, n ≠ (h : Nat)
  /-- what has been disposed of stays so -/
  final : ∀ n : Int, (∃ e, (empty.run w calls).get (.int n) = .error e ∧ e.category = .useAfterDispose) →
    ∀ later, ∃ e, ((empty.run w calls).run w later).get (.int n) = .error e ∧ e.category = .useAfterDispose
  /-- the handles in use, in increasing order -/
  handles : (empty.run w calls).handles.Pairwise (· < ·) ∧
    ∀ h, h ∈ (empty.run w calls).handles ↔ h ∈ Registry.issued w calls ∧ ¬ Disposed w calls h
  size : (empty.run w calls).size = (empty.run w calls).handles.length
  contains : ∀ n : Int, ∃ found, (empty.run w calls).contains (.int n) = .ok found ∧
    (found = true ↔ ∃ h ∈ (empty.run w calls).handles, n = (h : Nat))
  disposeAll : ∀ hs, hs.Perm (empty.run w calls).handles →
    (empty.run w calls).run w (disposals hs) = ((empty.run w calls).call w .disposeAll).1
  /-- a session that is not in use any more has been disposed of -/
  disposed : ∀ h ∈ Registry.issued w calls, Disposed w calls h →
    ∃ s, (empty.run w calls).session? h = some s ∧ s.stage = .disposed
  /-- disposing of a session changes its stage and nothing else -/
  disposes : ∀ c h s, (empty.run w calls).session? h = some s → h ∈ (empty.run w calls).handles → c.Disposes h →
    ((empty.run w calls).call w c).1.session? h = some { s with stage := .disposed }
  /-- all other sessions are untouched -/
  untouched : ∀ c h s, (empty.run w calls).session? h = some s →
    (h ∈ (empty.run w calls).handles → ¬ c.Disposes h) → (∀ a q, c = .ask a q → handle? a ≠ .ok (some h)) →
      ((empty.run w calls).call w c).1.session? h = some s
  /-- a call that is refused changes nothing -/
  refused : ∀ c e, ((empty.run w calls).call w c).2 = .error e → (∀ a q, c ≠ .ask a q) →
    ((empty.run w calls).call w c).1 = empty.run w calls

/-- **The laws hold after any calls.** -/
theorem lawful_run (w : Outside) (calls : List Call) : Lawful w calls where
  issued := by rw [length_issued, issued_eq_range']
  construct := by
    intro columns rowsHint
    rw [length_issued]
    split
    · rename_i s hs
      rw [call_construct_of_ok hs]
      refine ⟨rfl, get_of_mem (handle?_ofNat _) (List.mem_append_right _ (List.mem_singleton_self _)) ?_⟩
      rw [session?_withSession, if_pos rfl]
    · rename_i e he
      exact call_construct_of_error he
  get_ok := fun _ => get_ok_iff w calls
  handle := fun _ _ => handle_of_get w calls
  made := by
    intro h hmem
    obtain ⟨s, hmade, hsession⟩ := exists_made hmem
    refine ⟨s, hmade, fun hdisposed hask => ?_⟩
    exact get_of_mem (handle?_ofNat h) ((mem_inUse_run w calls h).mpr ⟨hmem, hdisposed⟩) (hsession hdisposed hask)
  get_disposed := fun _ => get_disposed_iff w calls
  get_unknown := fun _ => get_unknown_iff w calls
  final := by
    intro n hrefused later
    obtain ⟨h, -, rfl, hdisposed⟩ := (get_disposed_iff w calls).mp hrefused
    rw [← run_append]
    have hlater : Disposed w (calls ++ later) h := disposed_append w calls hdisposed
    exact (get_disposed_iff w (calls ++ later)).mpr ⟨h, mem_issued_of_disposed hlater, rfl, hlater⟩
  handles := ⟨(kept_run w calls).increasing, mem_inUse_run w calls⟩
  size := rfl
  contains := contains_int (empty.run w calls)
  disposeAll := fun hs hperm => (kept_run w calls).run_dispose_eq hperm
  disposed := by
    intro h hmem hdisposed
    obtain ⟨s, hs⟩ := Option.isSome_iff_exists.mp (isSome_session?_iff.mpr (mem_issued_iff.mp hmem))
    refine ⟨s, hs, (kept_run w calls).released h s hs ?_⟩
    rw [mem_inUse_run]
    exact fun hin => hin.2 hdisposed
  disposes := fun c h s hs hmem hc => (kept_run w calls).session?_of_disposes hmem hc hs
  untouched := fun c h s hs hc hask => (kept_run w calls).session?_of_not_disposes hc hask hs
  refused := fun c e he hask => (kept_run w calls).call_of_error he hask

/-- The first of two sessions is disposed of and a third one made: the first handle is not used again. -/
example :
    let w : Outside := ⟨⟨"plain", .float Binary64.infinity⟩, .absent, fun _ _ => .failure "", Binary64.dot⟩
    let construct : Call := .construct (.int 2) (.int 0)
    (empty.run w [construct, construct, .dispose (.int 1), .construct (.int (-4)) (.int 0), construct]).handles =
      [2, 3] := by
  decide +kernel

end Milp.Registry
