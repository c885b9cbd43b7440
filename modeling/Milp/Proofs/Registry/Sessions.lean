import Milp.Proofs.Session.Operations
import Milp.Proofs.Steps
import Milp.Registry.Calls

/-!
# What calls on a registry come to

A registry keeps every session that it has made at the place of its handle, in use or not. Here it is said once
which sessions a call changes, and how.

* `session?_update` and `session?_release` — one session changes, the others stay.
* `Found` — everything that looking up a handle can come to: `found_lookup`.
* `Called` — everything that a call can come to: `called_call`.
* `session?_disposeAll` — all sessions in use are disposed of.
-/

namespace Milp

theorem Session.dispose_fst (s : Session) : s.dispose.1 = { s with stage := .disposed } := by
  unfold Session.dispose
  split
  · rename_i hstage
    rw [← hstage]
  · rfl

namespace Registry

variable {r r' : Registry} {w : Outside} {a : Arg} {h k : Nat} {s : Session}

/-! ## Sessions -/

@[simp] theorem session?_zero (r : Registry) : r.session? 0 = none := rfl

@[simp] theorem session?_succ (r : Registry) (k : Nat) : r.session? (k + 1) = r.sessions[k]? := rfl

/-- There is a session for every handle that has been given out. -/
theorem isSome_session?_iff : (r.session? h).isSome = true ↔ 0 < h ∧ h ≤ r.sessions.length := by
  cases h with
  | zero => simp
  | succ k =>
    rw [session?_succ, Option.isSome_iff_ne_none, Ne, List.getElem?_eq_none_iff]
    omega

theorem pos_of_session? (hs : r.session? h = some s) : 0 < h ∧ h ≤ r.sessions.length :=
  isSome_session?_iff.mp (Option.isSome_of_eq_some hs)

/-- Registries with the same sessions, handles and rows are the same. -/
theorem eq_of_session? (hsessions : ∀ k, r.session? k = r'.session? k) (hinUse : r.inUse = r'.inUse)
    (hcache : r.cache = r'.cache) : r = r' := by
  have hlist : r.sessions = r'.sessions := List.ext_getElem? fun k => hsessions (k + 1)
  cases r
  cases r'
  cases hlist
  cases hinUse
  cases hcache
  rfl

/-- A session that takes another's place changes nothing else. -/
theorem session?_update (r : Registry) (h k : Nat) (s : Session) :
    (r.update h s).session? k = if k = h then (r.session? k).map fun _ => s else r.session? k := by
  unfold update
  cases h with
  | zero => cases k <;> simp
  | succ j =>
    cases k with
    | zero => simp
    | succ k =>
      simp only [Nat.add_sub_cancel, session?_succ, Nat.add_right_cancel_iff, List.getElem?_set,
        if_neg (Nat.succ_ne_zero j)]
      by_cases hjk : j = k
      · subst hjk
        rw [if_pos rfl, if_pos rfl]
        split
        · rename_i hlt
          rw [List.getElem?_eq_getElem hlt]
          rfl
        · rename_i hge
          rw [List.getElem?_eq_none (Nat.not_lt.mp hge)]
          rfl
      · rw [if_neg hjk, if_neg (Ne.symm hjk)]

@[simp] theorem inUse_update (r : Registry) (h : Nat) (s : Session) : (r.update h s).inUse = r.inUse := by
  unfold update
  split <;> rfl

@[simp] theorem cache_update (r : Registry) (h : Nat) (s : Session) : (r.update h s).cache = r.cache := by
  unfold update
  split <;> rfl

@[simp] theorem length_update (r : Registry) (h : Nat) (s : Session) :
    (r.update h s).sessions.length = r.sessions.length := by
  unfold update
  split
  · rfl
  · exact List.length_set

/-- Releasing a session disposes of it and of no other. -/
theorem session?_release (r : Registry) (h k : Nat) : (r.release h).1.session? k =
    if k = h then (r.session? k).map fun s => { s with stage := .disposed } else r.session? k := by
  unfold release
  split
  · rename_i s hs
    rw [session?_update, Session.dispose_fst]
    split
    · rename_i hk
      rw [hk, hs]
      rfl
    · rfl
  · rename_i hs
    split
    · rename_i hk
      rw [hk, hs]
      rfl
    · rfl

@[simp] theorem inUse_release (r : Registry) (h : Nat) : (r.release h).1.inUse = r.inUse := by
  unfold release
  split
  · exact inUse_update r h _
  · rfl

@[simp] theorem cache_release (r : Registry) (h : Nat) : (r.release h).1.cache = r.cache := by
  unfold release
  split
  · exact cache_update r h _
  · rfl

@[simp] theorem length_release (r : Registry) (h : Nat) :
    (r.release h).1.sessions.length = r.sessions.length := by
  unfold release
  split
  · exact length_update r h _
  · rfl

/-! ## Handles -/

@[simp] theorem handle?_ofNat (h : Nat) : handle? (.int h) = .ok (some h) := by
  simp [handle?, Arg.whole?, Arg.real?]

/-- Of the handle that an argument stands for it is looked up whether it is in use. -/
theorem find?_eq (r : Registry) (a : Arg) :
    r.find? a = (handle? a).map fun named => named.filter fun h => r.inUse.contains h := by
  unfold find?
  cases handle? a with
  | error e => rfl
  | ok named =>
    cases named with
    | none => rfl
    | some h => rfl

theorem find?_of_mem (ha : handle? a = .ok (some h)) (hmem : h ∈ r.inUse) : r.find? a = .ok (some h) := by
  rw [find?_eq, ha]
  simp [Except.map, hmem]

theorem find?_of_not_mem {named : Option Nat} (ha : handle? a = .ok named)
    (hnot : ∀ h, named = some h → h ∉ r.inUse) : r.find? a = .ok none := by
  rw [find?_eq, ha]
  cases named with
  | none => rfl
  | some h => simp [Except.map, hnot h rfl]

theorem find?_of_error {e : Error} (ha : handle? a = .error e) : r.find? a = .error e := by
  rw [find?_eq, ha]
  rfl

/-- **What looking up an argument comes to**: the handle that it stands for, if that is in use; a refusal, if
it is not; or an error, if the argument cannot stand for a handle. -/
inductive Found (r : Registry) (a : Arg) : Except Error Nat → Prop where
  | inUse {h : Nat} (ha : handle? a = .ok (some h)) (hmem : h ∈ r.inUse) : Found r a (.ok h)
  | refused {named : Option Nat} (ha : handle? a = .ok named) (hnot : ∀ h, named = some h → h ∉ r.inUse) :
      Found r a (.error (r.refusal a))
  | noHandle {e : Error} (ha : handle? a = .error e) : Found r a (.error e)

theorem found_lookup (r : Registry) (a : Arg) : Found r a (r.lookup a) := by
  cases ha : handle? a with
  | error e =>
    rw [lookup, find?_of_error ha]
    exact .noHandle ha
  | ok named =>
    by_cases hmem : ∃ h, named = some h ∧ h ∈ r.inUse
    · obtain ⟨h, rfl, hmem⟩ := hmem
      rw [lookup, find?_of_mem ha hmem]
      exact .inUse ha hmem
    · have hnot : ∀ h, named = some h → h ∉ r.inUse := fun h hnamed hin => hmem ⟨h, hnamed, hin⟩
      rw [lookup, find?_of_not_mem ha hnot]
      exact .refused ha hnot

theorem lookup_of_mem (ha : handle? a = .ok (some h)) (hmem : h ∈ r.inUse) : r.lookup a = .ok h := by
  rw [lookup, find?_of_mem ha hmem]
  rfl

theorem lookup_of_not_mem {named : Option Nat} (ha : handle? a = .ok named)
    (hnot : ∀ h, named = some h → h ∉ r.inUse) : r.lookup a = .error (r.refusal a) := by
  rw [lookup, find?_of_not_mem ha hnot]
  rfl

theorem get_of_mem (ha : handle? a = .ok (some h)) (hmem : h ∈ r.inUse) (hs : r.session? h = some s) :
    r.get a = .ok s := by
  simp only [get, lookup_of_mem ha hmem, bind, Except.bind, hs]
  rfl

theorem get_of_not_mem {named : Option Nat} (ha : handle? a = .ok named)
    (hnot : ∀ h, named = some h → h ∉ r.inUse) : r.get a = .error (r.refusal a) := by
  rw [get, lookup_of_not_mem ha hnot]
  rfl

/-- What names a handle that is not in use names none in use. -/
theorem not_mem_of_named (hnot : h ∉ r.inUse) : ∀ k, some h = some k → k ∉ r.inUse := by
  rintro k ⟨⟩
  exact hnot

theorem contains_eq (ha : handle? a = .ok (some h)) : r.contains a = .ok (decide (h ∈ r.inUse)) := by
  by_cases hmem : h ∈ r.inUse
  · rw [contains, find?_of_mem ha hmem, decide_eq_true hmem]
    rfl
  · rw [contains, find?_of_not_mem ha (not_mem_of_named hmem), decide_eq_false hmem]
    rfl

/-- Whether a handle that an argument stands for has been given out, an integer tells and another number does
not. -/
theorem wasIssued_of_handle? (ha : handle? a = .ok (some h)) :
    r.wasIssued a = (a.int?.isSome && (r.session? h).isSome) := by
  have hissued : ∀ n : Int, (if 0 ≤ n then some n.toNat else none) = some h →
      decide (0 < n ∧ n ≤ r.sessions.length) = (r.session? h).isSome := by
    intro n hn
    rw [Bool.eq_iff_iff, decide_eq_true_eq, isSome_session?_iff]
    split at hn
    · cases hn
      omega
    · cases hn
  cases a with
  | flag b => exact hissued _ (Except.ok.inj ha)
  | int n => exact hissued n (Except.ok.inj ha)
  | float x => rfl
  | absent | text | list | record => cases ha

/-! ## Disposing of all -/

theorem fst_foldl_release (hs : List Nat) (r : Registry) (lines : List Log.Record) :
    (hs.foldl (fun (p : Registry × List Log.Record) h =>
      let (r', more) := p.1.release h
      (r', p.2 ++ more)) (r, lines)).1 = hs.foldl (fun r h => (r.release h).1) r := by
  induction hs generalizing r lines with
  | nil => rfl
  | cons h rest ih => exact ih _ _

/-- Sessions may be released in a row. -/
theorem session?_foldl_release (hs : List Nat) (r : Registry) (k : Nat) :
    (hs.foldl (fun r h => (r.release h).1) r).session? k =
      if k ∈ hs then (r.session? k).map fun s => { s with stage := .disposed } else r.session? k := by
  induction hs generalizing r with
  | nil => rfl
  | cons h rest ih =>
    rw [List.foldl_cons, ih, session?_release]
    by_cases hk : k = h
    · subst hk
      cases r.session? k <;> simp
    · simp [hk]

theorem foldl_release (hs : List Nat) (r : Registry) :
    (hs.foldl (fun r h => (r.release h).1) r).inUse = r.inUse ∧
      (hs.foldl (fun r h => (r.release h).1) r).cache = r.cache ∧
      (hs.foldl (fun r h => (r.release h).1) r).sessions.length = r.sessions.length := by
  induction hs generalizing r with
  | nil => exact ⟨rfl, rfl, rfl⟩
  | cons h rest ih => simpa using ih (r.release h).1

theorem disposeAll_fst (r : Registry) :
    r.disposeAll.1 = r.inUse.foldl (fun r h => (r.release h).1) { r with inUse := [] } :=
  fst_foldl_release r.inUse _ _

/-- **All sessions in use are disposed of**, and no other. -/
theorem session?_disposeAll (r : Registry) (k : Nat) : r.disposeAll.1.session? k =
    if k ∈ r.inUse then (r.session? k).map fun s => { s with stage := .disposed } else r.session? k := by
  rw [disposeAll_fst, session?_foldl_release]
  rfl

@[simp] theorem inUse_disposeAll (r : Registry) : r.disposeAll.1.inUse = [] := by
  rw [disposeAll_fst, (foldl_release _ _).1]

@[simp] theorem cache_disposeAll (r : Registry) : r.disposeAll.1.cache = r.cache := by
  rw [disposeAll_fst, (foldl_release _ _).2.1]

@[simp] theorem length_disposeAll (r : Registry) : r.disposeAll.1.sessions.length = r.sessions.length := by
  rw [disposeAll_fst, (foldl_release _ _).2.2]

/-! ## Calls -/

/-- The registry after a session has been made. -/
def withSession (r : Registry) (s : Session) : Registry :=
  { r with
    sessions := r.sessions ++ [{ s with handle := some (r.sessions.length + 1) }]
    inUse := r.inUse ++ [r.sessions.length + 1] }

theorem session?_withSession (r : Registry) (s : Session) (k : Nat) : (r.withSession s).session? k =
    if k = r.sessions.length + 1 then some { s with handle := some k } else r.session? k := by
  cases k with
  | zero => simp
  | succ k =>
    simp only [withSession, session?_succ, List.getElem?_append, Nat.add_right_cancel_iff]
    by_cases hk : k = r.sessions.length
    · subst hk
      simp
    · rw [if_neg hk]
      split
      · rfl
      · rename_i hge
        rw [List.getElem?_eq_none (Nat.not_lt.mp hge), List.getElem?_eq_none]
        simp only [List.length_singleton]
        omega

/-- The registry after a session has been taken out of use. -/
def without (r : Registry) (h : Nat) : Registry := ({ r with inUse := r.inUse.erase h }.release h).1

theorem session?_without (r : Registry) (h k : Nat) : (r.without h).session? k =
    if k = h then (r.session? k).map fun s => { s with stage := .disposed } else r.session? k :=
  session?_release _ h k

/-- The registry after a session has done something about what it was asked. -/
def withAnswer (r : Registry) (h : Nat) (after : Session × RowCache) : Registry :=
  { r.update h after.1 with cache := after.2 }

theorem session?_withAnswer (r : Registry) (h k : Nat) (after : Session × RowCache) :
    (r.withAnswer h after).session? k =
      if k = h then (r.session? k).map fun _ => after.1 else r.session? k :=
  session?_update r h k after.1

@[simp] theorem inUse_withAnswer (r : Registry) (h : Nat) (after : Session × RowCache) :
    (r.withAnswer h after).inUse = r.inUse := inUse_update r h after.1

@[simp] theorem length_withAnswer (r : Registry) (h : Nat) (after : Session × RowCache) :
    (r.withAnswer h after).sessions.length = r.sessions.length := length_update r h after.1

@[simp] theorem inUse_without (r : Registry) (h : Nat) : (r.without h).inUse = r.inUse.erase h :=
  inUse_release _ h

@[simp] theorem cache_without (r : Registry) (h : Nat) : (r.without h).cache = r.cache := cache_release _ h

@[simp] theorem length_without (r : Registry) (h : Nat) : (r.without h).sessions.length = r.sessions.length :=
  length_release _ h

/-- **What a call comes to** in a registry that has a session for every handle in use: the registry afterwards,
and the outcome. -/
inductive Called (w : Outside) (r : Registry) : Call → Registry × Except Error Outcome → Prop where
  | made {columns rowsHint : Arg} {s : Session}
      (hs : Session.create w.backend w.timeLimit columns rowsHint = .ok s) :
      Called w r (.construct columns rowsHint) (r.withSession s, .ok (.made (r.sessions.length + 1)))
  | notMade {columns rowsHint : Arg} {e : Error}
      (he : Session.create w.backend w.timeLimit columns rowsHint = .error e) :
      Called w r (.construct columns rowsHint) (r, .error e)
  | asked {a : Arg} {q : Request} {h : Nat} {s : Session} (ha : handle? a = .ok (some h)) (hmem : h ∈ r.inUse)
      (hs : r.session? h = some s) :
      Called w r (.ask a q)
        (r.withAnswer h (s.respond w r.cache q).1, (s.respond w r.cache q).2.map .answered)
  | notAsked {a : Arg} {q : Request} {e : Error} (he : r.lookup a = .error e) :
      Called w r (.ask a q) (r, .error e)
  | disposed {a : Arg} {h : Nat} (ha : handle? a = .ok (some h)) (hmem : h ∈ r.inUse) :
      Called w r (.dispose a) (r.without h, .ok .done)
  /-- nothing in use is to be disposed of, but it has been given out once -/
  | disposedBefore {a : Arg} (hnot : ∀ h, handle? a = .ok (some h) → h ∉ r.inUse) :
      Called w r (.dispose a) (r, .ok .done)
  | notDisposed {a : Arg} {e : Error} (hnot : ∀ h, handle? a = .ok (some h) → h ∉ r.inUse) :
      Called w r (.dispose a) (r, .error e)
  | disposedAll : Called w r .disposeAll (r.disposeAll.1, .ok .done)
  | got (a : Arg) : Called w r (.get a) (r, (r.get a).map .session)
  | contains (a : Arg) : Called w r (.contains a) (r, (r.contains a).map .contained)
  | handles : Called w r .handles (r, .ok (.listed r.handles))
  | size : Called w r .size (r, .ok (.counted r.size))

theorem call_construct_of_error {columns rowsHint : Arg} {e : Error}
    (he : Session.create w.backend w.timeLimit columns rowsHint = .error e) :
    r.call w (.construct columns rowsHint) = (r, .error e) := by
  have hconstruct : r.construct w.backend w.timeLimit columns rowsHint = .error e := by
    rw [construct, he]
    rfl
  simp only [call, hconstruct]

theorem call_construct_of_ok {columns rowsHint : Arg}
    (hs : Session.create w.backend w.timeLimit columns rowsHint = .ok s) :
    r.call w (.construct columns rowsHint) = (r.withSession s, .ok (.made (r.sessions.length + 1))) := by
  have hconstruct : ∃ lines, r.construct w.backend w.timeLimit columns rowsHint =
      .ok (r.withSession s, r.sessions.length + 1, lines) := by
    rw [construct, hs]
    exact ⟨_, rfl⟩
  obtain ⟨lines, hconstruct⟩ := hconstruct
  simp only [call, hconstruct]

/-! ### Calls on one handle -/

theorem call_ask_of_mem (ha : handle? a = .ok (some h)) (hmem : h ∈ r.inUse) (hs : r.session? h = some s)
    (q : Request) : r.call w (.ask a q) =
      (r.withAnswer h (s.respond w r.cache q).1, (s.respond w r.cache q).2.map .answered) := by
  simp only [call, lookup_of_mem ha hmem, hs]
  rfl

theorem call_ask_of_error {e : Error} (he : r.lookup a = .error e) (q : Request) :
    r.call w (.ask a q) = (r, .error e) := by
  simp only [call, he]

theorem dispose_of_mem (ha : handle? a = .ok (some h)) (hmem : h ∈ r.inUse) :
    ∃ lines, r.dispose a = .ok (r.without h, lines) := by
  have hne : r.inUse.isEmpty = false := by
    cases hlist : r.inUse with
    | nil => exact absurd (hlist ▸ hmem) List.not_mem_nil
    | cons => rfl
  have hfind : r.findToDispose? a = .ok (some h) := by
    rw [findToDispose?, hne, find?_of_mem ha hmem]
    rfl
  rw [dispose, hfind]
  exact ⟨_, rfl⟩

theorem call_dispose_of_mem (ha : handle? a = .ok (some h)) (hmem : h ∈ r.inUse) :
    r.call w (.dispose a) = (r.without h, .ok .done) := by
  obtain ⟨lines, hdispose⟩ := dispose_of_mem ha hmem
  simp only [call, hdispose]

/-- What has not been in use stays as it is. It may be disposed of if it has been given out. -/
theorem call_dispose_of_none (hfind : r.findToDispose? a = .ok none) : r.call w (.dispose a) =
    (r, if r.wasIssued a = true then .ok .done else .error (.handleUnknown a)) := by
  simp only [call, dispose, hfind]
  cases r.wasIssued a <;> rfl

theorem findToDispose?_of_not_mem {named : Option Nat} (ha : handle? a = .ok named)
    (hnot : ∀ h, named = some h → h ∉ r.inUse) : r.findToDispose? a = .ok none := by
  unfold findToDispose?
  split
  · rfl
  · exact find?_of_not_mem ha hnot

/-- What cannot stand for a handle is not looked up if nothing is in use. -/
theorem findToDispose?_of_error {e : Error} (ha : handle? a = .error e) :
    r.findToDispose? a = .ok none ∨ r.findToDispose? a = .error e := by
  unfold findToDispose?
  split
  · exact .inl rfl
  · exact .inr (find?_of_error ha)

theorem called_call (hsessions : ∀ h ∈ r.inUse, (r.session? h).isSome = true) (c : Call) :
    Called w r c (r.call w c) := by
  cases c with
  | construct columns rowsHint =>
    cases hs : Session.create w.backend w.timeLimit columns rowsHint with
    | error e =>
      rw [call_construct_of_error hs]
      exact .notMade hs
    | ok s =>
      rw [call_construct_of_ok hs]
      exact .made hs
  | ask a q =>
    have hfound := r.found_lookup a
    cases hlookup : r.lookup a with
    | error e =>
      rw [call_ask_of_error hlookup]
      exact .notAsked hlookup
    | ok h =>
      rw [hlookup] at hfound
      cases hfound with
      | inUse ha hmem =>
        obtain ⟨s, hs⟩ := Option.isSome_iff_exists.mp (hsessions h hmem)
        rw [call_ask_of_mem ha hmem hs]
        exact .asked ha hmem hs
  | dispose a =>
    by_cases hmem : ∃ h, handle? a = .ok (some h) ∧ h ∈ r.inUse
    · obtain ⟨h, ha, hmem⟩ := hmem
      rw [call_dispose_of_mem ha hmem]
      exact .disposed ha hmem
    · have hnot : ∀ h, handle? a = .ok (some h) → h ∉ r.inUse := fun h ha hin => hmem ⟨h, ha, hin⟩
      have hfind : r.findToDispose? a = .ok none ∨ ∃ e, r.findToDispose? a = .error e := by
        cases ha : handle? a with
        | error e => exact (findToDispose?_of_error ha).imp_right fun he => ⟨e, he⟩
        | ok named => exact .inl (findToDispose?_of_not_mem ha fun h hnamed => hnot h (hnamed ▸ ha))
      rcases hfind with hfind | ⟨e, hfind⟩
      · rw [call_dispose_of_none hfind]
        split
        · exact .disposedBefore hnot
        · exact .notDisposed hnot
      · have hdispose : r.dispose a = .error e := by rw [dispose, hfind]; rfl
        simp only [call, hdispose]
        exact .notDisposed hnot
  | disposeAll => exact .disposedAll
  | get a => exact .got a
  | contains a => exact .contains a
  | handles => exact .handles
  | size => exact .size

end Registry

end Milp
