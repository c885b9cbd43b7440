import Milp.Exact.Solver
import Milp.Proofs.Registry.Handles
import Milp.Proofs.Session.Alike
import Milp.Proofs.Solve.Numbers

/-!
# Handles do not get in each other's way

All sessions of a registry share one row cache, and handles count on, whoever makes them. Still nobody who uses
one handle can tell what the others are used for: the calls on that handle come to the same in a registry of its
own, if the solver looks at numbers only.

* `Call.concerns` and `own` — the calls on one handle, with what came of them.
* `WellFormed` — all models of a registry are well-formed, and its row cache is sound.
* `Mirrors` — a registry that has done what another one has done for one handle: `Mirrors.own`, `Mirrors.other`.
* `isolated` — the calls on one handle come to the same alone.
-/

namespace Milp.Registry

variable {w : Outside} {r r₁ : Registry} {a : Arg} {h : Nat} {c : Call}

/-! ## The calls on one handle -/

/-- Whether an argument stands for a handle. -/
def names (a : Arg) (h : Nat) : Bool :=
  match handle? a with
  | .ok (some k) => decide (k = h)
  | _ => false

theorem names_iff : names a h = true ↔ handle? a = .ok (some h) := by
  unfold names
  split
  · rename_i k hk
    rw [hk, decide_eq_true_eq, Except.ok.injEq, Option.some.injEq]
  · rename_i hne
    simp only [Bool.false_eq_true, false_iff]
    exact hne h

/-- **Whether a call is about a handle**: it has given the handle out, or it names the handle, or all of them. -/
def Call.concerns (h : Nat) (outcome : Except Error Outcome) : Call → Bool
  | .construct _ _ => decide (Outcome.made? outcome = some h)
  | .ask a _ | .dispose a | .get a | .contains a => names a h
  | .disposeAll => true
  | .handles | .size => false

/-- The first handle, in the form in which another one was given. -/
def asFirst : Arg → Arg
  | .flag _ => .flag true
  | .float _ => .float Binary64.one
  | _ => .int 1

/-- A call on a handle, made on the first handle instead. -/
def Call.onFirst : Call → Call
  | .ask a q => .ask (asFirst a) q
  | .dispose a => .dispose (asFirst a)
  | .get a => .get (asFirst a)
  | .contains a => .contains (asFirst a)
  | c => c

/-- **The calls on one handle**, and what came of them. -/
def own (w : Outside) (r : Registry) (h : Nat) (calls : List Call) : List (Call × Except Error Outcome) :=
  (calls.zip (r.outcomes w calls)).filter fun p => p.1.concerns h p.2

theorem own_cons (w : Outside) (r : Registry) (h : Nat) (c : Call) (rest : List Call) :
    r.own w h (c :: rest) = if c.concerns h (r.call w c).2 = true then
      (c, (r.call w c).2) :: (r.call w c).1.own w h rest else (r.call w c).1.own w h rest :=
  List.filter_cons

theorem handle?_asFirst (ha : handle? a = .ok (some h)) : handle? (asFirst a) = .ok (some 1) := by
  cases a with
  | flag | int => rfl
  | float x =>
    have hone : Arg.whole? (.float Binary64.one) = some 1 := by decide +kernel
    simp only [asFirst, handle?, hone]
    rfl
  | absent | text | list | record => cases ha

theorem isSome_int?_asFirst (ha : handle? a = .ok (some h)) : (asFirst a).int?.isSome = a.int?.isSome := by
  cases a with
  | flag | int | float => rfl
  | absent | text | list | record => cases ha

/-- **Outcomes that are the same but for the handle.** -/
inductive Outcome.Same (h : Nat) : Outcome → Outcome → Prop where
  | made : Same h (.made h) (.made 1)
  | answered (a : Answer) : Same h (.answered a) (.answered a)
  | done : Same h .done .done
  | session {s s' : Session} (hs : s.Alike s') : Same h (.session s) (.session s')
  | contained (inUse : Bool) : Same h (.contained inUse) (.contained inUse)

/-! ## Well-formed registries -/

/-- **All models of a registry are well-formed**, and its row cache is sound. -/
structure WellFormed (r : Registry) : Prop where
  cache : r.cache.Sound
  sessions : ∀ k s, r.session? k = some s → s.WellFormed

theorem wellFormed_empty : empty.WellFormed where
  cache := RowCache.sound_empty .digest
  sessions := by
    intro k s hs
    cases k <;> cases hs

/-- A session that may have been disposed of is as well-formed as it was. -/
theorem wellFormed_of_released {found : Option Session} {s' : Session} {p : Prop} [Decidable p]
    (hfound : ∀ s, found = some s → s.WellFormed)
    (hs' : (if p then found.map fun s => { s with stage := .disposed } else found) = some s') :
    s'.WellFormed := by
  split at hs'
  · obtain ⟨s, -, rfl⟩ := Option.map_eq_some_iff.mp hs'
    exact Session.wellFormed_of_disposed rfl
  · exact hfound s' hs'

theorem WellFormed.call (hr : r.WellFormed) (hkept : r.Kept) (c : Call) : (r.call w c).1.WellFormed := by
  have hcalled := hkept.called (w := w) c
  generalize r.call w c = outcome at hcalled ⊢
  cases hcalled with
  | notMade | notAsked | disposedBefore | notDisposed | got | contains | handles | size => exact hr
  | made hs =>
    refine ⟨hr.cache, fun k s' hs' => ?_⟩
    rw [session?_withSession] at hs'
    split at hs'
    · obtain rfl := Option.some.inj hs'
      exact fun m hm => Session.wellFormed_create hs m hm
    · exact hr.sessions k s' hs'
  | @asked a q h s ha hmem hs =>
    obtain ⟨hwell, hsound⟩ := (hr.sessions h s hs).respond hr.cache w q
    refine ⟨hsound, fun k s' hs' => ?_⟩
    rw [session?_withAnswer] at hs'
    split at hs'
    · obtain ⟨_, -, rfl⟩ := Option.map_eq_some_iff.mp hs'
      exact hwell
    · exact hr.sessions k s' hs'
  | @disposed a h ha hmem =>
    refine ⟨(cache_without r h).symm ▸ hr.cache, fun k s' hs' => ?_⟩
    rw [session?_without] at hs'
    exact wellFormed_of_released (hr.sessions k) hs'
  | disposedAll =>
    refine ⟨(cache_disposeAll r).symm ▸ hr.cache, fun k s' hs' => ?_⟩
    rw [session?_disposeAll] at hs'
    exact wellFormed_of_released (hr.sessions k) hs'

/-! ## One handle alone -/

/-- **A registry that mirrors another** in one handle, under the first handle of its own. -/
structure Mirrors (h : Nat) (r r₁ : Registry) : Prop where
  kept : r.Kept
  wellFormed : r.WellFormed
  kept₁ : r₁.Kept
  wellFormed₁ : r₁.WellFormed
  inUse : 1 ∈ r₁.inUse ↔ h ∈ r.inUse
  session : Option.Rel Session.Alike (r.session? h) (r₁.session? 1)

theorem mirrors_empty (h : Nat) : Mirrors h empty empty where
  kept := kept_empty
  wellFormed := wellFormed_empty
  kept₁ := kept_empty
  wellFormed₁ := wellFormed_empty
  inUse := iff_of_false List.not_mem_nil List.not_mem_nil
  session := by
    cases h <;> exact .none

namespace Mirrors

/-- Calls in both keep it up, as far as they do the same to the handle. -/
theorem step (hr : Mirrors h r r₁) {c c₁ : Call}
    (hinUse : 1 ∈ (r₁.call w c₁).1.inUse ↔ h ∈ (r.call w c).1.inUse)
    (hsession : Option.Rel Session.Alike ((r.call w c).1.session? h) ((r₁.call w c₁).1.session? 1)) :
    Mirrors h (r.call w c).1 (r₁.call w c₁).1 where
  kept := hr.kept.call c
  wellFormed := hr.wellFormed.call hr.kept c
  kept₁ := hr.kept₁.call c₁
  wellFormed₁ := hr.wellFormed₁.call hr.kept₁ c₁
  inUse := hinUse
  session := hsession

theorem isSome_session? (hr : Mirrors h r r₁) : (r₁.session? 1).isSome = (r.session? h).isSome := by
  have hsession := hr.session
  generalize r.session? h = s, r₁.session? 1 = s₁ at hsession
  cases hsession <;> rfl

/-- The session of a handle in use has its image. -/
theorem exists_session (hr : Mirrors h r r₁) (hmem : h ∈ r.inUse) :
    ∃ s s₁, r.session? h = some s ∧ r₁.session? 1 = some s₁ ∧ s.Alike s₁ := by
  obtain ⟨s, hs⟩ := hr.kept.session?_of_mem hmem
  have hsession := hr.session
  rw [hs] at hsession
  generalize r₁.session? 1 = found at hsession
  cases hsession with
  | some halike => exact ⟨s, _, hs, rfl, halike⟩

theorem wasIssued_eq (hr : Mirrors h r r₁) (ha : handle? a = .ok (some h)) :
    r₁.wasIssued (asFirst a) = r.wasIssued a := by
  rw [wasIssued_of_handle? ha, wasIssued_of_handle? (handle?_asFirst ha), isSome_int?_asFirst ha,
    hr.isSome_session?]

/-- A handle that is not in use is refused for the same kind of cause. -/
theorem category_refusal (hr : Mirrors h r r₁) (ha : handle? a = .ok (some h)) :
    (r.refusal a).category = (r₁.refusal (asFirst a)).category := by
  rw [refusal, refusal, hr.wasIssued_eq ha]
  cases r.wasIssued a <;> rfl

/-! ### Calls on the handle -/

/-- **Both have made the session.** -/
theorem construct (hr : Mirrors h r r₁) {columns rowsHint : Arg}
    (hmade : (r.call w (.construct columns rowsHint)).2 = .ok (.made h)) :
    Mirrors h (r.call w (.construct columns rowsHint)).1 (r₁.call w (.construct columns rowsHint)).1 ∧
      (r₁.call w (.construct columns rowsHint)).2 = .ok (.made 1) := by
  obtain ⟨_, _, s, heq, hs, hcall, hh⟩ := hr.kept.construct_of_made hmade
  cases heq
  have hcall₁ := call_construct_of_ok (r := r₁) hs
  -- the handle is new, so the image has no session yet
  have hnone : ¬ (r.session? h).isSome = true := by
    rw [isSome_session?_iff]
    omega
  have hlength : r₁.sessions.length = 0 := by
    rw [← hr.isSome_session?, isSome_session?_iff] at hnone
    omega
  refine ⟨hr.step ?_ ?_, ?_⟩
  · rw [hcall, hcall₁, hh, withSession, withSession, hlength]
    simp
  · rw [hcall, hcall₁, session?_withSession, session?_withSession, if_pos hh, if_pos (by omega)]
    exact .some ((Session.wellFormed_create hs).alike _ _)
  · rw [hcall₁, hlength]

theorem ask (hr : Mirrors h r r₁) (hreply : LooksAtNumbers w.reply) (ha : handle? a = .ok (some h)) (q : Request) :
    Mirrors h (r.call w (.ask a q)).1 (r₁.call w (.ask (asFirst a) q)).1 ∧
      SameOutcome (Outcome.Same h) (r.call w (.ask a q)).2 (r₁.call w (.ask (asFirst a) q)).2 := by
  have ha₁ := handle?_asFirst ha
  by_cases hmem : h ∈ r.inUse
  · have hmem₁ := hr.inUse.mpr hmem
    obtain ⟨s, s₁, hs, hs₁, halike⟩ := hr.exists_session hmem
    obtain ⟨halike', hanswer⟩ := halike.respond (hr.wellFormed.sessions h s hs) hr.wellFormed.cache
      hr.wellFormed₁.cache hreply q
    have hcall := call_ask_of_mem (w := w) ha hmem hs q
    have hcall₁ := call_ask_of_mem (w := w) ha₁ hmem₁ hs₁ q
    refine ⟨hr.step ?_ ?_, ?_⟩
    · rw [hcall, hcall₁, inUse_withAnswer, inUse_withAnswer]
      exact hr.inUse
    · rw [hcall, hcall₁, session?_withAnswer, session?_withAnswer, if_pos rfl, if_pos rfl, hs, hs₁]
      exact .some halike'
    · rw [hcall, hcall₁]
      refine hanswer.map ?_
      rintro answer _ rfl
      exact .answered answer
  · have hlookup := lookup_of_not_mem ha (not_mem_of_named hmem)
    have hlookup₁ := lookup_of_not_mem ha₁ (not_mem_of_named (mt hr.inUse.mp hmem))
    rw [call_ask_of_error hlookup, call_ask_of_error hlookup₁]
    exact ⟨hr, .refused (hr.category_refusal ha)⟩

theorem dispose (hr : Mirrors h r r₁) (ha : handle? a = .ok (some h)) :
    Mirrors h (r.call w (.dispose a)).1 (r₁.call w (.dispose (asFirst a))).1 ∧
      SameOutcome (Outcome.Same h) (r.call w (.dispose a)).2 (r₁.call w (.dispose (asFirst a))).2 := by
  have ha₁ := handle?_asFirst ha
  by_cases hmem : h ∈ r.inUse
  · obtain ⟨s, s₁, hs, hs₁, halike⟩ := hr.exists_session hmem
    have hcall := call_dispose_of_mem (w := w) ha hmem
    have hcall₁ := call_dispose_of_mem (w := w) ha₁ (hr.inUse.mpr hmem)
    have hgone : h ∉ r.inUse.erase h := hr.kept.nodup.not_mem_erase
    have hgone₁ : 1 ∉ r₁.inUse.erase 1 := hr.kept₁.nodup.not_mem_erase
    refine ⟨hr.step ?_ ?_, ?_⟩
    · rw [hcall, hcall₁, inUse_without, inUse_without]
      exact iff_of_false hgone₁ hgone
    · rw [hcall, hcall₁, session?_without, session?_without, if_pos rfl, if_pos rfl, hs, hs₁]
      exact .some (halike.withStage .disposed)
    · rw [hcall, hcall₁]
      exact .accepted .done
  · have hcall := call_dispose_of_none (w := w) (findToDispose?_of_not_mem ha (not_mem_of_named hmem))
    have hcall₁ := call_dispose_of_none (w := w)
      (findToDispose?_of_not_mem ha₁ (not_mem_of_named (mt hr.inUse.mp hmem)))
    rw [hcall, hcall₁, hr.wasIssued_eq ha]
    refine ⟨hr, ?_⟩
    cases r.wasIssued a with
    | true => exact .accepted .done
    | false => exact .refused rfl

theorem disposeAll (hr : Mirrors h r r₁) : Mirrors h (r.call w .disposeAll).1 (r₁.call w .disposeAll).1 := by
  have hinUse : (r.call w .disposeAll).1.inUse = [] := inUse_disposeAll r
  have hinUse₁ : (r₁.call w .disposeAll).1.inUse = [] := inUse_disposeAll r₁
  have hsession : (r.call w .disposeAll).1.session? h = _ := session?_disposeAll r h
  have hsession₁ : (r₁.call w .disposeAll).1.session? 1 = _ := session?_disposeAll r₁ 1
  refine hr.step ?_ ?_
  · rw [hinUse, hinUse₁]
    exact iff_of_false List.not_mem_nil List.not_mem_nil
  · rw [hsession, hsession₁]
    by_cases hmem : h ∈ r.inUse
    · obtain ⟨s, s₁, hs, hs₁, halike⟩ := hr.exists_session hmem
      rw [if_pos hmem, if_pos (hr.inUse.mpr hmem), hs, hs₁]
      exact .some (halike.withStage .disposed)
    · rw [if_neg hmem, if_neg (mt hr.inUse.mp hmem)]
      exact hr.session

theorem get (hr : Mirrors h r r₁) (ha : handle? a = .ok (some h)) :
    SameOutcome (Outcome.Same h) ((r.get a).map .session) ((r₁.get (asFirst a)).map .session) := by
  have ha₁ := handle?_asFirst ha
  by_cases hmem : h ∈ r.inUse
  · obtain ⟨s, s₁, hs, hs₁, halike⟩ := hr.exists_session hmem
    rw [get_of_mem ha hmem hs, get_of_mem ha₁ (hr.inUse.mpr hmem) hs₁]
    exact .accepted (.session halike)
  · rw [get_of_not_mem ha (not_mem_of_named hmem), get_of_not_mem ha₁ (not_mem_of_named (mt hr.inUse.mp hmem))]
    exact .refused (hr.category_refusal ha)

theorem contains (hr : Mirrors h r r₁) (ha : handle? a = .ok (some h)) :
    SameOutcome (Outcome.Same h) ((r.contains a).map .contained) ((r₁.contains (asFirst a)).map .contained) := by
  rw [contains_eq ha, contains_eq (handle?_asFirst ha), decide_eq_decide.mpr hr.inUse]
  exact .accepted (.contained _)

/-- **A call on the handle comes to the same in both**, and both go on mirroring each other. -/
theorem own (hr : Mirrors h r r₁) (hreply : LooksAtNumbers w.reply) (c : Call)
    (hc : c.concerns h (r.call w c).2 = true) :
    Mirrors h (r.call w c).1 (r₁.call w c.onFirst).1 ∧
      SameOutcome (Outcome.Same h) (r.call w c).2 (r₁.call w c.onFirst).2 := by
  cases c with
  | construct columns rowsHint =>
    have hmade : (r.call w (.construct columns rowsHint)).2 = .ok (.made h) :=
      Outcome.made?_eq_some_iff.mp (of_decide_eq_true hc)
    obtain ⟨hmirrors, hmade₁⟩ := hr.construct hmade
    refine ⟨hmirrors, ?_⟩
    show SameOutcome _ _ (r₁.call w (.construct columns rowsHint)).2
    rw [hmade, hmade₁]
    exact .accepted .made
  | ask a q => exact hr.ask hreply (names_iff.mp hc) q
  | dispose a => exact hr.dispose (names_iff.mp hc)
  | disposeAll => exact ⟨hr.disposeAll, .accepted .done⟩
  | get a => exact ⟨hr, hr.get (names_iff.mp hc)⟩
  | contains a => exact ⟨hr, hr.contains (names_iff.mp hc)⟩
  | handles | size => cases hc

/-! ### Calls on other handles -/

/-- **A call that is not about the handle does nothing to it.** -/
theorem other (hr : Mirrors h r r₁) (c : Call) (hc : ¬ c.concerns h (r.call w c).2 = true) :
    Mirrors h (r.call w c).1 r₁ := by
  have hleft (hinUse : h ∈ (r.call w c).1.inUse ↔ h ∈ r.inUse)
      (hsession : (r.call w c).1.session? h = r.session? h) : Mirrors h (r.call w c).1 r₁ :=
    { hr with
      kept := hr.kept.call c
      wellFormed := hr.wellFormed.call hr.kept c
      inUse := hr.inUse.trans hinUse.symm
      session := hsession ▸ hr.session }
  have hcalled := hr.kept.called (w := w) c
  generalize r.call w c = outcome at hcalled hc hleft ⊢
  cases hcalled with
  | notMade | notAsked | disposedBefore | notDisposed | got | contains | handles | size => exact hr
  | @made columns rowsHint s hs =>
    have hne : h ≠ r.sessions.length + 1 := by
      rintro rfl
      exact hc (decide_eq_true rfl)
    refine hleft ?_ ?_
    · simp [withSession, hne]
    · rw [session?_withSession, if_neg hne]
  | @asked a q k s ha hmem hs =>
    have hne : h ≠ k := by
      rintro rfl
      exact hc (names_iff.mpr ha)
    refine hleft ?_ ?_
    · rw [inUse_withAnswer]
    · rw [session?_withAnswer, if_neg hne]
  | @disposed a k ha hmem =>
    have hne : h ≠ k := by
      rintro rfl
      exact hc (names_iff.mpr ha)
    refine hleft ?_ ?_
    · rw [inUse_without]
      exact List.mem_erase_of_ne hne
    · rw [session?_without, if_neg hne]
  | disposedAll => exact absurd rfl hc

/-! ### Calls in a row -/

/-- **Calls in a row**: those on the handle come to the same, the others do not show. -/
theorem run (hr : Mirrors h r r₁) (hreply : LooksAtNumbers w.reply) (calls : List Call) :
    let alone := (r.own w h calls).map fun p => p.1.onFirst
    List.Forall₂ (SameOutcome (Outcome.Same h)) ((r.own w h calls).map Prod.snd) (r₁.outcomes w alone) ∧
      Mirrors h (r.run w calls) (r₁.run w alone) := by
  induction calls generalizing r r₁ with
  | nil => exact ⟨.nil, hr⟩
  | cons c rest ih =>
    rw [own_cons]
    by_cases hc : c.concerns h (r.call w c).2 = true
    · obtain ⟨hmirrors, hsame⟩ := hr.own hreply c hc
      obtain ⟨houtcomes, hlater⟩ := ih hmirrors
      rw [if_pos hc]
      exact ⟨.cons hsame houtcomes, hlater⟩
    · rw [if_neg hc]
      exact ih (hr.other c hc)

end Mirrors

/-! ## Isolation -/

/-- Solving with an engine looks at numbers, whatever the engine looks at. -/
theorem looksAtNumbers_ofEngine (backend : Backend) (timeLimit : Arg) (dot : ScalarProduct) (engine : Engine)
    (config : Config) (clock : Clock) :
    LooksAtNumbers (Outside.ofEngine backend timeLimit dot engine config clock).reply := by
  intro m m' limit hm
  show Reply.ofResult (m.solve engine config (limitArg limit) clock 0).result = Reply.ofResult _
  rw [hm.solve_eq]

/-- **Handles do not get in each other's way.** Take any calls on a registry, on any handles, with a solver that
looks at numbers only. Those on one handle come to the same in a registry that is used for nothing else: they
are accepted with the same answers, or refused for the same kind of cause, and in the end the session looks the
same. Only the number of the handle differs. -/
theorem isolated (hreply : LooksAtNumbers w.reply) (calls : List Call) (h : Nat) :
    let own := empty.own w h calls
    let alone := own.map fun p => p.1.onFirst
    List.Forall₂ (SameOutcome (Outcome.Same h)) (own.map Prod.snd) (empty.outcomes w alone) ∧
      (h ∈ (empty.run w calls).handles ↔ 1 ∈ (empty.run w alone).handles) ∧
      Option.Rel Session.Alike ((empty.run w calls).session? h) ((empty.run w alone).session? 1) := by
  obtain ⟨houtcomes, hmirrors⟩ := (mirrors_empty h).run hreply calls
  exact ⟨houtcomes, hmirrors.inUse.symm, hmirrors.session⟩

/-- A wide model has brought in two rows, and a narrow one asks for the same. One of them it is refused, as too
wide for it; the other one it gets, and it is solved when the wide model is gone. Alone, it finds neither of the
rows in the cache, and comes to the same. -/
theorem isolated_of_shared_rows :
    let one := Binary64.one
    let w := Outside.ofEngine ⟨"exact", .float Binary64.infinity⟩ .absent Binary64.dot Exact.engine Config.plain
      fun _ => Binary64.zero
    let row (i : Int) : Request :=
      .edit (.cachedRow (.list [.int 1, .int 1]) (.list [.int 0, .int i]) (.int 0) (.int 1))
    let calls : List Call := [.construct (.int 3) (.int 0), .construct (.int 2) (.int 0), .ask (.int 1) (row 1),
      .ask (.int 1) (row 2), .ask (.int 2) (.edit (.objective (.list [.int 1, .int 2]))), .ask (.int 2) (row 2),
      .ask (.int 2) (row 1), .dispose (.int 1), .ask (.int 2) (.solve Binary64.zero)]
    let own := empty.own w 2 calls
    let alone := own.map fun p => p.1.onFirst
    let m : Model := { (Model.blank 2 0 Binary64.infinity).append (.ofArrays [0, 1] [one, one]) Binary64.zero one with
      objective := [one, Binary64.ofInt 2]
      frozen := true }
    LooksAtNumbers w.reply ∧
      ((empty.run w calls).cache.hits = 2 ∧ (empty.run w alone).cache.hits = 0 ∧
        ((empty.run w calls).session? 2).map (·.stage) =
          some (.solved m .optimal [Binary64.zero, one] (Binary64.ofInt 2))) ∧
      List.Forall₂ (SameOutcome (Outcome.Same 2)) (own.map Prod.snd) (empty.outcomes w alone) ∧
      (2 ∈ (empty.run w calls).handles ↔ 1 ∈ (empty.run w alone).handles) ∧
      Option.Rel Session.Alike ((empty.run w calls).session? 2) ((empty.run w alone).session? 1) := by
  intro one w row calls own alone m
  have hreply : LooksAtNumbers w.reply := looksAtNumbers_ofEngine _ _ _ _ _ _
  refine ⟨hreply, ?_, isolated hreply calls 2⟩
  decide +kernel

end Milp.Registry
