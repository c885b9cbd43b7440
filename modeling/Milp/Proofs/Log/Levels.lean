import Milp.Log.Calls

/-!
# The level in force

The library's logger keeps the level that was set last, by a set-up or on request, until it is asked for itself:
then its level is zero, and its loggers take theirs from the top of the tree. Asking for any other logger changes no
level.

* `Loggers.lastSetting?_of_setLevel` and `Loggers.lastSetting?_of_setup` — which level was set last.
* `Loggers.Call.IsProper` — levels that are not zero, and loggers of the library's own.
* `Loggers.Follows` — how the loggers stand to the level that was set last; one call keeps it, so a run does.
* `Loggers.level_of_lastSetting` — the level in force after any calls.
-/

namespace Milp.Log

/-! ## Settings -/

namespace Setting

/-- Whether a call sets no level and takes nothing back once a level is set. -/
def Keeps : Loggers.Call → Prop
  | .setup _ _ _ | .logger _ => True
  | .setLevel _ | .reset => False

/-- Whether a call asks for the library's own logger. -/
def asks : Loggers.Call → Bool
  | .logger name => (Loggers.nameOf name).toOption == some rootName
  | _ => false

/-- **A level that was set stays the last one** until the next that is set, or until the set-up is taken back. -/
theorem foldl_after {later : List Loggers.Call} (h : ∀ c ∈ later, Keeps c) (s : Setting) :
    later.foldl after (some s) = some ⟨s.level, s.asked || later.any asks⟩ := by
  induction later generalizing s with
  | nil => simp
  | cons c rest ih =>
    obtain ⟨hc, hrest⟩ := List.forall_mem_cons.mp h
    rw [List.foldl_cons, List.any_cons]
    cases c with
    | setup level format output => exact ih hrest s
    | logger name =>
      rw [← Bool.or_assoc]
      exact ih hrest (s.ask name)
    | setLevel level => exact hc.elim
    | reset => exact hc.elim

end Setting

namespace Loggers

/-- The last level on request is the one set last, whatever was called before. -/
theorem lastSetting?_of_setLevel {level : Arg} {v : Level} (hv : readLevel level = .ok v) (before : List Call)
    {later : List Call} (h : ∀ c ∈ later, Setting.Keeps c) :
    lastSetting? (before ++ .setLevel level :: later) = some ⟨v, later.any Setting.asks⟩ := by
  rw [lastSetting?, List.foldl_append, List.foldl_cons, Setting.after, hv]
  exact Setting.foldl_after h _

/-- The level of a set-up after the last one was taken back is the one set last. -/
theorem lastSetting?_of_setup {level format : Arg} {v : Level} {f : Format} (hv : readLevel level = .ok v)
    (hf : readFormat format = .ok f) (before : List Call) (output : Output) {later : List Call}
    (h : ∀ c ∈ later, Setting.Keeps c) :
    lastSetting? (before ++ .reset :: .setup level format output :: later) = some ⟨v, later.any Setting.asks⟩ := by
  rw [lastSetting?, List.foldl_append, List.foldl_cons, List.foldl_cons, Setting.after.eq_def]
  simp only [Setting.after, hv, hf]
  exact Setting.foldl_after h _

/-! ## Proper calls -/

/-- **A call with a level that is not zero, or about one of the library's loggers.** What cannot be read as a level
or as a name is refused, so nothing is asked of it. -/
def Call.IsProper : Call → Prop
  | .setup level _ _ | .setLevel level => ∀ v, readLevel level = .ok v → v.rank ≠ 0
  | .logger name => ∀ own, nameOf name = .ok own → isOwn own = true
  | .reset => True

theorem ne_topName_of_isOwn {name : String} (h : isOwn name = true) : name ≠ topName := by
  rintro rfl
  exact absurd h (by decide +kernel)

theorem Call.isProper_setLevel {n : Int} (hn : n ≠ 0) : (Call.setLevel (.int n)).IsProper := by
  rintro v ⟨⟩
  exact hn

theorem Call.isProper_logger {name : String} (hname : isOwn name = true) : (Call.logger (.text name)).IsProper := by
  intro own hown
  have hne : name.isEmpty = false := by
    rw [Bool.eq_false_iff]
    intro hempty
    rw [String.isEmpty_iff.mp hempty] at hname
    exact absurd hname (by decide +kernel)
  rw [nameOf, hne, if_neg Bool.false_ne_true] at hown
  cases hown
  exact hname

/-! ## One call -/

/-- **The loggers follow a setting**: they are set up with one handler, on the level of the setting or on zero. -/
structure FollowsSetting (s : Setting) (l : Loggers) : Prop where
  configured : l.configured = true
  handler : ∃ handler, l.handlers = [handler]
  level : l.level = if s.asked then notSet else s.level
  rank : s.level.rank ≠ 0

/-- **The loggers follow what the calls tell.** Without a setting they are not set up. -/
structure Follows (s? : Option Setting) (l : Loggers) : Prop where
  top : l.top = warning
  unset : s? = none → l.configured = false
  set : ∀ s, s? = some s → FollowsSetting s l

variable {s? : Option Setting} {s : Setting} {l : Loggers}

theorem follows_none : Follows none l ↔ l.top = warning ∧ l.configured = false :=
  ⟨fun h => ⟨h.top, h.unset rfl⟩, fun h => ⟨h.1, fun _ => h.2, fun _ hs => nomatch hs⟩⟩

theorem follows_some : Follows (some s) l ↔ l.top = warning ∧ FollowsSetting s l := by
  constructor
  · intro h
    exact ⟨h.top, h.set s rfl⟩
  · rintro ⟨htop, hs⟩
    exact ⟨htop, (nomatch ·), fun _ heq => Option.some.inj heq ▸ hs⟩

theorem setup_of_configured (h : l.configured = true) (level format : Arg) (output : Output) :
    l.setup level format output = (l, .ok ()) := by
  rw [setup, if_pos h]

/-- A set-up where there is none: the level is read, then the format. -/
theorem setup_of_not_configured (h : l.configured = false) (level format : Arg) (output : Output) :
    (l.setup level format output).1 =
      match readLevel level, readFormat format with
      | .error _, _ => l
      | .ok v, .error _ => { l with level := v, handlers := [] }
      | .ok v, .ok f => { l with level := v, handlers := [⟨notSet, output, f⟩], configured := true } := by
  rw [setup, if_neg (by simp [h])]
  cases readLevel level with
  | error e => rfl
  | ok v => cases readFormat format <;> rfl

/-- A set-up sets a level only where there is none. -/
theorem Follows.setup (h : Follows s? l) (level format : Arg) (output : Output)
    (hlevel : ∀ v, readLevel level = .ok v → v.rank ≠ 0) :
    Follows (Setting.after s? (.setup level format output)) (l.setup level format output).1 := by
  cases s? with
  | some s =>
    rw [setup_of_configured (h.set s rfl).configured]
    exact h
  | none =>
    obtain ⟨htop, hunset⟩ := follows_none.mp h
    rw [setup_of_not_configured hunset]
    cases hv : readLevel level with
    | error e =>
      simp only [Setting.after, hv]
      exact h
    | ok v =>
      cases hf : readFormat format with
      | error e =>
        simp only [Setting.after, hv, hf]
        exact follows_none.mpr ⟨htop, hunset⟩
      | ok f =>
        simp only [Setting.after, hv, hf]
        exact follows_some.mpr ⟨htop, rfl, ⟨_, rfl⟩, rfl, hlevel v hv⟩

/-- What is set up of its own accord. -/
theorem Follows.ensure (h : Follows s? l) : Follows (some (s?.getD .plain)) l.ensure := by
  have hsetup := h.setup warning.arg .absent .standardError
    (by rintro v ⟨⟩; decide)
  cases s? with
  | none => exact hsetup
  | some s => exact hsetup

/-- Asking for the library's own logger sets its level to zero, asking for any other sets none. -/
theorem Follows.logger (h : Follows s? l) {name : Arg} (hname : ∀ own, nameOf name = .ok own → isOwn own = true) :
    Follows (Setting.after s? (.logger name)) (l.logger name).1 := by
  obtain ⟨htop, hs⟩ := follows_some.mp h.ensure
  rw [Setting.after, Loggers.logger]
  cases hn : nameOf name with
  | error e =>
    refine follows_some.mpr ⟨htop, hs.configured, hs.handler, ?_, hs.rank⟩
    simpa [Setting.ask, hn, Except.toOption] using hs.level
  | ok own =>
    have hne : own ≠ topName := ne_topName_of_isOwn (hname own hn)
    by_cases hroot : own = rootName
    · refine follows_some.mpr ?_
      simp only [hroot, beq_self_eq_true, if_true]
      exact ⟨htop, hs.configured, hs.handler, by simp [Setting.ask, hn, hroot, Except.toOption], hs.rank⟩
    · simp only [beq_iff_eq, hroot, hne, if_false]
      refine follows_some.mpr ⟨htop, hs.configured, hs.handler, ?_, hs.rank⟩
      simpa [Setting.ask, hn, hroot, Except.toOption] using hs.level

/-- A level that can be read is the one set last. -/
theorem Follows.setLevel (h : Follows s? l) {level : Arg} (hlevel : ∀ v, readLevel level = .ok v → v.rank ≠ 0) :
    Follows (Setting.after s? (.setLevel level)) (l.setLevel level).1 := by
  obtain ⟨htop, hs⟩ := follows_some.mp h.ensure
  rw [Setting.after, Loggers.setLevel]
  cases hv : readLevel level with
  | error e => exact follows_some.mpr ⟨htop, hs⟩
  | ok v =>
    obtain ⟨handler, hhandlers⟩ := hs.handler
    refine follows_some.mpr ⟨htop, hs.configured, ⟨{ handler with level := v }, ?_⟩, rfl, hlevel v hv⟩
    simp only [hhandlers, List.map_cons, List.map_nil]

theorem Follows.reset (h : Follows s? l) : Follows none l.reset := follows_none.mpr ⟨h.top, rfl⟩

/-- **Every call is followed.** -/
theorem Follows.call (h : Follows s? l) {c : Call} (hc : c.IsProper) : Follows (Setting.after s? c) (l.call c).1 := by
  cases c with
  | setup level format output => exact h.setup level format output hc
  | logger name => exact h.logger hc
  | setLevel level => exact h.setLevel hc
  | reset => exact h.reset

/-! ## Calls in a row -/

theorem Follows.run (h : Follows s? l) {calls : List Call} (hcalls : ∀ c ∈ calls, c.IsProper) :
    Follows (calls.foldl Setting.after s?) (l.run calls) := by
  induction calls generalizing s? l with
  | nil => exact h
  | cons c rest ih =>
    obtain ⟨hc, hrest⟩ := List.forall_mem_cons.mp hcalls
    exact ih (h.call hc) hrest

/-- The set-up of the first use is followed. -/
theorem follows_initial : Follows (some .plain) initial :=
  Follows.ensure (follows_none.mpr ⟨rfl, rfl⟩)

/-- The level in force for the library's loggers: that of the library's own, or warnings where that is zero. -/
theorem effectiveLevel_of_isOwn (htop : l.top = warning) {name : String} (hname : isOwn name = true) :
    l.effectiveLevel name = if l.level.rank = 0 then warning else l.level := by
  rw [effectiveLevel, htop]
  by_cases hrank : l.level.rank = 0
  · rw [if_neg (fun h => h.2 hrank), if_pos hrank]
    rfl
  · rw [if_pos ⟨hname, hrank⟩, if_neg hrank]

/-- **The level in force is the one that was set last, until the library's own logger is asked for.** After any calls
the loggers are set up if and only if the calls tell so, and then with one handler. The level of the library's
logger, and with it the level in force for every logger below, is the one that was set last if the library's own
logger has not been asked for since; otherwise its level is zero, and warnings are in force. -/
theorem level_of_lastSetting {calls : List Call} (hcalls : ∀ c ∈ calls, c.IsProper) :
    (initial.run calls).configured = (lastSetting? calls).isSome ∧
    ∀ s, lastSetting? calls = some s →
      (∃ handler, (initial.run calls).handlers = [handler]) ∧
      (s.asked = false → (initial.run calls).level = s.level ∧
        ∀ name, isOwn name = true → (initial.run calls).effectiveLevel name = s.level) ∧
      (s.asked = true → (initial.run calls).level = notSet ∧ (initial.run calls).level ≠ s.level ∧
        ∀ name, isOwn name = true → (initial.run calls).effectiveLevel name = warning) := by
  have h : Follows (lastSetting? calls) (initial.run calls) := follows_initial.run hcalls
  constructor
  · cases hs : lastSetting? calls with
    | none => exact h.unset hs
    | some s => exact (h.set s hs).configured
  · intro s hs
    obtain ⟨-, hhandler, hlevel, hrank⟩ := h.set s hs
    refine ⟨hhandler, fun hasked => ?_, fun hasked => ?_⟩
    · rw [hasked, if_neg Bool.false_ne_true] at hlevel
      refine ⟨hlevel, fun name hname => ?_⟩
      rw [effectiveLevel_of_isOwn h.top hname, hlevel, if_neg hrank]
    · rw [hasked, if_pos rfl] at hlevel
      refine ⟨hlevel, fun heq => hrank ?_, fun name hname => ?_⟩
      · rw [← heq, hlevel]
        rfl
      · rw [effectiveLevel_of_isOwn h.top hname, hlevel]
        rfl

/-- A level for debugging, and then a logger below the library's own. -/
theorem level_of_lastSetting_of_debug :
    let calls : List Call := [.setLevel (.int 10), .logger (.text "sparselp.session")]
    (∀ c ∈ calls, c.IsProper) ∧ lastSetting? calls = some ⟨debug, false⟩ ∧ (initial.run calls).level = debug ∧
      (initial.run calls).effectiveLevel "sparselp.session" = debug := by
  intro calls
  have hcalls : ∀ c ∈ calls, c.IsProper := by
    rw [List.forall_mem_cons, List.forall_mem_singleton]
    exact ⟨Call.isProper_setLevel (by decide), Call.isProper_logger (by decide +kernel)⟩
  have hlast : lastSetting? calls = some ⟨debug, false⟩ := by decide +kernel
  obtain ⟨-, hlevel, -⟩ := (level_of_lastSetting hcalls).2 _ hlast
  exact ⟨hcalls, hlast, (hlevel rfl).1, (hlevel rfl).2 "sparselp.session" (by decide +kernel)⟩

/-- A level for debugging, and then the library's own logger: debugging was set last, and the logger that is handed
out is on warnings. -/
theorem own_logger_forgets_level :
    let calls : List Call := [.setLevel (.int 10), .logger (.text rootName)]
    (∀ c ∈ calls, c.IsProper) ∧ (lastSetting? calls).map Setting.level = some debug ∧
      (initial.run calls).configured = true ∧ (initial.run calls).level = notSet ∧
      (initial.run calls).effectiveLevel rootName = warning := by
  intro calls
  refine ⟨?_, by decide +kernel⟩
  rw [List.forall_mem_cons, List.forall_mem_singleton]
  exact ⟨Call.isProper_setLevel (by decide), Call.isProper_logger (by decide +kernel)⟩

end Loggers

end Milp.Log
