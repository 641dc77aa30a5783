import RdpMcp.Native.LibraryHistory

/-!
# The lifecycle of a native connection

Whatever the order in which the two threads access the globals, and wherever a connect fails, at
most one instance is live, it is freed once and only when nobody uses it any more, and every event
thread is waited for (`lifecycle`).

What the library has done fits the globals (`Tracked`), and what the command thread **has left to
do** fits them too (`Fits`): the globals are followed through the statements, and each statement
finds what it needs. Of the four globals an event thread changes only `g_connected`, and only to
false, which `Fits` allows at any time.
-/

namespace RdpMcp

namespace Library

variable {s t : Library}

/-! ### What an event thread leaves as it is -/

/-- What a step of an event thread leaves as it is. -/
structure ThreadFrame (s t : Library) : Prop where
  program : t.program = s.program
  initialized : t.initialized = s.initialized
  running : t.running = s.running
  freerdp : t.freerdp = s.freerdp
  eventThread : t.eventThread = s.eventThread
  connected : t.connected = s.connected ∨ t.connected = false
  returned : ∀ code failure, t.history.getLast? = some (.returned code failure) →
    s.history.getLast? = some (.returned code failure)

theorem threadStep_frame {u : ℕ} {ok : Bool} (hstep : s.threadStep u ok = some t) :
    ThreadFrame s t := by
  rw [Library.threadStep] at hstep
  split at hstep
  · cases hstep
  split at hstep
  · obtain rfl := Option.some.inj hstep
    exact ⟨rfl, rfl, rfl, rfl, rfl, .inl rfl, fun _ _ hlast ↦ hlast⟩
  · obtain rfl := Option.some.inj hstep
    exact ⟨rfl, rfl, rfl, rfl, rfl, .inl rfl, fun _ _ hlast ↦ hlast⟩
  · obtain rfl := Option.some.inj hstep
    refine ⟨rfl, rfl, rfl, rfl, rfl, .inl rfl, fun code failure hlast ↦ ?_⟩
    cases List.getLast?_concat.symm.trans hlast
  · obtain rfl := Option.some.inj hstep
    exact ⟨rfl, rfl, rfl, rfl, rfl, .inr rfl, fun _ _ hlast ↦ hlast⟩
  · obtain rfl := Option.some.inj hstep
    exact ⟨rfl, rfl, rfl, rfl, rfl, .inl rfl, fun _ _ hlast ↦ hlast⟩
  · obtain rfl := Option.some.inj hstep
    refine ⟨rfl, rfl, rfl, rfl, rfl, .inl rfl, fun code failure hlast ↦ ?_⟩
    cases List.getLast?_concat.symm.trans hlast
  · cases hstep

/-! ### What the command thread has left to do -/

/-- The globals, as far as the statements of the command thread depend on them. -/
structure Globals where
  freerdp : Bool
  eventThread : Bool
  connected : Bool
  initialized : Bool

def globals (s : Library) : Globals :=
  ⟨s.freerdp.isSome, s.eventThread.isSome, s.connected, s.initialized⟩

/-- Nothing is live. -/
def Globals.Stopped (g : Globals) : Prop :=
  g.freerdp = false ∧ g.eventThread = false

/-- **What the command thread has left fits the globals.** They are followed through the statements;
the last one returns from the call. -/
def Fits (g : Globals) : List LibraryOp → Prop
  | [] => False
  | .setInitialized value :: rest => Fits { g with initialized := value } rest
  | .setRunning _ :: rest => Fits g rest
  | .setConnected value :: rest => Fits { g with connected := value } rest
  | .joinThread :: rest => Fits { g with eventThread := false } rest
  | .freeInstance :: rest => g.eventThread = false ∧ Fits { g with freerdp := false } rest
  | .connect :: rest => rest = [] ∧ g.initialized = true
  | .startConnection :: rest => rest = [] ∧ g.initialized = true ∧ g.connected = false
  | .connectionInit :: rest =>
    rest = [] ∧ g.initialized = true ∧ g.connected = false ∧ g.Stopped
  | .connectionConnect :: rest =>
    rest = [] ∧ g.initialized = true ∧ g.connected = false ∧ g.freerdp = true ∧
      g.eventThread = false
  | .createThread :: rest =>
    rest = [] ∧ g.initialized = true ∧ g.freerdp = true ∧ g.eventThread = false
  | .whenConnected _ :: rest => rest = [] ∧ g.initialized = true
  | .input _ :: rest => rest = [] ∧ g.initialized = true ∧ g.freerdp = true
  | .error _ :: rest => Fits g rest
  | .returns _ failure :: rest =>
    rest = [] ∧ (failure ≠ none → g.Stopped ∧ g.connected = false) ∧
      (g.initialized = false → g.Stopped)

/-- Between two calls, nothing is live without initialization or behind a connect that has failed.
-/
structure AtRest (s : Library) : Prop where
  program : s.program = []
  uninitialized : s.initialized = false → s.globals.Stopped
  failed : ∀ code failure, s.history.getLast? = some (.returned code (some failure)) →
    s.globals.Stopped ∧ s.connected = false

/-- An event thread may clear `g_connected` at any time. -/
theorem Fits.disconnected {g : Globals} {program : List LibraryOp} (h : Fits g program) :
    Fits { g with connected := false } program := by
  induction program generalizing g with
  | nil => exact h
  | cons op rest ih =>
    cases op with
    | setInitialized value => exact ih h
    | setRunning value => exact ih h
    | setConnected value => exact h
    | joinThread => exact ih h
    | freeInstance => exact ⟨h.1, ih h.2⟩
    | connect => exact h
    | startConnection => exact ⟨h.1, h.2.1, rfl⟩
    | connectionInit => exact ⟨h.1, h.2.1, rfl, h.2.2.2⟩
    | connectionConnect => exact ⟨h.1, h.2.1, rfl, h.2.2.2⟩
    | createThread => exact h
    | whenConnected returned => exact h
    | input returned => exact h
    | error text => exact ih h
    | returns code failure => exact ⟨h.1, fun hfailure ↦ ⟨(h.2.1 hfailure).1, rfl⟩, h.2.2⟩

/-- The state fits: what has been, and what is left. -/
structure Inv (s : Library) : Prop where
  tracked : s.Tracked
  left : s.AtRest ∨ Fits s.globals s.program

/-! ### Steps -/

theorem isSome_eq_false {x : Option ℕ} : x.isSome = false ↔ x = none := by
  rw [Option.isSome_eq_false_iff, Option.isNone_iff_eq_none]

/-- **One statement of the command thread.** -/
theorem Tracked.perform (h : s.Tracked) {op : LibraryOp} {rest : List LibraryOp} {ok : Bool}
    (hfits : Fits s.globals (op :: rest)) (hstep : s.perform rest ok op = some t) : t.Inv := by
  cases op with
  | setInitialized value =>
    obtain rfl := Option.some.inj hstep
    exact ⟨h.of_eq rfl rfl rfl rfl rfl, .inr hfits⟩
  | setRunning value =>
    obtain rfl := Option.some.inj hstep
    exact ⟨h.of_eq rfl rfl rfl rfl rfl, .inr hfits⟩
  | setConnected value =>
    obtain rfl := Option.some.inj hstep
    exact ⟨h.of_eq rfl rfl rfl rfl rfl, .inr hfits⟩
  | joinThread =>
    rw [Library.perform] at hstep
    split at hstep
    · next hthread =>
      obtain rfl := Option.some.inj hstep
      refine ⟨h.of_eq rfl rfl rfl rfl rfl, .inr ?_⟩
      rw [Fits, globals, hthread] at hfits
      rw [globals, hthread]
      exact hfits
    · next u hthread =>
      obtain ⟨hended, hstep⟩ := Option.ite_none_right_eq_some.1 hstep
      obtain rfl := Option.some.inj hstep
      exact ⟨(h.join hthread hended).of_eq rfl rfl rfl rfl rfl, .inr hfits⟩
  | freeInstance =>
    obtain ⟨hnothread, hfits⟩ := hfits
    rw [Library.perform] at hstep
    split at hstep
    · next hfreerdp =>
      obtain rfl := Option.some.inj hstep
      refine ⟨h.of_eq rfl rfl rfl rfl rfl, .inr ?_⟩
      rw [globals, hfreerdp] at hfits
      rw [globals, hfreerdp]
      exact hfits
    · next i hfreerdp =>
      obtain rfl := Option.some.inj hstep
      exact ⟨(h.free hfreerdp (isSome_eq_false.1 hnothread)).of_eq rfl rfl rfl rfl rfl, .inr hfits⟩
  | connect =>
    obtain ⟨rfl, hinitialized⟩ := hfits
    obtain rfl := Option.some.inj hstep
    refine ⟨h.of_eq rfl rfl rfl rfl rfl, .inr ?_⟩
    by_cases hconnected : s.connected = true
    · rw [if_pos hconnected]
      exact ⟨rfl, absurd rfl, fun hnot ↦ absurd (hinitialized.symm.trans hnot) nofun⟩
    · rw [if_neg hconnected]
      exact ⟨rfl, hinitialized, Bool.eq_false_of_not_eq_true hconnected⟩
  | startConnection =>
    obtain ⟨rfl, hinitialized, hconnected⟩ := hfits
    obtain rfl := Option.some.inj hstep
    refine ⟨h.of_eq rfl rfl rfl rfl rfl, .inr ?_⟩
    by_cases hold : (s.freerdp.isSome || s.eventThread.isSome) = true
    · -- the dead connection is stopped first
      rw [if_pos hold]
      exact ⟨rfl, rfl, hinitialized, rfl, rfl, rfl⟩
    · rw [if_neg hold]
      have hstopped := Bool.or_eq_false_iff.1 (Bool.eq_false_of_not_eq_true hold)
      exact ⟨rfl, hinitialized, hconnected, hstopped⟩
  | connectionInit =>
    obtain ⟨rfl, hinitialized, hconnected, hfreerdp, hthread⟩ := hfits
    rw [Library.perform] at hstep
    split at hstep
    · obtain rfl := Option.some.inj hstep
      have htracked := h.create (isSome_eq_false.1 hfreerdp) (isSome_eq_false.1 hthread)
      exact ⟨htracked.of_eq rfl rfl rfl rfl rfl, .inr ⟨rfl, hinitialized, hconnected, rfl, hthread⟩⟩
    · obtain rfl := Option.some.inj hstep
      exact ⟨h.of_eq rfl rfl rfl rfl rfl,
        .inr ⟨rfl, fun _ ↦ ⟨⟨hfreerdp, hthread⟩, hconnected⟩, fun _ ↦ ⟨hfreerdp, hthread⟩⟩⟩
  | connectionConnect =>
    obtain ⟨rfl, hinitialized, hconnected, hfreerdp, hthread⟩ := hfits
    rw [Library.perform] at hstep
    split at hstep
    · obtain rfl := Option.some.inj hstep
      exact ⟨h.of_eq rfl rfl rfl rfl rfl, .inr ⟨rfl, hinitialized, hfreerdp, hthread⟩⟩
    · obtain rfl := Option.some.inj hstep
      exact ⟨h.of_eq rfl rfl rfl rfl rfl,
        .inr ⟨hthread, rfl, fun _ ↦ ⟨⟨rfl, hthread⟩, hconnected⟩, fun _ ↦ ⟨rfl, hthread⟩⟩⟩
  | createThread =>
    obtain ⟨rfl, hinitialized, hfreerdp, hthread⟩ := hfits
    rw [Library.perform] at hstep
    split at hstep
    · obtain rfl := Option.some.inj hstep
      obtain ⟨i, hi⟩ := Option.isSome_iff_exists.1 hfreerdp
      refine ⟨(h.start hi (isSome_eq_false.1 hthread)).of_eq rfl rfl rfl rfl rfl, .inr ?_⟩
      exact ⟨rfl, absurd rfl, fun hnot ↦ absurd (hinitialized.symm.trans hnot) nofun⟩
    · obtain rfl := Option.some.inj hstep
      exact ⟨h.of_eq rfl rfl rfl rfl rfl,
        .inr ⟨rfl, rfl, fun _ ↦ ⟨⟨rfl, rfl⟩, rfl⟩, fun _ ↦ ⟨rfl, rfl⟩⟩⟩
  | whenConnected returned =>
    obtain ⟨rfl, hinitialized⟩ := hfits
    obtain rfl := Option.some.inj hstep
    refine ⟨h.of_eq rfl rfl rfl rfl rfl, .inr ?_⟩
    by_cases hconnected : (s.connected && s.freerdp.isSome) = true
    · rw [if_pos hconnected]
      exact ⟨rfl, hinitialized, (Bool.and_eq_true_iff.1 hconnected).2⟩
    · rw [if_neg hconnected]
      exact ⟨rfl, absurd rfl, fun hnot ↦ absurd (hinitialized.symm.trans hnot) nofun⟩
  | input returned =>
    obtain ⟨rfl, hinitialized, hfreerdp⟩ := hfits
    obtain rfl := Option.some.inj hstep
    obtain ⟨i, hi⟩ := Option.isSome_iff_exists.1 hfreerdp
    have hallowed : (LibraryEffect.input s.freerdp).Allowed s.history := ⟨i, hi, (h.live i).2 hi⟩
    refine ⟨(h.emit_other (by trivial) hallowed).of_eq rfl rfl rfl rfl rfl, .inr ?_⟩
    exact ⟨rfl, absurd rfl, fun hnot ↦ absurd (hinitialized.symm.trans hnot) nofun⟩
  | error text =>
    obtain rfl := Option.some.inj hstep
    exact ⟨(h.emit_other (by trivial) (by trivial)).of_eq rfl rfl rfl rfl rfl, .inr hfits⟩
  | returns code failure =>
    obtain ⟨rfl, hfailure, huninitialized⟩ := hfits
    obtain rfl := Option.some.inj hstep
    refine ⟨(h.emit_other (by trivial) (by trivial)).of_eq rfl rfl rfl rfl rfl,
      .inl ⟨rfl, huninitialized, ?_⟩⟩
    intro code' failure' hlast
    have heq := Option.some.inj (List.getLast?_concat.symm.trans hlast)
    obtain ⟨-, rfl⟩ := LibraryEffect.returned.inj heq
    exact hfailure nofun

/-- **One step of an event thread**, wherever the command thread is. -/
theorem Inv.threadStep (h : s.Inv) {u : ℕ} {ok : Bool} (hstep : s.threadStep u ok = some t) :
    t.Inv := by
  obtain ⟨htracked, heventThread⟩ := h.tracked.threadStep hstep
  have hframe := threadStep_frame hstep
  have hglobals : t.globals = s.globals ∨ t.globals = { s.globals with connected := false } := by
    rw [globals, hframe.freerdp, hframe.eventThread, hframe.initialized]
    rcases hframe.connected with hsame | hlost
    · rw [hsame]
      exact .inl rfl
    · rw [hlost]
      exact .inr rfl
  -- without an event thread there is no step, so nothing is claimed of this state
  have hactive : ¬s.globals.Stopped := fun hstopped ↦ by
    cases heventThread.symm.trans (isSome_eq_false.1 hstopped.2)
  refine ⟨htracked, h.left.imp (fun hrest ↦ ?_) fun hfits ↦ ?_⟩
  · refine ⟨hframe.program.trans hrest.program, fun hinitialized ↦ ?_, fun code failure hlast ↦ ?_⟩
    · exact absurd (hrest.uninitialized (hframe.initialized.symm.trans hinitialized)) hactive
    · exact absurd (hrest.failed code failure (hframe.returned _ _ hlast)).1 hactive
  · rw [hframe.program]
    rcases hglobals with hsame | hlost
    · exact hsame ▸ hfits
    · exact hlost ▸ hfits.disconnected

/-- `stop_connection` fits any globals, and nothing is live behind it. -/
theorem fits_stopConnection {g : Globals} {rest : List LibraryOp}
    (h : Fits ⟨false, false, false, g.initialized⟩ rest) : Fits g (stopConnection ++ rest) :=
  ⟨rfl, h⟩

/-- A call that only returns. -/
theorem AtRest.fits_returns (h : s.AtRest) (code : ℤ) : Fits s.globals [.returns code none] :=
  ⟨rfl, absurd rfl, h.uninitialized⟩

theorem AtRest.fits_initializeProgram (h : s.AtRest) (callback platform : Bool) :
    Fits s.globals (s.initializeProgram callback platform) := by
  rw [initializeProgram]
  split
  · exact h.fits_returns (-1)
  split
  · exact h.fits_returns (-2)
  split
  · exact h.fits_returns (-3)
  · exact ⟨rfl, absurd rfl, nofun⟩

theorem fits_commandProgram {g : Globals} (hinitialized : g.initialized = true)
    (command : Command) :
    Fits g (commandProgram command) := by
  have hreturns (code : ℤ) : Fits g [.returns code none] :=
    ⟨rfl, absurd rfl, fun hnot ↦ absurd (hinitialized.symm.trans hnot) nofun⟩
  cases command with
  | connect _ => exact ⟨rfl, hinitialized⟩
  | disconnect =>
    exact fits_stopConnection ⟨rfl, absurd rfl, fun _ ↦ ⟨rfl, rfl⟩⟩
  | mouseMove | mouseButtonDown | mouseButtonUp | mouseScroll => exact ⟨rfl, hinitialized⟩
  | keyDown | keyUp | unicodeKeyDown | unicodeKeyUp => exact ⟨rfl, hinitialized⟩
  | resize | clipboardSet | clipboardSetFiles | clipboardRequestFiles => exact hreturns 0
  | unknown => exact hreturns (-6)

theorem AtRest.fits_nativeCommandProgram (h : s.AtRest) (command : Option Command) :
    Fits s.globals (s.nativeCommandProgram command) := by
  unfold nativeCommandProgram
  split
  · exact h.fits_returns (-1)
  · next hready =>
    have hinitialized : s.initialized = true := by
      rw [Bool.or_eq_true, not_or, Bool.not_eq_true', Bool.not_eq_false] at hready
      exact hready.1
    split
    · exact h.fits_returns (-2)
    · exact fits_commandProgram hinitialized _

theorem AtRest.fits_shutdownProgram (h : s.AtRest) : Fits s.globals s.shutdownProgram := by
  rw [shutdownProgram]
  split
  · exact h.fits_returns 0
  · exact ⟨rfl, rfl, absurd rfl, fun _ ↦ ⟨rfl, rfl⟩⟩

/-- A call begins between two calls. -/
theorem Inv.atRest (h : s.Inv) (hprogram : s.program = []) : s.AtRest := by
  rcases h.left with hrest | hfits
  · exact hrest
  · rw [hprogram] at hfits
    exact hfits.elim

/-- **The step lemma.** -/
theorem Inv.step (h : s.Inv) {action : LibraryAction}
    (hstep : librarySystem.step s action = some t) :
    t.Inv := by
  rw [librarySystem] at hstep
  cases action with
  | nativeInitialize callback platform =>
    obtain ⟨hprogram, hstep⟩ := Option.ite_none_right_eq_some.1 hstep
    obtain rfl := Option.some.inj hstep
    have hfits := (h.atRest hprogram).fits_initializeProgram callback platform
    exact ⟨h.tracked.of_eq rfl rfl rfl rfl rfl, .inr hfits⟩
  | nativeCommand command =>
    obtain ⟨hprogram, hstep⟩ := Option.ite_none_right_eq_some.1 hstep
    obtain rfl := Option.some.inj hstep
    have hfits := (h.atRest hprogram).fits_nativeCommandProgram command
    exact ⟨h.tracked.of_eq rfl rfl rfl rfl rfl, .inr hfits⟩
  | nativeShutdown =>
    obtain ⟨hprogram, hstep⟩ := Option.ite_none_right_eq_some.1 hstep
    obtain rfl := Option.some.inj hstep
    exact ⟨h.tracked.of_eq rfl rfl rfl rfl rfl, .inr (h.atRest hprogram).fits_shutdownProgram⟩
  | proceed ok =>
    dsimp only at hstep
    split at hstep
    · cases hstep
    · next op rest hprogram =>
      rcases h.left with hrest | hfits
      · cases hprogram.symm.trans hrest.program
      · rw [hprogram] at hfits
        exact h.tracked.perform hfits hstep
  | thread u ok => exact h.threadStep hstep

theorem inv_initial : ({} : Library).Inv := by
  refine ⟨⟨?_, nofun, ?_, nofun, nofun, nofun, nofun, nofun⟩, .inl ⟨rfl, fun _ ↦ ⟨rfl, rfl⟩, nofun⟩⟩
  · exact eachAfter_nil _
  · exact fun i ↦ iff_of_false (fun hlive ↦ List.not_mem_nil hlive.1) nofun

/-! ### Shutdown -/

/-- `g_initialized` when the statements are done. -/
def initializedAfter (initialized : Bool) : List LibraryOp → Bool
  | [] => initialized
  | .setInitialized value :: rest => initializedAfter value rest
  | _ :: rest => initializedAfter initialized rest

/-- A statement does not put an initialization in its place. -/
theorem initializedAfter_perform {op : LibraryOp} {rest : List LibraryOp} {ok : Bool}
    (hstep : s.perform rest ok op = some t) :
    initializedAfter t.initialized t.program = initializedAfter s.initialized (op :: rest) := by
  cases op with
  | joinThread =>
    rw [perform] at hstep
    split at hstep
    · obtain rfl := Option.some.inj hstep
      rfl
    · obtain ⟨-, hstep⟩ := Option.ite_none_right_eq_some.1 hstep
      obtain rfl := Option.some.inj hstep
      rfl
  | freeInstance =>
    rw [perform] at hstep
    split at hstep
    · obtain rfl := Option.some.inj hstep
      rfl
    · obtain rfl := Option.some.inj hstep
      rfl
  | connect =>
    obtain rfl := Option.some.inj hstep
    dsimp only
    split <;> rfl
  | startConnection =>
    obtain rfl := Option.some.inj hstep
    dsimp only
    split <;> rfl
  | connectionInit | connectionConnect | createThread =>
    rw [perform] at hstep
    split at hstep
    · obtain rfl := Option.some.inj hstep
      rfl
    · obtain rfl := Option.some.inj hstep
      rfl
  | whenConnected returned =>
    obtain rfl := Option.some.inj hstep
    dsimp only
    split <;> rfl
  | setInitialized | setRunning | setConnected | input | error | returns =>
    obtain rfl := Option.some.inj hstep
    rfl

/-! ### Whole runs -/

/-- What holds of the library at any time: what has been was allowed when it was; the globals name
the instance and the thread that are there, and all others are gone; and nothing is there between
two calls when the last one was a connect that failed, or when the library is not initialized. -/
structure Sound (s : Library) : Prop where
  allowed : ∀ pre effect post, s.history = pre ++ effect :: post → effect.Allowed pre
  live : ∀ i, LiveIn s.history i ↔ s.freerdp = some i
  freed : ∀ i, .created i ∈ s.history →
    s.history.count (.freed i) = if s.freerdp = some i then 0 else 1
  joined : ∀ u freerdp, .started u freerdp ∈ s.history →
    s.history.count (.joined u) = if s.eventThread = some u then 0 else 1
  disconnected : ∀ u, s.history.count (.disconnected u) ≤ 1
  eventThread : s.eventThread ≠ none → s.freerdp ≠ none
  failed : s.program = [] → ∀ code failure,
    s.history.getLast? = some (.returned code (some failure)) →
      s.freerdp = none ∧ s.eventThread = none ∧ s.connected = false
  uninitialized : s.program = [] → s.initialized = false →
    s.freerdp = none ∧ s.eventThread = none

theorem Inv.sound (h : s.Inv) : s.Sound := by
  have hfreed (i : ℕ) : s.history.count (.freed i) ≤ 1 :=
    h.tracked.allowed.count_le_one fun pre hallowed ↦ hallowed.1.2
  have hjoined (u : ℕ) : s.history.count (.joined u) ≤ 1 :=
    h.tracked.allowed.count_le_one fun pre hallowed ↦ hallowed
  refine ⟨h.tracked.allowed, h.tracked.live, fun i hi ↦ ?_, fun u freerdp hu ↦ ?_, fun u ↦ ?_,
    fun hthread ↦ ?_, fun hprogram code failure hlast ↦ ?_, fun hprogram hinitialized ↦ ?_⟩
  · split
    · next hfreerdp => exact List.count_eq_zero.2 ((h.tracked.live i).2 hfreerdp).2
    · next hfreerdp =>
      have hmem : .freed i ∈ s.history := by
        by_contra hnot
        exact hfreerdp ((h.tracked.live i).1 ⟨hi, hnot⟩)
      exact Nat.le_antisymm (hfreed i) (List.count_pos_iff.2 hmem)
  · split
    · next hthread => exact List.count_eq_zero.2 (h.tracked.current u hthread).1
    · next hthread =>
      have hlt := h.tracked.started u freerdp hu
      have hmem := (h.tracked.past u _ (List.getElem?_eq_getElem hlt) hthread).2
      exact Nat.le_antisymm (hjoined u) (List.count_pos_iff.2 hmem)
  · exact h.tracked.allowed.count_le_one fun pre hallowed ↦ hallowed.1
  · obtain ⟨u, hu⟩ := Option.ne_none_iff_exists'.1 hthread
    exact (h.tracked.current u hu).2.1
  · obtain ⟨hstopped, hconnected⟩ := (h.atRest hprogram).failed code failure hlast
    exact ⟨isSome_eq_false.1 hstopped.1, isSome_eq_false.1 hstopped.2, hconnected⟩
  · have hstopped := (h.atRest hprogram).uninitialized hinitialized
    exact ⟨isSome_eq_false.1 hstopped.1, isSome_eq_false.1 hstopped.2⟩

end Library

/-- A call begins. -/
def LibraryAction.IsCall : LibraryAction → Prop
  | nativeInitialize _ _ | nativeCommand _ | nativeShutdown => True
  | proceed _ | thread _ _ => False

namespace Library

variable {s t : Library}

/-- Inside of a call it stays the same, whatever the event thread does. -/
theorem initializedAfter_step {action : LibraryAction} (hcall : ¬action.IsCall)
    (hstep : librarySystem.step s action = some t) :
    initializedAfter t.initialized t.program = initializedAfter s.initialized s.program := by
  cases action with
  | nativeInitialize | nativeCommand | nativeShutdown => exact absurd trivial hcall
  | proceed ok =>
    rw [librarySystem] at hstep
    dsimp only at hstep
    split at hstep
    · cases hstep
    · next op rest hprogram =>
      rw [hprogram]
      exact initializedAfter_perform hstep
  | thread u ok =>
    have hframe := threadStep_frame hstep
    rw [hframe.program, hframe.initialized]

theorem initializedAfter_run {actions : List LibraryAction} (hcall : ∀ a ∈ actions, ¬a.IsCall)
    (hrun : librarySystem.run s actions = some t) :
    initializedAfter t.initialized t.program = initializedAfter s.initialized s.program :=
  StepSystem.run_invariant_of_forall_mem
    (P := fun u ↦ initializedAfter u.initialized u.program =
      initializedAfter s.initialized s.program)
    (fun _ _ _ h hcall hstep ↦ (initializedAfter_step hcall hstep).trans h) rfl hcall hrun

/-- Behind `rdp_mcp_native_shutdown` the library is not initialized. -/
theorem initialized_of_shutdown {later : List LibraryAction} (hcall : ∀ a ∈ later, ¬a.IsCall)
    (hrun : librarySystem.run s (.nativeShutdown :: later) = some t) (hprogram : t.program = []) :
    t.initialized = false := by
  obtain ⟨u, hstep, hlater⟩ := librarySystem.run_cons_eq_some_iff.1 hrun
  obtain ⟨-, hstep⟩ := Option.ite_none_right_eq_some.1 hstep
  obtain rfl := Option.some.inj hstep
  have hafter := initializedAfter_run hcall hlater
  rw [hprogram] at hafter
  refine hafter.trans ?_
  dsimp only
  rw [shutdownProgram]
  split
  · next hinitialized => exact Bool.eq_false_of_not_eq_true' hinitialized
  · rfl

end Library

/-- **The lifecycle of a native connection.** Whatever is called, whatever fails, and whenever the
event thread ends, in every state of the run what has been was allowed, and when
`rdp_mcp_native_shutdown` returns nothing is live. -/
theorem lifecycle {actions : List LibraryAction} {s : Library}
    (hrun : librarySystem.run {} actions = some s) :
    s.Sound ∧ ∀ earlier later, actions = earlier ++ .nativeShutdown :: later →
      (∀ a ∈ later, ¬a.IsCall) → s.program = [] →
        s.freerdp = none ∧ s.eventThread = none ∧ ∀ i, ¬LiveIn s.history i := by
  have hsound : s.Sound :=
    (StepSystem.run_invariant (fun _ _ _ h hstep ↦ h.step hstep) Library.inv_initial hrun).sound
  refine ⟨hsound, fun earlier later hactions hcall hprogram ↦ ?_⟩
  rw [hactions] at hrun
  obtain ⟨u, -, hshutdown⟩ := librarySystem.run_append_eq_some_iff.1 hrun
  have hinitialized := Library.initialized_of_shutdown hcall hshutdown hprogram
  obtain ⟨hfreerdp, hthread⟩ := hsound.uninitialized hprogram hinitialized
  refine ⟨hfreerdp, hthread, fun i hlive ↦ ?_⟩
  cases hfreerdp.symm.trans ((hsound.live i).1 hlive)

/-- Initialize, connect, lose the connection, and fail to connect again. -/
def lostReconnect : List LibraryAction :=
  .nativeInitialize true true :: List.replicate 4 (.proceed true) ++
    .nativeCommand (some (.connect {})) :: List.replicate 7 (.proceed true) ++
    List.replicate 6 (.thread 0 false) ++
    .nativeCommand (some (.connect {})) :: List.replicate 6 (.proceed true) ++
    List.replicate 3 (.proceed false)

/-- Both instances are freed, the thread has reported once and is waited for, and the shutdown finds
nothing to stop. -/
theorem lifecycle_lostReconnect :
    ∃ s : Library, s.history =
        [.returned 0 none, .created 0, .started 0 (some 0), .returned 0 none,
          .checkedEvents (some 0), .disconnected 0, .joined 0, .freed 0, .created 1, .freed 1,
          .returned (-4) (some .connect), .returned 0 none] ∧
      s.Sound ∧ s.freerdp = none ∧ s.eventThread = none ∧ ∀ i, ¬LiveIn s.history i := by
  have hrun : ∃ s, librarySystem.run {}
      (lostReconnect ++ .nativeShutdown :: List.replicate 6 (.proceed true)) = some s ∧
      s.program = [] ∧ s.history =
        [.returned 0 none, .created 0, .started 0 (some 0), .returned 0 none,
          .checkedEvents (some 0), .disconnected 0, .joined 0, .freed 0, .created 1, .freed 1,
          .returned (-4) (some .connect), .returned 0 none] :=
    ⟨_, rfl, rfl, rfl⟩
  obtain ⟨s, hrun, hprogram, hhistory⟩ := hrun
  obtain ⟨hsound, hshutdown⟩ := lifecycle hrun
  have hcall : ∀ a ∈ List.replicate 6 (LibraryAction.proceed true), ¬a.IsCall := fun a ha ↦ by
    rw [List.eq_of_mem_replicate ha]
    exact id
  exact ⟨s, hhistory, hsound, hshutdown lostReconnect _ rfl hcall hprogram⟩

end RdpMcp
