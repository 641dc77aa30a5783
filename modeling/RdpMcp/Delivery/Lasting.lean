import RdpMcp.Native.Accepted
import RdpMcp.Native.Lifecycle

/-!
# A connection lasts until it is lost

What the native library looks like to one call after the other: `NativeState` is what a call finds
in the globals. The worker connects once, and never again: it refuses a second connect command, and
a disconnect line ends it. So there is no connection at first, and behind the connect command **a
live one, until it is lost for good** (`Lasting`).

That is so in every run of the library in which the worker's calls and the event thread interleave
(`lasting_of_run`). Two things are followed through the statements that the command thread has left:
a connection has an instance when they are done (`Settles`), and none of them turns the connection
on (`LibraryOp.IsCalm`). The event thread only ever turns it off.
-/

namespace RdpMcp

/-- The native library behind its initialization: no connection at the first call, and behind that a
live one until it is lost for good. -/
structure Lasting (states : ℕ → NativeState) : Prop where
  initialized : (states 0).initialized
  running : (states 0).running
  fresh : (states 0).connected = false
  live : ∀ i, 0 < i → (states i).Live ∨ ∀ j, i ≤ j → (states j).connected = false

/-- What a call finds in the globals. An instance that `connection_init` returns has a context, and
with it an input. -/
def Library.native (s : Library) : NativeState where
  initialized := s.initialized
  running := s.running
  connected := s.connected
  hasInstance := s.freerdp.isSome
  hasInput := s.freerdp.isSome

/-! ### The calls of the worker -/

/-- A command that neither connects nor disconnects. -/
def Command.IsLater : Command → Prop
  | connect _ | disconnect => False
  | _ => True

/-- What may happen behind the connect command: other commands, readable or not, and steps. -/
def LibraryAction.IsLater : LibraryAction → Prop
  | nativeCommand command => ∀ c ∈ command, c.IsLater
  | proceed _ | thread _ _ => True
  | nativeInitialize _ _ | nativeShutdown => False

namespace Library

variable {s t : Library}

/-! ### What the statements come to -/

/-- Behind these statements, a connection has an instance. None of them is about initialization, and
a connect finds nothing live. -/
def Settles (freerdp connected : Bool) : List LibraryOp → Prop
  | [] => connected = true → freerdp = true
  | .setInitialized _ :: _ | .setRunning _ :: _ => False
  | .setConnected value :: rest => Settles freerdp value rest
  | .freeInstance :: rest => Settles false connected rest
  | .connect :: rest | .startConnection :: rest | .connectionInit :: rest =>
    rest = [] ∧ connected = false
  | .connectionConnect :: rest => rest = [] ∧ connected = false ∧ freerdp = true
  | .createThread :: rest => rest = [] ∧ freerdp = true
  | .whenConnected _ :: rest | .input _ :: rest => rest = [] ∧ (connected = true → freerdp = true)
  | .joinThread :: rest | .error _ :: rest | .returns _ _ :: rest => Settles freerdp connected rest

/-- The connection may be lost at any time. -/
theorem Settles.lost {freerdp connected : Bool} {program : List LibraryOp}
    (h : Settles freerdp connected program) : Settles freerdp false program := by
  induction program generalizing freerdp connected with
  | nil => exact nofun
  | cons op rest ih =>
    cases op with
    | setInitialized value | setRunning value | setConnected value | createThread => exact h
    | joinThread | freeInstance | error text | returns code failure => exact ih h
    | connect | startConnection | connectionInit => exact ⟨h.1, rfl⟩
    | connectionConnect => exact ⟨h.1, rfl, h.2.2⟩
    | whenConnected returned | input returned => exact ⟨h.1, nofun⟩

/-- The globals and the statements of an initialized library, with or without a connection. -/
structure Settled (s : Library) : Prop where
  initialized : s.initialized = true
  running : s.running = true
  settles : Settles s.freerdp.isSome s.connected s.program

/-- The statements of another command settle exactly if there is nothing to settle. -/
theorem settles_commandProgram_iff {command : Command} (hlater : command.IsLater)
    {freerdp connected : Bool} :
    Settles freerdp connected (commandProgram command) ↔ (connected = true → freerdp = true) := by
  cases command with
  | connect config => exact hlater.elim
  | disconnect => exact hlater.elim
  | mouseMove | mouseButtonDown | mouseButtonUp | mouseScroll => exact and_iff_right rfl
  | keyDown | keyUp | unicodeKeyDown | unicodeKeyUp => exact and_iff_right rfl
  | resize | clipboardSet | clipboardSetFiles | clipboardRequestFiles | unknown => exact Iff.rfl

theorem Settled.settles_nativeCommandProgram_iff (h : s.Settled) {command : Option Command}
    (hlater : ∀ c ∈ command, c.IsLater) :
    Settles s.freerdp.isSome s.connected (s.nativeCommandProgram command) ↔
      (s.connected = true → s.freerdp.isSome = true) := by
  unfold nativeCommandProgram
  rw [h.initialized, h.running]
  cases command with
  | none => exact Iff.rfl
  | some command => exact settles_commandProgram_iff (hlater command rfl)

/-- One statement. -/
theorem Settled.perform (h : s.Settled) {op : LibraryOp} {rest : List LibraryOp} {ok : Bool}
    (hprogram : s.program = op :: rest) (hstep : s.perform rest ok op = some t) : t.Settled := by
  obtain ⟨hinitialized, hrunning, hsettles⟩ := h
  rw [hprogram] at hsettles
  cases op with
  | setInitialized value | setRunning value => exact hsettles.elim
  | setConnected value | error text | returns code failure =>
    obtain rfl := Option.some.inj hstep
    exact ⟨hinitialized, hrunning, hsettles⟩
  | joinThread =>
    rw [Library.perform] at hstep
    split at hstep
    · obtain rfl := Option.some.inj hstep
      exact ⟨hinitialized, hrunning, hsettles⟩
    · split at hstep <;> cases hstep
      exact ⟨hinitialized, hrunning, hsettles⟩
  | freeInstance =>
    rw [Library.perform] at hstep
    split at hstep
    · next hnone =>
      obtain rfl := Option.some.inj hstep
      rw [Settles] at hsettles
      exact ⟨hinitialized, hrunning, by rwa [show s.freerdp.isSome = false by rw [hnone]; rfl]⟩
    · obtain rfl := Option.some.inj hstep
      exact ⟨hinitialized, hrunning, hsettles⟩
  | connect =>
    obtain ⟨rfl, hfresh⟩ := hsettles
    obtain rfl := Option.some.inj hstep
    refine ⟨hinitialized, hrunning, ?_⟩
    show Settles s.freerdp.isSome s.connected ((if s.connected then _ else _) ++ [])
    rw [hfresh]
    exact ⟨rfl, rfl⟩
  | startConnection =>
    obtain ⟨rfl, hfresh⟩ := hsettles
    obtain rfl := Option.some.inj hstep
    refine ⟨hinitialized, hrunning, ?_⟩
    show Settles s.freerdp.isSome s.connected ((if _ then stopConnection else []) ++ _)
    split
    · exact ⟨rfl, rfl⟩
    · exact ⟨rfl, hfresh⟩
  | connectionInit =>
    obtain ⟨rfl, hfresh⟩ := hsettles
    cases ok with
    | false =>
      obtain rfl := Option.some.inj hstep
      exact ⟨hinitialized, hrunning, fun hon ↦ absurd (hfresh.symm.trans hon) (by decide)⟩
    | true =>
      obtain rfl := Option.some.inj hstep
      exact ⟨hinitialized, hrunning, rfl, hfresh, rfl⟩
  | connectionConnect =>
    obtain ⟨rfl, hfresh, hfreerdp⟩ := hsettles
    cases ok with
    | false =>
      obtain rfl := Option.some.inj hstep
      exact ⟨hinitialized, hrunning, fun hon ↦ absurd (hfresh.symm.trans hon) (by decide)⟩
    | true =>
      obtain rfl := Option.some.inj hstep
      exact ⟨hinitialized, hrunning, rfl, hfreerdp⟩
  | createThread =>
    obtain ⟨rfl, hfreerdp⟩ := hsettles
    cases ok with
    | false =>
      obtain rfl := Option.some.inj hstep
      exact ⟨hinitialized, hrunning, fun hon ↦ by cases hon⟩
    | true =>
      obtain rfl := Option.some.inj hstep
      exact ⟨hinitialized, hrunning, fun _ ↦ hfreerdp⟩
  | whenConnected returned =>
    obtain ⟨rfl, hconnected⟩ := hsettles
    obtain rfl := Option.some.inj hstep
    refine ⟨hinitialized, hrunning, ?_⟩
    show Settles s.freerdp.isSome s.connected ((if _ then [.input returned] else _) ++ [])
    split
    · exact ⟨rfl, hconnected⟩
    · exact hconnected
  | input returned =>
    obtain ⟨rfl, hconnected⟩ := hsettles
    obtain rfl := Option.some.inj hstep
    exact ⟨hinitialized, hrunning, hconnected⟩

/-- **A step behind the connect command.** -/
theorem Settled.step (h : s.Settled) {action : LibraryAction} (hlater : action.IsLater)
    (hstep : librarySystem.step s action = some t) : t.Settled := by
  rw [librarySystem] at hstep
  cases action with
  | nativeInitialize callback platform => exact hlater.elim
  | nativeCommand command =>
    obtain ⟨hprogram, hstep⟩ := Option.ite_none_right_eq_some.1 hstep
    obtain rfl := Option.some.inj hstep
    have hconnected := h.settles
    rw [hprogram] at hconnected
    exact ⟨h.initialized, h.running, (h.settles_nativeCommandProgram_iff hlater).2 hconnected⟩
  | nativeShutdown => exact hlater.elim
  | proceed ok =>
    dsimp only at hstep
    split at hstep
    · cases hstep
    · next op rest hprogram => exact h.perform hprogram hstep
  | thread u ok =>
    have hframe := threadStep_frame hstep
    refine ⟨hframe.initialized.trans h.initialized, hframe.running.trans h.running, ?_⟩
    rw [hframe.program, hframe.freerdp]
    rcases hframe.connected with hsame | hlost
    · exact hsame ▸ h.settles
    · exact hlost ▸ h.settles.lost

/-! ### A connection that is lost -/

end Library

/-- The statement does not turn the connection on, and nothing that it puts in its place does. -/
def LibraryOp.IsCalm : LibraryOp → Prop
  | connect | startConnection | connectionInit | connectionConnect | setConnected true => False
  | _ => True

namespace Library

variable {s t : Library}

/-- No connection, and no statement left that turns one on. -/
structure Lost (s : Library) : Prop where
  connected : s.connected = false
  calm : ∀ op ∈ s.program, op.IsCalm

theorem calm_commandProgram {command : Command} (hlater : command.IsLater) :
    ∀ op ∈ commandProgram command, op.IsCalm := by
  cases command with
  | connect config => exact hlater.elim
  | disconnect => exact hlater.elim
  | mouseMove | mouseButtonDown | mouseButtonUp | mouseScroll =>
    exact List.forall_mem_singleton.2 trivial
  | keyDown | keyUp | unicodeKeyDown | unicodeKeyUp => exact List.forall_mem_singleton.2 trivial
  | resize | clipboardSet | clipboardSetFiles | clipboardRequestFiles =>
    exact List.forall_mem_singleton.2 trivial
  | unknown => exact List.forall_mem_cons.2 ⟨trivial, List.forall_mem_singleton.2 trivial⟩

theorem calm_nativeCommandProgram {command : Option Command} (hlater : ∀ c ∈ command, c.IsLater) :
    ∀ op ∈ s.nativeCommandProgram command, op.IsCalm := by
  unfold nativeCommandProgram
  split
  · exact List.forall_mem_singleton.2 trivial
  · cases command with
    | none => exact List.forall_mem_singleton.2 trivial
    | some command => exact calm_commandProgram (hlater command rfl)

/-- The statements that stop a connection, with what is left behind them. -/
theorem calm_stopConnection {rest : List LibraryOp} (h : ∀ op ∈ rest, op.IsCalm) :
    ∀ op ∈ stopConnection ++ rest, op.IsCalm := by
  simp only [stopConnection, List.cons_append, List.nil_append, List.forall_mem_cons]
  exact ⟨trivial, trivial, trivial, h⟩

/-- One statement. -/
theorem Lost.perform (h : s.Lost) {op : LibraryOp} {rest : List LibraryOp} {ok : Bool}
    (hprogram : s.program = op :: rest) (hstep : s.perform rest ok op = some t) : t.Lost := by
  obtain ⟨hconnected, hcalm⟩ := h
  rw [hprogram] at hcalm
  obtain ⟨hop, hrest⟩ := List.forall_mem_cons.1 hcalm
  cases op with
  | connect | startConnection | connectionInit | connectionConnect => exact hop.elim
  | setInitialized value | setRunning value | error text | returns code failure =>
    obtain rfl := Option.some.inj hstep
    exact ⟨hconnected, hrest⟩
  | setConnected value =>
    obtain rfl := Option.some.inj hstep
    cases value with
    | false => exact ⟨rfl, hrest⟩
    | true => exact hop.elim
  | joinThread =>
    rw [Library.perform] at hstep
    split at hstep
    · obtain rfl := Option.some.inj hstep
      exact ⟨hconnected, hrest⟩
    · split at hstep <;> cases hstep
      exact ⟨hconnected, hrest⟩
  | freeInstance =>
    rw [Library.perform] at hstep
    split at hstep <;> obtain rfl := Option.some.inj hstep <;> exact ⟨hconnected, hrest⟩
  | createThread =>
    cases ok with
    | false =>
      obtain rfl := Option.some.inj hstep
      refine ⟨hconnected, List.forall_mem_cons.2 ⟨trivial, ?_⟩⟩
      exact calm_stopConnection (List.forall_mem_cons.2 ⟨trivial, hrest⟩)
    | true =>
      obtain rfl := Option.some.inj hstep
      exact ⟨hconnected, List.forall_mem_cons.2 ⟨trivial, hrest⟩⟩
  | whenConnected returned =>
    obtain rfl := Option.some.inj hstep
    refine ⟨hconnected, ?_⟩
    show ∀ op ∈ (if s.connected && _ then _ else [LibraryOp.returns 0 none]) ++ rest, op.IsCalm
    rw [hconnected]
    exact List.forall_mem_cons.2 ⟨trivial, hrest⟩
  | input returned =>
    obtain rfl := Option.some.inj hstep
    exact ⟨hconnected, List.forall_mem_cons.2 ⟨trivial, hrest⟩⟩

/-- **What is lost stays lost.** -/
theorem Lost.step (h : s.Lost) {action : LibraryAction} (hlater : action.IsLater)
    (hstep : librarySystem.step s action = some t) : t.Lost := by
  rw [librarySystem] at hstep
  cases action with
  | nativeInitialize callback platform => exact hlater.elim
  | nativeCommand command =>
    obtain ⟨-, hstep⟩ := Option.ite_none_right_eq_some.1 hstep
    obtain rfl := Option.some.inj hstep
    exact ⟨h.connected, calm_nativeCommandProgram hlater⟩
  | nativeShutdown => exact hlater.elim
  | proceed ok =>
    dsimp only at hstep
    split at hstep
    · cases hstep
    · next op rest hprogram => exact h.perform hprogram hstep
  | thread u ok =>
    have hframe := threadStep_frame hstep
    refine ⟨?_, hframe.program ▸ h.calm⟩
    rcases hframe.connected with hsame | hlost
    · exact hsame.trans h.connected
    · exact hlost

end Library

open Library

/-! ### Runs -/

/-- The worker initializes the library, and makes the first call. -/
def firstCall (config : ConnectConfig) : List LibraryAction :=
  .nativeInitialize true true :: List.replicate 4 (.proceed true) ++
    [.nativeCommand (some (.connect config))]

theorem settled_firstCall {config : ConnectConfig} {s : Library}
    (hrun : librarySystem.run {} (firstCall config) = some s) :
    s.Settled ∧ s.connected = false := by
  obtain rfl := Option.some.inj hrun
  exact ⟨⟨rfl, rfl, rfl, rfl⟩, rfl⟩

/-- **A connection lasts until it is lost.** A library is initialized and connected, and whatever
else is called, `libs i` is what it is when the `i`-th call, counted from zero, has been made and is
about to look at the globals. -/
theorem lasting_of_run {libs : ℕ → Library} {config : ConnectConfig}
    {actions : ℕ → List LibraryAction}
    (hfirst : librarySystem.run {} (firstCall config) = some (libs 0))
    (hrun : ∀ i, librarySystem.run (libs i) (actions i) = some (libs (i + 1)))
    (hlater : ∀ i, ∀ action ∈ actions i, action.IsLater)
    (hcalls : ∀ i, 0 < i → ∃ command, (∀ c ∈ command, c.IsLater) ∧
      (libs i).program = (libs i).nativeCommandProgram command) :
    Lasting fun i ↦ (libs i).native := by
  obtain ⟨hsettled, hfresh⟩ := settled_firstCall hfirst
  have hall (i : ℕ) : (libs i).Settled := by
    induction i with
    | zero => exact hsettled
    | succ i ih =>
      exact StepSystem.run_invariant_of_forall_mem
        (fun _ _ _ h hlater hstep ↦ Settled.step h hlater hstep) ih (hlater i) (hrun i)
  refine ⟨hsettled.initialized, hsettled.running, hfresh, fun i hi ↦ ?_⟩
  obtain ⟨command, hcommand, hprogram⟩ := hcalls i hi
  cases hconnected : (libs i).connected with
  | true =>
    have hinstance : (libs i).freerdp.isSome := by
      have hsettles := (hall i).settles
      rw [hprogram, (hall i).settles_nativeCommandProgram_iff hcommand] at hsettles
      exact hsettles hconnected
    exact .inl ⟨(hall i).initialized, (hall i).running, hconnected, hinstance, hinstance⟩
  | false =>
    refine .inr fun j hj ↦ Lost.connected ?_
    induction j, hj using Nat.le_induction with
    | base => exact ⟨hconnected, hprogram ▸ calm_nativeCommandProgram hcommand⟩
    | succ j hj ih =>
      exact StepSystem.run_invariant_of_forall_mem
        (fun _ _ _ h hlater hstep ↦ Lost.step h hlater hstep) ih (hlater j) (hrun j)

end RdpMcp
