import RdpMcp.Operations.Serial

/-!
# Calls that return

What an input call leaves behind when it returns with an error. **A call that fails behind its first
command leaves a finished session**, so that no key or button stays down on a live one; a call that
fails before its first command was rejected and has sent nothing (`finished_or_rejected`). The one
exception is a `resize` that has sent its command and is tired of waiting.

The pipe does not remember who returned what, so its history is kept next to it: for every call
that has returned, what it has put on the pipe, its result, and the session at that point. The
argument is about the program that is left of an operation.

* Before the first command is written, and on a live session, all of the operation is left, since
  every operation sends a command before it does anything else.
* Behind that, a live session has answered every request as it was hoped, and an operation that is
  answered like that does not fail.
-/

namespace RdpMcp

open Interaction

/-! ### The history -/

/-- A call that has returned: what it has put on the pipe, its result, and the session then. -/
structure Returned where
  call : ToolCall
  written : List JsonValue
  result : Except String Unit
  session : SessionState

/-- The pipe and the calls that have returned. -/
structure PipeHistory where
  pipe : PipeState := {}
  /-- What the holder of the operation lock has put on the pipe. -/
  written : List JsonValue := []
  returned : List Returned := []

/-- What can happen next. -/
inductive CallAction where
  | act (action : PipeAction)
  /-- A call whose arguments are refused, or whose id no session has. -/
  | dismiss (id : String) (call : ToolCall)

namespace PipeHistory

variable (debug : Char → String)

/-- What the holder of the lock has written, after an action. -/
def writtenAfter (h : PipeHistory) : PipeAction → List JsonValue
  | .acquire _ => []
  | .write none =>
    match h.pipe.holder with
    | some ⟨_, .sending v _⟩ => h.written ++ [v]
    | _ => h.written
  | _ => h.written

/-- The call that returns with an action: at the gate of `with_session`, or at its end. -/
def returning (h : PipeHistory) : PipeAction → Option Returned
  | .proceed =>
    match h.pipe.holder with
    | some ⟨call, .entered⟩ =>
      match (call.op debug).bind fun _ ↦ h.pipe.session.checkConnected with
      | .ok () => none
      | .error e => some ⟨call, h.written, .error e, h.pipe.session⟩
    | some ⟨call, .running (.done result)⟩ => some ⟨call, h.written, result, h.pipe.session⟩
    | _ => none
  | _ => none

/-- A call that is dismissed before there is a session: its arguments are looked at first. -/
def dismissed (h : PipeHistory) (id : String) (call : ToolCall) : Returned where
  call
  written := []
  result := (call.op debug).bind fun _ ↦ withSession id none fun _ ↦ .ok ()
  session := h.pipe.session

end PipeHistory

/-- **The pipe with its history, as a step system.** -/
def callSystem (bits : ℕ) (fromSlice : List UInt8 → Option JsonValue) (debug : Char → String)
    (connect : JsonValue) : StepSystem PipeHistory CallAction where
  step h
    | .act action =>
      ((pipeSystem bits fromSlice debug connect).step h.pipe action).map fun pipe ↦
        { pipe
          written := h.writtenAfter action
          returned := h.returned ++ (h.returning debug action).toList }
    | .dismiss id call => some { h with returned := h.returned ++ [h.dismissed debug id call] }

/-! ### How a call fails -/

/-- What a resize fails with when the new size does not come in time. -/
def awaitTimeout (width height : ℕ) : String :=
  s!"RDP resize timed out waiting for {width}x{height}"

/-- The exception: a resize was sent and the new size did not come in time. -/
def ToolCall.TimedOut (call : ToolCall) (error : String) : Prop :=
  ∃ width height : UInt32, call = .resize width height ∧
    awaitTimeout (clampSize width.toNat) (clampSize height.toNat) = error

/-- A key is to be neither pressed nor put down nor released. -/
def ToolCall.UnknownAction (call : ToolCall) (error : String) : Prop :=
  ∃ key modifiers action, call = .sendKey key modifiers action ∧
    action ∉ ["press", "down", "up"] ∧ error = "key action must be 'press', 'down', or 'up'"

/-- A call is rejected: for an unknown button, key or modifier, for an unknown action, for an
unknown id, or because the session cannot be used. -/
def Returned.Rejected (debug : Char → String) (r : Returned) (error : String) : Prop :=
  r.call.op debug = .error error ∨ r.call.UnknownAction error ∨
    (∃ id : String, error = s!"connection not found: {id}") ∨
    ∃ e, r.session.checkConnected = .error e

/-- **What a failed call leaves behind**: a finished session, unless it has timed out, or else
nothing. -/
def Returned.Settled (debug : Char → String) (r : Returned) : Prop :=
  ∀ error, r.result = .error error →
    (r.written ≠ [] → r.call.TimedOut error ∨ r.session.finished = true) ∧
      (r.written = [] → r.Rejected debug error)

/-! ### Operations that are answered as they hope -/

/-- A wait for a size is that of a resize, and its failure is the failure of the call. -/
def WaitsFor (call : ToolCall) : (act : SessionAct) → (act.Answer → Program) → Prop
  | .awaitSize width height, next =>
    (∃ w h : UInt32, call = .resize w h ∧ width = clampSize w.toNat ∧ height = clampSize h.toNat) ∧
      ∀ error, next (.error error) = .done (.error error)
  | _, _ => True

/-- What is left of an operation succeeds if it is answered as it hopes. -/
structure Hopeful (call : ToolCall) (rest : Program) : Prop where
  outcome : rest.outcome SessionAct.granted = .ok ()
  waits : rest.AllSteps (WaitsFor call)

/-- An operation is over before it has begun, or it sends a command first and is hopeful. -/
def Begins (call : ToolCall) : Program → Prop
  | .done (.ok _) => True
  | .done (.error error) => call.UnknownAction error
  | .ask (.command v) next => Hopeful call (.ask (.command v) next)
  | .ask _ _ => False

theorem outcome_mouseClick (x y : Int32) (button : ℕ) (doubleClick : Bool) :
    (mouseClick x y button doubleClick).run.outcome SessionAct.granted = .ok () := by
  cases doubleClick <;> rfl

theorem outcome_mouseDrag (fromX fromY toX toY : Int32) (button : ℕ) :
    (mouseDrag fromX fromY toX toY button).run.outcome SessionAct.granted = .ok () :=
  rfl

theorem outcome_typeText (text : String) (delayMs : UInt64) :
    (typeText text delayMs).run.outcome SessionAct.granted = .ok () :=
  (outcome_forM_ok fun character _ ↦ outcome_typeCharacter delayMs character).1

/-- A key is pressed to the end. -/
theorem outcome_sendKeyStroke_press (stroke : KeyStroke) (modifiers : List KeyStroke) :
    (sendKeyStroke stroke modifiers "press").run.outcome SessionAct.granted = .ok () := by
  refine (outcome_except_ok (outcome_forM_ok fun modifier _ ↦ rfl).1).trans ?_
  refine (outcome_except_ok rfl).trans ((outcome_except_ok rfl).trans ?_)
  refine (outcome_except_ok rfl).trans ?_
  exact (outcome_except_ok (outcome_forM_ok fun modifier _ ↦ rfl).1).trans rfl

/-- A text is begun with its first code unit. -/
theorem begins_typeText {call : ToolCall} {delayMs : UInt64} {text : List Char}
    (h : Hopeful call (text.forM (typeCharacter delayMs)).run) :
    Begins call (text.forM (typeCharacter delayMs)).run := by
  cases text with
  | nil => trivial
  | cons character others =>
    change Hopeful call (typeCharacter delayMs character >>= fun _ ↦ _).run at h
    change Begins call (typeCharacter delayMs character >>= fun _ ↦ _).run
    rw [typeCharacter, encodeUtf16, Utf16.encode] at h ⊢
    by_cases hunit : character.toNat < 0x10000
    · rw [if_pos hunit] at h ⊢
      exact h
    · rw [if_neg hunit] at h ⊢
      exact h

/-- A chord is begun with its first modifier, or with the key. -/
theorem begins_sendKeyStroke_press {call : ToolCall} {stroke : KeyStroke}
    {modifiers : List KeyStroke} (h : Hopeful call (sendKeyStroke stroke modifiers "press").run) :
    Begins call (sendKeyStroke stroke modifiers "press").run := by
  unfold sendKeyStroke at h ⊢
  generalize effectiveModifiers stroke modifiers = effective at h ⊢
  cases effective with
  | nil => exact h
  | cons modifier others => exact h

theorem sendKeyStroke_of_not_mem (stroke : KeyStroke) (modifiers : List KeyStroke) {action : String}
    (h : action ∉ ["press", "down", "up"]) :
    (sendKeyStroke stroke modifiers action).run =
      .done (.error "key action must be 'press', 'down', or 'up'") := by
  simp only [List.mem_cons, List.not_mem_nil, or_false, not_or] at h
  obtain ⟨hpress, hdown, hup⟩ := h
  unfold sendKeyStroke
  split
  · exact absurd rfl hpress
  · exact absurd rfl hdown
  · exact absurd rfl hup
  · rfl

/-- **Every operation begins with a command**, unless it is over at once. -/
theorem begins_op {debug : Char → String} {call : ToolCall} {op : Operation Unit}
    (hop : call.op debug = .ok op) : Begins call op.run := by
  have hwaits (hcall : ∀ width height, call ≠ .resize width height) :
      op.run.AllSteps (WaitsFor call) := by
    refine (allAsks_op hop hcall).allSteps fun act next hact ↦ ?_
    cases act with
    | command | pause => trivial
    | awaitSize width height => exact absurd rfl (hact width height)
  cases call with
  | mouseMove x y =>
    cases hop
    exact ⟨rfl, hwaits nofun⟩
  | mouseClick x y button doubleClick =>
    obtain ⟨n, -, hop⟩ := Fallible.exists_of_bind_eq_ok hop
    cases hop
    have hhope := Hopeful.mk (outcome_mouseClick x y n doubleClick) (hwaits nofun)
    cases doubleClick <;> exact hhope
  | mouseDrag fromX fromY toX toY button =>
    obtain ⟨n, -, hop⟩ := Fallible.exists_of_bind_eq_ok hop
    cases hop
    exact Hopeful.mk (outcome_mouseDrag fromX fromY toX toY n) (hwaits nofun)
  | mouseScroll x y delta vertical =>
    cases hop
    exact ⟨rfl, hwaits nofun⟩
  | typeText text delayMs =>
    cases hop
    exact begins_typeText ⟨outcome_typeText text delayMs, hwaits nofun⟩
  | sendKey key modifiers action =>
    obtain ⟨stroke, -, hop⟩ := Fallible.exists_of_bind_eq_ok hop
    obtain ⟨strokes, -, hop⟩ := Fallible.exists_of_bind_eq_ok hop
    cases hop
    by_cases haction : action ∈ ["press", "down", "up"]
    · simp only [List.mem_cons, List.not_mem_nil, or_false] at haction
      rcases haction with rfl | rfl | rfl
      · exact begins_sendKeyStroke_press ⟨outcome_sendKeyStroke_press stroke strokes, hwaits nofun⟩
      · exact Hopeful.mk rfl (hwaits nofun)
      · exact Hopeful.mk rfl (hwaits nofun)
    · rw [sendKeyStroke_of_not_mem stroke strokes haction]
      exact ⟨key, modifiers, action, rfl, haction, rfl⟩
  | resize width height =>
    cases hop
    refine ⟨rfl, trivial, fun sent ↦ ?_⟩
    cases sent with
    | error e => trivial
    | ok _ =>
      refine ⟨⟨⟨width, height, rfl, rfl, rfl⟩, fun error ↦ rfl⟩, fun size ↦ ?_⟩
      cases size <;> trivial

/-! ### The invariant -/

section Invariant

variable (debug : Char → String) (connect : JsonValue)

/-- Where the holder stands, `written` being what it has put on the pipe. -/
def OnCourse (session : SessionState) (call : ToolCall) (written : List JsonValue) : Phase → Prop
  | .entered => written = []
  | .running rest =>
    session.finished = true ∨ (written = [] ∧ Begins call rest) ∨
      (written ≠ [] ∧ (Hopeful call rest ∨ ∃ e, rest = .done (.error e) ∧ call.TimedOut e))
  | .checked _ next => Hopeful call (next (.ok ()))
  | .sending _ next => Hopeful call (next (.ok ()))
  | .failing _ _ => True

/-- **The invariant of the history.** -/
structure Accounted (h : PipeHistory) : Prop where
  serial : Serial debug connect h.pipe
  holder : ∀ holder ∈ h.pipe.holder, OnCourse h.pipe.session holder.call h.written holder.phase
  settled : ∀ r ∈ h.returned, r.Settled debug
  finished : ∀ r ∈ h.returned, r.session.finished = true → h.pipe.session.finished = true

variable {debug connect} {hist : PipeHistory} {s t : PipeState} {session session' : SessionState}
  {call : ToolCall} {written : List JsonValue} {bits : ℕ}
  {fromSlice : List UInt8 → Option JsonValue}

/-- A later session keeps the holder on course. -/
theorem OnCourse.follows {phase : Phase} (h : OnCourse session call written phase)
    (hfollows : session.Follows session') : OnCourse session' call written phase := by
  cases phase with
  | running rest => exact h.imp_left hfollows.finished
  | entered | checked | sending | failing => exact h

/-- An action with which nobody returns. -/
theorem Accounted.keep (h : Accounted debug connect hist) (hserial : Serial debug connect t)
    (hfollows : hist.pipe.session.Follows t.session)
    (hholder : ∀ holder ∈ t.holder, OnCourse t.session holder.call written holder.phase) :
    Accounted debug connect { pipe := t, written, returned := hist.returned ++ [] } where
  serial := hserial
  holder := hholder
  settled := by
    rw [List.append_nil]
    exact h.settled
  finished := by
    rw [List.append_nil]
    exact fun r hr hfinished ↦ hfollows.finished (h.finished r hr hfinished)

/-- An action of somebody else. -/
theorem Accounted.frame (h : Accounted debug connect hist) (hserial : Serial debug connect t)
    (hfollows : hist.pipe.session.Follows t.session) (hholder : t.holder = hist.pipe.holder) :
    Accounted debug connect
      { pipe := t, written := hist.written, returned := hist.returned ++ [] } :=
  h.keep hserial hfollows fun holder hmem ↦ (h.holder holder (hholder ▸ hmem)).follows hfollows

/-- An action with which a call returns. -/
theorem Accounted.return (h : Accounted debug connect hist) (hserial : Serial debug connect t)
    (hsession : t.session = hist.pipe.session)
    (hholder : ∀ holder ∈ t.holder, OnCourse t.session holder.call written holder.phase)
    {r : Returned} (hsettled : r.Settled debug) (hr : r.session = hist.pipe.session) :
    Accounted debug connect { pipe := t, written, returned := hist.returned ++ [r] } where
  serial := hserial
  holder := hholder
  settled r' hr' := by
    rcases List.mem_append.1 hr' with hold | hnew
    · exact h.settled r' hold
    · exact List.mem_singleton.1 hnew ▸ hsettled
  finished r' hr' hfinished := by
    rw [hsession]
    rcases List.mem_append.1 hr' with hold | hnew
    · exact h.finished r' hold hfinished
    · rwa [List.mem_singleton.1 hnew, hr] at hfinished

/-! ### One action -/

/-- An operation that is answered as it hopes stays hopeful. -/
theorem Hopeful.next {act : SessionAct} {next : act.Answer → Program}
    (h : Hopeful call (.ask act next)) : Hopeful call (next act.granted) :=
  ⟨h.outcome, h.waits.2 _⟩

/-- A call that is dismissed is rejected. -/
theorem settled_dismissed (hist : PipeHistory) (id : String) (call : ToolCall) :
    (hist.dismissed debug id call).Settled debug := by
  intro error herror
  refine ⟨fun hwritten ↦ absurd rfl hwritten, fun _ ↦ ?_⟩
  cases hop : call.op debug with
  | error e =>
    rw [PipeHistory.dismissed, hop] at herror
    cases herror
    exact .inl hop
  | ok op =>
    rw [PipeHistory.dismissed, hop] at herror
    cases herror
    exact .inr (.inr (.inl ⟨id, rfl⟩))

/-- A call that comes to its end is settled. -/
theorem OnCourse.settled {result : Except String Unit}
    (h : OnCourse session call written (.running (.done result))) :
    (Returned.mk call written result session).Settled debug := by
  rintro error rfl
  refine ⟨fun hwritten ↦ ?_, fun hwritten ↦ ?_⟩
  · rcases h with hfinished | ⟨hnone, -⟩ | ⟨-, hhope | ⟨e, heq, htimeout⟩⟩
    · exact .inr hfinished
    · exact absurd hnone hwritten
    · exact nomatch hhope.outcome
    · cases heq
      exact .inl htimeout
  · rcases h with hfinished | ⟨-, hunknown⟩ | ⟨hsome, -⟩
    · exact .inr (.inr (.inr (SessionState.checkConnected_of_finished hfinished)))
    · exact .inr (.inl hunknown)
    · exact absurd hwritten hsome

/-- A wait for a size on a session that is not finished is successful, or it has timed out. -/
theorem awaitSize_of_live {width height : ℕ} (hlive : session.connected = true)
    (hunfinished : session.finished = false) :
    awaitSize width height session [] = .ok (width, height) ∨
      awaitSize width height session [] = .error (awaitTimeout width height) := by
  have hcheck := SessionState.checkConnected_eq_ok_iff.2 ⟨hlive, hunfinished⟩
  rw [awaitSize, waitForSize, hcheck]
  by_cases hsize : session.width ≠ width ∨ session.height ≠ height
  · exact .inr (if_pos hsize)
  · obtain ⟨rfl, rfl⟩ : session.width = width ∧ session.height = height := by
      simpa [not_or] using hsize
    exact .inl (if_neg hsize)

/-- A call that the gate refuses. -/
theorem settled_refused {e : String} (hwritten : written = [])
    (h : call.op debug = .error e ∨ session.checkConnected = .error e) :
    (Returned.mk call written (.error e) session).Settled debug := by
  rintro error ⟨⟩
  refine ⟨fun hsome ↦ absurd hwritten hsome, fun _ ↦ ?_⟩
  rcases h with hop | hcheck
  · exact .inl hop
  · exact .inr (.inr (.inr ⟨e, hcheck⟩))

/-- The gate of `with_session`. -/
theorem Accounted.enter (h : Accounted debug connect hist) (hserial : Serial debug connect t)
    (hholder : hist.pipe.holder = some ⟨call, .entered⟩)
    (hstep : hist.pipe.proceed debug call .entered = some t) :
    Accounted debug connect
      { pipe := t
        written := hist.written
        returned := hist.returned ++ (hist.returning debug .proceed).toList } := by
  have hwritten : hist.written = [] := h.holder _ hholder
  simp only [PipeHistory.returning, hholder]
  cases hop : call.op debug with
  | error e =>
    simp only [PipeState.proceed, hop] at hstep
    cases hstep
    exact h.return hserial rfl (fun _ hsome ↦ by cases hsome)
      (settled_refused hwritten (.inl hop)) rfl
  | ok op =>
    simp only [PipeState.proceed, hop] at hstep
    cases hcheck : hist.pipe.session.checkConnected with
    | error e =>
      rw [hcheck] at hstep
      cases hstep
      exact h.return hserial rfl (fun _ hsome ↦ by cases hsome)
        (settled_refused hwritten (.inr hcheck)) rfl
    | ok _ =>
      rw [hcheck] at hstep
      cases hstep
      refine h.keep hserial (.refl _) ?_
      rintro holder ⟨⟩
      exact .inr (.inl ⟨hwritten, begins_op hop⟩)

/-- The operation goes on. On a session that is not finished it is answered as it hopes, or it has
waited too long. -/
theorem Accounted.resume (h : Accounted debug connect hist) (hserial : Serial debug connect t)
    {rest : Program} (hholder : hist.pipe.holder = some ⟨call, .running rest⟩)
    (hstep : hist.pipe.proceed debug call (.running rest) = some t) :
    Accounted debug connect
      { pipe := t
        written := hist.written
        returned := hist.returned ++ (hist.returning debug .proceed).toList } := by
  obtain ⟨-, -, -, -, -, hlive, -⟩ := h.serial.holding hholder nofun
  have hcourse := h.holder _ hholder
  simp only [PipeHistory.returning, hholder]
  cases rest with
  | done result =>
    cases hstep
    exact h.return hserial rfl nofun hcourse.settled rfl
  | ask request next =>
    -- the holder goes on with `rest'`
    have hrun {rest' : Program} (ht : t = hist.pipe.move call (.running rest'))
        (hcourse' : OnCourse hist.pipe.session call hist.written (.running rest')) :
        Accounted debug connect
          { pipe := t, written := hist.written, returned := hist.returned ++ [] } := by
      subst ht
      refine h.keep hserial (.refl _) ?_
      rintro holder ⟨⟩
      exact hcourse'
    cases request with
    | command v =>
      simp only [PipeState.proceed] at hstep
      split at hstep
      case h_1 hcheck =>
        cases hstep
        obtain ⟨-, hunfinished⟩ := SessionState.checkConnected_eq_ok_iff.1 hcheck
        refine h.keep hserial (.refl _) ?_
        rintro holder ⟨⟩
        rcases hcourse with hfinished | ⟨-, hbegins⟩ | ⟨-, hhope | ⟨e, heq, -⟩⟩
        · exact absurd hfinished (by simp [hunfinished])
        · exact Hopeful.next hbegins
        · exact Hopeful.next hhope
        · cases heq
      case h_2 e hcheck =>
        exact hrun (Option.some.inj hstep).symm (.inl (finished_of_refused hcheck hlive))
    | pause delay =>
      refine hrun (Option.some.inj hstep).symm ?_
      cases hcheck : hist.pipe.session.checkConnected with
      | error e => exact .inl (finished_of_refused hcheck hlive)
      | ok _ =>
        rcases hcourse with hfinished | ⟨-, hbegins⟩ | ⟨hsome, hhope | ⟨e, heq, -⟩⟩
        · exact .inl hfinished
        · exact hbegins.elim
        · exact .inr (.inr ⟨hsome, .inl hhope.next⟩)
        · cases heq
    | awaitSize width height =>
      refine hrun (Option.some.inj hstep).symm ?_
      rcases hcourse with hfinished | ⟨-, hbegins⟩ | ⟨hsome, hhope | ⟨e, heq, -⟩⟩
      · exact .inl hfinished
      · exact hbegins.elim
      · cases hfinished : hist.pipe.session.finished with
        | true => exact .inl hfinished
        | false =>
          have hconnected : hist.pipe.session.connected = true := by simpa [hfinished] using hlive
          obtain ⟨⟨w, h, rfl, rfl, rfl⟩, hfail⟩ := hhope.waits.1
          refine .inr (.inr ⟨hsome, ?_⟩)
          rcases awaitSize_of_live hconnected hfinished with hsize | htimeout
          · rw [hsize]
            exact .inl hhope.next
          · rw [htimeout]
            exact .inr ⟨_, hfail _, w, h, rfl, rfl⟩
      · cases heq

/-- **The holder's critical sections other than a write.** -/
theorem Accounted.proceed (h : Accounted debug connect hist) (hserial : Serial debug connect t)
    {phase : Phase} (hholder : hist.pipe.holder = some ⟨call, phase⟩)
    (hstep : hist.pipe.proceed debug call phase = some t) :
    Accounted debug connect
      { pipe := t
        written := hist.written
        returned := hist.returned ++ (hist.returning debug .proceed).toList } := by
  have hcourse := h.holder _ hholder
  cases phase with
  | entered => exact h.enter hserial hholder hstep
  | running rest => exact h.resume hserial hholder hstep
  | checked v next =>
    obtain ⟨hsent, -⟩ := h.serial.holding hholder nofun
    simp only [PipeHistory.returning, hholder]
    rw [PipeState.proceed] at hstep
    split at hstep
    case isTrue hslot =>
      cases hstep
      refine h.keep hserial (.refl _) ?_
      rintro holder ⟨⟩
      exact hcourse
    case isFalse hslot =>
      -- the slot of an open session is empty once it was stopped
      have hdead := h.serial.slot (by simp [hsent]) (by simpa using hslot)
      cases hstep
      refine h.keep hserial (.refl _) ?_
      rintro holder ⟨⟩
      exact .inl (SessionState.finished_of_disconnected hdead)
  | sending v next => cases hstep
  | failing e next =>
    simp only [PipeHistory.returning, hholder]
    cases hstep
    refine h.keep hserial (SessionState.follows_stop _ _) ?_
    rintro holder ⟨⟩
    exact .inl (SessionState.finished_stop _ _)

/-- **The holder's write.** -/
theorem Accounted.write (h : Accounted debug connect hist) (hserial : Serial debug connect t)
    {failure : Option String} {phase : Phase} (hholder : hist.pipe.holder = some ⟨call, phase⟩)
    (hstep : hist.pipe.write call failure phase = some t) :
    Accounted debug connect
      { pipe := t
        written := hist.writtenAfter (.write failure)
        returned := hist.returned ++ [] } := by
  cases phase with
  | entered | running | checked | failing => cases hstep
  | sending v next =>
    have hhope : Hopeful call (next (.ok ())) := h.holder _ hholder
    cases failure with
    | some e =>
      cases hstep
      refine h.keep hserial (.refl _) ?_
      rintro holder ⟨⟩
      trivial
    | none =>
      simp only [PipeHistory.writtenAfter, hholder]
      rw [PipeState.write] at hstep
      split at hstep
      · cases hstep
        refine h.keep hserial (.refl _) ?_
        rintro holder ⟨⟩
        exact .inr (.inr ⟨by simp, .inl hhope⟩)
      · cases hstep

/-- **Every action keeps the invariant.** -/
theorem Accounted.step (h : Accounted debug connect hist) {action : CallAction}
    {hist' : PipeHistory}
    (hstep : (callSystem bits fromSlice debug connect).step hist action = some hist') :
    Accounted debug connect hist' := by
  cases action with
  | dismiss id call =>
    cases hstep
    exact h.return h.serial rfl h.holder (settled_dismissed hist id call) rfl
  | act action =>
    obtain ⟨t, ht, rfl⟩ := Option.map_eq_some_iff.1 hstep
    have hserial := h.serial.step ht
    cases action with
    | output kind partA partB =>
      simp only [pipeSystem] at ht
      split at ht
      · cases ht
      · obtain ⟨session, hsession, rfl⟩ := Option.map_eq_some_iff.1 ht
        exact h.frame hserial (follows_of_handleNativeOutput hsession).1 rfl
    | store =>
      simp only [pipeSystem, PipeState.store] at ht
      split_ifs at ht <;> cases ht <;> exact h.frame hserial (.refl _) rfl
    | connect sent =>
      simp only [pipeSystem, PipeState.connect] at ht
      split_ifs at ht <;> cases ht <;> exact h.frame hserial (.refl _) rfl
    | arrive call =>
      simp only [pipeSystem] at ht
      split at ht
      · cases ht
        exact h.frame hserial (.refl _) rfl
      · cases ht
    | acquire i =>
      simp only [pipeSystem] at ht
      split at ht
      · cases ht
        refine h.keep hserial (.refl _) ?_
        rintro holder ⟨⟩
        rfl
      · cases ht
    | proceed =>
      obtain ⟨⟨call, phase⟩, hholder, ht⟩ := Option.bind_eq_some_iff.1 ht
      exact h.proceed hserial hholder ht
    | write failure =>
      obtain ⟨⟨call, phase⟩, hholder, ht⟩ := Option.bind_eq_some_iff.1 ht
      exact h.write hserial hholder ht
    | shutdown =>
      cases ht
      exact h.frame hserial (SessionState.follows_stop _ _) rfl
    | close i written =>
      obtain ⟨closer, -, rfl⟩ := Option.map_eq_some_iff.1 ht
      obtain ⟨slot, input, closers, lines, heq, -⟩ := close_eq hist.pipe i written closer
      rw [heq] at hserial ⊢
      exact h.frame hserial (.refl _) rfl

theorem accounted_initial : Accounted debug connect {} where
  serial := serial_initial
  holder := by
    intro holder hholder
    cases hholder
  settled r hr := absurd hr List.not_mem_nil
  finished r hr := absurd hr List.not_mem_nil

end Invariant

/-- **A failed call leaves a finished session, or it was rejected.** Of every call that has returned
with an error: if it has put a command on the pipe, then it was a resize that has timed out, or the
session was finished then and refuses every call from then on; if it has put nothing on the pipe, it
was rejected. -/
theorem finished_or_rejected (bits : ℕ) (fromSlice : List UInt8 → Option JsonValue)
    (debug : Char → String) (connect : JsonValue) {actions : List CallAction} {hist : PipeHistory}
    (hrun : (callSystem bits fromSlice debug connect).run {} actions = some hist) :
    ∀ r ∈ hist.returned, ∀ error, r.result = .error error →
      (r.written ≠ [] → r.call.TimedOut error ∨
        (r.session.finished = true ∧ ∃ e, hist.pipe.session.checkConnected = .error e)) ∧
      (r.written = [] → r.Rejected debug error) := by
  intro r hr error herror
  have h := StepSystem.run_invariant (fun _ _ _ h hstep ↦ Accounted.step h hstep)
    accounted_initial hrun
  obtain ⟨hleft, hrejected⟩ := h.settled r hr error herror
  refine ⟨fun hwritten ↦ (hleft hwritten).imp_right fun hfinished ↦ ⟨hfinished, ?_⟩, hrejected⟩
  exact SessionState.checkConnected_of_finished (h.finished r hr hfinished)

/-- A double click whose session is closed by the worker between the button going down and coming
up. -/
def clickAndDisconnect : List CallAction :=
  [.act .store, .act (.connect true), .act (.output msgReady [] []),
    .act (.arrive (.mouseClick 1 2 "left" true)), .act (.acquire 0), .act .proceed, .act .proceed,
    .act .proceed, .act (.write none), .act (.output msgDisconnected [] []), .act .proceed,
    .act .proceed]

theorem finished_or_rejected_clickAndDisconnect :
    ∃ hist r,
      (callSystem 64 (fun _ ↦ none) Char.quote .null).run {} clickAndDisconnect = some hist ∧
      hist.returned = [r] ∧ r.written = [buttonCommand "mouse_button_down" 1 2 0] ∧
      (r.call.TimedOut "RDP connection is closed" ∨
        (r.session.finished = true ∧ ∃ e, hist.pipe.session.checkConnected = .error e)) :=
  ⟨_, _, rfl, rfl, rfl, (finished_or_rejected 64 (fun _ ↦ none) Char.quote .null
    (show (callSystem 64 (fun _ ↦ none) Char.quote .null).run {} clickAndDisconnect = some _
      from rfl)
    _ List.mem_cons_self _ rfl).1 nofun⟩

end RdpMcp
